import Kinetix.Import.Providers

/-!
# Importing models

The third section of an import, when no statement fails.
-/

namespace Kinetix.Import
open Config Statements Upserts

section
variable {ρ : Type} {id : ρ → String} {rows rows' : List ρ}

/-- Which row has an id does not depend on the order of the rows. -/
theorem find_id_perm (h : rows.Perm rows') (hnodup : (rows.map id).Nodup) (i : String) :
    rows.find? (fun q => id q = i) = rows'.find? fun q => id q = i := by
  cases hfound : rows.find? fun q => id q = i with
  | none =>
    refine (List.find?_eq_none.mpr fun q hq => ?_).symm
    exact List.find?_eq_none.mp hfound q (h.mem_iff.mpr hq)
  | some r =>
    have hr := h.mem_iff.mp (List.mem_of_find?_eq_some hfound)
    have hid : id r = i := by simpa using List.find?_some hfound
    subst hid
    exact (find_id ((h.map id).nodup hnodup) hr).symm

end

section
variable {env : Env} {s : Store} {m : ModelEntry} {providers ids : Ids} {i : Nat}

/-- The ids of the stored models. -/
theorem runs_readModelIds (ms : List ModelRow) {done : List ModelRow}
    (hnodup : (s.tables.providers.map ProviderRow.id).Nodup)
    (h : Indexes (rowLabel s.tables.providers) ModelRow.id ids done) :
    ∃ ids', Runs (readModelIds ms ids) s ids' s ∧
      Indexes (rowLabel s.tables.providers) ModelRow.id ids' (done ++ ms) := by
  induction ms generalizing ids done with
  | nil => exact ⟨ids, Checked.Runs.pure, by rwa [List.append_nil]⟩
  | cons m ms ih =>
    have hname : ((s.tables.listProviders.find? fun p => p.id = m.providerId).map
        ProviderRow.name).getD "" = providerName s.tables.providers m.providerId := by
      have hperm : s.tables.providers.Perm s.tables.listProviders := Grouping.sortBy_perm.symm
      rw [providerName, find_id_perm hperm hnodup]
    obtain ⟨ids', hrun, hindexes⟩ := ih (h.snoc (r := m))
    refine ⟨ids', runs_listProviders.bind ?_, by rwa [List.append_assoc] at hindexes⟩
    rw [hname]
    exact hrun

/-- What the section of the models leaves. -/
structure ModelsWritten (env : Env) (providers : List ProviderRow) (stored : List ModelRow)
    (ms : List ModelEntry) (ids' : Ids) (rows rows' : List ModelRow) : Prop where
  written : Written ModelEntry.label (rowLabel providers)
    (ModelEntry.Describes env providers stored) ms rows rows'
  indexes : Indexes (rowLabel providers) ModelRow.id ids' rows'
  nodup : (rows'.map ModelRow.id).Nodup
  labels : ∀ row ∈ rows, ∃ row' ∈ rows', row'.id = row.id ∧
    rowLabel providers row' = rowLabel providers row

def setModels (s : Store) (rows : List ModelRow) : Store :=
  { s with tables := { s.tables with models := rows } }

/-- What importing a model leads to. -/
def ModelImported (env : Env) (stored : List ModelRow) (s : Store) (providers : Ids) (i : Nat)
    (m : ModelEntry) (ids : Ids) : Prop :=
  ∃ ids' rows', Runs (importModel env providers i m ids) s ids' (setModels s rows') ∧
    ModelsWritten env s.tables.providers stored [m] ids' s.tables.models rows' ∧
    ∀ row ∈ rows', (∃ old ∈ s.tables.models, old.id = row.id) ∨ row.id = (env.model i).id

/-- A model of the label is updated. -/
theorem runs_importModel_update {stored : List ModelRow} {row : ModelRow} {providerId : String}
    (hprovider : providers m.provider = some providerId)
    (hids : Indexes (rowLabel s.tables.providers) ModelRow.id ids s.tables.models)
    (hnodup : (s.tables.models.map ModelRow.id).Nodup) (hrow : row ∈ s.tables.models)
    (hlabel : rowLabel s.tables.providers row = m.label) (hfound : ids m.label = some row.id)
    (hstored : row ∈ stored) : ModelImported env stored s providers i m ids := by
  let f : ModelRow → ModelRow := fun q =>
    { q.update (m.fields env) with discovery := env.setTransport m.transport q.discovery }
  let rows' := s.tables.models.map fun q => if q.id = row.id then f q else q
  have hupserted : Upserted ModelEntry.label (rowLabel s.tables.providers) ModelRow.id
      (ModelEntry.Describes env s.tables.providers stored) m (env.model i).id s.tables.models
      rows' :=
    .update hnodup hrow hlabel rfl rfl (.inl ⟨row, hstored, hlabel, rfl⟩)
  refine ⟨ids, rows', ?_, ?_, hupserted.drawn⟩
  · have hupdated : (s.tables.updateModel row.id (m.fields env)).setTransport row.id
        (env.setTransport m.transport) = (setModels s rows').tables := by
      rw [Tables.updateModel, Tables.setTransport, setModels, List.map_map]
      refine congrArg (fun rows => { s.tables with models := rows }) ?_
      refine List.map_congr_left fun q _ => ?_
      by_cases hq : q.id = row.id
      · simp [hq, f, ModelRow.update]
      · simp [hq]
    have hwrite := congrArg (fun db => some ((), ({ s with tables := db } : Store))) hupdated
    rw [importModel, hprovider, hfound]
    refine Checked.Runs.bind (runs_statement rfl) ?_
    exact Checked.Runs.bind (runs_statement (t := setModels s rows') hwrite) Checked.Runs.pure
  · exact {
      written := hupserted.written
      indexes := hids.upserted hupserted (Option.isSome_of_mem hfound)
      nodup := hupserted.nodup
      labels := hupserted.names }

/-- A model of a new label is inserted. -/
theorem runs_importModel_insert {stored : List ModelRow} {provider : ProviderRow}
    (hprovider : provider ∈ s.tables.providers) (hname : provider.name = m.provider)
    (hproviders : (s.tables.providers.map ProviderRow.id).Nodup)
    (hfoundProvider : providers m.provider = some provider.id)
    (hids : Indexes (rowLabel s.tables.providers) ModelRow.id ids s.tables.models)
    (hnodup : (s.tables.models.map ModelRow.id).Nodup)
    (hfresh : ∀ q ∈ s.tables.models, q.id ≠ (env.model i).id) (hnone : ids m.label = none)
    (hstored : ∀ old ∈ stored, rowLabel s.tables.providers old ≠ m.label) :
    ModelImported env stored s providers i m ids := by
  let row := newModel (env.model i).id provider.id m.upstreamId (env.json.toString (.object []))
    (env.model i).createdAt (m.fields env)
  let row' := newModel (env.model i).id provider.id m.upstreamId
    (env.setTransport m.transport (env.json.toString (.object []))) (env.model i).createdAt
    (m.fields env)
  have hprov := (providerName_eq hproviders hprovider).trans hname
  have hlabel : rowLabel s.tables.providers row' = m.label :=
    congrArg (fun name => modelLabel name m.upstreamId) hprov
  have hmissing : ∀ q ∈ s.tables.models, rowLabel s.tables.providers q ≠ m.label := by
    intro q hq heq
    have hsome := hids.complete q hq
    rw [heq, hnone] at hsome
    cases hsome
  have hupserted : Upserted ModelEntry.label (rowLabel s.tables.providers) ModelRow.id
      (ModelEntry.Describes env s.tables.providers stored) m row'.id s.tables.models
      (s.tables.models ++ [row']) :=
    .insert hnodup hfresh hlabel (.inr ⟨hstored, env.model i, provider.id, hprov, rfl⟩)
  refine ⟨Function.update ids m.label (some row'.id), s.tables.models ++ [row'], ?_, ?_,
    hupserted.drawn⟩
  · have hnew : ¬ ((∃ q ∈ s.tables.models, q.id = row.id ∨
        q.providerId = row.providerId ∧ q.upstreamId = row.upstreamId) ∨
        ¬ ∃ p ∈ s.tables.providers, p.id = row.providerId) := by
      rintro (⟨q, hq, hid | ⟨hpid, hup⟩⟩ | hno)
      · exact hfresh q hq hid
      · refine hmissing q hq (Eq.trans ?_ hlabel)
        rw [rowLabel, hpid, hup]
        rfl
      · exact hno ⟨provider, hprovider, rfl⟩
    have hinsert : (ImportStatement.insertModel row).exec s =
        some ((), setModels s (s.tables.models ++ [row])) := by
      rw [ImportStatement.exec, Tables.insertModel, if_neg hnew]
      rfl
    have hupdated : ((setModels s (s.tables.models ++ [row])).tables.setTransport row.id
        (env.setTransport m.transport)) = (setModels s (s.tables.models ++ [row'])).tables := by
      rw [Tables.setTransport, setModels, setModels, List.map_append]
      refine congrArg (fun rows => { s.tables with models := rows }) ?_
      refine congrArg₂ (· ++ ·) ?_ ?_
      · refine (List.map_congr_left fun q hq => ?_).trans (List.map_id _)
        exact if_neg (hfresh q hq)
      · rw [List.map_singleton, if_pos rfl]
        rfl
    have hwrite := congrArg (fun db => some ((), ({ s with tables := db } : Store))) hupdated
    rw [importModel, hfoundProvider, hnone]
    refine Checked.Runs.bind (runs_statement hinsert) ?_
    exact Checked.Runs.bind
      (runs_statement (t := setModels s (s.tables.models ++ [row'])) hwrite) Checked.Runs.pure
  · exact {
      written := hupserted.written
      indexes := hlabel ▸ hids.snoc (r := row')
      nodup := hupserted.nodup
      labels := hupserted.names }

theorem ModelsWritten.cons {ps : List ProviderRow} {stored rows rows' rows'' : List ModelRow}
    {ids' ids'' : Ids} {ms : List ModelEntry}
    (hm : ModelsWritten env ps stored [m] ids' rows rows')
    (hms : ModelsWritten env ps stored ms ids'' rows' rows'')
    (hnew : m.label ∉ ms.map ModelEntry.label) :
    ModelsWritten env ps stored (m :: ms) ids'' rows rows'' where
  written := hm.written.cons hms.written hnew
  indexes := hms.indexes
  nodup := hms.nodup
  labels row hrow := by
    obtain ⟨row', hrow', hid', hlabel'⟩ := hm.labels row hrow
    obtain ⟨row'', hrow'', hid'', hlabel''⟩ := hms.labels row' hrow'
    exact ⟨row'', hrow'', hid''.trans hid', hlabel''.trans hlabel'⟩

end

/-- The section of the models. -/
theorem runs_importModels (env : Env) (stored : List ModelRow) {ms : List ModelEntry}
    {providers ids : Ids} {i : Nat} {s : Store} (hdistinct : (ms.map ModelEntry.label).Nodup)
    (hproviders : (s.tables.providers.map ProviderRow.id).Nodup)
    (hprovider : ∀ m ∈ ms, ∃ row ∈ s.tables.providers, row.name = m.provider ∧
      providers m.provider = some row.id)
    (hsame : ∀ m ∈ ms, ∀ row, rowLabel s.tables.providers row = m.label →
      (row ∈ s.tables.models ↔ row ∈ stored))
    (hids : Indexes (rowLabel s.tables.providers) ModelRow.id ids s.tables.models)
    (hnodup : (s.tables.models.map ModelRow.id).Nodup)
    (hinj : Function.Injective fun i => (env.model i).id)
    (hfresh : ∀ j, i ≤ j → ∀ q ∈ s.tables.models, q.id ≠ (env.model j).id) :
    ∃ ids' rows', Runs (importModels env providers i ms ids) s ids' (setModels s rows') ∧
      ModelsWritten env s.tables.providers stored ms ids' s.tables.models rows' := by
  induction ms generalizing ids i s with
  | nil =>
    exact ⟨ids, s.tables.models, Checked.Runs.pure,
      { written := Written.nil
        indexes := hids
        nodup := hnodup
        labels := fun row hrow => ⟨row, hrow, rfl, rfl⟩ }⟩
  | cons m ms ih =>
    obtain ⟨hnew, hrest⟩ := List.nodup_cons.mp hdistinct
    obtain ⟨provider, hmem, hname, hfoundProvider⟩ := hprovider m List.mem_cons_self
    obtain ⟨ids', rows', hrun, hwritten, hdrawn⟩ :
        ModelImported env stored s providers i m ids := by
      cases hfound : ids m.label with
      | none =>
        refine runs_importModel_insert hmem hname hproviders hfoundProvider hids hnodup
          (hfresh i le_rfl) hfound fun old hold hlabel => ?_
        have hsome := hids.complete old
          ((hsame m List.mem_cons_self old hlabel).mpr hold)
        rw [hlabel, hfound] at hsome
        cases hsome
      | some id =>
        obtain ⟨row, hrow, rfl, hlabel⟩ := hids.sound _ _ hfound
        exact runs_importModel_update hfoundProvider hids hnodup hrow hlabel hfound
          ((hsame m List.mem_cons_self row hlabel).mp hrow)
    have hfresh' : ∀ j, i + 1 ≤ j → ∀ row ∈ rows', row.id ≠ (env.model j).id :=
      fresh_succ hinj hfresh hdrawn
    obtain ⟨ids'', rows'', hrun', hwritten'⟩ := ih (s := setModels s rows') hrest hproviders
      (fun q hq => hprovider q (List.mem_cons_of_mem _ hq)) (hwritten.written.agree hnew hsame)
      hwritten.indexes hwritten.nodup hfresh'
    exact ⟨ids'', rows'', hrun.bind hrun', hwritten.cons hwritten' hnew⟩

end Kinetix.Import
