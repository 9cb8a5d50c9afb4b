import Kinetix.Config.Atomicity
import Kinetix.Import.Changes

/-!
# Importing providers and accounts

The first two sections of an import, when no statement fails.
-/

namespace Kinetix.Import
open Config Statements Upserts

/-! ## Runs -/

section
variable {α : Type} {s t : Store} {r : α}

/-- A run without failures. -/
abbrev Runs (x : ImportHandler α) (s : Store) (r : α) (t : Store) : Prop :=
  Checked.Runs ImportStatement.exec x s r t

theorem runs_statement {st : ImportStatement} {b : st.Answer} (h : st.exec s = some (b, t)) :
    Runs st.run s b t :=
  Checked.Runs.require h

/-- What another handler does as well is what that handler does. -/
theorem perform_lift (x : Handler α) (s : Store × Faults) :
    (lift x).perform ImportStatement.exec s = x.perform Statement.exec s := by
  exact Program.run_subst _ _ x.run s

theorem runs_lift {x : Handler α} (h : x.Runs Statement.exec s r t) : Runs (lift x) s r t :=
  (perform_lift x _).trans h

/-- A statement that only reads. -/
theorem runs_answer {st : ImportStatement} {answer b : st.Answer} (h : answer = b)
    (hexec : st.exec s = some (answer, s)) : Runs st.run s b s :=
  runs_statement (h ▸ hexec)

theorem runs_listProviders : Runs listProviders s s.tables.listProviders s :=
  runs_statement rfl

end

/-! ## Ids by name -/

/-- The ids are those of rows, and each name of a row has one. -/
structure Indexes {ρ : Type} (name id : ρ → String) (ids : Ids) (rows : List ρ) : Prop where
  sound : ∀ n i, ids n = some i → ∃ r ∈ rows, id r = i ∧ name r = n
  complete : ∀ r ∈ rows, (ids (name r)).isSome = true

section
variable {ρ : Type} {name id : ρ → String} {ids : Ids} {rows rows' : List ρ} {r : ρ}

theorem Indexes.of_mem_iff (h : Indexes name id ids rows) (hmem : ∀ r, r ∈ rows' ↔ r ∈ rows) :
    Indexes name id ids rows' where
  sound n i hi := by
    obtain ⟨r, hr, hrow⟩ := h.sound n i hi
    exact ⟨r, (hmem r).mpr hr, hrow⟩
  complete r hr := h.complete r ((hmem r).mp hr)

theorem Indexes.snoc (h : Indexes name id ids rows) :
    Indexes name id (Function.update ids (name r) (some (id r))) (rows ++ [r]) where
  sound n i hi := by
    by_cases hn : n = name r
    · subst hn
      rw [Function.update_self] at hi
      exact ⟨r, List.mem_append_right _ List.mem_cons_self, Option.some.inj hi, rfl⟩
    · rw [Function.update_of_ne hn] at hi
      obtain ⟨r', hr', hrow⟩ := h.sound n i hi
      exact ⟨r', List.mem_append_left _ hr', hrow⟩
  complete r' hr' := by
    by_cases hn : name r' = name r
    · rw [hn, Function.update_self]
      rfl
    · rw [Function.update_of_ne hn]
      rcases List.mem_append.mp hr' with hr' | hr'
      · exact h.complete r' hr'
      · exact absurd (congrArg name (List.mem_singleton.mp hr')) hn

theorem Indexes.nil : Indexes name id (fun _ => none) ([] : List ρ) where
  sound n i hi := by cases hi
  complete r hr := by cases hr

/-- A row of a name that has an id was written. -/
theorem Indexes.upserted {ε : Type} {key : ε → String} {W : ε → ρ → Prop} {e : ε} {i : String}
    (h : Indexes name id ids rows) (hu : Upserted key name id W e i rows rows')
    (hkey : (ids (key e)).isSome = true) : Indexes name id ids rows' where
  sound n i hi := by
    obtain ⟨r, hr, rfl, rfl⟩ := h.sound n i hi
    exact hu.names r hr
  complete r hr := by
    rcases hu.named r hr with ⟨old, hold, hname⟩ | hname
    · exact hname ▸ h.complete old hold
    · exact hname ▸ hkey

/-- A row is found by its id. -/
theorem find_id (h : (rows.map id).Nodup) (hr : r ∈ rows) :
    rows.find? (fun q => id q = id r) = some r := by
  obtain ⟨q, hq⟩ : ∃ q, rows.find? (fun q => id q = id r) = some q :=
    Option.isSome_iff_exists.mp (List.find?_isSome.mpr ⟨r, hr, decide_eq_true rfl⟩)
  have hid := List.find?_some hq
  rw [hq, List.inj_on_of_nodup_map h (List.mem_of_find?_eq_some hq) hr (of_decide_eq_true hid)]

/-- What is drawn later is not in use after a row of a drawn id went in. -/
theorem fresh_succ {draw : Nat → String} {i : Nat} (hinj : Function.Injective draw)
    (hfresh : ∀ j, i ≤ j → ∀ q ∈ rows, id q ≠ draw j)
    (hdrawn : ∀ r ∈ rows', (∃ old ∈ rows, id old = id r) ∨ id r = draw i) :
    ∀ j, i + 1 ≤ j → ∀ r ∈ rows', id r ≠ draw j := by
  intro j hj r hr
  rcases hdrawn r hr with ⟨old, hold, hid⟩ | hid
  · exact hid ▸ hfresh j (by omega) old hold
  · intro heq
    have := hinj (hid.symm.trans heq)
    omega

end

theorem indexes_foldl (rows done : List ProviderRow) (ids : Ids)
    (h : Indexes ProviderRow.name ProviderRow.id ids done) :
    Indexes ProviderRow.name ProviderRow.id
      (rows.foldl (fun ids p => Function.update ids p.name (some p.id)) ids) (done ++ rows) := by
  induction rows generalizing done ids with
  | nil => rwa [List.append_nil]
  | cons p rows ih =>
    have hrest := ih (done ++ [p]) _ h.snoc
    rwa [List.append_assoc] at hrest

theorem indexes_providerIds (db : Tables) :
    Indexes ProviderRow.name ProviderRow.id (providerIds db.listProviders) db.providers := by
  refine (indexes_foldl db.listProviders [] _ Indexes.nil).of_mem_iff fun p => ?_
  rw [List.nil_append]
  exact Grouping.sortBy_perm.mem_iff.symm

/-! ## The mode of the accounts -/

section
variable {db : Tables} {which : Retired}

theorem pinnedToRetired_eq_false (h : ∀ a ∈ db.accounts, which.retires a = false)
    (t : RouteTargetRow) : db.pinnedToRetired which t = false := by
  rw [Tables.pinnedToRetired, Option.any_eq_false]
  intro id _
  rw [Bool.eq_false_iff, ne_eq, List.any_eq_true]
  rintro ⟨a, ha, hret⟩
  rw [h a ha, Bool.and_false] at hret
  cases hret

theorem unpinTargets_eq (h : ∀ a ∈ db.accounts, which.retires a = false) :
    db.unpinTargets which = db := by
  rw [Tables.unpinTargets]
  simp [pinnedToRetired_eq_false h]

theorem deleteAccounts_eq (h : ∀ a ∈ db.accounts, which.retires a = false) :
    db.deleteAccounts which = db := by
  have haccounts : db.accounts.filter (fun a => !which.retires a) = db.accounts :=
    List.filter_eq_self.mpr fun a ha => by rw [h a ha]; rfl
  rw [Tables.deleteAccounts, haccounts]
  simp [pinnedToRetired_eq_false h]

end

/-- Without internal accounts there is nothing to retire. -/
theorem runs_reconcileAccountMode {env : Env} {i : Nat} {providerId : String}
    {mode : CredentialMode} {s : Store} (hmode : mode ≠ .none)
    (h : ∀ a ∈ s.tables.accounts, a.providerId = providerId → a.isSynthetic = false) :
    Runs (reconcileAccountMode env i providerId mode) s () s := by
  have hret : ∀ a ∈ s.tables.accounts, Retired.retires ⟨providerId, true⟩ a = false := by
    intro a ha
    rw [Retired.retires, Bool.and_eq_false_iff]
    by_cases hid : a.providerId = providerId
    · exact Or.inr (by simp [h a ha hid])
    · exact Or.inl (beq_false_of_ne hid)
  have hunpin : (ImportStatement.unpinTargets ⟨providerId, true⟩).exec s = some ((), s) := by
    rw [ImportStatement.exec, unpinTargets_eq hret]
    rfl
  have hdelete : (ImportStatement.deleteAccounts ⟨providerId, true⟩).exec s = some ((), s) := by
    rw [ImportStatement.exec, deleteAccounts_eq hret]
    rfl
  have hrun : Runs (do
      ImportStatement.run (.unpinTargets ⟨providerId, true⟩)
      ImportStatement.run (.deleteAccounts ⟨providerId, true⟩)) s () s :=
    (runs_statement hunpin).bind (runs_statement hdelete)
  cases mode with
  | none => exact absurd rfl hmode
  | manual | authFlow => exact hrun

/-! ## Providers -/

/-- What the section of the providers leaves. -/
structure ProvidersWritten (env : Env) (stored : List ProviderRow) (ps : List ProviderEntry)
    (ids ids' : Ids) (rows rows' : List ProviderRow) : Prop where
  written : Written ProviderEntry.name ProviderRow.name (ProviderEntry.Describes env stored) ps rows
    rows'
  indexes : Indexes ProviderRow.name ProviderRow.id ids' rows'
  nodup : (rows'.map ProviderRow.id).Nodup
  grows : ∀ n j, ids n = some j → ids' n = some j
  charged : ∀ p ∈ ps, ∃ row ∈ rows', row.name = p.name ∧ ids' p.name = some row.id ∧
    row.credentialMode ≠ "none"
  names : ∀ row ∈ rows, ∃ row' ∈ rows', row'.id = row.id ∧ row'.name = row.name

/-- An entry may be written: its wire format is one, and it leaves no provider without
credentials. -/
structure Writable (env : Env) (s : Store) (stored : List ProviderRow) (p : ProviderEntry) :
    Prop where
  wire : (WireFormat.parse p.wireFormat).isSome = true
  new : p.effectiveMode none ≠ .none
  same : ∀ row : ProviderRow, row.name = p.name → (row ∈ s.tables.providers ↔ row ∈ stored)
  old : ∀ row ∈ stored, row.name = p.name → p.effectiveMode (some row) ≠ .none ∧
    ∀ a ∈ s.tables.accounts, a.providerId = row.id → a.isSynthetic = false

def setProviders (s : Store) (rows : List ProviderRow) : Store :=
  { s with tables := { s.tables with providers := rows } }

theorem asStr_ne_none {mode : CredentialMode} (h : mode ≠ .none) : mode.asStr ≠ "none" := by
  cases mode with
  | manual | authFlow => decide
  | none => exact absurd rfl h

section
variable {env : Env} {s : Store} {stored : List ProviderRow} {p : ProviderEntry}
  {ids : Ids} {i : Nat}

theorem runs_getProvider {row : ProviderRow}
    (hnodup : (s.tables.providers.map ProviderRow.id).Nodup) (hrow : row ∈ s.tables.providers) :
    Runs (getProvider row.id) s row s :=
  (runs_answer (find_id hnodup hrow) rfl).bind (runs_lift Checked.Runs.pure)

/-- What importing a provider leads to. -/
def ProviderImported (env : Env) (stored : List ProviderRow) (s : Store) (i : Nat)
    (p : ProviderEntry) (ids : Ids) : Prop :=
  ∃ ids' rows', Runs (importProvider env i p ids) s ids' (setProviders s rows') ∧
    ProvidersWritten env stored [p] ids ids' s.tables.providers rows' ∧
    ∀ row ∈ rows', (∃ old ∈ s.tables.providers, old.id = row.id) ∨ row.id = (env.provider i).id

/-- A provider of the name is updated. -/
theorem runs_importProvider_update {row : ProviderRow} (hw : Writable env s stored p)
    (hids : Indexes ProviderRow.name ProviderRow.id ids s.tables.providers)
    (hnodup : (s.tables.providers.map ProviderRow.id).Nodup)
    (hrow : row ∈ s.tables.providers) (hname : row.name = p.name)
    (hfound : ids p.name = some row.id) : ProviderImported env stored s i p ids := by
  obtain ⟨wire, hwire⟩ := Option.isSome_iff_exists.mp hw.wire
  have hstored := (hw.same row hname).mp hrow
  obtain ⟨hmode, hinternal⟩ := hw.old row hstored hname
  let f : ProviderRow → ProviderRow := fun q =>
    (q.update (p.fields env wire)).setSemantics (p.semantics (some row))
  let rows' := s.tables.providers.map fun q => if q.id = row.id then f q else q
  have hupserted : Upserted ProviderEntry.name ProviderRow.name ProviderRow.id
      (ProviderEntry.Describes env stored) p (env.provider i).id s.tables.providers rows' :=
    .update hnodup hrow hname rfl hname.symm ⟨wire, hwire, .inl ⟨row, hstored, hname, rfl⟩⟩
  refine ⟨ids, rows', ?_, ?_, hupserted.drawn⟩
  · rw [importProvider, hwire, hfound]
    have hupdated : (s.tables.updateProvider row.id (p.fields env wire)).setSemantics row.id
        (p.semantics (some row)) = (setProviders s rows').tables := by
      rw [Tables.updateProvider, Tables.setSemantics, setProviders, List.map_map]
      refine congrArg (fun rows => { s.tables with providers := rows }) ?_
      refine List.map_congr_left fun q _ => ?_
      by_cases hq : q.id = row.id
      · simp [hq, f, ProviderRow.update]
      · simp [hq]
    refine Checked.Runs.bind Checked.Runs.ofResult ?_
    refine Checked.Runs.bind (runs_getProvider hnodup hrow) ?_
    refine Checked.Runs.bind (runs_statement rfl) ?_
    have hwrite := congrArg (fun db => some ((), ({ s with tables := db } : Store))) hupdated
    refine Checked.Runs.bind (runs_statement (t := setProviders s rows') hwrite) ?_
    exact Checked.Runs.bind (runs_reconcileAccountMode hmode hinternal) Checked.Runs.pure
  · exact {
      written := hupserted.written
      indexes := hids.upserted hupserted (Option.isSome_of_mem hfound)
      nodup := hupserted.nodup
      grows := fun n j h => h
      charged := by
        intro q hq
        obtain rfl := List.mem_singleton.mp hq
        exact ⟨f row, List.mem_map.mpr ⟨row, hrow, if_pos rfl⟩, rfl, hfound, asStr_ne_none hmode⟩
      names := hupserted.names }

/-- A provider of a new name is inserted. -/
theorem runs_importProvider_insert (hw : Writable env s stored p)
    (hids : Indexes ProviderRow.name ProviderRow.id ids s.tables.providers)
    (hnodup : (s.tables.providers.map ProviderRow.id).Nodup)
    (hfresh : ∀ q ∈ s.tables.providers, q.id ≠ (env.provider i).id)
    (haccounts : ∀ a ∈ s.tables.accounts, a.providerId ≠ (env.provider i).id)
    (hnone : ids p.name = none) : ProviderImported env stored s i p ids := by
  obtain ⟨wire, hwire⟩ := Option.isSome_iff_exists.mp hw.wire
  let row := newProvider (env.provider i).id (env.provider i).createdAt (p.fields env wire)
    (p.semantics none)
  have hstored : ∀ old ∈ stored, old.name ≠ p.name := by
    intro old hold hname
    have hsome := hids.complete old ((hw.same old hname).mpr hold)
    rw [hname, hnone] at hsome
    cases hsome
  have hupserted : Upserted ProviderEntry.name ProviderRow.name ProviderRow.id
      (ProviderEntry.Describes env stored) p row.id s.tables.providers
      (s.tables.providers ++ [row]) :=
    .insert hnodup hfresh rfl ⟨wire, hwire, .inr ⟨hstored, env.provider i, rfl⟩⟩
  refine ⟨Function.update ids p.name (some row.id), s.tables.providers ++ [row], ?_, ?_,
    hupserted.drawn⟩
  · rw [importProvider, hwire, hnone]
    have hinsert : (ImportStatement.insertProvider row).exec s =
        some ((), setProviders s (s.tables.providers ++ [row])) := by
      have hnew : ¬ ∃ q ∈ s.tables.providers, q.id = row.id := by
        rintro ⟨q, hq, hid⟩
        exact hfresh q hq hid
      rw [ImportStatement.exec, Tables.insertProvider, if_neg hnew]
      rfl
    refine Checked.Runs.bind Checked.Runs.ofResult ?_
    refine Checked.Runs.bind (runs_statement hinsert) ?_
    refine Checked.Runs.bind (runs_reconcileAccountMode hw.new fun a ha hid => ?_)
      Checked.Runs.pure
    exact absurd hid (haccounts a ha)
  · exact {
      written := hupserted.written
      indexes := hids.snoc (r := row)
      nodup := hupserted.nodup
      grows := by
        intro n j hj
        rw [Function.update_of_ne]
        · exact hj
        · rintro rfl
          rw [hnone] at hj
          cases hj
      charged := by
        intro q hq
        obtain rfl := List.mem_singleton.mp hq
        exact ⟨row, List.mem_append_right _ List.mem_cons_self, rfl, Function.update_self _ _ _,
          asStr_ne_none hw.new⟩
      names := hupserted.names }

end

theorem ProvidersWritten.nil {env : Env} {stored rows : List ProviderRow} {ids : Ids}
    (hids : Indexes ProviderRow.name ProviderRow.id ids rows)
    (hnodup : (rows.map ProviderRow.id).Nodup) :
    ProvidersWritten env stored [] ids ids rows rows where
  written := Written.nil
  indexes := hids
  nodup := hnodup
  grows _ _ h := h
  charged _ hp := absurd hp List.not_mem_nil
  names row hrow := ⟨row, hrow, rfl, rfl⟩

theorem ProvidersWritten.cons {env : Env} {stored rows rows' rows'' : List ProviderRow}
    {ids ids' ids'' : Ids} {p : ProviderEntry} {ps : List ProviderEntry}
    (hp : ProvidersWritten env stored [p] ids ids' rows rows')
    (hps : ProvidersWritten env stored ps ids' ids'' rows' rows'')
    (hnew : p.name ∉ ps.map ProviderEntry.name) :
    ProvidersWritten env stored (p :: ps) ids ids'' rows rows'' where
  written := hp.written.cons hps.written hnew
  indexes := hps.indexes
  nodup := hps.nodup
  grows n j h := hps.grows n j (hp.grows n j h)
  charged q hq := by
    rcases List.mem_cons.mp hq with rfl | hq
    · obtain ⟨row, hrow, hname, hfound, hmode⟩ := hp.charged q List.mem_cons_self
      exact ⟨row, (hps.written.mem_iff (hname ▸ hnew)).mpr hrow, hname, hps.grows _ _ hfound, hmode⟩
    · exact hps.charged q hq
  names row hrow := by
    obtain ⟨row', hrow', hid', hname'⟩ := hp.names row hrow
    obtain ⟨row'', hrow'', hid'', hname''⟩ := hps.names row' hrow'
    exact ⟨row'', hrow'', hid''.trans hid', hname''.trans hname'⟩

/-- The section of the providers. -/
theorem runs_importProviders {env : Env} {stored : List ProviderRow} {ps : List ProviderEntry}
    {ids : Ids} {i : Nat} {s : Store} (hdistinct : (ps.map ProviderEntry.name).Nodup)
    (hw : ∀ p ∈ ps, Writable env s stored p)
    (hids : Indexes ProviderRow.name ProviderRow.id ids s.tables.providers)
    (hnodup : (s.tables.providers.map ProviderRow.id).Nodup)
    (hinj : Function.Injective fun i => (env.provider i).id)
    (hfresh : ∀ j, i ≤ j → ∀ q ∈ s.tables.providers, q.id ≠ (env.provider j).id)
    (haccounts : ∀ j, i ≤ j → ∀ a ∈ s.tables.accounts, a.providerId ≠ (env.provider j).id) :
    ∃ ids' rows', Runs (importProviders env i ps ids) s ids' (setProviders s rows') ∧
      ProvidersWritten env stored ps ids ids' s.tables.providers rows' := by
  induction ps generalizing ids i s with
  | nil => exact ⟨ids, s.tables.providers, Checked.Runs.pure, .nil hids hnodup⟩
  | cons p ps ih =>
    obtain ⟨hnew, hrest⟩ := List.nodup_cons.mp hdistinct
    have hp := hw p List.mem_cons_self
    obtain ⟨ids', rows', hrun, hwritten, hdrawn⟩ : ProviderImported env stored s i p ids := by
      cases hfound : ids p.name with
      | none =>
        exact runs_importProvider_insert hp hids hnodup (hfresh i le_rfl) (haccounts i le_rfl)
          hfound
      | some id =>
        obtain ⟨row, hrow, rfl, hname⟩ := hids.sound _ _ hfound
        exact runs_importProvider_update hp hids hnodup hrow hname hfound
    have hsame := hwritten.written.agree hnew fun q hq => (hw q hq).same
    have hrest' : ∀ q ∈ ps, Writable env (setProviders s rows') stored q := fun q hq =>
      { hw q (List.mem_cons_of_mem _ hq) with same := hsame q hq }
    have hfresh' : ∀ j, i + 1 ≤ j → ∀ row ∈ rows', row.id ≠ (env.provider j).id :=
      fresh_succ hinj hfresh hdrawn
    obtain ⟨ids'', rows'', hrun', hwritten'⟩ := ih hrest hrest' hwritten.indexes hwritten.nodup
      hfresh' fun j hj => haccounts j (by omega)
    exact ⟨ids'', rows'', hrun.bind hrun', hwritten.cons hwritten' hnew⟩

/-! ## Accounts -/

def setAccounts (s : Store) (rows : List AccountRow) : Store :=
  { s with tables := { s.tables with accounts := rows } }

/-- The provider of an entry is found and has credentials, and the entry has one. -/
structure AccountEntry.Restores (providers : List ProviderRow) (ids : Ids) (a : AccountEntry) :
    Prop where
  provider : ∃ row ∈ providers, ids a.provider = some row.id ∧ row.credentialMode ≠ "none"
  label : a.label ≠ "__kinetix_noauth__"
  secret : a.secretEnc.isSome = true

section
variable {env : Env} {s : Store} {a : AccountEntry} {ids : Ids} {i : Nat}

theorem providerName_eq {providers : List ProviderRow} {row : ProviderRow}
    (hnodup : (providers.map ProviderRow.id).Nodup) (hrow : row ∈ providers) :
    providerName providers row.id = row.name := by
  rw [providerName, find_id hnodup hrow]
  rfl

/-- An account is skipped, is there, or is inserted. -/
theorem runs_importAccount
    (hids : Indexes ProviderRow.name ProviderRow.id ids s.tables.providers)
    (hnodup : (s.tables.providers.map ProviderRow.id).Nodup)
    (hfresh : ∀ row ∈ s.tables.accounts, row.id ≠ (env.account i).id) :
    ∃ new, Runs (importAccount env i a ids) s () (setAccounts s (s.tables.accounts ++ new)) ∧
      (∀ row ∈ new, accountName s.tables.providers row = a.key ∧ a.Describes row ∧
        row.id = (env.account i).id) ∧
      (a.Restores s.tables.providers ids → ∃ row ∈ s.tables.accounts ++ new,
        accountName s.tables.providers row = a.key) := by
  have hskip : ∀ {x : ImportHandler Unit}, Runs x s () s → ¬ a.Restores s.tables.providers ids →
      ∃ new, Runs x s () (setAccounts s (s.tables.accounts ++ new)) ∧
        (∀ row ∈ new, accountName s.tables.providers row = a.key ∧ a.Describes row ∧
          row.id = (env.account i).id) ∧
        (a.Restores s.tables.providers ids → ∃ row ∈ s.tables.accounts ++ new,
          accountName s.tables.providers row = a.key) := by
    intro x hx hnot
    refine ⟨[], ?_, fun row hrow => absurd hrow List.not_mem_nil, fun h => absurd h hnot⟩
    rw [List.append_nil]
    exact hx
  rw [importAccount]
  cases hfound : ids a.provider with
  | none =>
    refine hskip Checked.Runs.pure fun h => ?_
    obtain ⟨row, -, hsome, -⟩ := h.provider
    rw [hfound] at hsome
    cases hsome
  | some providerId =>
    obtain ⟨provider, hprovider, rfl, hname⟩ := hids.sound _ _ hfound
    have hget := runs_getProvider hnodup hprovider
    by_cases hno : provider.credentialMode = "none" ∨ a.label = "__kinetix_noauth__"
    · refine hskip (hget.bind ?_) fun h => ?_
      · rw [if_pos hno]
        exact Checked.Runs.pure
      · obtain ⟨row, hrow, hsome, hmode⟩ := h.provider
        rw [hfound] at hsome
        obtain rfl := List.inj_on_of_nodup_map hnodup hprovider hrow (Option.some.inj hsome)
        exact hno.elim hmode h.label
    · cases hsecret : a.secretEnc with
      | none =>
        refine hskip (hget.bind ?_) fun h => ?_
        · rw [if_neg hno]
          exact Checked.Runs.pure
        · have hsome := h.secret
          rw [hsecret] at hsome
          cases hsome
      | some secretEnc =>
        have hkey : ∀ row : AccountRow, row.providerId = provider.id → row.label = a.label →
            accountName s.tables.providers row = a.key := by
          intro row hid hlabel
          rw [accountName, AccountEntry.key, hid, providerName_eq hnodup hprovider, hname, hlabel]
        let accounts := s.tables.accountsForProvider provider.id
        by_cases hthere : (accounts.any fun row => row.label = a.label) = true
        · refine ⟨[], ?_, fun row hrow => absurd hrow List.not_mem_nil, fun _ => ?_⟩
          · rw [List.append_nil]
            refine hget.bind ?_
            rw [if_neg hno]
            refine (runs_statement (b := accounts) rfl).bind ?_
            rw [if_pos hthere]
            exact Checked.Runs.pure
          · obtain ⟨row, hrow, hlabel⟩ := List.any_eq_true.mp hthere
            have hmem := List.mem_filter.mp (Grouping.sortBy_perm.mem_iff.mp hrow)
            obtain ⟨hid, -⟩ := (Bool.and_eq_true _ _).mp hmem.2
            exact ⟨row, List.mem_append_left _ hmem.1,
              hkey row (beq_iff_eq.mp hid) (of_decide_eq_true hlabel)⟩
        · let row := newAccount (env.account i).id provider.id a.label secretEnc a.keyMask
            a.priority a.weight a.softQuotaUsd a.quotaType (env.account i).createdAt
          refine ⟨[row], ?_, ?_, fun _ => ⟨row, by simp, hkey row rfl rfl⟩⟩
          · have hinsert : (ImportStatement.insertAccount row).exec s =
                some ((), setAccounts s (s.tables.accounts ++ [row])) := by
              have hnew : ¬ ((∃ q ∈ s.tables.accounts, q.id = row.id) ∨
                  ¬ ∃ q ∈ s.tables.providers, q.id = row.providerId) := by
                rintro (⟨q, hq, hid⟩ | hmissing)
                · exact hfresh q hq hid
                · exact hmissing ⟨provider, hprovider, rfl⟩
              rw [ImportStatement.exec, Tables.insertAccount, if_neg hnew]
              rfl
            refine hget.bind ?_
            rw [if_neg hno]
            refine (runs_statement (b := accounts) rfl).bind ?_
            rw [if_neg hthere]
            exact runs_statement hinsert
          · intro q hq
            rw [List.mem_singleton.mp hq]
            exact ⟨hkey row rfl rfl, ⟨env.account i, provider.id, secretEnc, hsecret, rfl⟩, rfl⟩

end

/-- The section of the accounts. -/
theorem runs_importAccounts {env : Env} (as : List AccountEntry) {ids : Ids} {i : Nat} {s : Store}
    (hids : Indexes ProviderRow.name ProviderRow.id ids s.tables.providers)
    (hnodup : (s.tables.providers.map ProviderRow.id).Nodup)
    (hinj : Function.Injective fun i => (env.account i).id)
    (hfresh : ∀ j, i ≤ j → ∀ row ∈ s.tables.accounts, row.id ≠ (env.account j).id) :
    ∃ new, Runs (importAccounts env ids i as) s () (setAccounts s (s.tables.accounts ++ new)) ∧
      (∀ row ∈ new, ∃ a ∈ as, accountName s.tables.providers row = a.key ∧ a.Describes row) ∧
      ∀ a ∈ as, a.Restores s.tables.providers ids → ∃ row ∈ s.tables.accounts ++ new,
        accountName s.tables.providers row = a.key := by
  induction as generalizing i s with
  | nil =>
    refine ⟨[], ?_, fun row hrow => absurd hrow List.not_mem_nil,
      fun a ha => absurd ha List.not_mem_nil⟩
    rw [List.append_nil]
    exact Checked.Runs.pure
  | cons a as ih =>
    obtain ⟨new, hrun, hnew, hpresent⟩ :=
      runs_importAccount (a := a) hids hnodup (hfresh i le_rfl)
    have hfresh' : ∀ j, i + 1 ≤ j → ∀ row ∈ s.tables.accounts ++ new,
        row.id ≠ (env.account j).id :=
      fresh_succ hinj hfresh fun row hrow =>
        (List.mem_append.mp hrow).imp (fun hrow => ⟨row, hrow, rfl⟩) fun hrow =>
          (hnew row hrow).2.2
    obtain ⟨more, hrun', hmore, hpresent'⟩ :=
      ih (s := setAccounts s (s.tables.accounts ++ new)) hids hnodup hfresh'
    have hassoc : setAccounts (setAccounts s (s.tables.accounts ++ new))
        (s.tables.accounts ++ new ++ more) =
          setAccounts s (s.tables.accounts ++ (new ++ more)) := by
      rw [List.append_assoc]
      rfl
    refine ⟨new ++ more, hassoc ▸ hrun.bind hrun', fun row hrow => ?_, fun b hb hres => ?_⟩
    · rcases List.mem_append.mp hrow with hrow | hrow
      · exact ⟨a, List.mem_cons_self, (hnew row hrow).1, (hnew row hrow).2.1⟩
      · obtain ⟨b, hb, hrow⟩ := hmore row hrow
        exact ⟨b, List.mem_cons_of_mem _ hb, hrow⟩
    · rw [← List.append_assoc]
      rcases List.mem_cons.mp hb with rfl | hb
      · obtain ⟨row, hrow, hkey⟩ := hpresent hres
        exact ⟨row, List.mem_append_left _ hrow, hkey⟩
      · exact hpresent' b hb hres

end Kinetix.Import
