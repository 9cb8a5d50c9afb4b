import Kinetix.Import.Routes

/-!
# The law of an import

The dry run of an import, and what an import does that the validate phase ends. An import whose
references are all found, and whose statements do not fail, does what its dry run plans.
-/

namespace Kinetix.Import
open Config Json Statements Upserts

/-! ## The validate phase -/

/-- What the validate phase finds in a provider. -/
def ProviderEntry.checking (env : Env) (db : Tables) (p : ProviderEntry) : Checking :=
  if p.name = "" ∨ p.baseUrl = "" then ⟨["a provider entry is missing name or base_url"], []⟩
  else p.check env (db.listProviders.find? fun row => row.name = p.name)

/-- What the validate phase finds. -/
def Document.checking (env : Env) (db : Tables) (d : Document) : Checking :=
  let rest := d.models.map ModelEntry.check ++ d.routes.map RouteEntry.check
  { problems := d.providers.flatMap (fun p => (p.checking env db).problems) ++
      rest.flatMap Checking.problems
    plan := d.providers.flatMap (fun p => (p.checking env db).plan) ++ rest.flatMap Checking.plan }

/-- A provider that has a name and a URL. -/
def ProviderEntry.isNamed (p : ProviderEntry) : Bool := !(p.name = "" ∨ p.baseUrl = "")

section
variable {env : Env} {s : Store} {f : Faults} {ps : List ProviderEntry} {p : ProviderEntry}

theorem isNamed_iff : p.isNamed = true ↔ ¬ (p.name = "" ∨ p.baseUrl = "") := by
  rw [ProviderEntry.isNamed, Bool.not_eq_true', decide_eq_false_iff_not]

theorem runs_validateProvider (p : ProviderEntry) :
    Runs (validateProvider env p) s (p.checking env s.tables) s := by
  rw [validateProvider, ProviderEntry.checking]
  split_ifs
  · exact Checked.Runs.pure
  · exact runs_listProviders.bind Checked.Runs.pure

theorem runs_validateProviders : Runs (validateProviders env ps) s
    ⟨ps.flatMap fun p => (p.checking env s.tables).problems,
      ps.flatMap fun p => (p.checking env s.tables).plan⟩ s := by
  induction ps with
  | nil => exact Checked.Runs.pure
  | cons p ps ih => exact (runs_validateProvider p).bind (ih.bind Checked.Runs.pure)

/-- A handler that leaves the store as it is, whichever of its statements fail. -/
def ReadsOnly {α : Type} (x : ImportHandler α) : Prop :=
  ∀ s f, (x.perform ImportStatement.exec (s, f)).2.1 = s

theorem ReadsOnly.bind {α β : Type} {x : ImportHandler α} {g : α → ImportHandler β}
    (hx : ReadsOnly x) (hg : ∀ r, ReadsOnly (g r)) : ReadsOnly (x >>= g) := by
  intro s f
  have hs := hx s f
  rcases hperform : x.perform ImportStatement.exec (s, f) with ⟨result, t, f'⟩
  rw [hperform] at hs
  obtain rfl : t = s := hs
  cases result with
  | ok r => rw [Checked.perform_bind_ok hperform, hg r t f']
  | error e => rw [Checked.perform_bind_error hperform]

theorem readsOnly_validateProviders : ReadsOnly (validateProviders env ps) := by
  have hlist : ReadsOnly listProviders := by
    intro s f
    cases hf : f 0 with
    | true => rw [listProviders, ImportStatement.run, Checked.perform_require_error (.inl hf)]
    | false => rw [listProviders, ImportStatement.run, Checked.perform_require_ok hf rfl]
  induction ps with
  | nil => exact fun _ _ => rfl
  | cons p ps ih =>
    refine ReadsOnly.bind ?_ fun _ => ih.bind fun _ _ _ => rfl
    rw [validateProvider]
    split_ifs
    · exact fun _ _ => rfl
    · exact hlist.bind fun _ _ _ => rfl

end

/-! ## Without problems -/

section
variable {env : Env} {db : Tables} {p : ProviderEntry} {d : Document}

/-- A provider without problems has a name, and a wire format that is one. -/
theorem ProviderEntry.of_problems_eq_nil (h : (p.checking env db).problems = []) :
    p.isNamed = true ∧ (WireFormat.parse p.wireFormat).isSome = true := by
  by_cases hname : p.name = "" ∨ p.baseUrl = ""
  · rw [ProviderEntry.checking, if_pos hname] at h
    cases h
  · refine ⟨isNamed_iff.mpr hname, ?_⟩
    rw [ProviderEntry.checking, if_neg hname] at h
    cases hwire : WireFormat.parse p.wireFormat with
    | some wire => rfl
    | none => simp [ProviderEntry.check, hwire] at h

/-- The plan says whether a provider of the name is stored. -/
theorem ProviderEntry.plan_checking (h : p.isNamed = true) : (p.checking env db).plan =
    [.provider p.name (decide (∃ row ∈ db.providers, row.name = p.name))] := by
  have hsome : (db.listProviders.find? fun row => row.name = p.name).isSome =
      decide (∃ row ∈ db.providers, row.name = p.name) := by
    have hmem : ∀ row, row ∈ db.listProviders ↔ row ∈ db.providers := fun row =>
      Grouping.sortBy_perm.mem_iff
    rw [Bool.eq_iff_iff, List.find?_isSome, decide_eq_true_iff]
    simp only [hmem, decide_eq_true_eq]
  rw [ProviderEntry.checking, if_neg (isNamed_iff.mp h), ProviderEntry.check, hsome]

theorem Document.plan_checking (h : (d.checking env db).problems = []) :
    (d.checking env db).plan = d.plan db := by
  have hproviders : ∀ p ∈ d.providers, (p.checking env db).plan =
      [.provider p.name (decide (∃ row ∈ db.providers, row.name = p.name))] := fun p hp =>
    ProviderEntry.plan_checking (ProviderEntry.of_problems_eq_nil
      (List.flatMap_eq_nil_iff.mp (List.append_eq_nil_iff.mp h).1 p hp)).1
  have hrest : (d.models.map ModelEntry.check ++ d.routes.map RouteEntry.check).flatMap
      Checking.plan = d.models.map (fun m => .model m.label) ++
        d.routes.map fun r => .route r.name r.targets.length := by
    rw [List.flatMap_append, List.flatMap_map, List.flatMap_map]
    exact congrArg₂ (· ++ ·) List.map_eq_flatMap.symm List.map_eq_flatMap.symm
  rw [Document.checking, Document.plan, hrest, List.flatMap_congr hproviders]
  exact congrArg (· ++ _) List.map_eq_flatMap.symm

end

/-! ## The results of the call -/

section
variable {env : Env} {s : Store} {f : Faults} {cfg : Value}

/-- The document has something to import. -/
def Document.IsEmpty (d : Document) : Prop :=
  d.providers.isEmpty ∧ d.models.isEmpty ∧ d.routes.isEmpty

theorem refuse_of_empty {d : Document} {e : ApiError} (h : d.IsEmpty) :
    Checks.refuseIf (d.providers.isEmpty ∧ d.models.isEmpty ∧ d.routes.isEmpty) e = .error e :=
  if_pos h

theorem refuse_of_not_empty {d : Document} {e : ApiError} (h : ¬ d.IsEmpty) :
    Checks.refuseIf (d.providers.isEmpty ∧ d.models.isEmpty ∧ d.routes.isEmpty) e = .ok () :=
  if_neg h

variable (env s f) in
theorem perform_empty (h : (Document.ofValue cfg).IsEmpty) (apply : Bool) : ∃ e,
    perform env cfg apply s f = (.error e, s) := by
  refine ⟨.bad "config has no providers, models, or routes to import", ?_⟩
  rw [perform, importConfig, refuse_of_empty h]
  rfl

theorem runs_validate : Runs (validate env (Document.ofValue cfg)) s
    ((Document.ofValue cfg).checking env s.tables) s :=
  runs_validateProviders.bind Checked.Runs.pure

theorem perform_dry (h : ¬ (Document.ofValue cfg).IsEmpty) :
    perform env cfg false s (fun _ => false) =
      (.ok (.planned ((Document.ofValue cfg).checking env s.tables)), s) := by
  rw [perform, importConfig, refuse_of_not_empty h, Checked.perform_ofResult_ok,
    Checked.perform_bind_ok runs_validate, if_pos rfl]
  rfl

theorem perform_dry_run : (perform env cfg false s f).2 = s := by
  by_cases h : (Document.ofValue cfg).IsEmpty
  · obtain ⟨e, he⟩ := perform_empty env s f h false
    rw [he]
  · rw [perform, importConfig, refuse_of_not_empty h, Checked.perform_ofResult_ok]
    exact (readsOnly_validateProviders.bind fun _ _ _ => rfl).bind (fun _ _ _ => rfl) s f

theorem perform_invalid (h : ¬ (Document.ofValue cfg).IsEmpty)
    (hproblems : ((Document.ofValue cfg).checking env s.tables).problems ≠ []) : ∃ e,
    perform env cfg true s (fun _ => false) = (.error e, s) := by
  let checking := (Document.ofValue cfg).checking env s.tables
  let e : ApiError := .bad ("config validation failed: " ++ "; ".intercalate checking.problems)
  have hrefuse : Checks.refuseIf (checking.problems ≠ []) e = .error e := if_pos hproblems
  refine ⟨e, ?_⟩
  rw [perform, importConfig, refuse_of_not_empty h, Checked.perform_ofResult_ok,
    Checked.perform_bind_ok runs_validate, if_neg (by decide), hrefuse]
  rfl

theorem perform_valid {t : Store} (h : ¬ (Document.ofValue cfg).IsEmpty)
    (hproblems : ((Document.ofValue cfg).checking env s.tables).problems = [])
    (hrun : Runs (applyDocument env (Document.ofValue cfg)) s () t) :
    perform env cfg true s (fun _ => false) =
      (.ok (.applied ((Document.ofValue cfg).checking env s.tables).plan), t) := by
  let checking := (Document.ofValue cfg).checking env s.tables
  have hrefuse : ∀ e : ApiError, Checks.refuseIf (checking.problems ≠ []) e = .ok () :=
    fun e => if_neg (not_not_intro hproblems)
  rw [perform, importConfig, refuse_of_not_empty h, Checked.perform_ofResult_ok,
    Checked.perform_bind_ok runs_validate, if_neg (by decide), hrefuse,
    Checked.perform_ofResult_ok, Checked.perform_bind_ok hrun]
  rfl

end

/-! ## What is found -/

section
variable {env : Env} {db : Tables} {d : Document} {p : ProviderEntry}

/-- Neither the entry nor the stored provider says that there are no credentials. -/
theorem effectiveMode_ne_none {existing : Option ProviderRow} (h : p.explicitMode ≠ some .none)
    (hstored : p.explicitMode = none → ∀ row ∈ existing,
      CredentialMode.parse row.credentialMode ≠ some .none) : p.effectiveMode existing ≠ .none := by
  rw [ProviderEntry.effectiveMode]
  cases hmode : p.explicitMode with
  | some mode =>
    intro heq
    exact h (hmode.trans (congrArg some heq))
  | none =>
    rw [Option.none_or]
    cases existing with
    | none => exact CredentialMode.noConfusion
    | some row =>
      have hrow := hstored hmode row rfl
      rw [Option.bind_some]
      cases hparse : CredentialMode.parse row.credentialMode with
      | none => exact CredentialMode.noConfusion
      | some mode =>
        intro heq
        exact hrow (hparse.trans (congrArg some heq))

theorem Importable.writable {s : Store} (h : Importable s.tables d)
    (hproblems : (d.checking env s.tables).problems = []) :
    ∀ p ∈ d.providers, Writable env s s.tables.providers p := by
  intro p hp
  obtain ⟨hexplicit, hstored⟩ := h.charged p hp
  exact {
    wire := (ProviderEntry.of_problems_eq_nil
      (List.flatMap_eq_nil_iff.mp (List.append_eq_nil_iff.mp hproblems).1 p hp)).2
    new := effectiveMode_ne_none hexplicit fun _ row hrow => by cases hrow
    same := fun row _ => Iff.rfl
    old := fun row hrow hname =>
      ⟨effectiveMode_ne_none hexplicit fun hmode row' hrow' =>
          Option.mem_some.mp hrow' ▸ hstored hmode row hrow hname,
        h.no_internal p hp row hrow hname⟩ }

variable {stored rows : List ProviderRow} {ids ids' : Ids} {ps : List ProviderEntry}

/-- A name that is stored or in the document has an id. -/
theorem ProvidersWritten.known {name : String}
    (h : ProvidersWritten env stored d.providers ids ids' db.providers rows)
    (hknown : d.KnowsProvider db name) :
    ∃ row ∈ rows, row.name = name ∧ ids' name = some row.id := by
  obtain ⟨row, hrow, rfl⟩ : ∃ row ∈ rows, row.name = name := by
    rcases hknown with ⟨old, hold, rfl⟩ | hname
    · obtain ⟨row, hrow, -, hname⟩ := h.names old hold
      exact ⟨row, hrow, hname⟩
    · obtain ⟨p, hp, rfl⟩ := List.mem_map.mp hname
      obtain ⟨row, hrow, hname, -⟩ := h.charged p hp
      exact ⟨row, hrow, hname⟩
  obtain ⟨id, hid⟩ := Option.isSome_iff_exists.mp (h.indexes.complete row hrow)
  obtain ⟨row', hrow', rfl, hname⟩ := h.indexes.sound _ _ hid
  exact ⟨row', hrow', hname, hid⟩

/-- The stored providers keep their names. -/
theorem ProvidersWritten.providerName_eq {id : String}
    (h : ProvidersWritten env stored ps ids ids' db.providers rows)
    (hnodup : (db.providers.map ProviderRow.id).Nodup) (hid : ∃ p ∈ db.providers, p.id = id) :
    providerName rows id = providerName db.providers id := by
  obtain ⟨p, hp, rfl⟩ := hid
  obtain ⟨row, hrow, hrowId, hname⟩ := h.names p hp
  rw [← hrowId, Import.providerName_eq h.nodup hrow, hrowId, Import.providerName_eq hnodup hp,
    hname]

theorem ProvidersWritten.rowLabel_eq {m : ModelRow}
    (h : ProvidersWritten env stored ps ids ids' db.providers rows) (hschema : Schema db)
    (hm : m ∈ db.models) : rowLabel rows m = rowLabel db.providers m := by
  rw [rowLabel, rowLabel, h.providerName_eq hschema.providerIds (hschema.modelProviders m hm)]

theorem ProvidersWritten.accountName_eq {a : AccountRow}
    (h : ProvidersWritten env stored ps ids ids' db.providers rows) (hschema : Schema db)
    (ha : a ∈ db.accounts) : accountName rows a = accountName db.providers a := by
  rw [accountName, accountName,
    h.providerName_eq hschema.providerIds (hschema.accountProviders a ha)]

/-- A label that is stored or in the document has an id. -/
theorem ModelsWritten.known {label : String} {providers : List ProviderRow}
    {stored old models : List ModelRow}
    (h : ModelsWritten env providers stored d.models ids old models)
    (hknown : d.KnowsModel db label) (hold : old = db.models)
    (hlabels : ∀ m ∈ db.models, rowLabel providers m = rowLabel db.providers m) :
    (ids label).isSome = true := by
  subst hold
  obtain ⟨row, hrow, rfl⟩ : ∃ row ∈ models, rowLabel providers row = label := by
    rcases hknown with ⟨m, hm, rfl⟩ | hlabel
    · obtain ⟨row, hrow, -, hrowLabel⟩ := h.labels m hm
      exact ⟨row, hrow, hrowLabel.trans (hlabels m hm)⟩
    · obtain ⟨m, hm, rfl⟩ := List.mem_map.mp hlabel
      obtain ⟨row, hrow, hrowLabel, -⟩ := h.written.written m hm
      exact ⟨row, hrow, hrowLabel⟩
  exact h.indexes.complete row hrow

theorem RoutesWritten.known {db₁ db₂ : Tables} {stored : List RouteRow} {name : String}
    (h : RoutesWritten env stored d.routes db₁ db₂) (hknown : d.KnowsRoute db name)
    (hroutes : db₁.routes = db.routes) : ∃ c ∈ db₂.routes, c.name = name := by
  rcases hknown with ⟨c, hc, rfl⟩ | hname
  · obtain ⟨c', hc', -, hname⟩ := h.names c (hroutes ▸ hc)
    exact ⟨c', hc', hname⟩
  · obtain ⟨r, hr, rfl⟩ := List.mem_map.mp hname
    obtain ⟨x, hx, hname, -⟩ := h.written.written r hr
    exact ⟨x.1, fst_mem_of_mem_routesOf hx, hname⟩

/-- An account that can be restored is. -/
theorem ProvidersWritten.restores {a : AccountEntry}
    (h : ProvidersWritten env stored d.providers ids ids' db.providers rows)
    (ha : a.Restorable db d) : a.Restores rows ids' where
  provider := by
    by_cases hname : a.provider ∈ d.providerNames
    · obtain ⟨p, hp, hpname⟩ := List.mem_map.mp hname
      obtain ⟨row, hrow, -, hfound, hmode⟩ := h.charged p hp
      exact ⟨row, hrow, hpname ▸ hfound, hmode⟩
    · obtain ⟨row, hrow, hrowName, hfound⟩ := h.known ha.provider
      have hold : row ∈ db.providers := (h.written.mem_iff (hrowName ▸ hname)).mp hrow
      exact ⟨row, hrow, hfound, ha.charged row hold hrowName hname⟩
  label := ha.label
  secret := ha.secret

end

/-! ## Statements that fail -/

section
variable {env : Env}

open Checked

theorem strict_run {st : ImportStatement} (h : st.isAudit = false) :
    st.run.Strict ImportStatement.isAudit :=
  strict_require h

theorem strict_subst {α : Type}
    {p : Program Statement (fun st => Option st.Answer) (Except ApiError α)}
    (h : p.Strict fun st => (ImportStatement.base st).isAudit) :
    (p.subst fun st => Program.one (ImportStatement.base st)).Strict
      ImportStatement.isAudit (B := ImportStatement.Answer) := by
  induction p with
  | done r => trivial
  | make st next ih =>
    obtain ⟨hst, hnext⟩ := h
    refine ⟨?_, fun a => ih a (hnext a)⟩
    split_ifs at hst ⊢ with hignored
    · exact fun a => congrArg (Program.subst _) (hst a)
    · obtain ⟨e, he⟩ := hst
      exact ⟨e, congrArg (Program.subst _) he⟩

theorem strict_lift {α : Type} {x : Handler α}
    (h : x.Strict fun st => (ImportStatement.base st).isAudit) :
    (lift x).Strict ImportStatement.isAudit :=
  strict_subst h

theorem strict_getProvider (id : String) : (getProvider id).Strict ImportStatement.isAudit :=
  strict_bind (strict_run rfl) fun row => strict_lift (by cases row <;> trivial)

theorem strict_reconcileAccountMode (i : Nat) (id : String) (mode : CredentialMode) :
    (reconcileAccountMode env i id mode).Strict ImportStatement.isAudit := by
  have hreplace : ∀ secret, (replaceAccounts env i id secret).Strict ImportStatement.isAudit :=
    fun secret => strict_bind (strict_run rfl) fun _ => strict_bind (strict_run rfl) fun _ =>
      strict_run rfl
  cases mode with
  | none =>
    refine strict_bind (strict_run rfl) fun accounts => strict_bind strict_ofResult fun secret => ?_
    split
    · split_ifs
      · exact strict_run rfl
      · exact hreplace secret
    · exact hreplace secret
  | manual | authFlow => exact strict_bind (strict_run rfl) fun _ => strict_run rfl

theorem strict_importProviders (i : Nat) (ps : List ProviderEntry) (ids : Ids) :
    (importProviders env i ps ids).Strict ImportStatement.isAudit := by
  induction ps generalizing i ids with
  | nil => trivial
  | cons p ps ih =>
    refine strict_bind (strict_bind strict_ofResult fun wire => ?_) fun ids => ih _ ids
    cases ids p.name with
    | some id =>
      exact strict_bind (strict_getProvider id) fun _ => strict_bind (strict_run rfl) fun _ =>
        strict_bind (strict_run rfl) fun _ =>
          strict_bind (strict_reconcileAccountMode _ _ _) fun _ => strict_pure
    | none =>
      exact strict_bind (strict_run rfl) fun _ =>
        strict_bind (strict_reconcileAccountMode _ _ _) fun _ => strict_pure

theorem strict_importAccounts (providers : Ids) (i : Nat) (accounts : List AccountEntry) :
    (importAccounts env providers i accounts).Strict ImportStatement.isAudit := by
  induction accounts generalizing i with
  | nil => trivial
  | cons a accounts ih =>
    refine strict_bind ?_ fun _ => ih _
    rw [importAccount]
    cases providers a.provider with
    | none => trivial
    | some id =>
      refine strict_bind (strict_getProvider id) fun provider => ?_
      split_ifs
      · trivial
      · cases a.secretEnc with
        | none => trivial
        | some secret =>
          refine strict_bind (strict_run rfl) fun rows => ?_
          split_ifs
          · trivial
          · exact strict_run rfl

theorem strict_readModelIds (models : List ModelRow) (ids : Ids) :
    (readModelIds models ids).Strict ImportStatement.isAudit := by
  induction models generalizing ids with
  | nil => trivial
  | cons m models ih => exact strict_bind (strict_run rfl) fun _ => ih _

theorem strict_importModels (providers : Ids) (i : Nat) (models : List ModelEntry) (ids : Ids) :
    (importModels env providers i models ids).Strict ImportStatement.isAudit := by
  induction models generalizing i ids with
  | nil => trivial
  | cons m models ih =>
    refine strict_bind ?_ fun ids => ih _ ids
    rw [importModel]
    split
    · trivial
    · exact strict_bind (strict_run rfl) fun _ => strict_bind (strict_run rfl) fun _ => strict_pure
    · exact strict_bind (strict_run rfl) fun _ => strict_bind (strict_run rfl) fun _ => strict_pure

theorem strict_importRoutes (models : Ids) (i : Nat) (routes : List RouteEntry) :
    (importRoutes env models i routes).Strict ImportStatement.isAudit := by
  have htargets : ∀ rows, (lift (writeRouteTargets rows)).Strict ImportStatement.isAudit := by
    refine fun rows => strict_lift ?_
    induction rows with
    | nil => trivial
    | cons row rows ih => exact strict_bind (strict_require rfl) fun _ => ih
  induction routes generalizing i with
  | nil => trivial
  | cons r routes ih =>
    refine strict_bind (strict_bind (strict_run rfl) fun existing => ?_) fun _ => ih _
    cases existing with
    | some route =>
      exact strict_bind (strict_run rfl) fun _ => strict_bind (strict_run rfl) fun _ => htargets _
    | none => exact strict_bind (strict_run rfl) fun _ => htargets _

theorem strict_importAliases (models : Ids) (i : Nat) (aliases : List AliasEntry) :
    (importAliases env models i aliases).Strict ImportStatement.isAudit := by
  induction aliases generalizing i with
  | nil => trivial
  | cons a aliases ih =>
    refine strict_bind ?_ fun _ => ih _
    rw [importAlias]
    split_ifs
    · trivial
    · have htarget : (aliasTarget models a).Strict ImportStatement.isAudit := by
        rw [aliasTarget]
        split_ifs
        · exact strict_bind (strict_run rfl) fun _ => strict_pure
        · exact strict_pure
      refine strict_bind htarget fun target => ?_
      cases target with
      | none => trivial
      | some id =>
        refine strict_bind (strict_run rfl) fun existing => ?_
        cases existing with
        | some row | none => exact strict_run rfl

theorem strict_reloadRegistry : (lift reloadRegistry).Strict ImportStatement.isAudit := by
  have hreads : ∀ {p : Program Query (fun q => Option q.Rows) (Option Snapshot)}, p.Stops →
      (do
        let snap ← p.subst fun q => Program.one (Statement.select q)
        return if snap.isSome then .ok () else .error .internal :
          Program Statement (fun st => Option st.Answer) (Except ApiError Unit)).Strict
        fun st => (ImportStatement.base st).isAudit := by
    intro p hp
    induction p with
    | done r => trivial
    | make q next ih =>
      obtain ⟨hnone, hsome⟩ := hp
      have hlast : (next none).Stops := by
        rw [hnone]
        trivial
      refine ⟨⟨.internal, ?_⟩, fun a => ?_⟩
      · exact congrArg (fun p => Program.bind (Program.subst _ p) _) hnone
      · cases a with
        | none => exact ih none hlast
        | some rows => exact ih (some rows) (hsome rows)
  exact strict_lift (hreads stops_reload)

/-- The import returns an error at its first statement that fails, unless this is the INSERT of the
audit entry. -/
theorem strict_importConfig (cfg : Value) :
    (importConfig env cfg true).Strict ImportStatement.isAudit := by
  have hvalidate : ∀ ps, (validateProviders env ps).Strict ImportStatement.isAudit := by
    intro ps
    induction ps with
    | nil => trivial
    | cons p ps ih =>
      refine strict_bind ?_ fun checking => strict_bind ih fun rest => strict_pure
      rw [validateProvider]
      split_ifs
      · trivial
      · exact strict_bind (strict_run rfl) fun _ => strict_pure
  refine strict_bind strict_ofResult fun _ =>
    strict_bind (strict_bind (hvalidate _) fun _ => strict_pure) fun checking => ?_
  refine strict_bind strict_ofResult fun _ => strict_bind ?_ fun _ => strict_pure
  refine strict_bind (strict_run rfl) fun rows => ?_
  refine strict_bind (strict_importProviders _ _ _) fun providers => ?_
  refine strict_bind (strict_importAccounts _ _ _) fun _ => ?_
  refine strict_bind (strict_run rfl) fun rows => ?_
  refine strict_bind (strict_readModelIds _ _) fun models => ?_
  refine strict_bind (strict_importModels _ _ _ _) fun models => ?_
  refine strict_bind (strict_importRoutes _ _ _) fun _ => ?_
  refine strict_bind (strict_importAliases _ _ _) fun _ => ?_
  exact strict_bind (strict_lift (strict_attempt rfl)) fun _ => strict_reloadRegistry

variable {s : Store} {cfg : Value} {f : Faults}

/-- If there were only reads before a statement that fails, nothing has been written. -/
theorem perform_of_fault {i : Nat} {q : ImportStatement} (hq : (statements env cfg s)[i]? = some q)
    (haudit : q.isAudit = false) (hf : f i = true)
    (hbefore : ∀ q ∈ (statements env cfg s).take i, q.isRead = true) :
    ∃ e, perform env cfg true s f = (.error e, s) := by
  obtain ⟨e, g, hrun⟩ := (strict_importConfig cfg).run_of_fault
    (fun q h => ImportStatement.exec_of_isRead h) hq haudit hf hbefore
  exact ⟨e, by rw [perform, Checked.perform, hrun]⟩

/-- Without its audit entry the import does the same. -/
theorem perform_alike
    (hf : ∀ i q, (statements env cfg s)[i]? = some q → f i = true → q.isAudit = true) :
    (perform env cfg true s f).1 = (perform env cfg true s fun _ => false).1 ∧
      (perform env cfg true s f).2.tables = (perform env cfg true s fun _ => false).2.tables := by
  have hrun := (strict_importConfig cfg).run_alike
    (R := fun s t : Store => s.tables = t.tables) (s := s) (t := s) (f := f)
    (fun q s t => ImportStatement.exec_alike) ?_ rfl hf
  · exact ⟨hrun.1, hrun.2.symm⟩
  · intro q s t hq htables f g
    cases q with
    | base st =>
      cases st with
      | insertAudit row =>
        exact (tables_audited s f row).trans (htables.trans (tables_audited t g row).symm)
      | _ => cases hq
    | _ => cases hq

end

/-! ## The whole import -/

theorem runs_insertAudit (s : Store) (row : AuditLogRow) :
    Runs (lift (insertAudit row)) s () (audited s (fun _ => false) row) := by
  have hperform := (perform_lift (insertAudit row) (s, fun _ => false)).trans
    Checked.perform_attempt
  exact Checked.Runs.of_fst (congrArg Prod.fst hperform) (congrArg (fun r => r.2.1) hperform)

theorem runs_reloadRegistry (s : Store) : Runs (lift reloadRegistry) s () s := by
  obtain ⟨r, g, hperform, hok⟩ := perform_reloadRegistry (s := s) (f := fun _ => false)
  have hr : r = .ok () := by
    cases r with
    | ok u => rfl
    | error e => cases hok.mpr fun _ _ => rfl
  have hlift := (perform_lift reloadRegistry (s, fun _ => false)).trans hperform
  exact Checked.Runs.of_fst ((congrArg Prod.fst hlift).trans hr)
    (congrArg (fun r => r.2.1) hlift)

section
variable {env : Env} {s : Store} {d : Document}

/-- The import of a document whose references are all found. -/
theorem runs_applyDocument (hschema : Schema s.tables) (hfresh : env.Fresh s.tables)
    (hproblems : (d.checking env s.tables).problems = []) (h : Importable s.tables d) :
    ∃ t, Runs (applyDocument env d) s () t ∧ Changes env d s.tables t.tables ∧
      Keeps d s.tables t.tables := by
  obtain ⟨ids, providers, hrunProviders, hproviders⟩ := runs_importProviders (i := 0)
    h.distinct_providers (h.writable hproblems) (indexes_providerIds s.tables) hschema.providerIds
    hfresh.provider_injective (fun j _ => hfresh.providers j) fun j _ a ha heq => by
      obtain ⟨p, hp, hid⟩ := hschema.accountProviders a ha
      exact hfresh.providers j p hp (hid.trans heq)
  obtain ⟨new, hrunAccounts, hnew, hrestored⟩ := runs_importAccounts d.accounts (i := 0)
    (s := setProviders s providers) hproviders.indexes hproviders.nodup hfresh.account_injective
    fun j _ => hfresh.accounts j
  let s₂ := setAccounts (setProviders s providers) (s.tables.accounts ++ new)
  obtain ⟨stored, hrunStored, hstored⟩ := runs_readModelIds s₂.tables.listModels (s := s₂)
    hproviders.nodup Indexes.nil
  have hlabels : ∀ m ∈ s.tables.models, rowLabel providers m = rowLabel s.tables.providers m :=
    fun m hm => hproviders.rowLabel_eq hschema hm
  obtain ⟨models, rows, hrunModels, hmodels⟩ := runs_importModels env s.tables.models (i := 0)
    (s := s₂) h.distinct_models hproviders.nodup
    (fun m hm => hproviders.known (h.models m hm)) (fun _ _ _ _ => Iff.rfl)
    (hstored.of_mem_iff fun m => Grouping.sortBy_perm.mem_iff.symm) hschema.modelIds
    hfresh.model_injective fun j _ => hfresh.models j
  let s₃ := setModels s₂ rows
  have hknown : ∀ label, d.KnowsModel s.tables label → (models label).isSome = true :=
    fun label hlabel => hmodels.known hlabel rfl hlabels
  obtain ⟨routes, targets, hrunRoutes, hroutes⟩ := runs_importRoutes env s.tables.routes models
    (i := 0) (s := s₃) h.distinct_routes hschema.routeIds
    hschema.targetRoutes hmodels.indexes
    (fun r hr t ht => ⟨hknown _ (h.targets r hr t ht).1, fun id hid => by
      obtain ⟨a, ha, haid⟩ := (h.targets r hr t ht).2 id hid
      exact ⟨a, List.mem_append_left _ ha, haid⟩⟩)
    (fun _ _ _ _ => Iff.rfl) hfresh.route_injective (fun j _ => hfresh.routes j)
    hfresh.target_injective fun j _ => hfresh.targets j
  let s₄ := setRoutes s₃ routes targets
  obtain ⟨aliases, hrunAliases, haliases⟩ := runs_importAliases env s.tables.aliases models
    (i := 0) (s := s₄) h.distinct_aliases hmodels.indexes
    (fun a ha => ⟨(h.aliases a ha).1, by
      have htarget := (h.aliases a ha).2
      by_cases htype : a.targetType = "route"
      · rw [if_pos htype] at htarget ⊢
        exact hroutes.known htarget rfl
      · rw [if_neg htype] at htarget ⊢
        exact hknown _ htarget⟩)
    hschema.aliasIds hfresh.alias_injective (fun j _ => hfresh.aliases j) fun _ _ _ _ => Iff.rfl
  let s₅ := setAliases s₄ aliases
  let t := audited s₅ (fun _ => false) (auditRow env d)
  have htables : t.tables = s₅.tables := tables_audited _ _ _
  refine ⟨t, ?_, htables ▸ ?_, htables ▸ ?_⟩
  · rw [applyDocument]
    refine runs_listProviders.bind (hrunProviders.bind (hrunAccounts.bind ?_))
    refine (runs_statement (b := s₂.tables.listModels) (t := s₂) rfl).bind (hrunStored.bind ?_)
    refine hrunModels.bind (hrunRoutes.bind (hrunAliases.bind ?_))
    exact (runs_insertAudit s₅ _).bind (runs_reloadRegistry t)
  · exact {
      providers := hproviders.written
      accounts := fun a ha => by
        have hkey : ∃ row ∈ s.tables.accounts ++ new, accountName providers row = a.key := by
          rcases h.accounts a ha with ⟨row, hrow, hname⟩ | hres
          · exact ⟨row, List.mem_append_left _ hrow,
              (hproviders.accountName_eq hschema hrow).trans hname⟩
          · exact hrestored a ha (hproviders.restores hres)
        obtain ⟨row, hrow, hname⟩ := hkey
        refine ⟨row, hrow, hname, (List.mem_append.mp hrow).imp_right fun hrow => ?_⟩
        obtain ⟨entry, hentry, hentryName, hdescribes⟩ := hnew row hrow
        exact ⟨entry, hentry, hentryName.symm.trans hname, hdescribes⟩
      accounts_kept := fun row hrow => List.mem_append_left _ hrow
      accounts_others := by
        have hnamed : unnamed (accountName providers) d.accountKeys new = [] := by
          refine List.filter_eq_nil_iff.mpr fun row hrow => ?_
          obtain ⟨a, ha, hname, -⟩ := hnew row hrow
          simpa using hname ▸ List.mem_map_of_mem ha
        exact (List.filter_append _ _).trans ((congrArg (_ ++ ·) hnamed).trans (List.append_nil _))
      models := hmodels.written
      routes := hroutes.written
      aliases := haliases }
  · exact {
      providers := fun row hrow hname => (hproviders.written.mem_iff hname).mpr hrow
      accounts := fun row hrow _ => List.mem_append_left _ hrow
      models := fun row hrow hlabel =>
        (hmodels.written.mem_iff (r := row) ((hlabels row hrow).symm ▸ hlabel)).mpr hrow
      routes := fun c hc hname => (hroutes.written.mem_iff (r := c) hname).mpr hc
      aliases := fun row hrow hname => (haliases.mem_iff hname).mpr hrow }

/-- A call that leaves the store. -/
theorem keeps_self (d : Document) (db : Tables) : Keeps d db db :=
  ⟨fun _ h _ => h, fun _ h _ => h, fun _ h _ => h, fun _ h _ => h, fun _ h _ => h⟩

end

/-! ## The law -/

section
variable {env : Env} {s : Store} {cfg : Value} {f : Faults}

/-- What an import without failures does. -/
theorem perform_planned (hschema : Schema s.tables) (hfresh : env.Fresh s.tables)
    (himport : ((Document.ofValue cfg).checking env s.tables).problems = [] →
      Importable s.tables (Document.ofValue cfg))
    {checking : Checking}
    (hdry : (perform env cfg false s fun _ => false).1 = .ok (.planned checking))
    (hproblems : checking.problems = []) :
    checking.plan = (Document.ofValue cfg).plan s.tables ∧ ∃ t,
      perform env cfg true s (fun _ => false) = (.ok (.applied checking.plan), t) ∧
      Changes env (Document.ofValue cfg) s.tables t.tables ∧
      Keeps (Document.ofValue cfg) s.tables t.tables := by
  by_cases hempty : (Document.ofValue cfg).IsEmpty
  · obtain ⟨e, he⟩ := perform_empty env s (fun _ => false) hempty false
    rw [he] at hdry
    cases hdry
  · rw [perform_dry hempty] at hdry
    obtain rfl : (Document.ofValue cfg).checking env s.tables = checking := by
      injection hdry with hdry
      injection hdry
    obtain ⟨t, hrun, hchanges, hkeeps⟩ :=
      runs_applyDocument hschema hfresh hproblems (himport hproblems)
    exact ⟨Document.plan_checking hproblems, t, perform_valid hempty hproblems hrun, hchanges,
      hkeeps⟩

/-- An import of which no statement fails returns an error before it writes, or does not. -/
theorem perform_apply (hschema : Schema s.tables) (hfresh : env.Fresh s.tables)
    (himport : ((Document.ofValue cfg).checking env s.tables).problems = [] →
      Importable s.tables (Document.ofValue cfg)) :
    (∃ e, perform env cfg true s (fun _ => false) = (.error e, s)) ∨ ∃ r t,
      perform env cfg true s (fun _ => false) = (.ok r, t) ∧
        Keeps (Document.ofValue cfg) s.tables t.tables := by
  by_cases hempty : (Document.ofValue cfg).IsEmpty
  · exact Or.inl (perform_empty env s _ hempty true)
  by_cases hproblems : ((Document.ofValue cfg).checking env s.tables).problems = []
  · obtain ⟨-, t, hperform, -, hkeeps⟩ := perform_planned hschema hfresh himport
      (congrArg Prod.fst (perform_dry hempty)) hproblems
    exact Or.inr ⟨_, t, hperform, hkeeps⟩
  · exact Or.inl (perform_invalid hempty hproblems)

end

/-! ## Documents -/

instance (d : Document) (db : Tables) (name : String) : Decidable (d.KnowsProvider db name) :=
  inferInstanceAs (Decidable (_ ∨ _))

instance (d : Document) (db : Tables) (label : String) : Decidable (d.KnowsModel db label) :=
  inferInstanceAs (Decidable (_ ∨ _))

instance (d : Document) (db : Tables) (name : String) : Decidable (d.KnowsRoute db name) :=
  inferInstanceAs (Decidable (_ ∨ _))

namespace Documents

/-- Texts of as many letters as were drawn before. -/
def drawn (c : Char) (i : Nat) : String := String.ofList (List.replicate i c)

def stamp (c : Char) (i : Nat) : Stamp := ⟨drawn c i, ""⟩

/-- Every plugin is missing, and every URL is allowed. -/
def env : Env where
  json := .ofEmptyObject
  outboundUrl _ := none
  plugin _ := .ok none
  emptySecret _ := some ""
  setTransport _ text := text
  provider := stamp 'p'
  noauth := stamp 'n'
  account := stamp 'a'
  model := stamp 'm'
  route := stamp 'r'
  target i j := drawn 't' (Nat.pair i j)
  aliasStamp := stamp 's'
  audit := ⟨"audit", ""⟩

def store : Store := ⟨⟨[], [], [], [], [], []⟩, []⟩

def noFaults : Faults := fun _ => false

/-- The INSERT of the provider fails. -/
def writeFails : Faults := fun i => i == 2

/-- The INSERT of the audit entry fails. -/
def auditFails : Faults := fun i => i == 17

/-- A provider with a model and a route to it, which is pinned to an account or not. -/
def document (pin : List (String × Value)) : Value :=
  .object
    [("providers", .array [.object
      [("name", .string "acme"), ("base_url", .string "https://acme.example"),
        ("wire_format", .string "openai")]]),
      ("accounts", .array [.object [("provider", .string "acme"), ("secret_enc", .string "x")]]),
      ("models", .array [.object
        [("provider", .string "acme"), ("upstream_id", .string "large")]]),
      ("routes", .array [.object [("name", .string "fast"),
        ("targets", .array [.object (("model", .string "acme/large") :: pin)])]]),
      ("aliases", .array [.object [("alias", .string "quick"), ("target_type", .string "route"),
        ("target", .string "fast")]])]

theorem drawn_injective (c : Char) : Function.Injective (drawn c) := by
  intro i j h
  have hlen := congrArg (fun s => s.toList.length) h
  simpa [drawn] using hlen

theorem schema : Schema store.tables where
  providerIds := List.nodup_nil
  accountProviders _ h := absurd h List.not_mem_nil
  modelIds := List.nodup_nil
  modelProviders _ h := absurd h List.not_mem_nil
  routeIds := List.nodup_nil
  routeNames := List.nodup_nil
  targetRoutes _ h := absurd h List.not_mem_nil
  aliasIds := List.nodup_nil

theorem fresh : env.Fresh store.tables where
  providers _ _ h := absurd h List.not_mem_nil
  accounts _ _ h := absurd h List.not_mem_nil
  models _ _ h := absurd h List.not_mem_nil
  routes _ _ h := absurd h List.not_mem_nil
  targets _ _ _ h := absurd h List.not_mem_nil
  aliases _ _ h := absurd h List.not_mem_nil
  provider_injective := drawn_injective 'p'
  account_injective := drawn_injective 'a'
  model_injective := drawn_injective 'm'
  route_injective := drawn_injective 'r'
  target_injective _ _ _ _ h := Nat.pair_eq_pair.mp (drawn_injective 't' h)
  alias_injective := drawn_injective 's'

theorem importable : Importable store.tables (Document.ofValue (document [])) where
  distinct_providers := by decide +kernel
  distinct_models := by decide +kernel
  distinct_routes := by decide +kernel
  distinct_aliases := by decide +kernel
  charged := by decide +kernel
  no_internal _ _ _ h := absurd h List.not_mem_nil
  accounts := by
    intro a ha
    obtain rfl := List.mem_singleton.mp ha
    exact Or.inr
      { provider := by decide +kernel
        charged := fun _ h => absurd h List.not_mem_nil
        label := by decide +kernel
        secret := by decide +kernel }
  models := by decide +kernel
  targets := by decide +kernel
  aliases := by decide +kernel

end Documents

open Documents

end Kinetix.Import
