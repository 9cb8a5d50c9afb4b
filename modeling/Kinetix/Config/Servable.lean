import Kinetix.Config.Enumeration

/-!
# Targets that can be served

What a name resolves to in the snapshot of a configuration. A reload leaves out the providers that
are disabled and keeps their models. The targets of a route and the qualified names are looked up
through their provider, so they can be served; an alias for a model and a bare upstream id are
looked up among all models, and may lead to one whose provider is not there.
-/

namespace Kinetix.Config
open Cascade

namespace Snapshot
variable {snap : Snapshot} {values : Iteration snap} {requested : String}

/-- The model is enabled and its provider is there. -/
def CanServe (snap : Snapshot) (m : ModelRow) : Prop :=
  m.enabled ≠ 0 ∧ ∃ provider, snap.providers m.providerId = some provider ∧ provider.enabled ≠ 0

/-- Each target of a resolution is one that can be served. -/
def Servable (snap : Snapshot) : Resolved → Prop
  | .single providerId modelId =>
    ∃ m, snap.models modelId = some m ∧ m.providerId = providerId ∧ snap.CanServe m
  | .route _ targets => ∀ t ∈ targets, snap.CanServe t.model ∧
      snap.providers t.model.providerId = some t.provider

/-! ## What a reload builds -/

/-- Providers are enabled and found by their ids. -/
def ProvidersEnabled (snap : Snapshot) : Prop :=
  ∀ id p, snap.providers id = some p → p.id = id ∧ p.enabled ≠ 0

/-- A model that is found by its provider and upstream id is one of that provider. -/
def UpstreamSound (snap : Snapshot) : Prop :=
  ∀ providerId upstreamId id, snap.modelByUpstream (providerId, upstreamId) = some id →
    ∃ m, snap.models id = some m ∧ m.providerId = providerId

/-- What no step changes is not changed by all of them. -/
theorem foldl_eq {α β : Type} {add : Snapshot → α → Snapshot} (f : Snapshot → β)
    (h : ∀ snap x, f (add snap x) = f snap) (rows : List α) (snap : Snapshot) :
    f (rows.foldl add snap) = f snap := by
  induction rows generalizing snap with
  | nil => rfl
  | cons x rows ih => exact (ih (add snap x)).trans (h snap x)

theorem providers_addAccount (snap : Snapshot) (a : AccountRow) :
    (snap.addAccount a).providers = snap.providers := by
  unfold addAccount
  split <;> rfl

theorem providers_addModel (snap : Snapshot) (m : ModelRow) :
    (snap.addModel m).providers = snap.providers := rfl

theorem modelByUpstream_addAccount (snap : Snapshot) (a : AccountRow) :
    (snap.addAccount a).modelByUpstream = snap.modelByUpstream := by
  unfold addAccount
  split <;> rfl

theorem modelByUpstream_addProvider (snap : Snapshot) (p : ProviderRow) :
    (snap.addProvider p).modelByUpstream = snap.modelByUpstream := by
  unfold addProvider
  split <;> rfl

/-- What neither an alias nor a route changes is that of the models that are read. -/
theorem snapshotOf_eq {β : Type} (f : Snapshot → β)
    (halias : ∀ snap a, f (addAlias snap a) = f snap)
    (hroute : ∀ snap c targets, f (addRoute snap c targets) = f snap) (db : Tables) :
    f (snapshotOf db) = f (db.listModels.foldl addModel (db.listAccounts.foldl addAccount
      (db.listProviders.foldl addProvider {}))) :=
  (foldl_eq f (fun snap c => hroute snap c (db.targetsOf c.id)) db.listRoutes _).trans
    (foldl_eq f halias db.listAliases _)

variable {m : ModelRow} {r : Resolved} (db : Tables)

/-- The providers of a configuration are those that are read first. -/
theorem providers_snapshotOf :
    (snapshotOf db).providers = (db.listProviders.foldl addProvider {}).providers := by
  rw [snapshotOf_eq Snapshot.providers (fun _ _ => rfl) (fun _ _ _ => rfl)]
  exact (foldl_eq Snapshot.providers providers_addModel db.listModels _).trans
    (foldl_eq Snapshot.providers providers_addAccount db.listAccounts _)

theorem providersEnabled_snapshotOf : (snapshotOf db).ProvidersEnabled := by
  rw [ProvidersEnabled, providers_snapshotOf]
  refine List.foldlRecOn (motive := ProvidersEnabled) _ _ (fun _ _ h => by cases h) ?_
  intro snap hsnap p _ id p' hp'
  unfold addProvider at hp'
  split at hp'
  · exact hsnap id p' hp'
  · rename_i henabled
    simp only [Function.update_apply] at hp'
    split at hp'
    · rename_i hid
      obtain rfl := Option.some.inj hp'
      exact ⟨hid.symm, henabled⟩
    · exact hsnap id p' hp'

theorem UpstreamSound.addModel (h : snap.UpstreamSound) (hnew : snap.models m.id = none) :
    (snap.addModel m).UpstreamSound := by
  intro providerId upstreamId id hid
  change Function.update snap.modelByUpstream (m.providerId, m.upstreamId) (some m.id)
    (providerId, upstreamId) = some id at hid
  change ∃ m', Function.update snap.models m.id (some m) id = some m' ∧ m'.providerId = providerId
  rw [Function.update_apply] at hid
  split at hid
  · rename_i hkey
    obtain rfl := Option.some.inj hid
    exact ⟨m, Function.update_self .., (Prod.mk.inj hkey).1.symm⟩
  · obtain ⟨m', hm', hprovider⟩ := h providerId upstreamId id hid
    have hne : id ≠ m.id := fun heq => Option.some_ne_none m' (hm'.symm.trans (heq ▸ hnew))
    exact ⟨m', (Function.update_of_ne hne ..).trans hm', hprovider⟩

theorem UpstreamSound.addModels (h : snap.UpstreamSound) {rows : List ModelRow}
    (hnodup : (rows.map ModelRow.id).Nodup) (hnew : ∀ m ∈ rows, snap.models m.id = none) :
    (rows.foldl Snapshot.addModel snap).UpstreamSound := by
  induction rows generalizing snap with
  | nil => exact h
  | cons m rows ih =>
    rw [List.map_cons, List.nodup_cons] at hnodup
    refine ih (h.addModel (hnew m List.mem_cons_self)) hnodup.2 fun m' hm' => ?_
    have hne : m'.id ≠ m.id := fun heq => hnodup.1 (heq ▸ List.mem_map_of_mem hm')
    exact (Function.update_of_ne hne ..).trans (hnew m' (List.mem_cons_of_mem m hm'))

theorem upstreamSound_snapshotOf {db : Tables} (h : (db.models.map ModelRow.id).Nodup) :
    (snapshotOf db).UpstreamSound := by
  unfold UpstreamSound
  rw [snapshotOf_eq modelByUpstream (fun _ _ => rfl) (fun _ _ _ => rfl),
    snapshotOf_eq models (fun _ _ => rfl) (fun _ _ _ => rfl)]
  refine UpstreamSound.addModels ?_ ?_ ?_
  · intro providerId upstreamId id hid
    rw [foldl_eq modelByUpstream modelByUpstream_addAccount,
      foldl_eq modelByUpstream modelByUpstream_addProvider] at hid
    cases hid
  · exact (Grouping.sortBy_perm.map _).nodup_iff.mpr h
  · intro m _
    rw [foldl_eq models models_addAccount, foldl_eq models models_addProvider]

theorem modelsById_snapshotOf : (snapshotOf db).ModelsById :=
  Loaded.modelsById ⟨fun q => some (db.rows q), reload_answer⟩

/-! ## The lookups -/

/-- The alias is not one for an enabled model whose provider is not there. -/
def AliasServed (snap : Snapshot) (requested : String) : Prop :=
  ∀ entry m, snap.aliases requested = some entry → entry.targetType ≠ "route" →
    snap.models entry.targetId = some m → m.enabled ≠ 0 → (snap.providers m.providerId).isSome

/-- Neither the alias, nor each of the routes with the name, nor each of the providers that the part
before the slash can stand for gives a result. -/
def ReachesModels (values : Iteration snap) (requested : String) : Prop :=
  aliasChoice values requested = none ∧
    Passes ((routesNamed values requested).map (routeChoice values)) ∧
      Passes (qualifiedChoices values requested)

/-- If the search for a bare upstream id can be reached, the provider of every enabled model with
that id is there. -/
def ModelsServed (values : Iteration snap) (requested : String) : Prop :=
  ReachesModels values requested → ∀ m ∈ modelsNamed values requested,
    (snap.providers m.providerId).isSome

theorem canServe_of_isSome (hp : snap.ProvidersEnabled) (hm : m.enabled ≠ 0)
    (h : (snap.providers m.providerId).isSome) : snap.CanServe m := by
  obtain ⟨provider, hprovider⟩ := Option.isSome_iff_exists.mp h
  exact ⟨hm, provider, hprovider, (hp _ _ hprovider).2⟩

theorem servable_of_resolveModel (hp : snap.ProvidersEnabled) (hm : snap.ModelsById)
    {o : Option String} (h : (o.bind snap.models).bind resolveModel = some r)
    (hpresent : ∀ id m, o = some id → snap.models id = some m → m.enabled ≠ 0 →
      (snap.providers m.providerId).isSome) : snap.Servable r := by
  obtain ⟨m, hfound, hresolve⟩ := Option.bind_eq_some_iff.mp h
  obtain ⟨id, hid, hmodel⟩ := Option.bind_eq_some_iff.mp hfound
  obtain ⟨henabled, hr⟩ := Option.ite_none_right_eq_some.mp hresolve
  obtain rfl := Option.some.inj hr
  exact ⟨m, hm id m hmodel ▸ hmodel, rfl,
    canServe_of_isSome hp henabled (hpresent id m hid hmodel henabled)⟩

/-- The targets of a route are looked up through their providers. -/
theorem servable_of_buildRoute (hp : snap.ProvidersEnabled) {routeId : String}
    (h : buildRoute values routeId = some r) : snap.Servable r := by
  unfold buildRoute at h
  cases hroute : snap.routes routeId with
  | none => simp [hroute] at h
  | some route =>
    simp only [hroute] at h
    split at h
    · cases h
    · split at h
      · cases h
      · obtain rfl := Option.some.inj h
        intro target htarget
        obtain ⟨t, -, htarget⟩ := List.mem_flatMap.mp htarget
        unfold resolveTarget at htarget
        cases hm : snap.models t.modelId with
        | none => simp [hm] at htarget
        | some model =>
          simp only [hm] at htarget
          split at htarget
          · cases htarget
          · rename_i henabled
            cases hprovider : snap.providers model.providerId with
            | none => simp [hprovider] at htarget
            | some provider =>
              simp only [hprovider] at htarget
              obtain ⟨account, -, rfl⟩ := List.mem_map.mp htarget
              exact ⟨⟨henabled, provider, hprovider, (hp _ _ hprovider).2⟩, hprovider⟩

/-- A qualified name is looked up through its provider. -/
theorem servable_of_resolveQualified (hp : snap.ProvidersEnabled) (hm : snap.ModelsById)
    (hu : snap.UpstreamSound) (h : resolveQualified values requested = some r) :
    snap.Servable r := by
  unfold resolveQualified at h
  cases hsplit : Net.splitOnce '/' requested with
  | none => simp [hsplit] at h
  | some parts =>
    simp only [hsplit] at h
    cases hfind : values.providers.find? fun p => p.name == parts.1 || p.id == parts.1 with
    | none => simp [hfind] at h
    | some p =>
      simp only [hfind] at h
      refine servable_of_resolveModel hp hm h fun id m hid hmodel _ => ?_
      obtain ⟨m', hm', hprovider⟩ := hu _ _ _ hid
      obtain rfl := Option.some.inj (hmodel.symm.trans hm')
      obtain ⟨pid, hpid⟩ := (values.mem_providers p).mp (List.mem_of_find?_eq_some hfind)
      rw [hprovider, (hp pid p hpid).1, hpid]
      rfl

/-! ## Every name and every order -/

/-- A resolution by a bare upstream id is only made after the other lookups gave nothing. -/
theorem reachesModels_of_none {values' : Iteration snap} (h : Reordered values values')
    (halias : resolveAlias values' requested = none)
    (hroutes : ((values'.routes.find? (·.name == requested)).bind fun route =>
      buildRoute values' route.id) = none)
    (hqualified : resolveQualified values' requested = none) : ReachesModels values requested := by
  have hperm := candidates_perm h requested
  unfold candidates at hperm
  rcases hperm with _ | ⟨-, _ | ⟨hroutesPerm, _ | ⟨hqualifiedPerm, -⟩⟩⟩
  refine ⟨?_, ?_, ?_⟩
  · rw [aliasChoice_eq values values', aliasChoice, halias, Option.map_none]
  · refine (passes_perm hroutesPerm).mpr (passes_of_first_eq_none ?_)
    rw [← routes_choice, hroutes, Option.map_none]
  · refine (passes_perm hqualifiedPerm).mpr (passes_of_first_eq_none ?_)
    rw [← qualified_choice, hqualified, Option.map_none]

theorem servable_of_served (hp : snap.ProvidersEnabled) (hm : snap.ModelsById)
    (hu : snap.UpstreamSound) (halias : snap.AliasServed requested)
    (hmodels : ModelsServed values requested) {values' : Iteration snap}
    (h : Reordered values values') (hr : resolveIn values' requested = some r) :
    snap.Servable r := by
  unfold resolveIn at hr
  rw [Option.or_eq_some_iff] at hr
  rcases hr with hr | ⟨hnoalias, hr⟩
  · unfold resolveAlias at hr
    cases hentry : snap.aliases requested with
    | none => simp [hentry] at hr
    | some entry =>
      simp only [hentry] at hr
      split at hr
      · exact servable_of_buildRoute hp hr
      · rename_i htype
        refine servable_of_resolveModel hp hm (o := some entry.targetId) hr ?_
        intro id m hid hmodel henabled
        obtain rfl := Option.some.inj hid
        exact halias entry m hentry htype hmodel henabled
  rw [Option.or_eq_some_iff] at hr
  rcases hr with hr | ⟨hnoroute, hr⟩
  · obtain ⟨route, -, hbuild⟩ := Option.bind_eq_some_iff.mp hr
    exact servable_of_buildRoute hp hbuild
  rw [Option.or_eq_some_iff] at hr
  rcases hr with hr | ⟨hunqualified, hr⟩
  · exact servable_of_resolveQualified hp hm hu hr
  obtain ⟨m, hfind, rfl⟩ := Option.map_eq_some_iff.mp hr
  have hmem := List.mem_of_find?_eq_some hfind
  have hnamed := List.find?_some hfind
  have hpresent := hmodels (reachesModels_of_none h hnoalias hnoroute hunqualified) m
    (List.mem_filter.mpr ⟨h.models.mem_iff.mpr hmem, hnamed⟩)
  simp only [Bool.and_eq_true, bne_iff_ne] at hnamed
  obtain ⟨id, hid⟩ := (values'.mem_models m).mp hmem
  exact ⟨m, hm id m hid ▸ hid, rfl, canServe_of_isSome hp hnamed.2 hpresent⟩

/-- In some order, the search for a bare upstream id finds a given model. -/
theorem exists_resolveIn_model (h : ReachesModels values requested)
    (hm : m ∈ modelsNamed values requested) : ∃ values', Reordered values values' ∧
      choose values' requested = some (.model m.providerId m.id) := by
  obtain ⟨halias, hroutes, hqualified⟩ := h
  obtain ⟨routes, hroutesPerm, hroutesNone⟩ := exists_perm_none hroutes
  obtain ⟨qualified, hqualifiedPerm, hqualifiedNone⟩ := exists_perm_none hqualified
  obtain ⟨models, hmodelsPerm, hmodelsFirst⟩ :=
    exists_perm_first (List.mem_map_of_mem (f := modelChoice) hm)
  have hperm : List.Forall₂ List.Perm (candidates values requested)
      [[aliasChoice values requested], routes, qualified, models] :=
    .cons (.refl _) (.cons hroutesPerm (.cons hqualifiedPerm (.cons hmodelsPerm .nil)))
  obtain ⟨values', hreordered, hcandidates⟩ := exists_reordered hperm
  refine ⟨values', hreordered, ?_⟩
  rw [choose_eq, hcandidates]
  simp only [cascade, hroutesNone, hqualifiedNone, hmodelsFirst, halias]
  rfl

theorem resolveIn_of_choose_model {providerId modelId : String}
    (h : choose values requested = some (.model providerId modelId)) :
    resolveIn values requested = some (.single providerId modelId) := by
  obtain ⟨r, hr, hchoice⟩ := Option.map_eq_some_iff.mp h
  cases r with
  | single p id =>
    obtain ⟨rfl, rfl⟩ := Choice.model.inj hchoice
    exact hr
  | route row targets => cases hchoice

theorem isSome_of_servable (hm : snap.ModelsById) {id : String} (h : snap.models id = some m)
    (hs : snap.Servable (.single m.providerId m.id)) : (snap.providers m.providerId).isSome := by
  obtain ⟨m', hm', -, -, provider, hprovider, -⟩ := hs
  rw [hm id m h, h] at hm'
  obtain rfl := Option.some.inj hm'
  exact Option.isSome_of_eq_some hprovider

theorem served_of_servable (hm : snap.ModelsById)
    (h : ∀ values', Reordered values values' → ∀ r, resolveIn values' requested = some r →
      snap.Servable r) : snap.AliasServed requested ∧ ModelsServed values requested := by
  constructor
  · intro entry m hentry htype hmodel henabled
    have halias : resolveAlias values requested = some (.single m.providerId m.id) := by
      simp [resolveAlias, hentry, htype, hmodel, resolveModel, henabled]
    refine isSome_of_servable hm hmodel (h values ⟨.refl _, .refl _, .refl _, .refl _⟩ _ ?_)
    rw [resolveIn, halias, Option.some_or]
  · intro hreaches m hnamed
    obtain ⟨values', hreordered, hchoose⟩ := exists_resolveIn_model hreaches hnamed
    obtain ⟨id, hid⟩ := (values.mem_models m).mp (List.mem_filter.mp hnamed).1
    exact isSome_of_servable hm hid (h values' hreordered _ (resolveIn_of_choose_model hchoose))

/-- In the snapshot of a configuration, a name resolves to what can be served in every order of the
maps exactly if its alias and, where they are reached, its bare upstream id do not stand for a model
whose provider is disabled. -/
theorem resolution_servable_iff {db : Tables} (h : (db.models.map ModelRow.id).Nodup)
    (values : Iteration (snapshotOf db)) (requested : String) :
    (∀ values', Reordered values values' → ∀ r, resolveIn values' requested = some r →
      (snapshotOf db).Servable r) ↔
      (snapshotOf db).AliasServed requested ∧ ModelsServed values requested := by
  have hm := modelsById_snapshotOf db
  constructor
  · exact served_of_servable hm
  · rintro ⟨halias, hmodels⟩ values' hreordered r hr
    exact servable_of_served (providersEnabled_snapshotOf db) hm (upstreamSound_snapshotOf h) halias
      hmodels hreordered hr

theorem resolution_servable_offers : (resolveIn offersInOrder "large").isSome = true ∧
    ∀ values', Reordered offersInOrder values' →
      ∀ r, resolveIn values' "large" = some r → (snapshotOf twoOffers).Servable r := by
  refine ⟨by decide +kernel,
    (resolution_servable_iff (by decide) offersInOrder "large").mpr ⟨?_, ?_⟩⟩
  · intro entry m hentry
    exact (Option.some_ne_none entry hentry.symm).elim
  · intro _ m hm
    have hmem := (List.mem_filter.mp hm).1
    rw [providers_twoOffers]
    rcases List.mem_pair.mp hmem with rfl | rfl <;> rfl

/-- Of two providers that offer a model with the same upstream id, the first one is disabled. -/
def oneDisabled : Tables :=
  { twoOffers with
    providers := [{ offeringProvider "prov_1" "acme" with enabled := 0 },
      offeringProvider "prov_2" "globex"] }

def disabledFirst : Iteration (snapshotOf oneDisabled) where
  routes := []
  providers := [offeringProvider "prov_2" "globex"]
  accounts := []
  models := twoOffers.models
  mem_routes c :=
    ⟨fun h => absurd h List.not_mem_nil, fun ⟨_, h⟩ => (Option.some_ne_none c h.symm).elim⟩
  mem_providers p := by
    have hproviders : (snapshotOf oneDisabled).providers =
      Function.update (fun _ => none) "prov_2" (some (offeringProvider "prov_2" "globex")) := rfl
    rw [hproviders, List.mem_singleton]
    simp only [Function.update_apply, Option.ite_none_right_eq_some, Option.some.injEq]
    exact ⟨fun h => ⟨_, rfl, h.symm⟩, fun ⟨_, _, h⟩ => h.symm⟩
  mem_accounts a :=
    ⟨fun h => absurd h List.not_mem_nil, fun ⟨_, h⟩ => (Option.some_ne_none a h.symm).elim⟩
  mem_models m := by
    have hmodels : (snapshotOf oneDisabled).models = Function.update (Function.update
      (fun _ => none) "mod_1" (some (offeredModel "mod_1" "prov_1"))) "mod_2"
        (some (offeredModel "mod_2" "prov_2")) := rfl
    rw [hmodels]
    exact mem_values_two _ _ m (by decide)

/-- The model of the disabled provider shadows that of the other one. -/
theorem disabled_provider_shadows : ¬ ∀ (db : Tables), (db.models.map ModelRow.id).Nodup →
    ∀ (values : Iteration (snapshotOf db)) (requested : String) (r : Resolved),
      resolveIn values requested = some r → (snapshotOf db).Servable r := by
  intro hall
  obtain ⟨m, -, hprovider, -, provider, hpresent, -⟩ :=
    hall oneDisabled (by decide) disabledFirst "large" (.single "prov_1" "mod_1") rfl
  have hnone : (snapshotOf oneDisabled).providers "prov_1" = none := rfl
  rw [hprovider, hnone] at hpresent
  exact Option.some_ne_none provider hpresent.symm

end Snapshot
end Kinetix.Config
