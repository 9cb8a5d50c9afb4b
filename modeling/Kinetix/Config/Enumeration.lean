import Kinetix.Config.Resolution
import Kinetix.Library.Cascade

/-!
# Resolution and the order of the maps

`resolve_in` searches the values of three maps, in the order in which a map happens to give them:
the routes by name, the providers by name or id, and the models by their upstream id. The order in
which the providers were read is kept beside the map, and nothing reads it. What a name resolves to
is fixed exactly if all the candidates of each search that is reached agree.
-/

namespace Kinetix.Config
open Cascade

/-- Which provider and model, or which route. -/
inductive Choice where
  | model (providerId modelId : String)
  | route (routeId : String)
  deriving DecidableEq

def Resolved.choice : Resolved → Choice
  | .single providerId modelId => .model providerId modelId
  | .route row _ => .route row.id

namespace Snapshot
variable {snap : Snapshot} {values values' : Iteration snap} {requested : String}

/-- The same values, in another order. -/
structure Reordered (values values' : Iteration snap) : Prop where
  routes : values.routes.Perm values'.routes
  providers : values.providers.Perm values'.providers
  accounts : values.accounts.Perm values'.accounts
  models : values.models.Perm values'.models

/-- What a name resolves to, without the order of the targets of a route. -/
def choose (values : Iteration snap) (requested : String) : Option Choice :=
  (resolveIn values requested).map Resolved.choice

/-! ## The candidates of each search -/

def aliasChoice (values : Iteration snap) (requested : String) : Option Choice :=
  (resolveAlias values requested).map Resolved.choice

def routeChoice (values : Iteration snap) (route : RouteRow) : Option Choice :=
  (buildRoute values route.id).map Resolved.choice

def providerChoice (snap : Snapshot) (modelPart : String) (p : ProviderRow) : Option Choice :=
  (((snap.modelByUpstream (p.id, modelPart)).bind snap.models).bind resolveModel).map
    Resolved.choice

def modelChoice (m : ModelRow) : Option Choice := some (.model m.providerId m.id)

def routesNamed (values : Iteration snap) (requested : String) : List RouteRow :=
  values.routes.filter (·.name == requested)

/-- The providers that the part of a name before a slash can stand for. -/
def providersNamed (values : Iteration snap) (provPart : String) : List ProviderRow :=
  values.providers.filter fun p => p.name == provPart || p.id == provPart

/-- The enabled models with an upstream id. -/
def modelsNamed (values : Iteration snap) (requested : String) : List ModelRow :=
  values.models.filter fun m => m.upstreamId == requested && m.enabled != 0

/-- What the candidates of the search for a provider give. -/
def qualifiedChoices (values : Iteration snap) (requested : String) : List (Option Choice) :=
  match Net.splitOnce '/' requested with
  | none => []
  | some (provPart, modelPart) =>
    (providersNamed values provPart).map (providerChoice snap modelPart)

/-- What the candidates of the lookups give, in the order of the lookups. -/
def candidates (values : Iteration snap) (requested : String) : List (List (Option Choice)) :=
  [[aliasChoice values requested], (routesNamed values requested).map (routeChoice values),
    qualifiedChoices values requested, (modelsNamed values requested).map modelChoice]

/-- The candidates agree: there is one result that each of them gives, or nothing where a later
lookup may decide. -/
def Agree (values : Iteration snap) (requested : String) : Prop :=
  ∃ r, Yields (candidates values requested) r

theorem routes_choice (values : Iteration snap) (requested : String) :
    ((values.routes.find? (·.name == requested)).bind fun route =>
      buildRoute values route.id).map Resolved.choice =
        first ((routesNamed values requested).map (routeChoice values)) := by
  rw [Option.map_bind]
  exact find?_bind _ _ _

theorem qualified_choice (values : Iteration snap) (requested : String) :
    (resolveQualified values requested).map Resolved.choice =
      first (qualifiedChoices values requested) := by
  unfold resolveQualified qualifiedChoices
  cases Net.splitOnce '/' requested with
  | none => rfl
  | some parts =>
    dsimp only
    rw [providersNamed, ← find?_bind]
    cases values.providers.find? fun p => p.name == parts.1 || p.id == parts.1 <;> rfl

theorem models_choice (values : Iteration snap) (requested : String) :
    ((values.models.find? fun m => m.upstreamId == requested && m.enabled != 0).map
      fun m => Resolved.single m.providerId m.id).map Resolved.choice =
        first ((modelsNamed values requested).map modelChoice) := by
  rw [modelsNamed, ← find?_bind]
  cases values.models.find? fun m => m.upstreamId == requested && m.enabled != 0 <;> rfl

theorem choose_eq (values : Iteration snap) (requested : String) :
    choose values requested = cascade (candidates values requested) := by
  unfold choose resolveIn candidates
  rw [Option.map_or, Option.map_or, Option.map_or, routes_choice, qualified_choice, models_choice]
  simp only [cascade, Option.or_none]
  rfl

/-! ## Routes -/

/-- Whether a target expands to something does not depend on the order of the accounts. -/
theorem resolveTarget_eq_nil (values values' : Iteration snap) (t : RouteTargetRow) :
    resolveTarget values t = [] ↔ resolveTarget values' t = [] := by
  have haccounts : ∀ model : ModelRow,
      targetAccounts values t model = [] ↔ targetAccounts values' t model = [] := by
    intro model
    unfold targetAccounts
    cases t.accountId with
    | some aid => exact Iff.rfl
    | none =>
      dsimp only
      rw [List.filter_eq_nil_iff, List.filter_eq_nil_iff]
      refine forall_congr' fun a => ?_
      rw [values.mem_accounts, values'.mem_accounts]
  unfold resolveTarget
  cases snap.models t.modelId with
  | none => exact Iff.rfl
  | some model =>
    dsimp only
    split
    · exact Iff.rfl
    · cases snap.providers model.providerId with
      | none => exact Iff.rfl
      | some provider =>
        rw [List.map_eq_nil_iff, List.map_eq_nil_iff]
        exact haccounts model

/-- Whether a route can be built, and its id, do not depend on the order. -/
theorem buildRoute_choice (values values' : Iteration snap) (routeId : String) :
    (buildRoute values routeId).map Resolved.choice =
      (buildRoute values' routeId).map Resolved.choice := by
  unfold buildRoute
  cases snap.routes routeId with
  | none => rfl
  | some route =>
    dsimp only
    split
    · rfl
    · have hempty : (((snap.routeTargets routeId).getD []).flatMap
          (resolveTarget values)).isEmpty = (((snap.routeTargets routeId).getD []).flatMap
            (resolveTarget values')).isEmpty := by
        rw [Bool.eq_iff_iff, List.isEmpty_iff, List.isEmpty_iff, List.flatMap_eq_nil_iff,
          List.flatMap_eq_nil_iff]
        exact forall₂_congr fun t _ => resolveTarget_eq_nil values values' t
      rw [hempty]
      split <;> rfl

theorem routeChoice_eq (values values' : Iteration snap) :
    routeChoice values = routeChoice values' :=
  funext fun route => buildRoute_choice values values' route.id

theorem aliasChoice_eq (values values' : Iteration snap) (requested : String) :
    aliasChoice values requested = aliasChoice values' requested := by
  unfold aliasChoice resolveAlias
  cases snap.aliases requested with
  | none => rfl
  | some entry =>
    dsimp only
    split
    · exact buildRoute_choice values values' entry.targetId
    · rfl

/-! ## Orders -/

/-- The same values in orders of one's own. -/
def reorder (values : Iteration snap) {routes : List RouteRow} {providers : List ProviderRow}
    {models : List ModelRow} (hroutes : values.routes.Perm routes)
    (hproviders : values.providers.Perm providers) (hmodels : values.models.Perm models) :
    Iteration snap where
  routes
  providers
  accounts := values.accounts
  models
  mem_routes c := hroutes.mem_iff.symm.trans (values.mem_routes c)
  mem_providers p := hproviders.mem_iff.symm.trans (values.mem_providers p)
  mem_accounts := values.mem_accounts
  mem_models m := hmodels.mem_iff.symm.trans (values.mem_models m)

theorem candidates_perm (h : Reordered values values') (requested : String) :
    List.Forall₂ List.Perm (candidates values requested) (candidates values' requested) := by
  refine .cons ?_ (.cons ?_ (.cons ?_ (.cons ?_ .nil)))
  · rw [aliasChoice_eq values values']
  · rw [routeChoice_eq values values']
    exact (h.routes.filter _).map _
  · unfold qualifiedChoices
    cases Net.splitOnce '/' requested with
    | none => exact .refl _
    | some parts => exact (h.providers.filter _).map _
  · exact (h.models.filter _).map _

theorem exists_perm_qualified {choices : List (Option Choice)}
    (h : (qualifiedChoices values requested).Perm choices) :
    ∃ providers, values.providers.Perm providers ∧ ∀ values' : Iteration snap,
      values'.providers = providers → qualifiedChoices values' requested = choices := by
  unfold qualifiedChoices at h ⊢
  cases hsplit : Net.splitOnce '/' requested with
  | none =>
    simp only [hsplit] at h
    exact ⟨values.providers, .refl _, fun _ _ => h.nil_eq⟩
  | some parts =>
    simp only [hsplit] at h
    obtain ⟨providers, hperm, hchoices⟩ := exists_perm_candidates h
    refine ⟨providers, hperm, fun values' heq => ?_⟩
    dsimp only
    rw [providersNamed, heq]
    exact hchoices

/-- Every order of the candidates is the one in some order of the maps. -/
theorem exists_reordered {lookups : List (List (Option Choice))}
    (h : List.Forall₂ List.Perm (candidates values requested) lookups) :
    ∃ values', Reordered values values' ∧ candidates values' requested = lookups := by
  unfold candidates at h
  rcases h with _ | ⟨halias, _ | ⟨hroutes, _ | ⟨hqualified, _ | ⟨hmodels, _ | _⟩⟩⟩⟩
  obtain ⟨routes, hroutes, hroutesEq⟩ := exists_perm_candidates hroutes
  obtain ⟨providers, hproviders, hprovidersEq⟩ := exists_perm_qualified hqualified
  obtain ⟨models, hmodels, hmodelsEq⟩ := exists_perm_candidates hmodels
  refine ⟨reorder values hroutes hproviders hmodels,
    ⟨hroutes, hproviders, .refl _, hmodels⟩, ?_⟩
  rw [candidates, hprovidersEq _ rfl, ← List.singleton_perm.mp halias, ← hroutesEq, ← hmodelsEq,
    aliasChoice_eq (reorder values hroutes hproviders hmodels) values,
    routeChoice_eq (reorder values hroutes hproviders hmodels) values]
  rfl

/-- A name resolves to the same in every order of the maps exactly if the candidates agree. -/
theorem resolution_independent_iff (values : Iteration snap) (requested : String) :
    (∀ values', Reordered values values' → choose values' requested = choose values requested) ↔
      Agree values requested := by
  constructor
  · intro h
    refine ⟨choose values requested, yields_iff.mpr fun lookups hperm => ?_⟩
    obtain ⟨values', hreordered, rfl⟩ := exists_reordered hperm
    exact (choose_eq values' requested).symm.trans (h values' hreordered)
  · rintro ⟨r, hr⟩ values' hreordered
    have horders := yields_iff.mp hr
    rw [choose_eq, choose_eq, horders _ (candidates_perm hreordered requested),
      cascade_eq_of_yields hr]

/-! ## Two offers of one model -/

def offeringProvider (id name : String) : ProviderRow :=
  ⟨id, name, "https://upstream.example", "openai", "bearer", none, none, "{}", 1000, "permissive",
    none, "{}", 1, 0, "", 0, "", "", "", "", "manual", none, none⟩

def offeredModel (id providerId : String) : ModelRow :=
  ⟨id, providerId, "large", "Large", 1, none, none, "{}", "{}", "{}", "{}", "{}", "{}", "", ""⟩

/-- Two enabled providers that both offer a model with the same upstream id. -/
def twoOffers : Tables where
  providers := [offeringProvider "prov_1" "acme", offeringProvider "prov_2" "globex"]
  accounts := []
  models := [offeredModel "mod_1" "prov_1", offeredModel "mod_2" "prov_2"]
  aliases := []
  routes := []
  routeTargets := []

theorem models_twoOffers : (snapshotOf twoOffers).models =
    Function.update (Function.update (fun _ => none) "mod_1" (some (offeredModel "mod_1" "prov_1")))
      "mod_2" (some (offeredModel "mod_2" "prov_2")) := rfl

theorem providers_twoOffers : (snapshotOf twoOffers).providers =
    Function.update (Function.update (fun _ => none) "prov_1"
      (some (offeringProvider "prov_1" "acme"))) "prov_2"
        (some (offeringProvider "prov_2" "globex")) := rfl

/-- The values of a map with two entries. -/
theorem mem_values_two {ρ : Type} {k l : String} (x y z : ρ) (hne : k ≠ l) :
    z ∈ [x, y] ↔ ∃ id, Function.update (Function.update (fun _ => none) k (some x)) l (some y) id =
      some z := by
  rw [List.mem_pair]
  constructor
  · rintro (rfl | rfl)
    · exact ⟨k, by rw [Function.update_of_ne hne, Function.update_self]⟩
    · exact ⟨l, Function.update_self ..⟩
  · rintro ⟨id, h⟩
    simp only [Function.update_apply] at h
    split at h
    · exact .inr (Option.some.inj h).symm
    · split at h
      · exact .inl (Option.some.inj h).symm
      · cases h

/-- The maps in the order of the tables. -/
def offersInOrder : Iteration (snapshotOf twoOffers) where
  routes := []
  providers := twoOffers.providers
  accounts := []
  models := twoOffers.models
  mem_routes c :=
    ⟨fun h => absurd h List.not_mem_nil, fun ⟨_, h⟩ => (Option.some_ne_none c h.symm).elim⟩
  mem_providers p := by
    rw [providers_twoOffers]
    exact mem_values_two _ _ p (by decide)
  mem_accounts a :=
    ⟨fun h => absurd h List.not_mem_nil, fun ⟨_, h⟩ => (Option.some_ne_none a h.symm).elim⟩
  mem_models m := by
    rw [models_twoOffers]
    exact mem_values_two _ _ m (by decide)

/-- A bare upstream id that two providers offer goes to the one whose model comes first. -/
theorem resolution_depends_on_order : ¬ ∀ (snap : Snapshot) (values values' : Iteration snap)
    (requested : String), Reordered values values' →
      choose values' requested = choose values requested := by
  intro hall
  have hswap : offersInOrder.models.Perm twoOffers.models.reverse := (List.reverse_perm _).symm
  have hsame := hall _ offersInOrder (reorder offersInOrder (.refl _) (.refl _) hswap) "large"
    ⟨.refl _, .refl _, .refl _, hswap⟩
  have hfirst : choose offersInOrder "large" = some (.model "prov_1" "mod_1") := rfl
  have hsecond : choose (reorder offersInOrder (.refl _) (.refl _) hswap) "large" =
      some (.model "prov_2" "mod_2") := rfl
  rw [hfirst, hsecond] at hsame
  exact absurd hsame (by decide)

end Snapshot
end Kinetix.Config
