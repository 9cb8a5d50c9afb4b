import Kinetix.Config.Registry
import Kinetix.Foundation.IpAddr

/-!
# Resolution of a requested model

`Registry::resolve_in` of `registry.rs`: a name stands for one model or for the targets of a route,
and the snapshot that a request holds decides which.

## Implementation notes

The order in which the values of a `HashMap` come is a parameter; one snapshot keeps its order. The
predicate and the overrides of a target are left out.
-/

namespace Kinetix.Config
open Statements

/-- `ResolvedTarget`. -/
structure ResolvedTarget where
  account : AccountRow
  model : ModelRow
  provider : ProviderRow
  routeTargetId : Option String
  priority : Int64
  weight : Int64
  deriving DecidableEq

inductive Resolved where
  | single (providerId modelId : String)
  | route (route : RouteRow) (targets : List ResolvedTarget)
  deriving DecidableEq

/-- The values of the maps of a snapshot, in the order in which they are iterated. -/
structure Iteration (snap : Snapshot) where
  routes : List RouteRow
  providers : List ProviderRow
  accounts : List AccountRow
  models : List ModelRow
  mem_routes : ∀ c, c ∈ routes ↔ ∃ id, snap.routes id = some c
  mem_providers : ∀ p, p ∈ providers ↔ ∃ id, snap.providers id = some p
  mem_accounts : ∀ a, a ∈ accounts ↔ ∃ id, snap.accounts id = some a
  mem_models : ∀ m, m ∈ models ↔ ∃ id, snap.models id = some m

namespace Snapshot
variable {snap : Snapshot} (values : Iteration snap)

/-- The accounts of a target: the pinned one, or all of the provider. -/
def targetAccounts (t : RouteTargetRow) (model : ModelRow) : List AccountRow :=
  match t.accountId with
  | some aid => ((snap.accounts aid).filter (·.providerId == model.providerId)).toList
  | none => values.accounts.filter (·.providerId == model.providerId)

/-- What one target of a route expands to. -/
def resolveTarget (t : RouteTargetRow) : List ResolvedTarget :=
  match snap.models t.modelId with
  | none => []
  | some model =>
    if model.enabled = 0 then []
    else match snap.providers model.providerId with
      | none => []
      | some provider =>
        (targetAccounts values t model).map fun account =>
          ⟨account, model, provider, some t.id, t.priority, t.weight⟩

/-- `Registry::build_route`. -/
def buildRoute (routeId : String) : Option Resolved :=
  match snap.routes routeId with
  | none => none
  | some route =>
    if route.enabled = 0 then none
    else
      let targets := ((snap.routeTargets routeId).getD []).flatMap (resolveTarget values)
      if targets.isEmpty then none else some (.route route targets)

/-- The single target of a model, if it is enabled. -/
def resolveModel (m : ModelRow) : Option Resolved :=
  if m.enabled ≠ 0 then some (.single m.providerId m.id) else none

/-- The alias table. -/
def resolveAlias (requested : String) : Option Resolved :=
  match snap.aliases requested with
  | none => none
  | some entry =>
    if entry.targetType = "route" then buildRoute values entry.targetId
    else (snap.models entry.targetId).bind resolveModel

/-- `provider/model-id`, the provider by name or id. -/
def resolveQualified (requested : String) : Option Resolved :=
  match Net.splitOnce '/' requested with
  | none => none
  | some (provPart, modelPart) =>
    match values.providers.find? fun p => p.name == provPart || p.id == provPart with
    | none => none
    | some p =>
      ((snap.modelByUpstream (p.id, modelPart)).bind snap.models).bind resolveModel

/-- `Registry::resolve_in`. -/
def resolveIn (requested : String) : Option Resolved :=
  (resolveAlias values requested).or <|
  ((values.routes.find? (·.name == requested)).bind fun route => buildRoute values route.id).or <|
  (resolveQualified values requested).or <|
  (values.models.find? fun m => m.upstreamId == requested && m.enabled != 0).map fun m =>
    .single m.providerId m.id

end Snapshot

/-! ## The models of a resolution -/

namespace Snapshot
variable {snap : Snapshot}

/-- The models are found by their own ids. -/
def ModelsById (snap : Snapshot) : Prop := ∀ id m, snap.models id = some m → m.id = id

theorem ModelsById.empty : ModelsById {} := by
  intro id m h
  cases h

variable {targets : List ResolvedTarget} {target : ResolvedTarget} {route : RouteRow}

/-- The models of the targets of a route are those of the snapshot. -/
theorem models_of_mem_resolveTarget (h : snap.ModelsById) (values : Iteration snap)
    {t : RouteTargetRow} (ht : target ∈ resolveTarget values t) :
    snap.models target.model.id = some target.model := by
  unfold resolveTarget at ht
  cases hm : snap.models t.modelId with
  | none => simp [hm] at ht
  | some model =>
    simp only [hm] at ht
    split at ht
    · cases ht
    · split at ht
      · cases ht
      · obtain ⟨account, -, rfl⟩ := List.mem_map.mp ht
        rw [← hm, h _ _ hm]

theorem models_of_buildRoute (h : snap.ModelsById) (values : Iteration snap) {routeId : String}
    (hr : buildRoute values routeId = some (.route route targets)) (ht : target ∈ targets) :
    snap.models target.model.id = some target.model := by
  unfold buildRoute at hr
  split at hr
  · cases hr
  · split at hr
    · cases hr
    · dsimp only at hr
      split at hr
      · cases hr
      · cases hr
        obtain ⟨t, -, ht⟩ := List.mem_flatMap.mp ht
        exact models_of_mem_resolveTarget h values ht

theorem resolveModel_ne_route (m : ModelRow) (route : RouteRow) (targets : List ResolvedTarget) :
    resolveModel m ≠ some (.route route targets) := by
  unfold resolveModel
  split
  · exact fun h => Resolved.noConfusion (Option.some.inj h)
  · exact Option.some_ne_none _ |>.symm

theorem bind_resolveModel_ne_route (o : Option ModelRow) (route : RouteRow)
    (targets : List ResolvedTarget) : o.bind resolveModel ≠ some (.route route targets) := by
  intro h
  obtain ⟨m, -, hm⟩ := Option.bind_eq_some_iff.mp h
  exact resolveModel_ne_route m route targets hm

/-- A route comes from the table of routes, whatever name led to it. -/
theorem buildRoute_of_resolveIn {values : Iteration snap} {requested : String}
    (h : resolveIn values requested = some (.route route targets)) :
    ∃ routeId, buildRoute values routeId = some (.route route targets) := by
  unfold resolveIn at h
  rw [Option.or_eq_some_iff] at h
  rcases h with h | ⟨-, h⟩
  · unfold resolveAlias at h
    split at h
    · cases h
    · split at h
      · exact ⟨_, h⟩
      · exact absurd h (bind_resolveModel_ne_route _ route targets)
  rw [Option.or_eq_some_iff] at h
  rcases h with h | ⟨-, h⟩
  · obtain ⟨row, -, hrow⟩ := Option.bind_eq_some_iff.mp h
    exact ⟨row.id, hrow⟩
  rw [Option.or_eq_some_iff] at h
  rcases h with h | ⟨-, h⟩
  · unfold resolveQualified at h
    split at h
    · cases h
    · split at h
      · cases h
      · exact absurd h (bind_resolveModel_ne_route _ route targets)
  · obtain ⟨m, -, hm⟩ := Option.map_eq_some_iff.mp h
    cases hm

/-- The models of the targets of a route are those of the snapshot. -/
theorem models_of_resolveIn (h : snap.ModelsById) {values : Iteration snap} {requested : String}
    (hr : resolveIn values requested = some (.route route targets)) (ht : target ∈ targets) :
    snap.models target.model.id = some target.model := by
  obtain ⟨routeId, hroute⟩ := buildRoute_of_resolveIn hr
  exact models_of_buildRoute h values hroute ht

/-! ## What a reload builds -/

theorem models_addProvider (snap : Snapshot) (p : ProviderRow) :
    (snap.addProvider p).models = snap.models := by
  unfold addProvider
  split <;> rfl

theorem models_addAccount (snap : Snapshot) (a : AccountRow) :
    (snap.addAccount a).models = snap.models := by
  unfold addAccount
  split <;> rfl

theorem ModelsById.addModel (h : snap.ModelsById) (m : ModelRow) :
    (snap.addModel m).ModelsById := by
  intro id m' hm
  by_cases heq : id = m.id
  · subst heq
    have hself : (snap.addModel m).models m.id = some m := Function.update_self _ _ _
    rw [hself] at hm
    rw [Option.some.inj hm]
  · have hold : (snap.addModel m).models id = snap.models id := Function.update_of_ne heq _ _
    exact h id m' (hold ▸ hm)

/-- Steps that each keep a property keep it together. -/
theorem ModelsById.foldl {α : Type} {add : Snapshot → α → Snapshot}
    (hadd : ∀ snap x, ModelsById snap → (add snap x).ModelsById) (h : snap.ModelsById)
    (rows : List α) : (rows.foldl add snap).ModelsById := by
  induction rows generalizing snap with
  | nil => exact h
  | cons x rows ih => exact ih (hadd snap x h)

theorem ModelsById.readRoutes (h : snap.ModelsById) (ans : (q : Query) → Option q.Rows)
    (routes : List RouteRow) {loaded : Snapshot}
    (hr : (Config.readRoutes snap routes).run.answer ans = some loaded) : loaded.ModelsById := by
  induction routes generalizing snap with
  | nil =>
    cases hr
    exact h
  | cons c routes ih =>
    rw [Config.readRoutes, select, Fallible.answer_one_bind] at hr
    obtain ⟨targets, -, hr⟩ := Option.bind_eq_some_iff.mp hr
    exact @ih (snap.addRoute c targets) h hr

/-- A snapshot that a reload built, whatever each of its reads saw. -/
def Loaded (snap : Snapshot) : Prop :=
  ∃ ans : (q : Query) → Option q.Rows, reload.run.answer ans = some snap

theorem Loaded.modelsById (h : snap.Loaded) : snap.ModelsById := by
  obtain ⟨ans, h⟩ := h
  simp only [reload, select, Fallible.answer_one_bind, Option.bind_eq_some_iff] at h
  obtain ⟨providers, -, accounts, -, models, -, aliases, -, routes, -, h⟩ := h
  refine ModelsById.readRoutes ?_ ans routes h
  refine ModelsById.foldl (fun snap (a : AliasRow) hsnap => show (snap.addAlias a).ModelsById from
    hsnap) ?_ aliases
  refine ModelsById.foldl (fun snap m hsnap => hsnap.addModel m) ?_ models
  refine ModelsById.foldl (fun snap a hsnap => ?_) ?_ accounts
  · rwa [ModelsById, models_addAccount]
  refine ModelsById.foldl (fun snap p hsnap => ?_) ModelsById.empty providers
  rwa [ModelsById, models_addProvider]

end Snapshot

end Kinetix.Config
