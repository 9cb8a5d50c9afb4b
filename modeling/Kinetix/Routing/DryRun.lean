import Kinetix.Foundation.Types
import Kinetix.Library.Unwinding
import Kinetix.Predicates.Eval
import Kinetix.Routing.Fairness

/-!
# Dry runs

`dry_run` of `pipeline.rs` among real requests. Both resolve a model and order the candidates of its
route with the same functions, and `order_route_targets` advances the round-robin counter of the
route for either.

## Implementation notes

What a request and a dry run read besides the counters is a view of the rest of the state: the
registry, the database, the traffic and quota observations. How a real request filters and arranges
its candidates, and what its attempts do to the rest of the state, is arbitrary. `none` is a panic.
-/

namespace Kinetix.Routing
open Json Kinetix.Types Predicates StateMachine

/-- What the dry run reads of a route. -/
structure RouteRow where
  id : String
  name : String
  strategy : String

/-- `Resolved`. -/
inductive Resolution where
  | single (providerId modelId : String)
  | route (route : RouteRow) (targets : List ResolvedTarget)

/-- What a request needs of a model. -/
structure CapabilityNeeds where
  vision : Bool
  tools : Bool
  reasoning : Bool

/-- What a dry run reads of a candidate besides its place in the route. -/
structure TargetInfo where
  modelDisplay : String
  accountLabel : String
  providerName : String
  facts : TargetFacts
  predicate : TargetPredicate
  /-- `target_profile_supports_request`. -/
  supports : CapabilityNeeds → Bool

/-- The rest of the state, as ordering and dry runs read it. -/
structure View (F : Type) where
  world : World F
  resolve : String → Option Resolution
  hasModel : String → Bool
  hasProvider : String → Bool
  /-- The accounts of a provider. -/
  accounts : String → List AccountRow
  info : ResolvedTarget → TargetInfo

/-- `rr_counters`. -/
abbrev Counters := String → UInt64

/-- `DryRunRequest`. -/
structure DryRunRequest where
  frontend : Option String := none
  keyTag : Option String := none
  hasTools : Bool := false
  hasImages : Bool := false
  hasReasoning : Bool := false
  inputTokens : Option UInt64 := none
  allowedProviders : List String := []
  softQuotaReached : Bool := false

/-- What a request needs of a target. -/
def DryRunRequest.needs (descriptor : DryRunRequest) : CapabilityNeeds :=
  ⟨descriptor.hasImages, descriptor.hasTools, descriptor.hasReasoning⟩

/-- The facts of a request as the dry run describes it. -/
def DryRunRequest.requestFacts (descriptor : DryRunRequest) (requestedModel : String)
    (route : Option RouteRow) : RequestFacts where
  frontend := descriptor.frontend.getD "openai"
  requestedModel := requestedModel
  requestedRoute := route.map RouteRow.name
  keyTag := descriptor.keyTag
  hasTools := descriptor.hasTools
  hasImages := descriptor.hasImages
  hasReasoning := descriptor.hasReasoning
  inputTokens := descriptor.inputTokens.getD 0

/-- The checks that do not depend on the account. -/
structure Checks where
  eligibility : Eligibility
  capsOk : Bool
  ctxOk : Bool
  providerAllowed : Bool

/-- A candidate as the dry run reports it. -/
structure Report where
  wouldSelect : Bool
  label : String
  json : Value

def optionString (s : Option String) : Value := (s.map Value.string).getD .null

/-- Why a candidate is not selected. -/
def notSelectedReasons (checks : Checks) (accountEligible quotaOk adaptiveCapacityOk : Bool) :
    List String :=
  ((if !checks.eligibility.eligible then ["predicate"] else []) ++
    (if !accountEligible then ["account_state"] else []) ++
    (if !checks.capsOk then ["capabilities"] else []) ++
    (if !checks.ctxOk then ["context_window"] else []) ++
    (if !checks.providerAllowed then ["provider_not_permitted"] else []) ++
    (if !quotaOk then ["soft_quota"] else []) ++
    (if !adaptiveCapacityOk then ["adaptive_saturated"] else []))

def triText : Tri → String
  | .yes => "true"
  | .no => "false"
  | .unknown => "unknown"

/-- The label of the candidate that would be selected: the first one of the best rank. -/
def select (rank : String → Option Nat) : List (ResolvedTarget × Report) →
    Option (Nat × String) → Option String
  | [], best => best.map Prod.snd
  | (t, report) :: rest, best =>
    let place := (rank (adaptiveCandidateKey t)).getD 0
    if report.wouldSelect && (best.all fun b => decide (place < b.1)) then
      select rank rest (some (place, report.label))
    else select rank rest best

/-- A request of a client, with what it knows besides the state. -/
structure RealRequest (σ : Type) where
  model : String
  now : Int
  draws : Draws
  /-- The filters: predicates, the providers of the key, the context window. -/
  keeps : σ → ResolvedTarget → Bool
  /-- The deferral of open circuits and the promotion of the session's target. -/
  arrange : σ → List ResolvedTarget → List ResolvedTarget

/-- The candidates of a request in the order in which they are tried. -/
abbrev Plan := Option (Except ProxyError (List ResolvedTarget))

namespace View
variable {F : Type} [LinearOrder F] (v : View F)

/-- `select_accounts` without a preferred account. -/
def selectAccounts (now : Int) (providerId : String) (draws : Draws) :
    Option (List AccountRow × Draws) :=
  let accounts := v.accounts providerId
  let available := accounts.filter fun a => a.effectiveStatus v.world.rfc now == .healthy
  orderAccounts (if available.isEmpty then accounts else available) none draws

/-- `order_route_targets`, which advances the counter of a round-robin route. -/
def orderRoute (now : Int) (counters : Counters) (route : RouteRow) (targets : List ResolvedTarget)
    (draws : Draws) : Option (OrderedRouteTargets F) × Counters :=
  let w := { v.world with now, counter := (counters route.id).toNat, draws }
  match orderRouteTargets w route.strategy targets with
  | none => (none, counters)
  | some ordered =>
    (some ordered,
      if route.strategy = "round-robin" then
        Function.update counters route.id (counters route.id + 1)
      else counters)

/-- The candidates of a model before any filter; those of an adaptive route are not ordered yet. -/
def resolveCandidates (now : Int) (counters : Counters) (requestedModel unknownModel : String)
    (draws : Draws) :
    Option (Except ProxyError (List ResolvedTarget × Option RouteRow)) × Counters :=
  match v.resolve requestedModel with
  | none => (some (.error (.notFound unknownModel)), counters)
  | some (.single providerId modelId) =>
    if !v.hasModel modelId then (some (.error (.notFound "model not found")), counters)
    else if !v.hasProvider providerId then
      (some (.error (.notFound "provider not found")), counters)
    else
      ((v.selectAccounts now providerId draws).map fun selected =>
        .ok (selected.1.map fun account =>
          { account, modelId, providerId, routeTargetId := none, priority := 1, weight := 1 },
          none), counters)
  | some (.route route targets) =>
    if route.strategy = "adaptive" then (some (.ok (targets, some route)), counters)
    else
      let (ordered, counters) := v.orderRoute now counters route targets draws
      (ordered.map fun ordered => .ok (ordered.targets, some route), counters)

/-! ## The report of a dry run -/

section
variable (floatText : ℚ → String) (now : Int) (descriptor : DryRunRequest)

/-- What is checked of a target. -/
def checkTarget (facts : RequestFacts) (t : ResolvedTarget) : Option Checks :=
  let info := v.info t
  (eligibility floatText facts info.facts info.predicate).map fun elig =>
    { eligibility := elig
      capsOk := info.supports descriptor.needs
      ctxOk := (info.facts.contextWindow.map fun c =>
        decide (c.toInt ≤ 0) || decide ((facts.inputTokens.toNat : Int) ≤ c.toInt)).getD true
      providerAllowed :=
        descriptor.allowedProviders.isEmpty || descriptor.allowedProviders.contains t.providerId }

/-- The candidates that an adaptive dry run ranks. -/
def hardEligible (facts : RequestFacts) : List ResolvedTarget → Option (List ResolvedTarget)
  | [] => some []
  | t :: ts => do
    let checks ← v.checkTarget floatText descriptor facts t
    let rest ← hardEligible facts ts
    some (if checks.eligibility.eligible && checks.capsOk && checks.ctxOk &&
      checks.providerAllowed then t :: rest else rest)

/-- `adaptive_rank`: the places of the candidates in the adaptive order, by their keys. -/
def rankCandidates (counters : Counters) (facts : RequestFacts) (route : Option RouteRow)
    (targets : List ResolvedTarget) (draws : Draws) : Option (String → Option Nat) × Counters :=
  match route with
  | some route =>
    if route.strategy = "adaptive" then
      match v.hardEligible floatText descriptor facts targets with
      | none => (none, counters)
      | some eligible =>
        let (ordered, counters) := v.orderRoute now counters route eligible draws
        (ordered.map fun ordered key =>
          -- A later place of the same key replaces an earlier one.
          (ordered.targets.map adaptiveCandidateKey).zipIdx.reverse.lookup key, counters)
    else (some fun _ => none, counters)
  | none => (some fun _ => none, counters)

/-- What the dry run reports of a target. -/
def reportTarget (facts : RequestFacts) (adaptiveRoute : Bool) (t : ResolvedTarget) :
    Option Report :=
  (v.checkTarget floatText descriptor facts t).map fun checks =>
    let info := v.info t
    let status := t.account.effectiveStatus v.world.rfc now
    let halfOpenProbe := status == .circuitOpen && t.account.shouldProbe v.world.rfc now
    let accountEligible := status == .healthy || halfOpenProbe
    let quotaOk := !descriptor.softQuotaReached
    let adaptiveCapacityOk :=
      if adaptiveRoute then (v.world.trafficSnapshot t).hasCapacity else true
    let wouldSelect := checks.eligibility.eligible && accountEligible && checks.capsOk &&
      checks.ctxOk && checks.providerAllowed && quotaOk && adaptiveCapacityOk
    let label := info.modelDisplay ++ " @ " ++ info.accountLabel
    { wouldSelect
      label
      json := .object [
        ("target", .string label),
        ("model", .string info.modelDisplay),
        ("model_id", .string t.modelId),
        ("provider", .string info.providerName),
        ("provider_id", .string t.providerId),
        ("account", .string info.accountLabel),
        ("account_id", .string t.account.id),
        ("account_status", .string status.asStr),
        ("half_open_probe", .bool halfOpenProbe),
        ("route_target_id", optionString t.routeTargetId),
        ("priority", .number (.int t.priority.toInt)),
        ("weight", .number (.int t.weight.toInt)),
        ("predicate_result", .string (triText checks.eligibility.result)),
        ("predicate_explanation", .string checks.eligibility.explanation),
        ("predicate_eligible", .bool checks.eligibility.eligible),
        ("capability_eligible", .bool checks.capsOk),
        ("context_eligible", .bool checks.ctxOk),
        ("provider_permitted", .bool checks.providerAllowed),
        ("quota_available", .bool quotaOk),
        ("adaptive_capacity_available",
          if adaptiveRoute then .bool adaptiveCapacityOk else .null),
        ("eligible", .bool wouldSelect),
        ("not_selected_reasons",
          .array ((notSelectedReasons checks accountEligible quotaOk adaptiveCapacityOk).map
            Value.string))] }

/-- `dry_run`. -/
def dryRun (counters : Counters) (requestedModel : String) (draws draws' : Draws) :
    Option (Except ProxyError Value) × Counters :=
  match v.resolveCandidates now counters requestedModel
    s!"model '{requestedModel}' is not configured" draws with
  | (none, counters) => (none, counters)
  | (some (.error error), counters) => (some (.error error), counters)
  | (some (.ok (targets, route)), counters) =>
    let facts := descriptor.requestFacts requestedModel route
    let adaptiveRoute := route.any (·.strategy == "adaptive")
    let (rank, counters) := v.rankCandidates floatText now descriptor counters facts route targets
      draws'
    (do
      let rank ← rank
      let reports ← targets.mapM (v.reportTarget floatText now descriptor facts adaptiveRoute)
      some (.ok (.object [
        ("requested_model", .string requestedModel),
        ("route", optionString (route.map RouteRow.name)),
        ("route_id", optionString (route.map RouteRow.id)),
        ("strategy", optionString (route.map RouteRow.strategy)),
        ("candidates", .array (reports.map Report.json)),
        ("would_select", optionString (select rank (targets.zip reports) none)),
        ("note", .string
          "Dry run only: no production state was mutated and no upstream call was made.")])),
      counters)

end

/-- The candidates of a real request. -/
def plan {σ : Type} (rest : σ) (counters : Counters) (r : RealRequest σ) : Plan × Counters :=
  match v.resolveCandidates r.now counters r.model ("model '" ++ r.model ++
    "' is not configured. Use GET /v1/models to list available models.") r.draws with
  | (none, counters) => (none, counters)
  | (some (.error error), counters) => (some (.error error), counters)
  | (some (.ok (targets, route)), counters) =>
    let kept := targets.filter (r.keeps rest)
    match route with
    | some route =>
      if route.strategy = "adaptive" then
        let (ordered, counters) := v.orderRoute r.now counters route kept r.draws
        (ordered.map fun ordered => .ok (r.arrange rest ordered.targets), counters)
      else (some (.ok (r.arrange rest kept)), counters)
    | none => (some (.ok (r.arrange rest kept)), counters)

end View

/-! ## Runs -/

variable {σ ω F : Type} [LinearOrder F]

/-- The counters and the rest of the state, with what was planned. -/
structure Live (σ ω : Type) where
  counters : Counters
  /-- The rest of the state. -/
  rest : σ
  /-- The candidates of the real requests, the last one first. -/
  plans : List (Nat × Plan)
  outcomes : List (Nat × ω)

inductive LiveAction (σ ω : Type) where
  /-- A real request resolves its model and orders its candidates. -/
  | plan (id : Nat) (r : RealRequest σ)
  /-- A later step of a real request, which may read all plans. -/
  | work (id : Nat) (act : σ → List (Nat × Plan) → σ × Option ω)
  | dryRun (now : Int) (requestedModel : String) (descriptor : DryRunRequest) (draws draws' : Draws)

def LiveAction.isReal : LiveAction σ ω → Bool
  | .plan _ _ => true
  | .work _ _ => true
  | .dryRun .. => false

section
variable (floatText : ℚ → String) (view : σ → View F)

def Live.step (s : Live σ ω) : LiveAction σ ω → Live σ ω
  | .plan id r =>
    let (plan, counters) := (view s.rest).plan s.rest s.counters r
    { s with counters, plans := (id, plan) :: s.plans }
  | .work id act =>
    let (rest, outcome) := act s.rest s.plans
    { s with rest, outcomes := (outcome.map fun o => (id, o)).toList ++ s.outcomes }
  | .dryRun now requestedModel descriptor draws draws' =>
    { s with counters :=
        ((view s.rest).dryRun floatText now descriptor s.counters requestedModel draws
          draws').2 }

/-- Real requests and dry runs in any order, from any state. -/
def liveMachine (start : Live σ ω) : Machine (Live σ ω) (LiveAction σ ω) where
  start := start
  step s a := some (s.step floatText view a)

end

/-- A dry run does not resolve to a round-robin route. -/
def LeavesCounters (view : σ → View F) (s : Live σ ω) : LiveAction σ ω → Prop
  | .dryRun _ requestedModel _ _ _ =>
    ∀ route targets, (view s.rest).resolve requestedModel = some (.route route targets) →
      route.strategy ≠ "round-robin"
  | _ => True

namespace View
variable {v : View F} {floatText : ℚ → String} {now : Int} {counters : Counters}

theorem orderRoute_counters {route : RouteRow} {targets : List ResolvedTarget} {draws : Draws}
    (h : route.strategy ≠ "round-robin") :
    (v.orderRoute now counters route targets draws).2 = counters := by
  simp only [orderRoute]
  split
  · rfl
  · exact if_neg h

theorem resolveCandidates_counters {requestedModel unknownModel : String} {draws : Draws}
    (h : ∀ route targets, v.resolve requestedModel = some (.route route targets) →
      route.strategy ≠ "round-robin") :
    (v.resolveCandidates now counters requestedModel unknownModel draws).2 = counters := by
  rw [resolveCandidates]
  split
  next => rfl
  next =>
    split
    · rfl
    · split <;> rfl
  next route targets hroute =>
    split
    · rfl
    · exact orderRoute_counters (h route targets hroute)

/-- An adaptive order has no counter. -/
theorem rankCandidates_counters {descriptor : DryRunRequest} {facts : RequestFacts}
    {route : Option RouteRow} {targets : List ResolvedTarget} {draws : Draws} :
    (v.rankCandidates floatText now descriptor counters facts route targets draws).2 =
      counters := by
  unfold rankCandidates
  split
  next route =>
    split
    next hadaptive =>
      split
      · rfl
      · refine orderRoute_counters ?_
        rw [hadaptive]
        decide
    next => rfl
  next => rfl

theorem dryRun_counters {descriptor : DryRunRequest} {requestedModel : String}
    {draws draws' : Draws}
    (h : ∀ route targets, v.resolve requestedModel = some (.route route targets) →
      route.strategy ≠ "round-robin") :
    (v.dryRun floatText now descriptor counters requestedModel draws draws').2 = counters := by
  have hcounters : ∀ unknownModel,
      (v.resolveCandidates now counters requestedModel unknownModel draws).2 = counters :=
    fun _ => resolveCandidates_counters h
  rw [dryRun]
  split
  next c hc => exact (congrArg Prod.snd hc).symm.trans (hcounters _)
  next e c hc => exact (congrArg Prod.snd hc).symm.trans (hcounters _)
  next targets route c hc =>
    have hsame : c = counters := (congrArg Prod.snd hc).symm.trans (hcounters _)
    exact rankCandidates_counters.trans hsame

end View

/-- Only a dry run of a round-robin route leaves a trace. -/
theorem Live.step_dryRun {s : Live σ ω} {a : LiveAction σ ω} {floatText : ℚ → String}
    {view : σ → View F} (ha : a.isReal = false) (h : LeavesCounters view s a) :
    s.step floatText view a = s := by
  cases a with
  | plan id r | work id act => cases ha
  | dryRun now requestedModel descriptor draws draws' =>
    rw [Live.step, View.dryRun_counters h]

theorem liveMachine_run (floatText : ℚ → String) (view : σ → View F) (start : Live σ ω)
    (as : List (LiveAction σ ω)) : ∃ s, (liveMachine floatText view start).run as = some s := by
  induction as using List.reverseRecOn with
  | nil => exact ⟨start, rfl⟩
  | append_singleton as a ih =>
    obtain ⟨s, hs⟩ := ih
    exact ⟨s.step floatText view a, by rw [Machine.run_snoc, hs]; rfl⟩

theorem unwinding_dryRun (floatText : ℚ → String) (view : σ → View F) (start : Live σ ω) :
    Unwinding (liveMachine floatText view start) LiveAction.isReal (LeavesCounters view) Eq where
  start := rfl
  symm h := h.symm
  quiet hquiet h hleaves hstep := by
    cases hstep
    exact h.trans (Live.step_dryRun hquiet hleaves).symm
  loud _ h _ _ hs ht := by
    cases h
    cases hs
    cases ht
    rfl

/-- Without its dry runs, none of which is of a round-robin route, a run has the same plans and the
same outcomes. -/
theorem dry_run_read_only (floatText : ℚ → String) (view : σ → View F) (start : Live σ ω)
    (as : List (LiveAction σ ω))
    (h : (liveMachine floatText view start).Meets (fun _ => LeavesCounters view) as) :
    ∃ s t, (liveMachine floatText view start).run as = some s ∧
      (liveMachine floatText view start).run (as.filter LiveAction.isReal) = some t ∧
      s.plans = t.plans ∧ s.outcomes = t.outcomes := by
  obtain ⟨s, hs⟩ := liveMachine_run floatText view start as
  obtain ⟨t, ht⟩ := liveMachine_run floatText view start (as.filter LiveAction.isReal)
  have hreal : (liveMachine floatText view start).Meets (fun _ => LeavesCounters view)
      (as.filter LiveAction.isReal) := by
    intro pre a post s' he _
    have ha : a ∈ as.filter LiveAction.isReal := he ▸ List.mem_append_right _ List.mem_cons_self
    cases a with
    | plan id r | work id act => trivial
    | dryRun => simp [LiveAction.isReal] at ha
  have heq := (unwinding_dryRun floatText view start).run (by simp) h hreal hs ht
  exact ⟨s, t, hs, ht, congrArg Live.plans heq, congrArg Live.outcomes heq⟩

/-! ## A round-robin route -/

/-- Two logical targets with an account each. -/
def twoTargets : List ResolvedTarget :=
  [("tgt_1", "acc_1"), ("tgt_2", "acc_2")].map fun ids =>
    { account := { id := ids.2, priority := 0, weight := 1 }
      modelId := "mod_1"
      providerId := "prov_1"
      routeTargetId := some ids.1
      priority := 0
      weight := 1 }

/-- The routes of two strategies. -/
def turnsOrFirst (name : String) : Option Resolution :=
  if name = "turns" then some (.route ⟨"rte_1", "turns", "round-robin"⟩ twoTargets)
  else if name = "first" then some (.route ⟨"rte_2", "first", "priority"⟩ twoTargets)
  else none

def twoRoutes (_ : Unit) : View Nat where
  world := idleWorld
  resolve := turnsOrFirst
  hasModel _ := true
  hasProvider _ := true
  accounts _ := []
  info _ :=
    { modelDisplay := "m"
      accountLabel := "a"
      providerName := "p"
      facts := ⟨"mod_1", "prov_1", {}, .object [], none, none⟩
      predicate := {}
      supports := fun _ => true }

/-- A request that keeps all candidates as they are. -/
def plainRequest (model : String) : RealRequest Unit where
  model
  now := 0
  draws _ := 0
  keeps _ _ := true
  arrange _ targets := targets

def startLive : Live Unit Unit := ⟨fun _ => 0, (), [], []⟩

/-- The accounts of the plans. -/
def planAccounts (plans : List (Nat × Plan)) : List (List String) :=
  plans.map fun p =>
    match p.2 with
    | some (.ok targets) => targets.map fun t => t.account.id
    | _ => []

theorem turnsOrFirst_first {route : RouteRow} {targets : List ResolvedTarget}
    (h : turnsOrFirst "first" = some (.route route targets)) : route.strategy = "priority" := by
  have hfirst : turnsOrFirst "first" =
      some (.route ⟨"rte_2", "first", "priority"⟩ twoTargets) := by
    rw [turnsOrFirst, if_neg (by decide), if_pos rfl]
  obtain ⟨rfl, -⟩ := Resolution.route.inj (Option.some.inj (hfirst.symm.trans h))
  rfl

/-- A dry run of a route that is not round-robin. -/
theorem dry_run_read_only_first : ∃ s t,
    (liveMachine (fun _ => "0.5") twoRoutes startLive).run
      [.plan 0 (plainRequest "turns"), .dryRun 0 "first" {} (fun _ => 0) (fun _ => 0),
        .plan 1 (plainRequest "turns")] = some s ∧
    (liveMachine (fun _ => "0.5") twoRoutes startLive).run
      [.plan 0 (plainRequest "turns"), .plan 1 (plainRequest "turns")] = some t ∧
    s.plans = t.plans ∧ s.outcomes = t.outcomes := by
  refine dry_run_read_only (fun _ => "0.5") twoRoutes startLive
    [.plan 0 (plainRequest "turns"), .dryRun 0 "first" {} (fun _ => 0) (fun _ => 0),
      .plan 1 (plainRequest "turns")] ?_
  intro pre a post s he _
  have ha : a ∈ pre ++ a :: post := List.mem_append_right pre List.mem_cons_self
  rw [← he] at ha
  simp only [List.mem_cons, List.not_mem_nil, or_false] at ha
  rcases ha with rfl | rfl | rfl
  · trivial
  · intro route targets h
    rw [turnsOrFirst_first h]
    decide
  · trivial

/-- A dry run of the route takes the turn of the second request. -/
theorem dry_run_not_read_only :
    ¬ ∀ (σ ω F : Type) (_ : LinearOrder F) (floatText : ℚ → String) (view : σ → View F)
      (start : Live σ ω) (as : List (LiveAction σ ω)) (s t : Live σ ω),
      (liveMachine floatText view start).run as = some s →
      (liveMachine floatText view start).run (as.filter LiveAction.isReal) = some t →
      s.plans = t.plans ∧ s.outcomes = t.outcomes := by
  intro h
  obtain ⟨hplans, -⟩ := h Unit Unit Nat inferInstance (fun _ => "0.5") twoRoutes startLive
    [.plan 0 (plainRequest "turns"), .dryRun 0 "turns" {} (fun _ => 0) (fun _ => 0),
      .plan 1 (plainRequest "turns")] _ _ rfl rfl
  have haccounts := congrArg planAccounts hplans
  revert haccounts
  decide +kernel

end Kinetix.Routing
