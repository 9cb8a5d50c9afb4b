import Kinetix.Account.Row
import Kinetix.Foundation.Words
import Kinetix.Library.Grouping
import Mathlib.Data.Prod.Lex
import Mathlib.Data.String.Basic
import Mathlib.Data.Sum.Order
import Mathlib.Order.WithBot

/-!
# The order of the targets of a route

`order_route_targets` of `pipeline.rs` and `order_accounts` of `pool.rs`: the candidates of a route
in groups of one logical target each, the accounts of a group by priority and weight, and the groups
by the strategy of the route.

## Implementation notes

An `f64` is an element of a linear order, which stands for `total_cmp`. A chain of comparisons is
the lexicographic order of what they compare. A draw is any number, and a draw from an empty range
panics.
-/

namespace Kinetix.Routing
open Account (Rfc3339)
open Grouping Words

/-- An account as the ordering reads it. -/
structure AccountRow extends Account.AccountRow where
  id : String
  priority : Int64
  weight : Int64
  deriving DecidableEq

/-- A candidate of a route. -/
structure ResolvedTarget where
  account : AccountRow
  modelId : String
  providerId : String
  routeTargetId : Option String
  priority : Int64
  weight : Int64
  deriving DecidableEq

/-! ## Accounts -/

/-- What `thread_rng` draws, in order. -/
abbrev Draws := Nat → Nat

/-- `gen_range(0..total)`. -/
def genRange (total : Int) (draws : Draws) : Option (Int × Draws) :=
  if 0 < total then some (draws 0 % total, fun n => draws (n + 1)) else none

/-- `weight.max(1)`. -/
def share (weight : Int64) : Int := max weight.toInt 1

/-- Where the shares before and at it first exceed the pick. -/
def selected (pick : Int) : List Int → Option Nat
  | [] => none
  | w :: ws => if pick - w < 0 then some 0 else (selected (pick - w) ws).map (· + 1)

/-- Swap the first with another one, and take it off. -/
def swapOut {α : Type} (a : α) (as : List α) : Nat → α × List α
  | 0 => (a, as)
  | i + 1 =>
    match as[i]? with
    | some b => (b, as.set i a)
    | none => (a, as)

/-- The inner loop of `order_accounts`: accounts of one priority, drawn by their weights. -/
def sampleTier : Nat → List AccountRow → Draws → Option (List AccountRow × Draws)
  | _, [], draws => some ([], draws)
  | 0, tier, draws => some (tier, draws)
  | n + 1, a :: as, draws => do
    let shares := (a :: as).map fun b => share b.weight
    let (pick, draws) ← genRange (wrapI64 shares.sum) draws
    let (chosen, rest) := swapOut a as ((selected pick shares).getD 0)
    let (rest, draws) ← sampleTier n rest draws
    some (chosen :: rest, draws)

/-- The outer loop of `order_accounts`: the accounts of one priority after the others. -/
def sampleTiers : Nat → List AccountRow → Draws → Option (List AccountRow × Draws)
  | _, [], draws => some ([], draws)
  | 0, accounts, draws => some (accounts, draws)
  | n + 1, a :: as, draws => do
    let tier := a :: as.takeWhile (·.priority == a.priority)
    let (tier, draws) ← sampleTier tier.length tier draws
    let (rest, draws) ← sampleTiers n (as.dropWhile (·.priority == a.priority)) draws
    some (tier ++ rest, draws)

/-- Put the preferred account in front. -/
def promote (preferred : Option String) (accounts : List AccountRow) : List AccountRow :=
  match preferred.bind fun id => accounts.find? (·.id == id) with
  | some account => account :: accounts.eraseP (·.id == account.id)
  | none => accounts

/-- `pool::order_accounts`. -/
def orderAccounts (accounts : List AccountRow) (preferred : Option String) (draws : Draws) :
    Option (List AccountRow × Draws) := do
  let sorted := sortBy (fun a : AccountRow => a.priority.toInt) accounts
  let (ordered, draws) ← sampleTiers sorted.length sorted draws
  some (promote preferred ordered, draws)

/-- The `HashMap` of targets by account. -/
def byAccount (targets : List ResolvedTarget) : String → Option ResolvedTarget :=
  targets.foldl (fun m t => Function.update m t.account.id (some t)) fun _ => none

/-- Take the targets of the accounts out of the map. -/
def removeAll (m : String → Option ResolvedTarget) : List AccountRow → List ResolvedTarget
  | [] => []
  | a :: as =>
    match m a.id with
    | some t => t :: removeAll (Function.update m a.id none) as
    | none => removeAll m as

/-- `order_route_account_candidates`. -/
def orderRouteAccountCandidates (targets : List ResolvedTarget) (draws : Draws) :
    Option (List ResolvedTarget × Draws) := do
  let (accounts, draws) ← orderAccounts (targets.map ResolvedTarget.account) none draws
  some (removeAll (byAccount targets) accounts, draws)

/-! ## Scores -/

/-- The operations on an `f64`. -/
structure Floats (F : Type) where
  zero : F
  isFinite : F → Bool
  /-- `a + (b - a) / 2.0`. -/
  midpoint : F → F → F

/-- What the ranking reads of a controller. -/
structure TrafficSnapshot (F : Type) where
  hasCapacity : Bool
  overloadEwma : F
  errorEwma : F
  ttftSamples : Nat
  fastTtftMs : Option F

/-- What ordering reads besides the targets. -/
structure World (F : Type) where
  rfc : Rfc3339
  now : Int
  floats : Floats F
  /-- The snapshot of a provider, an account and a model. -/
  snapshot : String → String → String → TrafficSnapshot F
  /-- The preference of the fresh quota observation of a provider and an account. -/
  quotaPreference : String → String → Option F
  /-- What the counter of the route was. -/
  counter : Nat
  /-- The lifetime requests of an account. -/
  requests : String → Int
  draws : Draws

/-- `AdaptiveSortScore`. -/
structure AdaptiveSortScore (F : Type) where
  hasCapacity : Bool
  overloadEwma : F
  errorEwma : F
  quotaPreference : F
  ttftMs : F
  priority : Int64
  routeTargetId : String
  accountId : String
  modelId : String

def adaptiveCandidateKey (t : ResolvedTarget) : String :=
  t.routeTargetId.getD "direct" ++ "|" ++ t.providerId ++ "|" ++ t.account.id ++ "|" ++ t.modelId

section
variable {F : Type} [LinearOrder F] (w : World F)

def World.trafficSnapshot (t : ResolvedTarget) : TrafficSnapshot F :=
  w.snapshot t.providerId t.account.id t.modelId

/-- `adaptive_account_dispatchable`. -/
def adaptiveAccountDispatchable (t : ResolvedTarget) : Bool :=
  let status := t.account.effectiveStatus w.rfc w.now
  status == .healthy || (status == .circuitOpen && t.account.shouldProbe w.rfc w.now)

/-- `median_observed_ttft`. -/
def medianObservedTtft (targets : List ResolvedTarget) : Option F :=
  let values := sortBy id (targets.filterMap fun t =>
    let snapshot := w.trafficSnapshot t
    if 0 < snapshot.ttftSamples then snapshot.fastTtftMs.filter w.floats.isFinite else none)
  let mid := values.length / 2
  if values.length % 2 = 0 then
    match values[mid - 1]?, values[mid]? with
    | some a, some b => some (w.floats.midpoint a b)
    | _, _ => none
  else values[mid]?

/-- What `build_adaptive_scores` says of a target. -/
def adaptiveScore (neutralTtft : F) (t : ResolvedTarget) : AdaptiveSortScore F :=
  let snapshot := w.trafficSnapshot t
  { hasCapacity := snapshot.hasCapacity
    overloadEwma := snapshot.overloadEwma
    errorEwma := snapshot.errorEwma
    quotaPreference := (w.quotaPreference t.providerId t.account.id).getD w.floats.zero
    ttftMs :=
      if 0 < snapshot.ttftSamples then
        (snapshot.fastTtftMs.filter w.floats.isFinite).getD neutralTtft
      else neutralTtft
    priority := t.priority
    routeTargetId := t.routeTargetId.getD ""
    accountId := t.account.id
    modelId := t.modelId }

/-- `build_adaptive_scores_with_quota`. -/
def buildAdaptiveScores (targets : List ResolvedTarget) :
    String → Option (AdaptiveSortScore F) :=
  let neutralTtft := (medianObservedTtft w targets).getD w.floats.zero
  fun key => (targets.reverse.find? (adaptiveCandidateKey · == key)).map
    (adaptiveScore w neutralTtft)

end

/-- What a score is compared by, in this order. -/
abbrev SortKey (F : Type) :=
  Boolᵒᵈ ×ₗ Fᵒᵈ ×ₗ F ×ₗ F ×ₗ F ×ₗ Int ×ₗ String ×ₗ String ×ₗ String

def AdaptiveSortScore.sortKey {F : Type} (s : AdaptiveSortScore F) : SortKey F :=
  toLex (OrderDual.toDual s.hasCapacity, toLex (OrderDual.toDual s.quotaPreference,
    toLex (s.overloadEwma, toLex (s.errorEwma, toLex (s.ttftMs, toLex (s.priority.toInt,
      toLex (s.routeTargetId, toLex (s.accountId, s.modelId))))))))

/-- What `compare_adaptive_targets` compares a target by. It is only used on targets with
a score. -/
def adaptiveRank {F : Type} (scores : String → Option (AdaptiveSortScore F)) (t : ResolvedTarget) :
    WithBot (SortKey F) :=
  (scores (adaptiveCandidateKey t)).map AdaptiveSortScore.sortKey

/-! ## Targets -/

/-- The logical target of a candidate. -/
def groupKey (t : ResolvedTarget) : String := t.routeTargetId.getD ("account:" ++ t.account.id)

abbrev Group := String × List ResolvedTarget

/-- The accounts of each group in order. -/
def orderGroups : List Group → Draws → Option (List Group × Draws)
  | [], draws => some ([], draws)
  | (key, targets) :: groups, draws => do
    let (targets, draws) ← orderRouteAccountCandidates targets draws
    let (groups, draws) ← orderGroups groups draws
    some ((key, targets) :: groups, draws)

/-- The priority of a group, by its first candidate. -/
def groupPriority (g : Group) : Int :=
  match g.2.head? with
  | some t => t.priority.toInt
  | none => i64Max

/-- The fewest requests that an account of a group has had. -/
def groupRequests {F : Type} (w : World F) (g : Group) : Int :=
  ((g.2.map fun t => w.requests t.account.id).min?).getD 0

/-- The dispatchable candidates in order, and then the others. -/
def adaptiveGroup {F : Type} [LinearOrder F] (dispatchable : ResolvedTarget → Bool)
    (scores : String → Option (AdaptiveSortScore F)) (g : Group) : Group :=
  (g.1, sortBy (adaptiveRank scores) (g.2.filter dispatchable) ++
    g.2.filter fun t => !dispatchable t)

/-- What groups are compared by: those with a dispatchable candidate come first. -/
def adaptiveGroupRank {F : Type} (dispatchable : ResolvedTarget → Bool)
    (scores : String → Option (AdaptiveSortScore F)) (g : Group) : WithBot (SortKey F) ⊕ₗ Int :=
  match g.2.find? dispatchable with
  | some t => Sum.inlₗ (adaptiveRank scores t)
  | none => Sum.inrₗ (groupPriority g)

section
variable {F : Type} [LinearOrder F] (w : World F)

/-- The keys of the candidates whose account is dispatchable. -/
def dispatchableKeys (targets : List ResolvedTarget) : List String :=
  (targets.filter (adaptiveAccountDispatchable w)).map adaptiveCandidateKey

/-- `is_dispatchable`. -/
def isDispatchable (targets : List ResolvedTarget) (t : ResolvedTarget) : Bool :=
  (dispatchableKeys w targets).contains (adaptiveCandidateKey t)

/-- The scores of the candidates that are dispatchable. -/
def adaptiveScores (targets : List ResolvedTarget) : String → Option (AdaptiveSortScore F) :=
  buildAdaptiveScores w (targets.filter (isDispatchable w targets))

/-- The groups in the order of the strategy. -/
def strategyOrder (strategy : String) (targets : List ResolvedTarget) (groups : List Group)
    (draws : Draws) : Option (List Group) :=
  if strategy = "round-robin" then some (groups.rotate (w.counter % groups.length))
  else if strategy = "weighted" then
    let shares := groups.map fun g => (g.2.head?.map fun t => share t.weight).getD 1
    let total := wrapI64 ((groups.filterMap fun g => g.2.head?.map fun t => share t.weight).sum)
    if 0 < total then do
      let (pick, _) ← genRange total draws
      some (groups.rotate ((selected pick shares).getD 0))
    else some groups
  else if strategy = "adaptive" then
    let dispatchable := isDispatchable w targets
    let scores := adaptiveScores w targets
    some (sortBy (adaptiveGroupRank dispatchable scores)
      (groups.map (adaptiveGroup dispatchable scores)))
  else if strategy = "least-used" then
    some (sortBy (fun g => toLex (groupRequests w g, groupPriority g)) groups)
  else some (sortBy groupPriority groups)

/-- The order, and what it was made from. -/
structure OrderedRouteTargets (F : Type) where
  targets : List ResolvedTarget
  quotaEvidence : List (String × Option F)

/-- The quota observations that an adaptive ordering used. -/
def quotaEvidence (strategy : String) (targets : List ResolvedTarget) : List (String × Option F) :=
  if strategy = "adaptive" then
    (targets.filter (isDispatchable w targets)).map fun t =>
      (adaptiveCandidateKey t, w.quotaPreference t.providerId t.account.id)
  else []

/-- `order_route_targets`; nothing is a panic. -/
def orderRouteTargets (strategy : String) (targets : List ResolvedTarget) :
    Option (OrderedRouteTargets F) := do
  let (groups, draws) ← orderGroups (groups groupKey targets) w.draws
  let groups ← strategyOrder w strategy targets groups draws
  some ⟨groups.flatMap Prod.snd, quotaEvidence w strategy targets⟩

end
end Kinetix.Routing
