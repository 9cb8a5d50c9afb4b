import Kinetix.Account.Row
import Kinetix.Foundation.Words
import Kinetix.Library.EdgeTrigger
import Kinetix.Library.KeyedTable
import Kinetix.Library.Machine

/-!
# Alerts

An evaluation reads the state of the proxy and tests the condition of each alert. A condition that
begins to hold is reported, and one that ceases to. The alerts of accounts, routes and keys are
tested for the rows that are there and not passed over: an alert of a row that is gone is never
tested again.

## Implementation notes

The operations on `f64` are a parameter. An evaluation reads the tables one after the other, and
each read can fail. It does not look at the clock to judge an account; the reading has the wall
clock for the status that the account has at the time. The texts of an alert are left out.
-/

namespace Kinetix.Alerts
open EdgeTrigger KeyedTable StateMachine Words

/-! ## What is read -/

/-- The operations on `f64` that an evaluation needs. -/
structure Arithmetic (F : Type) where
  ofCount : Nat → F
  div : F → F → F
  /-- `a >= b`. -/
  atLeast : F → F → Bool
  /-- `a <= 0.0`. -/
  notPositive : F → Bool
  /-- `a * 0.8`. -/
  share : F → F
  /-- `(n as f64 * 0.95) as usize`. -/
  rank95 : Nat → Nat

/-- The thresholds of the alerts. -/
structure Config (F : Type) where
  alertFallbackRate : F
  alertErrorRate : F
  alertMinRequests : Int
  alertP95LatencyMs : Nat

/-- A row of usage as the evaluation reads it. -/
structure UsageLogRow where
  fallbackHops : Int
  status : String
  statusCode : Int
  deriving DecidableEq

/-- An account as the evaluation reads it. -/
structure AccountRow extends Account.AccountRow where
  id : String
  providerId : String
  deriving DecidableEq

/-- A route as the evaluation reads it. -/
structure RouteRow where
  id : String
  enabled : Int
  deriving DecidableEq

/-- A row of `key_budget_status`. -/
structure KeyBudgetRow (F : Type) where
  id : String
  spend : F
  budget : Option F
  deriving DecidableEq

/-- What an evaluation reads; a read that fails is `none`. -/
structure Reading (F : Type) where
  recent : Option (List UsageLogRow)
  accounts : Option (Table AccountRow.id)
  routes : Option (Table RouteRow.id)
  /-- The models of a route's targets. -/
  routeTargets : String → Option (List String)
  /-- The provider of a model of the snapshot. -/
  modelProvider : String → Option String
  /-- The samples of added latency, in milliseconds. -/
  latency : List Nat
  now : Nat
  wall : Int
  queueDepth : Nat
  queueCapacity : Nat
  queueDropped : Nat
  lastBackupFailed : Bool
  budgets : Option (Table (KeyBudgetRow.id (F := F)))
  credentialFailures : Nat

/-! ## Alerts and their tests -/

/-- What an alert is about. -/
inductive AlertKey
  | highFallbackRate
  | highErrorRate
  | accountUnhealthy (id : String)
  | routeUnavailable (id : String)
  | highAddedLatency
  | usageQueueSaturated
  | backupFailed
  | keyBudget (id : String)
  | credentialRefreshFailed
  deriving DecidableEq, Repr

/-- The text that is kept and sent for a key. -/
def AlertKey.text : AlertKey → String
  | highFallbackRate => "high_fallback_rate"
  | highErrorRate => "high_error_rate"
  | accountUnhealthy id => "account_unhealthy:" ++ id
  | routeUnavailable id => "route_unavailable:" ++ id
  | highAddedLatency => "high_added_latency"
  | usageQueueSaturated => "usage_queue_saturated"
  | backupFailed => "backup_failed"
  | keyBudget id => "key_budget:" ++ id
  | credentialRefreshFailed => "credential_refresh_failed"

/-- How the texts of the nine kinds of key begin. -/
def textStart : Fin 9 → String :=
  !["high_fallback_rate", "high_error_rate", "account_unhealthy:", "route_unavailable:",
    "high_added_latency", "usage_queue_saturated", "backup_failed", "key_budget:",
    "credential_refresh_failed"]

theorem textStart_prefixFree :
    ∀ i j, (textStart i).toList <+: (textStart j).toList → i = j := by
  decide +kernel

/-- The kind of a key, and its subject. -/
def AlertKey.parts : AlertKey → Fin 9 × String
  | highFallbackRate => (0, "")
  | highErrorRate => (1, "")
  | accountUnhealthy id => (2, id)
  | routeUnavailable id => (3, id)
  | highAddedLatency => (4, "")
  | usageQueueSaturated => (5, "")
  | backupFailed => (6, "")
  | keyBudget id => (7, id)
  | credentialRefreshFailed => (8, "")

theorem AlertKey.text_eq (key : AlertKey) :
    key.text = textStart key.parts.1 ++ key.parts.2 := by
  cases key with
  | accountUnhealthy id | routeUnavailable id | keyBudget id => rfl
  | _ => exact String.append_empty.symm

theorem AlertKey.parts_injective : Function.Injective AlertKey.parts := by
  intro a b h
  cases a <;> cases b <;> simp_all [parts]

/-- Different keys have different texts. -/
theorem AlertKey.text_injective : Function.Injective AlertKey.text := by
  intro a b h
  rw [text_eq, text_eq, ← String.toList_inj, String.toList_append, String.toList_append] at h
  have hkind : a.parts.1 = b.parts.1 := by
    rcases List.prefix_or_prefix_of_prefix (List.prefix_append _ _)
      (h ▸ List.prefix_append (textStart b.parts.1).toList b.parts.2.toList) with hab | hba
    · exact textStart_prefixFree _ _ hab
    · exact (textStart_prefixFree _ _ hba).symm
  rw [hkind, List.append_cancel_left_eq, String.toList_inj] at h
  exact parts_injective (Prod.ext hkind h)

/-- The active alerts, by their keys, and the latches beside them. -/
structure AlertState where
  active : Finset AlertKey := ∅
  /-- `LATENCY_BREACH_SINCE`. -/
  latencyBreachSince : Option Nat := none
  /-- `CREDENTIAL_FAILURE_ALERTED`. -/
  credentialFailureAlerted : Bool := false
  /-- The last instant that was read. -/
  now : Nat := 0

namespace AlertState

/-- `should_fire`: an alert fires if it is not active. -/
def shouldFire (s : AlertState) (key : AlertKey) : AlertState × Bool :=
  if key ∈ s.active then (s, false) else ({ s with active := insert key s.active }, true)

/-- `should_resolve`. -/
def shouldResolve (s : AlertState) (key : AlertKey) : AlertState × Bool :=
  ({ s with active := s.active.erase key }, key ∈ s.active)

/-- `if should_fire(key) { fire(key) }`. -/
def fire (s : AlertState) (key : AlertKey) : AlertState × List (Signal AlertKey) :=
  match s.shouldFire key with
  | (s, true) => (s, [.raised key])
  | (s, false) => (s, [])

/-- `if should_resolve(key) { resolve(key) }`. -/
def resolve (s : AlertState) (key : AlertKey) : AlertState × List (Signal AlertKey) :=
  match s.shouldResolve key with
  | (s, true) => (s, [.cleared key])
  | (s, false) => (s, [])

end AlertState

/-- One block of `evaluate`. -/
inductive Test
  | condition (key : AlertKey) (holds : Bool)
  | latency (p95 : Option Nat) (breach now : Nat)
  | credentials (fails : Nat)
  deriving DecidableEq

/-- Ten minutes, in nanoseconds. -/
def sustained : Nat := 600 * 1000000000

/-- Run one block. -/
def AlertState.take (s : AlertState) : Test → AlertState × List (Signal AlertKey)
  | .condition key holds => if holds then s.fire key else s.resolve key
  | .latency p95 breach now =>
    match p95 with
    | some p95 =>
      if breach < p95 then
        let started := s.latencyBreachSince.getD now
        let s := { s with latencyBreachSince := some started }
        if sustained ≤ now - started then s.fire .highAddedLatency else (s, [])
      else { s with latencyBreachSince := none }.resolve .highAddedLatency
    | none => { s with latencyBreachSince := none }.resolve .highAddedLatency
  | .credentials fails =>
    if 0 < fails then
      if s.credentialFailureAlerted then (s, [])
      else { s with credentialFailureAlerted := true }.fire .credentialRefreshFailed
    else { s with credentialFailureAlerted := false }.resolve .credentialRefreshFailed

/-- The blocks that are run, and whether the end is reached. -/
structure Plan where
  tests : List Test
  complete : Bool
  deriving DecidableEq

namespace Plan

/-- Some blocks before the others. -/
def andThen (tests : List Test) (p : Plan) : Plan := { p with tests := tests ++ p.tests }

/-- A read whose error ends the evaluation. -/
def reading {α : Type} (r : Option α) (p : α → Plan) : Plan :=
  match r with
  | some a => p a
  | none => ⟨[], false⟩

end Plan

section
variable {F : Type} (A : Arithmetic F) (c : Config F)

def isFallback (u : UsageLogRow) : Bool := 0 < u.fallbackHops

def isError (u : UsageLogRow) : Bool :=
  u.status ∈ ["upstream_error", "stream_error", "rate_limited", "quota_exhausted"] ||
    500 ≤ u.statusCode

/-- Whether the share of such rows reaches a threshold. -/
def rateReaches (p : UsageLogRow → Bool) (threshold : F) (recent : List UsageLogRow) : Bool :=
  A.atLeast (A.div (A.ofCount (recent.countP p)) (A.ofCount recent.length)) threshold

/-- The two rates, if there are enough requests. -/
def rateTests (recent : List UsageLogRow) : List Test :=
  if c.alertMinRequests ≤ recent.length then
    [.condition .highFallbackRate (rateReaches A isFallback c.alertFallbackRate recent),
      .condition .highErrorRate (rateReaches A isError c.alertErrorRate recent)]
  else []

def isUnhealthy (a : AccountRow) : Bool := a.status ∈ ["exhausted", "circuit_open", "disabled"]

def accountTests (accounts : List AccountRow) : List Test :=
  accounts.map fun a => .condition (.accountUnhealthy a.id) (isUnhealthy a)

def isHealthy (a : AccountRow) : Bool := a.status == "healthy"

/-- A target's provider has a healthy account, for one notion of healthy. -/
def isHealthyTarget (r : Reading F) (healthy : AccountRow → Bool) (accounts : List AccountRow)
    (modelId : String) : Bool :=
  match r.modelProvider modelId with
  | some providerId => accounts.any fun a => healthy a && a.providerId == providerId
  | none => false

/-- A route with targets of which none is healthy. -/
def isUnavailable (r : Reading F) (healthy : AccountRow → Bool) (accounts : List AccountRow)
    (targets : List String) : Bool :=
  !(targets.any (isHealthyTarget r healthy accounts)) && !targets.isEmpty

/-- The loop over the routes, and what follows it. -/
def routePlan (r : Reading F) (accounts : List AccountRow) (rest : Plan) : List RouteRow → Plan
  | [] => rest
  | route :: routes =>
    if route.enabled = 0 then routePlan r accounts rest routes
    else
      .reading (r.routeTargets route.id) fun targets =>
        .andThen
          [.condition (.routeUnavailable route.id) (isUnavailable r isHealthy accounts targets)]
          (routePlan r accounts rest routes)

/-- `latency_p95`. -/
def latencyP95 (samples : List Nat) : Option Nat :=
  if samples.length < 20 then none
  else (samples.insertionSort (· ≤ ·))[min (A.rank95 samples.length) (samples.length - 1)]?

/-- The log queue is at four fifths, or rows were lost. -/
def queueSaturated (r : Reading F) : Bool :=
  (0 < r.queueCapacity &&
      r.queueCapacity * 80 % (u64Max + 1) ≤ r.queueDepth * 100 % (u64Max + 1)) ||
    0 < r.queueDropped

/-- The budget that is tested. -/
def positiveBudget (row : KeyBudgetRow F) : Option F := row.budget.filter fun b => !A.notPositive b

/-- One test for each key with a budget. -/
def budgetTests (rows : List (KeyBudgetRow F)) : List Test :=
  rows.filterMap fun row => (positiveBudget A row).map fun budget =>
    .condition (.keyBudget row.id) (A.atLeast row.spend (A.share budget))

/-- The blocks of `evaluate`. -/
def plan (r : Reading F) : Plan :=
  .reading r.recent fun recent =>
    .andThen (rateTests A c recent) <|
      .reading r.accounts fun accounts =>
        .andThen (accountTests accounts.rows) <|
          .reading r.routes fun routes =>
            routePlan r accounts.rows
              (.andThen
                [.latency (latencyP95 A r.latency) c.alertP95LatencyMs r.now,
                  .condition .usageQueueSaturated (queueSaturated r),
                  .condition .backupFailed r.lastBackupFailed] <|
                .reading r.budgets fun rows =>
                  .andThen (budgetTests A rows.rows ++ [.credentials r.credentialFailures])
                    ⟨[], true⟩)
              routes.rows

/-- Run some blocks in order. -/
def AlertState.takeAll (s : AlertState) : List Test → AlertState × List (Signal AlertKey)
  | [] => (s, [])
  | t :: tests =>
    let (s, signals) := s.take t
    let (s, later) := s.takeAll tests
    (s, signals ++ later)

/-- An evaluation. Instants never go back. -/
def alerts : Machine AlertState (Reading F) where
  start := {}
  step s r :=
    if s.now ≤ r.now then some { (s.takeAll (plan A c r).tests).1 with now := r.now } else none

end

end Kinetix.Alerts
