import Mathlib.Data.List.AList
import Kinetix.Foundation.Words

/-!
# The adaptive limit of an upstream target

`Controller` of `upstream_traffic.rs`: the number of permits in use, the limit on it that moves with
the time to the first event and with failures, and the permits whose first event counts as healthy
until they finish. Every operation runs under the lock of the target and is given the instant that
it reads.

## Implementation notes

An `f64` is a rational number. The result of each operation is rounded by a function that is a
parameter, as is the exponential, so that what is proved here holds for rounding to double precision
and for any other. Durations and instants are nanoseconds.
-/

namespace Kinetix.UpstreamTraffic
open Words

/-- The rounding of floating-point operations, and the exponential function. -/
structure Floats where
  round : ℚ → ℚ
  exp : ℚ → ℚ

namespace Floats
variable (F : Floats)

def add (a b : ℚ) : ℚ := F.round (a + b)

def sub (a b : ℚ) : ℚ := F.round (a - b)

def mul (a b : ℚ) : ℚ := F.round (a * b)

def div (a b : ℚ) : ℚ := F.round (a / b)

/-- `Duration::as_secs_f64`. -/
def secs (d : Nat) : ℚ := F.div d 1000000000

end Floats

/-- `f64::clamp`. -/
def clamp (x lo hi : ℚ) : ℚ := max lo (min x hi)

theorem clamp_mem {x lo hi : ℚ} (h : lo ≤ hi) : lo ≤ clamp x lo hi ∧ clamp x lo hi ≤ hi := by
  constructor
  · exact le_max_left _ _
  · exact max_le h (min_le_right _ _)

/-- `f64::EPSILON`. -/
def epsilon : ℚ := 1 / 4503599627370496

/-- `INITIAL_LIMIT`. -/
def initialLimit : ℚ := 4

/-- `MIN_LIMIT`. -/
def minLimit : ℚ := 1

/-- `MAX_LIMIT`. -/
def maxLimit : ℚ := 64

/-- `GRADIENT_TOLERANCE`. -/
def gradientTolerance : ℚ := 3 / 2

/-- `MAX_QUEUE_ALLOWANCE`. -/
def maxQueueAllowance : ℚ := 4

/-- `LIMIT_UPDATE_INTERVAL`, one second. -/
def limitUpdateInterval : Nat := 1000000000

/-- `FAST_TAU`, ten seconds. -/
def fastTau : Nat := 10000000000

/-- `SLOW_TAU`, two minutes. -/
def slowTau : Nat := 120000000000

/-- `FAILURE_TAU`, one minute. -/
def failureTau : Nat := 60000000000

/-- `FAILURE_DECAY_HORIZON`, five minutes. -/
def failureDecayHorizon : Nat := 300000000000

/-- `TTFT_STALE_HORIZON`, five minutes. -/
def ttftStaleHorizon : Nat := 300000000000

section
variable (F : Floats)

/-- `LIMIT_SMOOTHING`. -/
def limitSmoothing : ℚ := F.round (1 / 5)

/-- `QUEUE_ALLOWANCE_RATIO`. -/
def queueAllowanceRatio : ℚ := F.round (1 / 5)

/-- `OVERLOAD_BACKOFF`. -/
def overloadBackoff : ℚ := F.round (7 / 10)

/-- `TIMEOUT_BACKOFF`. -/
def timeoutBackoff : ℚ := F.round (4 / 5)

end

/-- How an attempt ended. -/
inductive TrafficOutcome where
  | success
  | overload
  | timeout
  | error
  | neutral
  | cancelled
  deriving DecidableEq

/-- What the ranking reads of a controller. -/
structure TrafficSnapshot where
  estimatedLimit : Nat
  inflight : Nat
  hasCapacity : Bool
  fastTtftMs : Option ℚ
  slowTtftMs : Option ℚ
  overloadEwma : ℚ
  errorEwma : ℚ
  ttftSamples : Nat
  overloadObservations : Nat
  errorObservations : Nat
  deriving DecidableEq

/-- An average over time. -/
structure TimeEwma where
  value : Option ℚ := none
  updatedAt : Option Nat := none

namespace TimeEwma
variable (F : Floats)

/-- `TimeEwma::update`: a sample weighs by the time since the one before. -/
def update (e : TimeEwma) (sample : ℚ) (tau now : Nat) : TimeEwma where
  value := some <| match e.value, e.updatedAt with
    | some current, some previous =>
      let dt := F.secs (now - previous)
      let tau := max (F.secs tau) epsilon
      let alpha := F.sub 1 (F.exp (F.div (-dt) tau))
      F.add current (F.mul alpha (F.sub sample current))
    | _, _ => sample
  updatedAt := some now

def valueOr (e : TimeEwma) (default : ℚ) : ℚ := e.value.getD default

/-- `update_failure`: after the horizon a sample starts anew. -/
def updateFailure (e : TimeEwma) (sample : ℚ) (now : Nat) : TimeEwma :=
  match e.updatedAt with
  | some updatedAt =>
    if failureDecayHorizon ≤ now - updatedAt then
      { value := some sample, updatedAt := some now }
    else
      e.update F sample failureTau now
  | none => e.update F sample failureTau now

/-- `decayed_toward_zero`. -/
def decayedTowardZero (e : TimeEwma) (tau now : Nat) : ℚ :=
  match e.value, e.updatedAt with
  | none, _ => 0
  | some value, none => value
  | some value, some updatedAt =>
    if failureDecayHorizon ≤ now - updatedAt then
      0
    else
      F.mul value (F.exp (F.div (-F.secs (now - updatedAt)) (max (F.secs tau) epsilon)))

end TimeEwma

/-- `Controller`, the state of one upstream. -/
structure Controller where
  limit : ℚ := initialLimit
  inflight : Nat := 0
  fastTtft : TimeEwma := {}
  slowTtft : TimeEwma := {}
  overload : TimeEwma := {}
  error : TimeEwma := {}
  ttftSamples : Nat := 0
  overloadObservations : Nat := 0
  errorObservations : Nat := 0
  provisionalHealthy : AList (fun _ : Nat => Nat) := ∅
  nextProvisionalId : Nat := 0
  overloadFailureAt : Option Nat := none
  errorFailureAt : Option Nat := none
  lastLimitUpdate : Option Nat := none
  windowMaxInflight : Nat := 0

namespace Controller
variable (F : Floats)

/-- The limit as a number of permits. -/
def capacity (c : Controller) : Nat := (max 1 (min c.limit.floor 64)).toNat

/-- The first event of a stream that is still open hides the failures before it. -/
def provisionalMasks (c : Controller) (failureAt : Option Nat) : Bool :=
  match (c.provisionalHealthy.entries.map (·.2)).max? with
  | none => false
  | some provisionalAt =>
    match failureAt with
    | none => true
    | some failureAt => decide (failureAt < provisionalAt)

/-- `snapshot_at`. -/
def snapshotAt (c : Controller) (now : Nat) : TrafficSnapshot :=
  let capacity := c.capacity
  let ttftRecent := match c.fastTtft.updatedAt with
    | some updatedAt => decide (now - updatedAt < ttftStaleHorizon)
    | none => false
  { estimatedLimit := capacity
    inflight := c.inflight
    hasCapacity := decide (c.inflight < capacity)
    fastTtftMs := if ttftRecent then c.fastTtft.value else none
    slowTtftMs := if ttftRecent then c.slowTtft.value else none
    overloadEwma :=
      if c.provisionalMasks c.overloadFailureAt then 0
      else c.overload.decayedTowardZero F failureTau now
    errorEwma :=
      if c.provisionalMasks c.errorFailureAt then 0
      else c.error.decayedTowardZero F failureTau now
    ttftSamples := c.ttftSamples
    overloadObservations := c.overloadObservations
    errorObservations := c.errorObservations }

/-- A permit is given back. -/
def release (c : Controller) : Controller := { c with inflight := c.inflight - 1 }

/-- The identifier that the next first event is given: 0 is left out when the counter wraps. -/
def freshProvisionalId (c : Controller) : Nat := max (wrappingAdd c.nextProvisionalId 1) 1

/-- `begin_provisional_healthy`. -/
def beginProvisionalHealthy (c : Controller) (now : Nat) : Controller :=
  { c with
    nextProvisionalId := c.freshProvisionalId
    provisionalHealthy := c.provisionalHealthy.insert c.freshProvisionalId now }

/-- `end_provisional_healthy`. -/
def endProvisionalHealthy (c : Controller) (id : Nat) : Controller :=
  { c with provisionalHealthy := c.provisionalHealthy.erase id }

/-- `record_healthy`. -/
def recordHealthy (c : Controller) (now : Nat) : Controller :=
  { c with
    error := c.error.updateFailure F 0 now
    errorObservations := saturatingAdd c.errorObservations 1
    overload := c.overload.updateFailure F 0 now
    overloadObservations := saturatingAdd c.overloadObservations 1 }

/-- Forget a time to the first event that is too old to compare with. -/
def dropStaleTtft (c : Controller) (now : Nat) : Controller :=
  match c.fastTtft.updatedAt with
  | some updatedAt =>
    if ttftStaleHorizon ≤ now - updatedAt then
      { c with fastTtft := {}, slowTtft := {}, lastLimitUpdate := none, windowMaxInflight := 0 }
    else
      c
  | none => c

/-- The limit after an update interval in which the target was in use. -/
def movedLimit (c : Controller) (sampleMs : ℚ) : ℚ :=
  let short := max (c.fastTtft.valueOr sampleMs) epsilon
  let long := max (c.slowTtft.valueOr sampleMs) epsilon
  let gradient := clamp (F.div (F.mul gradientTolerance long) short) (1 / 2) 1
  let queueAllowance := min (F.mul c.limit (queueAllowanceRatio F)) maxQueueAllowance
  let next := F.add (F.mul c.limit gradient) queueAllowance
  clamp (F.add (F.mul c.limit (F.sub 1 (limitSmoothing F))) (F.mul next (limitSmoothing F)))
    minLimit maxLimit

/-- `record_ttft`: the first event of a stream moves the limit. -/
def recordTtft (c : Controller) (inflightAtStart ttft now : Nat) : Controller :=
  let sampleMs := F.mul (F.secs ttft) 1000
  let c := c.dropStaleTtft now
  let c := { c with
    fastTtft := c.fastTtft.update F sampleMs fastTau now
    slowTtft := c.slowTtft.update F sampleMs slowTau now
    ttftSamples := saturatingAdd c.ttftSamples 1
    windowMaxInflight := max c.windowMaxInflight inflightAtStart }
  match c.lastLimitUpdate with
  | none => { c with lastLimitUpdate := some now }
  | some lastUpdate =>
    if now - lastUpdate < limitUpdateInterval then
      c
    else
      { c with
        limit := if c.limit ≤ c.windowMaxInflight * 2 then c.movedLimit F sampleMs else c.limit
        lastLimitUpdate := some now
        windowMaxInflight := 0 }

/-- What `complete` learns from the outcome, before it releases the permit. -/
def observeOutcome (c : Controller) (inflightAtStart : Nat) (outcome : TrafficOutcome)
    (now : Nat) : Controller :=
  match outcome with
  | .success => c.recordHealthy F now
  | .overload =>
    { c with
      overloadFailureAt := some now
      errorFailureAt := some now
      overload := c.overload.updateFailure F 1 now
      overloadObservations := saturatingAdd c.overloadObservations 1
      error := c.error.updateFailure F 1 now
      errorObservations := saturatingAdd c.errorObservations 1
      limit := clamp (F.mul c.limit (overloadBackoff F)) minLimit maxLimit }
  | .timeout =>
    { c with
      errorFailureAt := some now
      error := c.error.updateFailure F 1 now
      errorObservations := saturatingAdd c.errorObservations 1
      limit :=
        if c.limit ≤ inflightAtStart * 2 then
          clamp (F.mul c.limit (timeoutBackoff F)) minLimit maxLimit
        else
          c.limit }
  | .error =>
    { c with
      errorFailureAt := some now
      error := c.error.updateFailure F 1 now
      errorObservations := saturatingAdd c.errorObservations 1 }
  | .neutral => c
  | .cancelled => c

/-- `complete`: the outcome is observed and the permit given back. -/
def complete (c : Controller) (inflightAtStart : Nat) (outcome : TrafficOutcome) (now : Nat) :
    Controller :=
  (c.observeOutcome F inflightAtStart outcome now).release

/-- The limit lies in the range that every change of it is clamped to. -/
def Bounded (c : Controller) : Prop := minLimit ≤ c.limit ∧ c.limit ≤ maxLimit

/-- An operation leaves the permits in use and the streams that count as healthy alone, and keeps
the limit in its range. -/
structure Adapts (c c' : Controller) : Prop where
  inflight : c'.inflight = c.inflight
  provisionalHealthy : c'.provisionalHealthy = c.provisionalHealthy
  nextProvisionalId : c'.nextProvisionalId = c.nextProvisionalId
  bounded : c.Bounded → c'.Bounded

variable (c : Controller)

theorem Adapts.refl : Adapts c c := ⟨rfl, rfl, rfl, id⟩

theorem Adapts.trans {c d e : Controller} (h : Adapts c d) (h' : Adapts d e) : Adapts c e where
  inflight := h'.inflight.trans h.inflight
  provisionalHealthy := h'.provisionalHealthy.trans h.provisionalHealthy
  nextProvisionalId := h'.nextProvisionalId.trans h.nextProvisionalId
  bounded := h'.bounded ∘ h.bounded

theorem bounded_default : ({} : Controller).Bounded := by
  constructor
  · norm_num [initialLimit, minLimit]
  · norm_num [initialLimit, maxLimit]

theorem clamped_bounded {x : ℚ} :
    minLimit ≤ clamp x minLimit maxLimit ∧ clamp x minLimit maxLimit ≤ maxLimit :=
  clamp_mem (by norm_num [minLimit, maxLimit])

theorem dropStaleTtft_adapts (now : Nat) : Adapts c (c.dropStaleTtft now) := by
  cases h : c.fastTtft.updatedAt with
  | none =>
    simp only [dropStaleTtft, h]
    exact Adapts.refl c
  | some updatedAt =>
    simp only [dropStaleTtft, h]
    split
    · exact ⟨rfl, rfl, rfl, id⟩
    · exact Adapts.refl c

theorem recordTtft_adapts (inflightAtStart ttft now : Nat) :
    Adapts c (c.recordTtft F inflightAtStart ttft now) := by
  refine (dropStaleTtft_adapts c now).trans ?_
  simp only [recordTtft]
  split
  · exact ⟨rfl, rfl, rfl, id⟩
  · split
    · exact ⟨rfl, rfl, rfl, id⟩
    · refine ⟨rfl, rfl, rfl, fun h => ?_⟩
      -- The limit of a quiet interval stays, the limit of a busy one is clamped.
      simp only [Bounded]
      split
      · exact clamped_bounded
      · exact h

theorem observeOutcome_adapts (inflightAtStart : Nat) (outcome : TrafficOutcome) (now : Nat) :
    Adapts c (c.observeOutcome F inflightAtStart outcome now) := by
  cases outcome with
  | success | error => exact ⟨rfl, rfl, rfl, id⟩
  | overload => exact ⟨rfl, rfl, rfl, fun _ => clamped_bounded⟩
  | timeout =>
    refine ⟨rfl, rfl, rfl, fun h => ?_⟩
    simp only [Bounded, observeOutcome]
    split
    · exact clamped_bounded
    · exact h
  | neutral | cancelled => exact Adapts.refl c

theorem freshProvisionalId_ne_zero : c.freshProvisionalId ≠ 0 :=
  Nat.one_le_iff_ne_zero.mp (le_max_right _ _)

/-- Before the counter wraps, the next identifier is one that was never given. -/
theorem freshProvisionalId_of_lt {c : Controller} (h : c.nextProvisionalId < u64Max) :
    c.freshProvisionalId = c.nextProvisionalId + 1 := by
  rw [freshProvisionalId, wrappingAdd_of_le h]
  omega

/-- After the last identifier comes the first one again. -/
theorem freshProvisionalId_of_eq {c : Controller} (h : c.nextProvisionalId = u64Max) :
    c.freshProvisionalId = 1 := by
  simp [freshProvisionalId, wrappingAdd, h]

end Controller
end Kinetix.UpstreamTraffic
