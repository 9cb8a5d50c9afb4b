import Kinetix.Foundation.Words
import Kinetix.Library.Histogram
import Kinetix.Library.KeyedTable
import Kinetix.Library.Machine
import Mathlib.Data.Rat.Floor

/-!
# Telemetry of the targets

A request sends an event without waiting. The worker folds the events into buckets of a minute, one
for the provider, one for the account and one for the model, and writes the buckets now and then. A
summary reads quantiles off the bounds of a histogram.

## Implementation notes

Counts are natural numbers. `pending_events` saturates, as it is written. The clock and the outcome
of a transaction are part of an action: a transaction that fails leaves the table as it was.
-/

namespace Kinetix.Telemetry
open Histogram KeyedTable StateMachine Words

/-! ## Events and buckets -/

/-- `TargetKey`. -/
structure TargetKey where
  providerId : String
  accountId : String
  modelId : String
  deriving DecidableEq, Repr

/-- `TelemetryOutcome`. -/
inductive TelemetryOutcome
  | success
  | rateLimit
  | quotaExhausted
  | serverError
  | connectionError
  | timeout
  | authError
  | targetError
  | badRequest
  | cancelled
  | adaptiveSaturation
  | providerCircuitReject
  deriving DecidableEq, Repr

/-- `TelemetryEvent`, what an attempt reports. -/
structure TelemetryEvent where
  target : TargetKey
  attempted : Bool
  outcome : TelemetryOutcome
  ttftMs : Option Nat
  durationMs : Option Nat
  fallbackAttempt : Bool
  causedFallback : Bool
  providerCircuitOpen : Bool
  providerCircuitRecovery : Bool
  halfOpenProbe : Bool
  deriving DecidableEq, Repr

/-- `TTFT_BOUNDS_MS`. -/
def ttftBoundsMs : Bounds Nat 9 where
  bound := ![50, 100, 250, 500, 1000, 2500, 5000, 10000, 30000, 60000]
  sorted := by decide

/-- `DURATION_BOUNDS_MS`. -/
def durationBoundsMs : Bounds Nat 9 where
  bound := ![250, 500, 1000, 2500, 5000, 10000, 30000, 60000, 180000, 600000]
  sorted := by decide

/-- The count of each of the `HISTOGRAM_BUCKETS`. -/
abbrev Counts := Fin 10 → Nat

/-- What a bucket counts for. -/
inductive Scope
  | provider
  | account
  | model
  deriving DecidableEq, Repr

/-- `BucketKey`: a minute of a scope. -/
structure BucketKey where
  bucketStart : Int
  scope : Scope
  providerId : String
  accountId : String
  modelId : String
  deriving DecidableEq, Repr

/-- `BucketAggregate`. -/
structure BucketAggregate where
  attempts : Nat := 0
  successes : Nat := 0
  fallbackFailures : Nat := 0
  rateLimits : Nat := 0
  quotaExhausted : Nat := 0
  authErrors : Nat := 0
  targetErrors : Nat := 0
  badRequests : Nat := 0
  server5xx : Nat := 0
  connectionErrors : Nat := 0
  timeouts : Nat := 0
  cancellations : Nat := 0
  fallbacks : Nat := 0
  adaptiveSaturation : Nat := 0
  providerCircuitRejects : Nat := 0
  providerCircuitOpens : Nat := 0
  providerCircuitRecoveries : Nat := 0
  halfOpenProbes : Nat := 0
  ttftHist : Counts := fun _ => 0
  durationHist : Counts := fun _ => 0

/-- `hist_bucket`. -/
def histBucket (value : Nat) (bounds : Bounds Nat 9) : Fin 10 := bounds.bucket value

/-- One more in the bucket of a value that is there. -/
def countIn (bounds : Bounds Nat 9) (hist : Counts) : Option Nat → Counts
  | some value =>
    Function.update hist (histBucket value bounds) (hist (histBucket value bounds) + 1)
  | none => hist

namespace BucketAggregate

/-- `add`: an event is counted. -/
def add (a : BucketAggregate) (event : TelemetryEvent) : BucketAggregate where
  attempts := a.attempts + event.attempted.toNat
  successes := a.successes + (event.outcome == .success).toNat
  fallbacks := a.fallbacks + event.fallbackAttempt.toNat
  fallbackFailures := a.fallbackFailures + event.causedFallback.toNat
  rateLimits := a.rateLimits + (event.outcome == .rateLimit).toNat
  quotaExhausted := a.quotaExhausted + (event.outcome == .quotaExhausted).toNat
  authErrors := a.authErrors + (event.outcome == .authError).toNat
  targetErrors := a.targetErrors + (event.outcome == .targetError).toNat
  badRequests := a.badRequests + (event.outcome == .badRequest).toNat
  server5xx := a.server5xx + (event.outcome == .serverError).toNat
  connectionErrors := a.connectionErrors + (event.outcome == .connectionError).toNat
  timeouts := a.timeouts + (event.outcome == .timeout).toNat
  cancellations := a.cancellations + (event.outcome == .cancelled).toNat
  adaptiveSaturation := a.adaptiveSaturation + (event.outcome == .adaptiveSaturation).toNat
  providerCircuitRejects :=
    a.providerCircuitRejects + (event.outcome == .providerCircuitReject).toNat
  providerCircuitOpens := a.providerCircuitOpens + event.providerCircuitOpen.toNat
  providerCircuitRecoveries := a.providerCircuitRecoveries + event.providerCircuitRecovery.toNat
  halfOpenProbes := a.halfOpenProbes + event.halfOpenProbe.toNat
  ttftHist := countIn ttftBoundsMs a.ttftHist event.ttftMs
  durationHist := countIn durationBoundsMs a.durationHist event.durationMs

/-- The columns of one row added to those of another: `DO UPDATE SET` in `flush`, and the sums of
`summaries`. -/
def merge (a b : BucketAggregate) : BucketAggregate where
  attempts := a.attempts + b.attempts
  successes := a.successes + b.successes
  fallbackFailures := a.fallbackFailures + b.fallbackFailures
  rateLimits := a.rateLimits + b.rateLimits
  quotaExhausted := a.quotaExhausted + b.quotaExhausted
  authErrors := a.authErrors + b.authErrors
  targetErrors := a.targetErrors + b.targetErrors
  badRequests := a.badRequests + b.badRequests
  server5xx := a.server5xx + b.server5xx
  connectionErrors := a.connectionErrors + b.connectionErrors
  timeouts := a.timeouts + b.timeouts
  cancellations := a.cancellations + b.cancellations
  fallbacks := a.fallbacks + b.fallbacks
  adaptiveSaturation := a.adaptiveSaturation + b.adaptiveSaturation
  providerCircuitRejects := a.providerCircuitRejects + b.providerCircuitRejects
  providerCircuitOpens := a.providerCircuitOpens + b.providerCircuitOpens
  providerCircuitRecoveries := a.providerCircuitRecoveries + b.providerCircuitRecoveries
  halfOpenProbes := a.halfOpenProbes + b.halfOpenProbes
  ttftHist := fun i => a.ttftHist i + b.ttftHist i
  durationHist := fun i => a.durationHist i + b.durationHist i

end BucketAggregate

/-- The key of an event's bucket of a scope. -/
def bucketKey (bucketStart : Int) (target : TargetKey) : Scope → BucketKey
  | .provider => ⟨bucketStart, .provider, target.providerId, "", ""⟩
  | .account => ⟨bucketStart, .account, target.providerId, target.accountId, ""⟩
  | .model => ⟨bucketStart, .model, target.providerId, target.accountId, target.modelId⟩

/-- The rows of `target_health_buckets`, and of the worker's map. -/
abbrev Buckets := Table (Prod.fst : BucketKey × BucketAggregate → BucketKey)

/-- `map.entry(key).or_default()`, merged with `value`. -/
def Buckets.combine (t : Buckets) (key : BucketKey) (f : BucketAggregate → BucketAggregate) :
    Buckets :=
  t.upsert (key, f ((t.find key).elim {} Prod.snd))

/-- The minute of an instant. -/
def bucketStartOf (now : Int) : Int := now - now % 60

/-- `add_event`: an event counts in three scopes. -/
def addEvent (pending : Buckets) (now : Int) (event : TelemetryEvent) : Buckets :=
  [Scope.provider, .account, .model].foldl
    (fun t scope => Buckets.combine t (bucketKey (bucketStartOf now) event.target scope)
      fun a => a.add event)
    pending

/-! ## The worker -/

/-- `QUEUE_CAPACITY`. -/
def queueCapacity : Nat := 2048

/-- `RETENTION_SECS`. -/
def retentionSecs : Int := 25 * 60 * 60

/-- What a transaction of `flush` that commits has written. -/
def written (table : Buckets) (drained : List (BucketKey × BucketAggregate)) (now : Int) :
    Buckets :=
  (drained.foldl (fun t row => Buckets.combine t row.1 fun a => a.merge row.2) table).deleteWhere
    fun key => key.bucketStart < now - retentionSecs

/-- The sender, the worker and the table. -/
structure TargetTelemetry where
  queue : List TelemetryEvent := []
  droppedQueue : Nat := 0
  droppedPersistence : Nat := 0
  pending : Buckets := Table.empty _
  pendingEvents : Nat := 0
  table : Buckets := Table.empty _
  /-- The worker's loop has not ended. -/
  running : Bool := true

/-- What moves the telemetry. The clock is read for an event, and again in a transaction, which
commits or does not. -/
inductive Action
  | record (event : TelemetryEvent)
  | receive (now flushed : Int) (commits : Bool)
  | tick (flushed : Int) (commits : Bool)
  | close (flushed : Int) (commits : Bool)
  deriving DecidableEq

namespace TargetTelemetry

/-- `flush` with what the worker does about its result. The map is taken before the transaction. -/
def flush (s : TargetTelemetry) (now : Int) (commits : Bool) : TargetTelemetry :=
  if s.pending.rows.isEmpty then { s with pendingEvents := 0 }
  else if commits then
    { s with
      pending := Table.empty _
      pendingEvents := 0
      table := written s.table s.pending.rows now }
  else
    { s with
      pending := Table.empty _
      pendingEvents := 0
      droppedPersistence := s.droppedPersistence + s.pendingEvents }

/-- A step of the senders, the worker or the clock. -/
def step (s : TargetTelemetry) : Action → Option TargetTelemetry
  | .record event =>
    if s.running then
      some (if s.queue.length < queueCapacity then { s with queue := s.queue ++ [event] }
        else { s with droppedQueue := s.droppedQueue + 1 })
    else none
  | .receive now flushed commits =>
    match s.running, s.queue with
    | true, event :: queue =>
      let s := { s with
        queue
        pending := addEvent s.pending now event
        pendingEvents := saturatingAdd s.pendingEvents 1 }
      some (if 512 ≤ s.pending.rows.length then s.flush flushed commits else s)
    | _, _ => none
  | .tick flushed commits =>
    if s.running then
      some (if s.pending.rows.isEmpty then s else s.flush flushed commits)
    else none
  | .close flushed commits =>
    match s.running, s.queue with
    | true, [] =>
      let s := { s with running := false }
      some (if s.pending.rows.isEmpty then s else s.flush flushed commits)
    | _, _ => none

end TargetTelemetry

def telemetry : Machine TargetTelemetry Action where
  start := {}
  step := TargetTelemetry.step

/-! ## Summaries -/

/-- The loop of `quantile`. -/
def reach (hist : Counts) (target : Nat) : Nat → List (Fin 10) → Option (Fin 10)
  | _, [] => none
  | seen, index :: rest =>
    let seen := saturatingAdd seen (hist index)
    if target ≤ seen then some index else reach hist target seen rest

/-- `((total as f64) * q).ceil().max(1.0) as u64`, with exact numbers. -/
def quantileTarget (total : Nat) (q : ℚ) : Nat := min (max ⌈(total : ℚ) * q⌉₊ 1) u64Max

/-- The bound of the bucket with the quantile. -/
def quantile (hist : Counts) (bounds : Bounds Nat 9) (q : ℚ) : Option Nat :=
  let total := ∑ i, hist i
  if total = 0 then none
  else
    match reach hist (quantileTarget total q) 0 (List.finRange 10) with
    | some index => some (bounds.bound index)
    | none => some bounds.top

/-- What a summary is about. -/
structure SummaryKey where
  scope : Scope
  providerId : String
  accountId : Option String
  modelId : Option String
  deriving DecidableEq, Repr

def emptyToNone (value : String) : Option String := if value.isEmpty then none else some value

/-- A bucket's key without its minute. -/
def summaryKey (key : BucketKey) : SummaryKey :=
  ⟨key.scope, key.providerId, emptyToNone key.accountId, emptyToNone key.modelId⟩

/-- The sums of `summaries` for one of its keys, over the rows in the order they are read in. -/
def combined (rows : List (BucketKey × BucketAggregate)) (cutoff : Int) (key : SummaryKey) :
    BucketAggregate :=
  (rows.filter fun r => cutoff ≤ r.1.bucketStart ∧ summaryKey r.1 = key).foldl
    (fun a r => a.merge r.2) {}

/-- `TelemetrySummary`, its counts as they are in the aggregate. -/
structure TelemetrySummary where
  key : SummaryKey
  windowSecs : Int
  value : BucketAggregate
  successRate : Option ℚ
  ttftP50Ms : Option Nat
  ttftP95Ms : Option Nat
  ttftP99Ms : Option Nat
  durationP50Ms : Option Nat
  durationP95Ms : Option Nat
  durationP99Ms : Option Nat

def TelemetrySummary.fromAggregate (key : SummaryKey) (value : BucketAggregate) (windowSecs : Int) :
    TelemetrySummary where
  key
  windowSecs
  value
  successRate :=
    let reliabilityAttempts := value.attempts - value.cancellations
    if 0 < reliabilityAttempts then some ((value.successes : ℚ) / reliabilityAttempts) else none
  ttftP50Ms := quantile value.ttftHist ttftBoundsMs (1 / 2)
  ttftP95Ms := quantile value.ttftHist ttftBoundsMs (19 / 20)
  ttftP99Ms := quantile value.ttftHist ttftBoundsMs (99 / 100)
  durationP50Ms := quantile value.durationHist durationBoundsMs (1 / 2)
  durationP95Ms := quantile value.durationHist durationBoundsMs (19 / 20)
  durationP99Ms := quantile value.durationHist durationBoundsMs (99 / 100)

end Kinetix.Telemetry
