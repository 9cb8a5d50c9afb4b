import Kinetix.Foundation.Clock
import Kinetix.Foundation.Types
import Kinetix.Foundation.Words

/-!
# The provider circuit breaker

One provider's circuit and the operations that requests call on it, as in `provider_circuit.rs`.
Each operation holds the circuit's lock for its whole body, so it is a function from the circuit
before to the circuit after. An attempt keeps the generation in which it was admitted; its flags
`validated_success` and `finished` are atomics that the operations swap.
-/

namespace Kinetix.ProviderCircuit
open Clock Kinetix.Types Words

def correlationWindowSecs : Int := 30
def openCooldownSecs : Int := 30
def abandonedProbeRetrySecs : Int := 1
def minDistinctAccounts : Nat := 2
def minDistinctTargets : Nat := 2
def maxRecentFailures : Nat := 128

/-- `ProviderCircuitState`. -/
inductive ProviderCircuitState
  | closed
  | opened
  | halfOpen
  deriving DecidableEq, Repr

/-- One qualifying failure that the circuit remembers. -/
structure FailureEvidence where
  failedAt : Int
  accountId : String
  targetId : String
  deriving DecidableEq, Repr

/-- What a circuit shows to its observers. -/
structure ProviderCircuitSnapshot where
  providerId : String
  state : ProviderCircuitState
  recentQualifyingFailures : Nat
  distinctFailingAccounts : Nat
  distinctFailingTargets : Nat
  recentFailures : List FailureEvidence
  openedAt : Option Int
  retryAt : Option Int
  lastSuccessfulProbe : Option Int
  opens : Nat
  recoveries : Nat
  rejects : Nat
  halfOpenProbes : Nat
  deriving DecidableEq, Repr

/-- Credential-backed providers correlate failures over accounts, account-less ones over targets. -/
inductive ProviderCorrelationPolicy
  | distinctAccounts
  | accountlessTargets
  deriving DecidableEq, Repr

/-- What an operation of an attempt did to the circuit. -/
structure ProviderCircuitTransition where
  opened : Bool := false
  recovered : Bool := false
  halfOpenProbe : Bool := false
  deriving DecidableEq, Repr

/-- Why an attempt is refused, and when to come again. -/
structure ProviderCircuitReject where
  retryAfterSecs : Nat
  snapshot : ProviderCircuitSnapshot
  deriving DecidableEq, Repr

/-- The circuit of one provider. -/
structure Circuit where
  state : ProviderCircuitState := .closed
  failures : List FailureEvidence := []
  openedAt : Option Int := none
  retryAt : Option Int := none
  lastSuccessfulProbe : Option Int := none
  halfOpenInflight : Nat := 0
  generation : Nat := 0
  opens : Nat := 0
  recoveries : Nat := 0
  rejects : Nat := 0
  halfOpenProbes : Nat := 0
  deriving DecidableEq, Repr

/-- `ProviderAttempt`, a granted attempt. -/
structure ProviderAttempt where
  accountId : String
  targetId : String
  generation : Nat
  correlationPolicy : ProviderCorrelationPolicy
  halfOpenProbe : Bool
  validatedSuccess : Bool := false
  finished : Bool := false
  deriving DecidableEq, Repr

/-- `qualifies`: only failures that are plausibly provider-wide take part. -/
def qualifies (kind : FailureKind) (status : Option Nat) : Bool :=
  match kind with
  | .connectionError | .timeout => true
  | .serverError => status == some 502 || status == some 503 || status == some 504
  | .rateLimit | .quotaExhausted | .authError | .targetError | .badRequest => false

/-- The number of different values of a field over the evidence. -/
def distinctCount (key : FailureEvidence → String) (failures : List FailureEvidence) : Nat :=
  (failures.map key).dedup.length

namespace Circuit

/-- Forget the evidence from before the correlation window. -/
def purgeOld (c : Circuit) (now : Int) : Circuit :=
  { c with failures := c.failures.dropWhile fun failure =>
      decide (failure.failedAt < now - seconds correlationWindowSecs) }

/-- `snapshot`, which also forgets what is out of the window. -/
def snapshot (c : Circuit) (providerId : String) (now : Int) :
    Circuit × ProviderCircuitSnapshot :=
  let c := c.purgeOld now
  (c, {
    providerId := providerId
    state := c.state
    recentQualifyingFailures := c.failures.length
    distinctFailingAccounts := distinctCount (·.accountId) c.failures
    distinctFailingTargets := distinctCount (·.targetId) c.failures
    recentFailures := c.failures
    openedAt := c.openedAt
    retryAt := c.retryAt
    lastSuccessfulProbe := c.lastSuccessfulProbe
    opens := c.opens
    recoveries := c.recoveries
    rejects := c.rejects
    halfOpenProbes := c.halfOpenProbes })

/-- `open`: whether the state changed, and the opened circuit. -/
def openCircuit (c : Circuit) (now : Int) : Bool × Circuit :=
  let changed := c.state != .opened
  (changed, { c with
    state := .opened
    openedAt := some now
    retryAt := some (now + seconds openCooldownSecs)
    halfOpenInflight := 0
    opens := if changed then saturatingAdd c.opens 1 else c.opens })

/-- A probe of an older generation holds no slot. -/
def releaseProbeSlot (c : Circuit) (generation : Nat) : Bool × Circuit :=
  if generation ≠ c.generation ∨ c.state ≠ .halfOpen then (false, c)
  else (true, { c with halfOpenInflight := 0 })

/-- A probe that was given up opens the circuit for a second. -/
def reopenAbandonedProbe (c : Circuit) (generation : Nat) (now : Int) : Circuit :=
  match c.releaseProbeSlot generation with
  | (true, c) =>
    { c with state := .opened, retryAt := some (now + seconds abandonedProbeRetrySecs) }
  | (false, c) => c

/-- Count a rejected attempt and show the circuit to its caller. -/
def reject (c : Circuit) (providerId : String) (retryAfterSecs : Nat) (now : Int) :
    Circuit × ProviderCircuitReject :=
  let (c, snapshot) := { c with rejects := saturatingAdd c.rejects 1 }.snapshot providerId now
  (c, ⟨retryAfterSecs, snapshot⟩)

/-- The whole seconds until the retry time, at least one. -/
def retryAfter (retryAt now : Int) : Nat := (max (numSeconds (retryAt - now)) 1).toNat

/-- A probe answered with a validated response: the circuit closes and forgets its evidence. -/
def recover (c : Circuit) (now : Int) : Circuit :=
  { c with
    halfOpenInflight := 0
    state := .closed
    openedAt := none
    retryAt := none
    failures := []
    lastSuccessfulProbe := some now
    recoveries := saturatingAdd c.recoveries 1 }

/-- Hand the exclusive half-open lease to a new attempt. -/
def leaseProbe (c : Circuit) : Circuit :=
  { c with
    state := .halfOpen
    halfOpenInflight := 1
    halfOpenProbes := saturatingAdd c.halfOpenProbes 1 }

/-- `check_available`: no slot is taken. -/
def checkAvailable (c : Circuit) (providerId : String) (now : Int) :
    Circuit × Except ProviderCircuitReject Unit :=
  let c := c.purgeOld now
  let retryAfterSecs : Option Nat :=
    match c.state with
    | .closed => none
    | .opened => c.retryAt.bind fun retryAt =>
      if retryAt > now then some (retryAfter retryAt now) else none
    | .halfOpen => if c.halfOpenInflight > 0 then some 1 else none
  match retryAfterSecs with
  | some secs =>
    let (c, rejection) := c.reject providerId secs now
    (c, .error rejection)
  | none => (c, .ok ())

/-- `begin_attempt_with_policy`: a half-open circuit grants one probe. -/
def beginAttemptWithPolicy (c : Circuit) (providerId accountId targetId : String)
    (policy : ProviderCorrelationPolicy) (now : Int) :
    Circuit × Except ProviderCircuitReject ProviderAttempt :=
  let c := c.purgeOld now
  let grant (c : Circuit) (probe : Bool) : Circuit × Except ProviderCircuitReject ProviderAttempt :=
    (c, .ok {
      accountId := accountId
      targetId := targetId
      generation := c.generation
      correlationPolicy := policy
      halfOpenProbe := probe })
  let refuse (secs : Nat) : Circuit × Except ProviderCircuitReject ProviderAttempt :=
    let (c, rejection) := c.reject providerId secs now
    (c, .error rejection)
  match c.state with
  | .closed => grant c false
  | .opened =>
    match c.retryAt with
    | some retryAt =>
      if retryAt > now then refuse (retryAfter retryAt now) else grant c.leaseProbe true
    | none => grant c.leaseProbe true
  | .halfOpen => if c.halfOpenInflight > 0 then refuse 1 else grant c.leaseProbe true

/-- Remember one more failure and keep only the latest ones. -/
def pushFailure (c : Circuit) (failure : FailureEvidence) : Circuit :=
  let failures := c.failures ++ [failure]
  { c with failures := failures.drop (failures.length - maxRecentFailures) }

/-- Whether the remembered failures are plausibly provider-wide under the policy. -/
def correlated (c : Circuit) : ProviderCorrelationPolicy → Bool
  | .distinctAccounts => decide (minDistinctAccounts ≤ distinctCount (·.accountId) c.failures)
  | .accountlessTargets => decide (minDistinctTargets ≤ distinctCount (·.targetId) c.failures)

end Circuit

namespace ProviderAttempt

/-- The result of an operation of an attempt: what it did, the attempt and the circuit after. -/
abbrev Outcome := ProviderCircuitTransition × ProviderAttempt × Circuit

/-- `mark_validated_success`. -/
def markValidatedSuccess (a : ProviderAttempt) (c : Circuit) (now : Int) : Outcome :=
  if !a.halfOpenProbe || a.finished then ({}, a, c)
  else if a.validatedSuccess then ({}, a, c)
  else
    let a' := { a with validatedSuccess := true }
    let recovered := c.generation == a.generation && c.state == .halfOpen
    ({ recovered := recovered, halfOpenProbe := true }, a',
      if recovered then c.recover now else c)

/-- `finish_success`. -/
def finishSuccess (a : ProviderAttempt) (c : Circuit) (now : Int) : Outcome :=
  if a.finished then ({}, a, c)
  else
    let a' := { a with finished := true }
    if a.halfOpenProbe && a.validatedSuccess then ({ halfOpenProbe := true }, a', c)
    else if c.generation == a.generation then
      if a.halfOpenProbe && c.state == .halfOpen then
        ({ recovered := true, halfOpenProbe := a.halfOpenProbe }, a', c.recover now)
      else if !a.halfOpenProbe && c.state == .closed then
        -- A success of the closed circuit clears the evidence, so that only failures without an
        -- intervening success accumulate.
        ({ halfOpenProbe := a.halfOpenProbe }, a', { c with failures := [] })
      else ({ halfOpenProbe := a.halfOpenProbe }, a', c)
    else ({ halfOpenProbe := a.halfOpenProbe }, a', c)

/-- Whether a failure of the attempt is still news to the circuit. -/
def ownsState (a : ProviderAttempt) (c : Circuit) : Bool :=
  c.generation == a.generation &&
    if a.halfOpenProbe then
      c.state == .halfOpen || (a.validatedSuccess && c.state == .closed)
    else c.state == .closed

/-- `finish_failure`. -/
def finishFailure (a : ProviderAttempt) (c : Circuit) (kind : FailureKind) (status : Option Nat)
    (now : Int) : Outcome :=
  if a.finished then ({}, a, c)
  else
    let a' := { a with finished := true }
    if !a.ownsState c then ({ halfOpenProbe := a.halfOpenProbe }, a', c)
    else if !qualifies kind status then
      ({ halfOpenProbe := a.halfOpenProbe }, a',
        if a.halfOpenProbe then (c.releaseProbeSlot a.generation).2 else c)
    else
      let c := (c.purgeOld now).pushFailure ⟨now, a.accountId, a.targetId⟩
      let unvalidatedProbeFailure := a.halfOpenProbe && !a.validatedSuccess
      if unvalidatedProbeFailure || c.correlated a.correlationPolicy then
        let (changed, c) := c.openCircuit now
        ({ opened := changed, halfOpenProbe := a.halfOpenProbe }, a',
          if changed then { c with generation := wrappingAdd c.generation 1 } else c)
      else ({ halfOpenProbe := a.halfOpenProbe }, a', c)

/-- `finish_neutral`; dropping an unfinished attempt does the same to the circuit. -/
def finishNeutral (a : ProviderAttempt) (c : Circuit) (now : Int) : Outcome :=
  if a.finished then ({}, a, c)
  else
    ({ halfOpenProbe := a.halfOpenProbe }, { a with finished := true },
      if a.halfOpenProbe then c.reopenAbandonedProbe a.generation now else c)

/-- `Drop for ProviderAttempt`. -/
def drop (a : ProviderAttempt) (c : Circuit) (now : Int) : Circuit :=
  if a.finished then c
  else if a.halfOpenProbe then c.reopenAbandonedProbe a.generation now
  else c

end ProviderAttempt

end Kinetix.ProviderCircuit
