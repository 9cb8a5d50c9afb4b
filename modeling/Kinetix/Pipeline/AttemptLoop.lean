import Kinetix.Account.Row
import Kinetix.Foundation.Types
import Kinetix.Library.Machine

/-!
# The attempt loop

The `while let` loop of `pipeline::run` over the pending targets of a request, from the first target
to the error after the last one.

## Implementation notes

One turn of the loop is one action. It carries what the turn gets to know from outside: the clock,
the answers of the checks and of the upstream. The account rows are those of the plan, as in the
code: what a failure writes to the database is not read again by the same request. The trace, the
telemetry and the fallback path are left out, and so are the pauses between attempts.
-/

namespace Kinetix.Pipeline
open Account Clock StateMachine Kinetix.Types

/-- `route_allows_fallback`. The triggers are the booleans of the route's `fallback_triggers`. -/
def routeAllowsFallback (triggers : Option (String → Option Bool)) (kind : FailureKind) : Bool :=
  if !kind.isRetryable then
    false
  else
    match triggers with
    | none => kind != .targetError
    | some triggers =>
      let enabled name := (triggers name).getD true
      match kind with
      | .rateLimit => enabled "on429"
      | .quotaExhausted => enabled "onQuota"
      | .serverError | .connectionError => enabled "on5xx"
      | .timeout => enabled "onTimeout"
      | .authError | .targetError => true
      | .badRequest => false

/-- The route of a request, if it names one. -/
structure RouteRow where
  name : String
  maxAttempts : Option Int
  fallbackTriggers : String → Option Bool

/-- What the loop reads of a candidate. -/
structure ResolvedTarget where
  routeTargetId : Option String
  accountId : String
  account : AccountRow
  providerName : String
  providerStrict : Bool

/-- The parameters of the loop. -/
structure Config where
  route : Option RouteRow
  requestedModel : String
  allowFallback : Bool

namespace Config

/-- `max_attempts` of a plan with so many targets: a negative number is a large `usize`. -/
def maxAttempts (cfg : Config) (targets : Nat) : Nat :=
  match cfg.route.bind RouteRow.maxAttempts with
  | some m => if m < 0 then 5 else max 1 (min m.toNat 5)
  | none => max 1 (min targets 5)

def canFallback (cfg : Config) (kind : FailureKind) : Bool :=
  cfg.allowFallback && routeAllowsFallback (cfg.route.map RouteRow.fallbackTriggers) kind

end Config

/-- What `rotate_credential_after_auth_error` answers. -/
inductive Rotation where
  /-- `Ok(true)`. -/
  | refreshed
  /-- `Ok(false)`. -/
  | unchanged
  /-- The credential is invalid for good. -/
  | invalidCredential
  /-- Any other error, with the account's cooldown. -/
  | failed (cooldown : Nat)

/-- How a dispatch ends. -/
inductive Upstream where
  /-- There is no response. -/
  | failed (failure : UpstreamFailure)
  /-- A response of status 2xx whose beginning is valid. -/
  | validated
  /-- A response of status 2xx whose beginning is not. -/
  | invalid (failure : UpstreamFailure)
  /-- A response of another status. -/
  | rejected (failure : UpstreamFailure) (rotation : Rotation)

/-- What one turn of the loop gets to know. -/
structure Turn where
  /-- The pre-commit deadline has passed. -/
  deadlinePassed : Bool
  now : Int
  /-- The clock of `should_probe`. -/
  later : Int
  softQuotaReached : Bool
  executionProfile : Except ProxyError Unit
  adapter : Except ProxyError Unit
  satisfiesNeeds : Bool
  /-- The provider circuit of the target is open, with the seconds to retry after. -/
  circuitRejects : Option Nat
  credentialResolves : Bool
  /-- The request errors of opaque state, portability, overrides, parameter policy and translation,
  of which the first is returned. -/
  requestError : Option ProxyError
  /-- The target's limit on concurrent requests is reached, with the detail of the refusal. -/
  saturated : Option String
  /-- No time is left for a phase of the attempt. -/
  budgetSpent : Bool
  /-- `begin_attempt_with_policy` refuses, with the seconds to retry after. -/
  attemptRejects : Option Nat
  upstream : Upstream

/-- How a turn leaves the loop body before a dispatch. -/
inductive Leave where
  /-- `continue`, with a new last error or the old one. -/
  | skip (error : Option ProxyError)
  /-- `break`. -/
  | stop
  /-- `return Err`. -/
  | fail (error : ProxyError)

/-- How the loop ends. -/
inductive Ending where
  /-- A response is committed to the client. -/
  | committed (target : ResolvedTarget)
  | failed (error : ProxyError)

/-- The variables of the loop. -/
structure Loop where
  pendingTargets : List ResolvedTarget
  attemptsDone : Nat := 0
  skipLogicalTarget : Option String := none
  authRetriedAccounts : List String := []
  allAccounts : List AccountRow := []
  lastError : Option ProxyError := none

/-- `failure_to_error`. -/
def failureToError (failure : UpstreamFailure) (target : ResolvedTarget) : ProxyError :=
  match failure.kind with
  | .rateLimit | .quotaExhausted => .rateLimited failure.message failure.retryAfterSecs
  | .badRequest => .badRequest failure.message
  | .authError =>
    .upstream s!"upstream authentication failed for provider '{target.providerName}'"
  | .targetError =>
    if failure.status = some 403 then ⟨.forbidden, failure.message, none⟩
    else if failure.status = some 404 then .notFound failure.message
    else .upstream failure.message
  | .timeout => .upstream "upstream request timed out"
  | .connectionError | .serverError => .upstream failure.message

/-- `record_provider_circuit_reject`. -/
def providerCircuitReject (target : ResolvedTarget) (retryAfterSecs : Nat) : ProxyError :=
  .allUnavailable s!"provider '{target.providerName}' temporarily unavailable" (some retryAfterSecs)

/-- The error after the last target. -/
def allTargetsUnavailable (R : Rfc3339) (cfg : Config) (s : Loop) (now : Int) : ProxyError :=
  match s.lastError with
  | some error => error
  | none =>
    let retryAfter := (AccountRow.soonestRecovery R s.allAccounts).map fun t =>
      (max (numSeconds (t - now)) 1).toNat
    let name := match cfg.route with
      | some route => s!"route '{route.name}'"
      | none => cfg.requestedModel
    if s.allAccounts ≠ [] ∧ ∀ a ∈ s.allAccounts, a.effectiveStatus R now = .cooldown then
      .rateLimited s!"{name}: all targets are rate limited" retryAfter
    else
      .allUnavailable s!"{name}: all targets of {name} are currently unavailable" retryAfter

namespace Loop
variable (R : Rfc3339) (cfg : Config)

/-- The checks of a turn between the choice of a target and its dispatch. -/
def check (target : ResolvedTarget) (t : Turn) : Except Leave Unit := do
  if target.account.effectiveStatus R t.now ≠ .healthy ∧ !target.account.shouldProbe R t.later then
    throw (.skip none)
  if t.softQuotaReached then
    if cfg.canFallback .quotaExhausted then throw (.skip none)
    else throw (.fail (.rateLimited "account soft quota reached" none))
  if let .error error := t.executionProfile then throw (.skip (some error))
  if let .error error := t.adapter then throw (.skip (some error))
  if target.providerStrict ∧ !t.satisfiesNeeds then
    throw (.skip (some (.unsupported "resolved target capabilities do not satisfy the request")))
  if let some secs := t.circuitRejects then
    throw (.skip (some (providerCircuitReject target secs)))
  if !t.credentialResolves then throw (.skip (some (.internal "credential unavailable")))
  if let some error := t.requestError then throw (.fail error)
  if let some detail := t.saturated then throw (.skip (some (.allUnavailable detail none)))
  if t.budgetSpent then throw .stop
  if let some secs := t.attemptRejects then
    throw (.skip (some (providerCircuitReject target secs)))

/-- A failed attempt: the next target is tried, or the failure is returned. -/
def fallback (s : Loop) (kind : FailureKind) (error : ProxyError) : Loop ⊕ Ending :=
  if cfg.canFallback kind then .inl { s with lastError := some error } else .inr (.failed error)

/-- The next attempts leave out the logical target that failed. -/
def skipTarget (s : Loop) (target : ResolvedTarget) (kind : FailureKind) : Loop :=
  if kind = .targetError then { s with skipLogicalTarget := target.routeTargetId } else s

/-- What follows a dispatch. -/
def afterDispatch (s : Loop) (target : ResolvedTarget) : Upstream → Loop ⊕ Ending
  | .validated => .inr (.committed target)
  | .failed failure => s.fallback cfg failure.kind (failureToError failure target)
  | .invalid failure =>
    (s.skipTarget target failure.kind).fallback cfg failure.kind (failureToError failure target)
  | .rejected failure rotation =>
    let handled :=
      (s.skipTarget target failure.kind).fallback cfg failure.kind (failureToError failure target)
    if failure.kind = .authError ∧ target.accountId ∉ s.authRetriedAccounts then
      match rotation with
      | .refreshed => .inl { s with
          authRetriedAccounts := target.accountId :: s.authRetriedAccounts
          attemptsDone := s.attemptsDone - 1
          pendingTargets := target :: s.pendingTargets }
      | .failed cooldown => s.fallback cfg .authError
          (.allUnavailable "credential refresh temporarily unavailable" (some cooldown))
      | .unchanged => handled
      | .invalidCredential => handled
    else
      handled

/-- A turn of the loop: what follows, and whether `send_upstream` was called. -/
def turn (maxAttempts : Nat) (s : Loop) (t : Turn) : (Loop ⊕ Ending) × Option String :=
  match s.pendingTargets with
  | [] => (.inr (.failed (allTargetsUnavailable R cfg s t.now)), none)
  | target :: rest =>
    let s := { s with pendingTargets := rest }
    if s.skipLogicalTarget.isSome ∧ s.skipLogicalTarget = target.routeTargetId then
      (.inl s, none)
    else if maxAttempts ≤ s.attemptsDone ∨ t.deadlinePassed then
      (.inr (.failed (allTargetsUnavailable R cfg s t.now)), none)
    else
      let s := { s with allAccounts := s.allAccounts ++ [target.account] }
      match check R cfg target t with
      | .error (.skip error) => (.inl { s with lastError := error.or s.lastError }, none)
      | .error .stop => (.inr (.failed (allTargetsUnavailable R cfg s t.now)), none)
      | .error (.fail error) => (.inr (.failed error), none)
      | .ok () =>
        let s := { s with attemptsDone := s.attemptsDone + 1 }
        (s.afterDispatch cfg target t.upstream, some target.accountId)

end Loop

/-- The loop with the dispatches that it made, or its end. -/
structure State where
  progress : Loop ⊕ Ending
  /-- The accounts of the calls of `send_upstream`. -/
  dispatched : List String
  /-- The accounts whose credential was refreshed. -/
  refreshed : List String

def State.step (R : Rfc3339) (cfg : Config) (maxAttempts : Nat) (s : State) (t : Turn) :
    Option State :=
  match s.progress with
  | .inr _ => none
  | .inl loop =>
    let (progress, sent) := loop.turn R cfg maxAttempts t
    some {
      progress
      dispatched := sent.toList ++ s.dispatched
      refreshed := match progress with
        | .inl next => next.authRetriedAccounts
        | .inr _ => s.refreshed }

/-- The loop over the targets of a plan. -/
def attemptLoop (R : Rfc3339) (cfg : Config) (targets : List ResolvedTarget) :
    Machine State Turn where
  start := ⟨.inl { pendingTargets := targets }, [], []⟩
  step := State.step R cfg (cfg.maxAttempts targets.length)

end Kinetix.Pipeline
