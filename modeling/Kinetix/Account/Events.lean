import Kinetix.Account.Row
import Kinetix.Foundation.Text
import Kinetix.Foundation.Types
import Kinetix.Foundation.Words
import Kinetix.Library.Binary64
import Kinetix.Library.Machine

/-!
# What happens to an account

The writers of the health columns outside the administration: the pipeline's `handle_key_failure`
and its other account updates, and the background probes of `run_plugin_health_probes`.

## Implementation notes

An event runs its statements one after the other. Where a duration or a sum of times is out of
range the code panics, and the statements after it are not executed. The reading of a number in
a plugin's quota state is a parameter.
-/

namespace Kinetix.Account
open Binary64 Clock StateMachine Text Kinetix.Types Words

/-- `CIRCUIT_THRESHOLD`. -/
def circuitThreshold : Int := 4

/-- `CIRCUIT_OPEN_SECS`. -/
def circuitOpenSecs : Int := 30

namespace AccountRow
variable (R : Rfc3339)

/-- `default_quota_window`. -/
def defaultQuotaWindow (a : AccountRow) : Int :=
  if a.quotaType = "daily" then 86400
  else if a.quotaType = "monthly" then 30 * 86400
  else if a.quotaType = "rolling" then a.quotaWindowS.getD 86400
  else 86400

/-- `pool::mark_rate_limited`. -/
def markRateLimited (a : AccountRow) (now : Int) (cooldownSecs : Nat) : Option AccountRow :=
  (addSeconds now cooldownSecs).map fun deadline =>
    a.setAccountStatus .cooldown (some (R.toRfc3339 deadline)) none

/-- The instant until which `mark_exhausted` takes an account out. -/
def exhaustedUntil (resetAt : Option Int) (defaultWindowSecs now : Int) : Option Int :=
  match resetAt with
  | some reset => some reset
  | none => addSeconds now defaultWindowSecs

/-- `pool::mark_exhausted`. -/
def markExhausted (a : AccountRow) (resetAt : Option Int) (defaultWindowSecs now : Int) :
    Option AccountRow :=
  (exhaustedUntil resetAt defaultWindowSecs now).map fun reset =>
    a.setAccountStatus .exhausted none (some (R.toRfc3339 reset))

/-- `db::record_account_failure`. -/
def recordAccountFailure (a : AccountRow) (now : Int) : AccountRow :=
  let a := a.bumpFailures
  if circuitThreshold ≤ a.consecutiveFailures then
    match addSeconds now circuitOpenSecs with
    | some deadline => a.openCircuit R deadline
    | none => a
  else
    a

/-- The cooldown of a rate-limited account, in seconds. -/
def rateLimitCooldown (failure : UpstreamFailure) : Nat := min (failure.retryAfterSecs.getD 30) 3600

/-- `handle_key_failure`; the clock is read again when the failure is recorded. -/
def handleKeyFailure (a : AccountRow) (failure : UpstreamFailure) (now later : Int) : AccountRow :=
  match failure.kind with
  | .rateLimit =>
    match a.markRateLimited R now (rateLimitCooldown failure) with
    | some a => a.recordAccountFailure R later
    | none => a
  | .quotaExhausted =>
    match a.markExhausted R failure.quotaResetAt a.defaultQuotaWindow now with
    | some a => a.recordAccountFailure R later
    | none => a
  | .authError => (a.setAccountStatus .disabled none none).recordAccountFailure R later
  | .serverError | .connectionError | .timeout | .targetError | .badRequest => a

/-- The cooldown after a credential could not be refreshed, in seconds. -/
def refreshCooldown (retryAfterSecs : Option Nat) (retryable : Bool) : Nat :=
  min (retryAfterSecs.getD (if retryable then 5 else 30)) 3600

end AccountRow

/-- What a health-probe plugin reports. -/
structure HealthObservation where
  state : String
  resetAt : Option String
  retryAfter : Option Nat
  quotaState : Option String

/-- `str::parse::<f64>`: a number that is not finite has no value. -/
abbrev ParseF64 := String → Option (Option ℚ)

/-- `parse_quota_state`. -/
def parseQuotaState (F : ParseF64) (value : String) : Option (Option ℚ) :=
  let normalized := toAsciiLowercase (trim value)
  if normalized ∈ ["exhausted", "empty", "depleted", "none"] then
    some (some 0)
  else
    match stripSuffix normalized '%' with
    | some percent => (F (trim percent)).map fun value => value.map fun value =>
      roundF64 (value / 100)
    | none =>
      (F normalized).map fun value => value.map fun value =>
        if 1 < value then roundF64 (value / 100) else value

/-- The part of `observe_plugin` that the probes use: is the quota exhausted, and until when. -/
def observePlugin (R : Rfc3339) (F : ParseF64) (obs : HealthObservation) :
    Option (Bool × Option Int) :=
  let resetAt := obs.resetAt.bind R.parseDt
  let remaining := (obs.quotaState.bind (parseQuotaState F)).join
  let exhausted := match remaining with
    | some remaining => decide (max 0 (min remaining 1) ≤ 0)
    | none => false
  if obs.quotaState.isSome ∨ resetAt.isSome then some (exhausted, resetAt) else none

/-- `plugin_quota_reset_at`. -/
def pluginQuotaResetAt (resetAt : Option Int) (retryAfterSecs : Option Nat) (now : Int) :
    Option Int :=
  match resetAt with
  | some reset => some reset
  | none => retryAfterSecs.bind fun secs =>
    if secs ≤ 9223372036854775807 then (trySeconds secs).bind (checkedAdd now) else none

/-- The cooldown of an account that a plugin calls unavailable: `some none` without a time, and
`none` when the code panics. -/
def unavailableUntil (R : Rfc3339) (obs : HealthObservation) (now : Int) :
    Option (Option String) :=
  match obs.resetAt, obs.retryAfter with
  | some reset, _ => some (some reset)
  | none, some secs => (addSeconds now (asI64 secs)).map fun deadline => some (R.toRfc3339 deadline)
  | none, none => some none

/-- What a plugin's word on the state of an account does to it. -/
def AccountRow.observeState (R : Rfc3339) (a : AccountRow) (obs : HealthObservation) (now : Int) :
    AccountRow :=
  if obs.state = "healthy" then
    if a.status ≠ "healthy" then a.setAccountStatus .healthy none none else a
  else if obs.state = "degraded" then
    a.setAccountStatus .healthy none none
  else if obs.state = "unavailable" then
    match unavailableUntil R obs now with
    | some deadline => a.setAccountStatus .cooldown deadline none
    | none => a
  else
    a

/-- The body of `run_plugin_health_probes` for one account. -/
def AccountRow.healthProbe (R : Rfc3339) (F : ParseF64) (a : AccountRow) (obs : HealthObservation)
    (now : Int) : AccountRow :=
  if a.status = "disabled" then
    a
  else
    match observePlugin R F obs with
    | some (true, resetAt) =>
      (a.markExhausted R (pluginQuotaResetAt resetAt obs.retryAfter now) 3600 now).getD a
    | some (false, _) => a.observeState R obs now
    | none => a.observeState R obs now

/-- What happens to an account, with the readings of the clock. -/
inductive Event where
  /-- An attempt failed. -/
  | keyFailure (failure : UpstreamFailure) (now later : Int)
  /-- The soft quota of the account is used up. -/
  | softQuota (now : Int)
  /-- A rejected credential could not be refreshed. -/
  | refreshFailed (retryAfterSecs : Option Nat) (retryable : Bool) (now : Int)
  /-- The credential was found to be invalid. -/
  | credentialInvalid
  /-- A half-open account is probed. -/
  | probing (now : Int)
  /-- A response was validated. -/
  | validated
  /-- A plugin reported on the account. -/
  | healthProbe (obs : HealthObservation) (now : Int)

def AccountRow.handle (R : Rfc3339) (F : ParseF64) (a : AccountRow) : Event → AccountRow
  | .keyFailure failure now later => a.handleKeyFailure R failure now later
  | .softQuota now => (a.markExhausted R none a.defaultQuotaWindow now).getD a
  | .refreshFailed retryAfterSecs retryable now =>
    (a.markRateLimited R now (refreshCooldown retryAfterSecs retryable)).getD a
  | .credentialInvalid => a.setAccountStatus .disabled none none
  | .probing now => a.touchProbeAt R now
  | .validated => a.resetAccountFailures
  | .healthProbe obs now => a.healthProbe R F obs now

/-- The events on an account, from its insertion. -/
def account (R : Rfc3339) (F : ParseF64) (quotaType : String) (quotaWindowS : Option Int) :
    Machine AccountRow Event where
  start := { quotaType, quotaWindowS }
  step a e := some (a.handle R F e)

end Kinetix.Account
