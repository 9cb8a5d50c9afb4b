import Kinetix.Foundation.Clock
import Kinetix.Foundation.Digest

/-!
# Credential lease schedules

`credential_refresh.rs`, the schedules: when the lease of a resolved credential should be renewed,
and how long a failed renewal waits. Each function here is one access to the map of schedules.

## Implementation notes

`parse_dt` is chrono's parser and is a parameter. The fingerprint of a secret is its SHA-256.
-/

namespace Kinetix.CredentialRefresh
open Clock

/-- `CredentialKey`. -/
structure CredentialKey where
  providerId : String
  accountId : String
  deriving DecidableEq, Repr

/-- `CredentialRotationError`. -/
structure CredentialRotationError where
  code : String
  message : String
  retryable : Bool
  retryAfterSecs : Option Nat
  deriving DecidableEq, Repr

/-- The provider refuses the credential itself. -/
def CredentialRotationError.invalidCredential (e : CredentialRotationError) : Bool :=
  !e.retryable && (e.code == "credential_expired" || e.code == "unauthorized" ||
    e.code == "auth_error")

/-- `ResolvedCredential`. -/
structure ResolvedCredential where
  secret : String
  expiresAt : Option String
  refreshAfter : Option String
  rotated : Bool
  deriving DecidableEq, Repr

/-- What tells one lease from another. -/
structure LeaseIdentity where
  expiresAt : Option Int
  refreshAfter : Option Int
  secretFingerprint : String
  deriving DecidableEq, Repr

/-- `LeaseSchedule`. -/
structure LeaseSchedule where
  nextAttemptAt : Int
  failures : Nat
  leaseIdentity : LeaseIdentity
  claimUntil : Option Int
  deriving DecidableEq, Repr

/-- The map of schedules. -/
abbrev Schedules := CredentialKey → Option LeaseSchedule

/-- The digest and chrono's parser. -/
structure Env where
  sha : Sha256
  parseDt : String → Option Int

def defaultRefreshLeadSecs : Int := 300
def minRetrySecs : Nat := 5
def maxRetrySecs : Nat := 300
def claimGraceSecs : Int := 60
def minSuccessfulRefreshIntervalSecs : Int := 60

/-- `exponential_backoff_secs`. -/
def exponentialBackoffSecs (failures : Nat) : Nat :=
  min (minRetrySecs * 2 ^ min (failures - 1) 6) maxRetrySecs

/-- `schedule_from_credential`. -/
def scheduleFromCredential (env : Env) (credential : ResolvedCredential) (now : Int) :
    Option LeaseSchedule :=
  let leaseIdentity : LeaseIdentity := {
    expiresAt := credential.expiresAt.bind env.parseDt
    refreshAfter := credential.refreshAfter.bind env.parseDt
    secretFingerprint := env.sha.hex credential.secret }
  let requested := leaseIdentity.refreshAfter.or (leaseIdentity.expiresAt.map fun expires =>
    let remainingSecs := max (numSeconds (expires - now)) 0
    let leadSecs := min (remainingSecs / 2) defaultRefreshLeadSecs
    expires - seconds leadSecs)
  requested.map fun requested => {
    nextAttemptAt := max requested now
    failures := 0
    leaseIdentity := leaseIdentity
    claimUntil := none }

namespace LeaseSchedule

/-- `apply_minimum_retry_floor`. -/
def applyMinimumRetryFloor (schedule : LeaseSchedule) (now floor : Int) : LeaseSchedule :=
  if schedule.nextAttemptAt > now then schedule
  else
    let floor := match schedule.leaseIdentity.expiresAt with
      | some expiresAt => if expiresAt > now then min floor expiresAt else floor
      | none => floor
    { schedule with nextAttemptAt := max schedule.nextAttemptAt floor }

/-- The part of `store_schedule` that takes over what is known about an earlier observation, and
whether the lease is another one. -/
def merge (schedule existing : LeaseSchedule) (resetFailures : Bool) : LeaseSchedule × Bool :=
  let sameTiming := existing.leaseIdentity.expiresAt = schedule.leaseIdentity.expiresAt ∧
    existing.leaseIdentity.refreshAfter = schedule.leaseIdentity.refreshAfter
  let sameSecret := existing.leaseIdentity.secretFingerprint ==
    schedule.leaseIdentity.secretFingerprint
  if sameTiming then
    ({ schedule with
        nextAttemptAt := existing.nextAttemptAt
        failures := if resetFailures then schedule.failures else existing.failures
        claimUntil := if !resetFailures && sameSecret then existing.claimUntil else none },
      !sameSecret)
  else if !resetFailures && decide (existing.failures > 0) then
    ({ schedule with
        claimUntil := none
        failures := existing.failures
        nextAttemptAt := max schedule.nextAttemptAt existing.nextAttemptAt }, true)
  else ({ schedule with claimUntil := none }, true)

/-- Whether `claim_due` claims the lease. -/
def due (schedule : LeaseSchedule) (now : Int) : Bool :=
  schedule.nextAttemptAt ≤ now && !schedule.claimUntil.any (· > now)

end LeaseSchedule

namespace Schedules
variable (env : Env) (schedules : Schedules) (key : CredentialKey)

/-- `store_schedule`: merged with the one that is there. -/
def storeSchedule (credential : ResolvedCredential) (resetFailures : Bool) (now : Int)
    (notBefore : Option Int) : Schedules :=
  match scheduleFromCredential env credential now with
  | none => Function.update schedules key none
  | some schedule =>
    let (schedule, identityChanged) := match schedules key with
      | some existing => schedule.merge existing resetFailures
      | none => (schedule, false)
    let schedule := if identityChanged || notBefore.isSome then
        schedule.applyMinimumRetryFloor now
          (notBefore.getD (now + seconds minSuccessfulRefreshIntervalSecs))
      else schedule
    Function.update schedules key (some schedule)

/-- `observe`, when a credential is resolved. -/
def observe (credential : ResolvedCredential) (now : Int) : Schedules :=
  schedules.storeSchedule env key credential false now none

/-- `observe_refreshed`. -/
def observeRefreshed (credential : ResolvedCredential) (now : Int) : Schedules :=
  schedules.storeSchedule env key credential true now none

/-- `observe_successful_rotation`: not again within a minute. -/
def observeSuccessfulRotation (credential : ResolvedCredential) (now : Int) : Schedules :=
  schedules.storeSchedule env key credential true now
    (some (now + seconds minSuccessfulRefreshIntervalSecs))

/-- `record_failure`. -/
def recordFailure (error : CredentialRotationError) (now : Int) : Schedules :=
  let schedule := (schedules key).getD {
    nextAttemptAt := now
    failures := 0
    leaseIdentity := ⟨none, none, "".pushn '0' 64⟩
    claimUntil := none }
  let failures := min (schedule.failures + 1) 4294967295
  let retry := error.retryAfterSecs.getD (exponentialBackoffSecs failures)
  Function.update schedules key (some { schedule with
    failures := failures
    nextAttemptAt := now + seconds (min retry maxRetrySecs : Nat)
    claimUntil := none })

/-- Claims what is due for a minute. -/
def claimDue (now : Int) : Schedules := fun key =>
  (schedules key).map fun schedule =>
    if schedule.due now then
      { schedule with claimUntil := some (now + seconds claimGraceSecs) }
    else schedule

end Schedules
end Kinetix.CredentialRefresh
