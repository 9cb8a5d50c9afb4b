import Kinetix.CredentialRefresh.Schedule
import Kinetix.Foundation.Words
import Kinetix.Library.Machine
import Kinetix.Library.TaskList

/-!
# The refresh coordinator

`rotate_after_auth_error`, `rotate_scheduled_at` and `forget`, run by any number of tasks in any
order. Every access to a map, every acquisition of a lock, every strategy call and every atomic
access is a step of its own; `forget` is two, one for each map. A rotation is in flight from the
step that calls `rotate` to the step that it returns in.

## Implementation notes

A gate is named by its place in a heap; the map of gates holds such names, and a place that has not
been given out yet holds a new gate. `strategy.resolve` returns the secret in force, with timing
hints that may be any, or fails; `strategy.rotate` changes the secret in force when it succeeds. A
task that waits for a lock or for the strategy may be dropped there, which gives its lock back.
-/

namespace Kinetix.CredentialRefresh
open StateMachine Words

/-- What `rotate_after_auth_error` and `rotate_scheduled_at` return. -/
abbrev AuthResult := Except CredentialRotationError Bool

/-- `RotationGate`, with the task that holds its lock. -/
structure Gate where
  holder : Option Nat := none
  generation : Nat := 0
  lastAuthResult : Option AuthResult := none

inductive Kind
  | afterAuthError (failedSecret : String)
  | scheduled (now : Int)
  deriving DecidableEq

/-- Where a task is: the next thing that it does. -/
inductive Phase
  | called
  | loading (gate : Nat)
  | waiting (gate : Nat) (observed : Option Nat)
  | resolving (gate : Nat)
  | checking (gate : Nat) (current : ResolvedCredential)
  | rotating (gate : Nat)
  | confirming (gate : Nat)
  | storing (gate : Nat) (result : AuthResult)
  | publishing (gate : Nat) (result : AuthResult)
  | returning (gate : Nat) (result : AuthResult)
  | returned (result : AuthResult)
  | dropped

/-- A caller, and how far it is. -/
structure Task where
  key : CredentialKey
  kind : Kind
  phase : Phase

/-- What `strategy.resolve` returns besides the secret. -/
structure Lease where
  expiresAt : Option String
  refreshAfter : Option String
  rotated : Bool

/-- The schedules, the locks and the callers. -/
structure State where
  schedules : Schedules := fun _ => none
  gates : CredentialKey → Option Nat := fun _ => none
  heap : Nat → Gate := fun _ => {}
  allocated : Nat := 0
  secret : CredentialKey → String := fun _ => ""
  tasks : Nat → Option Task := fun _ => none
  now : Int := 0

/-- A step of a caller, or of the clock. -/
inductive Action
  | tick (d : Nat)
  | call (id : Nat) (key : CredentialKey) (kind : Kind)
  | lookup (id : Nat)
  | load (id : Nat)
  | acquire (id : Nat)
  | resolve (id : Nat) (outcome : Except CredentialRotationError Lease)
  | check (id : Nat)
  | rotated (id : Nat) (outcome : Except CredentialRotationError String)
  | store (id : Nat)
  | publish (id : Nat)
  | ret (id : Nat)
  | drop (id : Nat)
  | forgetSchedule (key : CredentialKey)
  | forgetGate (key : CredentialKey)
  | claimDue (now : Int)

namespace State
variable (env : Env) (s : State) (id : Nat) (task : Task)

def setPhase (phase : Phase) : State :=
  { s with tasks := Function.update s.tasks id (some { task with phase := phase }) }

/-- `observe_successful_rotation` of the credential that a task has just resolved. -/
def observeRotation (credential : ResolvedCredential) (now : Int) : State :=
  { s with
    schedules := s.schedules.observeSuccessfulRotation env task.key credential now }

/-- `record_failure`, for an error that does not mean that the credential is invalid. -/
def recordFailure (error : CredentialRotationError) : State :=
  if error.invalidCredential then s
  else { s with schedules := s.schedules.recordFailure task.key error s.now }

/-- The credential in force, with the timing hints of a lease. -/
def current (lease : Lease) : ResolvedCredential where
  secret := s.secret task.key
  expiresAt := lease.expiresAt
  refreshAfter := lease.refreshAfter
  rotated := lease.rotated

/-- `gate`: look the account's gate up, or insert a new one. -/
def gate : Nat × State :=
  match s.gates task.key with
  | some gate => (gate, s)
  | none => (s.allocated, { s with
      gates := Function.update s.gates task.key (some s.allocated)
      allocated := s.allocated + 1 })

def lookup : State :=
  let (gate, t) := s.gate task
  match task.kind with
  | .afterAuthError _ => t.setPhase id task (.loading gate)
  | .scheduled _ => t.setPhase id task (.waiting gate none)

/-- What a task that has got the lock does next: a reactive one may take over the result of the task
before it. -/
def acquired (gate : Nat) (observed : Option Nat) : Phase :=
  match observed with
  | none => .resolving gate
  | some observed =>
    if (s.heap gate).generation ≠ observed then
      match (s.heap gate).lastAuthResult with
      | some result => .returning gate result
      | none => .resolving gate
    else .resolving gate

def modifyGate (gate : Nat) (f : Gate → Gate) : State :=
  { s with heap := Function.update s.heap gate (f (s.heap gate)) }

def setHolder (gate : Nat) (holder : Option Nat) : State :=
  s.modifyGate gate fun g => { g with holder := holder }

/-- The first resolve of a task. -/
def resolved (gate : Nat) (outcome : Except CredentialRotationError Lease) : State :=
  match task.kind, outcome with
  | .afterAuthError failedSecret, .ok lease =>
    if s.secret task.key ≠ failedSecret then
      (s.observeRotation env task (s.current task lease) s.now).setPhase id task
        (.storing gate (.ok true))
    else s.setPhase id task (.rotating gate)
  | .afterAuthError _, .error error =>
    if error.invalidCredential then s.setPhase id task (.storing gate (.error error))
    else s.setPhase id task (.rotating gate)
  | .scheduled _, .ok lease => s.setPhase id task (.checking gate (s.current task lease))
  | .scheduled _, .error error =>
    (s.recordFailure task error).setPhase id task (.returning gate (.error error))

/-- The resolve after a successful rotation. -/
def confirmed (gate : Nat) (outcome : Except CredentialRotationError Lease) : State :=
  match task.kind, outcome with
  | .afterAuthError _, .ok lease =>
    (s.observeRotation env task (s.current task lease) s.now).setPhase id task
      (.storing gate (.ok true))
  | .afterAuthError _, .error error =>
    (s.recordFailure task error).setPhase id task (.storing gate (.error error))
  | .scheduled now, .ok lease =>
    (s.observeRotation env task (s.current task lease) (max s.now now)).setPhase id task
      (.storing gate (.ok true))
  | .scheduled _, .error error =>
    (s.recordFailure task error).setPhase id task (.returning gate (.error error))

/-- What a scheduled task does after it has looked the schedule up. -/
def checked (gate : Nat) (current : ResolvedCredential) (now : Int) : State :=
  match scheduleFromCredential env current now, s.schedules task.key with
  | none, _ =>
    { s with schedules := Function.update s.schedules task.key none }.setPhase id task
      (.returning gate (.ok false))
  | some _, none =>
    { s with schedules := s.schedules.observeRefreshed env task.key current s.now }.setPhase id task
      (.returning gate (.ok false))
  | some currentSchedule, some stored =>
    if current.rotated ∨ stored.leaseIdentity ≠ currentSchedule.leaseIdentity then
      (s.observeRotation env task current (max s.now now)).setPhase id task
        (.returning gate (.ok false))
    else if stored.nextAttemptAt > now then s.setPhase id task (.returning gate (.ok false))
    else s.setPhase id task (.rotating gate)

/-- The end of a rotation. -/
def rotationEnded (gate : Nat) (outcome : Except CredentialRotationError String) : State :=
  match outcome, task.kind with
  | .ok secret, _ =>
    { s with secret := Function.update s.secret task.key secret }.setPhase id task
      (.confirming gate)
  | .error error, .afterAuthError _ =>
    (s.recordFailure task error).setPhase id task (.storing gate (.error error))
  | .error error, .scheduled _ =>
    (s.recordFailure task error).setPhase id task (.returning gate (.error error))

/-- Write `last_auth_result`: a scheduled rotation clears it. -/
def storeResult (gate : Nat) (result : AuthResult) : State :=
  let stored := match task.kind with
    | .afterAuthError _ => some result
    | .scheduled _ => none
  (s.modifyGate gate fun g => { g with lastAuthResult := stored }).setPhase id task
    (.publishing gate result)

def publishResult (gate : Nat) (result : AuthResult) : State :=
  (s.modifyGate gate fun g => { g with generation := wrappingAdd g.generation 1 }).setPhase id task
    (.returning gate result)

/-- Drop the future of a call where it waits. -/
def dropTask : Option State :=
  match task.phase with
  | .called | .waiting _ _ => some (s.setPhase id task .dropped)
  | .resolving gate | .rotating gate | .confirming gate =>
    some ((s.setHolder gate none).setPhase id task .dropped)
  | _ => none

def step : Action → Option State
  | .tick d => some { s with now := s.now + d }
  | .call id key kind =>
    match s.tasks id with
    | some _ => none
    | none => some { s with tasks := Function.update s.tasks id (some ⟨key, kind, .called⟩) }
  | .forgetSchedule key => some { s with schedules := Function.update s.schedules key none }
  | .forgetGate key => some { s with gates := Function.update s.gates key none }
  | .claimDue now => some { s with schedules := s.schedules.claimDue now }
  | .lookup id =>
    match s.tasks id with
    | some ⟨key, kind, .called⟩ => some (s.lookup id ⟨key, kind, .called⟩)
    | _ => none
  | .load id =>
    match s.tasks id with
    | some ⟨key, kind, .loading gate⟩ =>
      some (s.setPhase id ⟨key, kind, .loading gate⟩
        (.waiting gate (some (s.heap gate).generation)))
    | _ => none
  | .acquire id =>
    match s.tasks id with
    | some ⟨key, kind, .waiting gate observed⟩ =>
      match (s.heap gate).holder with
      | none => some ((s.setHolder gate (some id)).setPhase id
          ⟨key, kind, .waiting gate observed⟩ (s.acquired gate observed))
      | some _ => none
    | _ => none
  | .resolve id outcome =>
    match s.tasks id with
    | some ⟨key, kind, .resolving gate⟩ =>
      some (s.resolved env id ⟨key, kind, .resolving gate⟩ gate outcome)
    | some ⟨key, kind, .confirming gate⟩ =>
      some (s.confirmed env id ⟨key, kind, .confirming gate⟩ gate outcome)
    | _ => none
  | .check id =>
    match s.tasks id with
    | some ⟨key, .scheduled now, .checking gate current⟩ =>
      some (s.checked env id ⟨key, .scheduled now, .checking gate current⟩ gate current now)
    | _ => none
  | .rotated id outcome =>
    match s.tasks id with
    | some ⟨key, kind, .rotating gate⟩ =>
      some (s.rotationEnded id ⟨key, kind, .rotating gate⟩ gate outcome)
    | _ => none
  | .store id =>
    match s.tasks id with
    | some ⟨key, kind, .storing gate result⟩ =>
      some (s.storeResult id ⟨key, kind, .storing gate result⟩ gate result)
    | _ => none
  | .publish id =>
    match s.tasks id with
    | some ⟨key, kind, .publishing gate result⟩ =>
      some (s.publishResult id ⟨key, kind, .publishing gate result⟩ gate result)
    | _ => none
  | .ret id =>
    match s.tasks id with
    | some ⟨key, kind, .returning gate result⟩ =>
      some ((s.setHolder gate none).setPhase id ⟨key, kind, .returning gate result⟩
        (.returned result))
    | _ => none
  | .drop id =>
    match s.tasks id with
    | some task => s.dropTask id task
    | none => none

end State

/-- A coordinator that has seen no account, and strategies with the given secrets in force. -/
def machine (env : Env) (secret : CredentialKey → String) : Machine State Action where
  start := { secret := secret }
  step := State.step env

end Kinetix.CredentialRefresh
