import Kinetix.Library.Machine
import Kinetix.OpaqueState.Operations

/-!
# The actors around the store

Captures, evictions, the two halves of each resolve, the durability worker and the clocks, as
actions in any order. A resolve looks into RAM when it begins and may answer at once; otherwise it
reads the table in one step, and decides and restores in a later one. The worker takes a job off the
queue in one step and writes the row in a later one, and it may prune the table at any time. Besides
the evictions that a capture or a restore makes itself, the oldest key may be evicted between any
two steps, as a call on another thread would do that is in the middle of its own insertion.

## Implementation notes

The log records the captures that had an effect, in their order; the code does not have it. A
resolve remembers how long the log was when it began and when it read the table. A resolve is named
by its scope and a number, and a job by its key, so that an action says whose state it touches.
-/

namespace Kinetix.OpaqueState
open StateMachine

/-- The name of one call of `resolve_tool_signature`. -/
structure TaskId where
  scope : OpaqueClientScope
  number : Nat
  deriving DecidableEq, Repr

inductive Phase
  | looking
  | fetched (rows : List StoredRow) (readAt : Nat)
  | answered (result : OpaqueLookupResult)
  deriving DecidableEq

/-- A resolve, and how far it is. -/
structure Task where
  call : Call
  begunAt : Nat
  phase : Phase
  deriving DecidableEq

/-- The store, the clocks and the resolves. -/
structure State where
  store : Store := {}
  writing : Option DurabilityWrite := none
  tasks : TaskId → Option Task := fun _ => none
  instant : Nat := 0
  wall : Int := 0
  log : List Capture := []

/-- A step of an actor. -/
inductive Action
  | tick (instant wall : Nat)
  | capture (c : Capture)
  | evict (key : OpaqueCacheKey)
  | resolve (id : TaskId) (call : Call)
  | fetch (id : TaskId) (readable : Bool)
  | finish (id : TaskId)
  | receive (key : OpaqueCacheKey)
  | persist (key : OpaqueCacheKey) (nonce : Nat) (stored : Bool)
  | prune

namespace State

def setTask (s : State) (id : TaskId) (task : Task) : State :=
  { s with tasks := Function.update s.tasks id (some task) }

@[simp] theorem setTask_tasks (s : State) (id : TaskId) (task : Task) :
    (s.setTask id task).tasks = Function.update s.tasks id (some task) :=
  rfl

/-- The writes that have been queued and have not reached the table. -/
def pendingWrites (s : State) : List DurabilityWrite := s.writing.toList ++ s.store.queue

variable (env : Env)

def beginResolve (s : State) (id : TaskId) (call : Call) : State :=
  match s.store.lookMemory env s.instant id.scope call with
  | (store, some result) =>
    { s with store := store }.setTask id ⟨call, s.log.length, .answered result⟩
  | (store, none) => { s with store := store }.setTask id ⟨call, s.log.length, .looking⟩

theorem beginResolve_eq (s : State) (id : TaskId) (call : Call) : s.beginResolve env id call =
    { s with store := (s.store.lookMemory env s.instant id.scope call).1 }.setTask id
      ⟨call, s.log.length,
        (s.store.lookMemory env s.instant id.scope call).2.elim .looking .answered⟩ := by
  unfold beginResolve
  rcases s.store.lookMemory env s.instant id.scope call with ⟨store, _ | result⟩ <;> rfl

def step (s : State) : Action → Option State
  | .tick instant wall => some { s with instant := s.instant + instant, wall := s.wall + wall }
  | .capture c =>
    some { s with
      store := s.store.captureToolSignature env s.instant c
      log := if c.signature = "" ∨ c.toolCallId = "" then s.log else s.log ++ [c] }
  | .evict key => (s.store.evict key).map fun store => { s with store := store }
  | .resolve id call =>
    match s.tasks id with
    | some _ => none
    | none => some (s.beginResolve env id call)
  | .fetch id readable =>
    match s.tasks id with
    | some ⟨call, begunAt, .looking⟩ =>
      let rows := if readable then
          s.store.fetchRows s.wall (id.scope.hash env.sha)
            (toolCallHash env.sha id.scope call.toolCallId)
        else []
      some (s.setTask id ⟨call, begunAt, .fetched rows s.log.length⟩)
    | _ => none
  | .finish id =>
    match s.tasks id with
    | some ⟨call, begunAt, .fetched rows _⟩ =>
      let (store, result) := s.store.resolveRows env s.instant id.scope call rows
      some ({ s with store := store }.setTask id ⟨call, begunAt, .answered result⟩)
    | _ => none
  | .receive key =>
    match s.writing, s.store.queue with
    | none, job :: queue =>
      if job.key = key then
        some { s with store := { s.store with queue := queue }, writing := some job }
      else none
    | _, _ => none
  | .persist key nonce stored =>
    match s.writing with
    | some job =>
      if job.key = key then
        some { s with
          store := s.store.persistOpaqueState env s.wall nonce stored job
          writing := none }
      else none
    | none => none
  | .prune => some { s with store := s.store.prunePool s.wall }

end State

/-- What each action does, and when it can be taken. -/
inductive Transition (env : Env) (s : State) : Action → State → Prop
  | tick (instant wall : Nat) : Transition env s (.tick instant wall)
      { s with instant := s.instant + instant, wall := s.wall + wall }
  | ignored (c : Capture) (h : ¬ c.Effective) : Transition env s (.capture c) s
  | captured (c : Capture) (h : c.Effective) : Transition env s (.capture c)
      { s with
        store := (s.store.remember env.maxMemoryRows (c.key env.sha)
          (c.entry env.sha s.instant)).trySend (c.write env.sha)
        log := s.log ++ [c] }
  | evict (key : OpaqueCacheKey) (store : Store) (h : s.store.evict key = some store) :
      Transition env s (.evict key) { s with store := store }
  | resolve (id : TaskId) (call : Call) (h : s.tasks id = none) :
      Transition env s (.resolve id call)
        ({ s with store := (s.store.lookMemory env s.instant id.scope call).1 }.setTask id
          ⟨call, s.log.length,
            (s.store.lookMemory env s.instant id.scope call).2.elim .looking .answered⟩)
  | fetch (id : TaskId) (readable : Bool) (call : Call) (begunAt : Nat)
      (h : s.tasks id = some ⟨call, begunAt, .looking⟩) :
      Transition env s (.fetch id readable)
        (s.setTask id ⟨call, begunAt, .fetched
          (if readable then s.store.fetchRows s.wall (id.scope.hash env.sha)
            (toolCallHash env.sha id.scope call.toolCallId) else []) s.log.length⟩)
  | finish (id : TaskId) (call : Call) (begunAt : Nat) (rows : List StoredRow) (readAt : Nat)
      (h : s.tasks id = some ⟨call, begunAt, .fetched rows readAt⟩) :
      Transition env s (.finish id)
        ({ s with store := (s.store.resolveRows env s.instant id.scope call rows).1 }.setTask id
          ⟨call, begunAt,
            .answered (s.store.resolveRows env s.instant id.scope call rows).2⟩)
  | receive (job : DurabilityWrite) (queue : List DurabilityWrite) (hwriting : s.writing = none)
      (hqueue : s.store.queue = job :: queue) : Transition env s (.receive job.key)
        { s with store := { s.store with queue := queue }, writing := some job }
  | persist (job : DurabilityWrite) (nonce : Nat) (stored : Bool) (h : s.writing = some job) :
      Transition env s (.persist job.key nonce stored)
        { s with
          store := s.store.persistOpaqueState env s.wall nonce stored job
          writing := none }
  | prune : Transition env s .prune { s with store := s.store.prunePool s.wall }

/-- A step is a transition. -/
theorem State.transition_of_step {env : Env} {s s' : State} {a : Action}
    (h : s.step env a = some s') : Transition env s a s' := by
  cases a with
  | tick instant wall =>
    cases h
    exact .tick instant wall
  | capture c =>
    by_cases heff : c.Effective
    · simp only [State.step, Store.capture_effective heff, if_neg (not_or.mpr heff)] at h
      cases h
      exact .captured c heff
    · have hign : c.signature = "" ∨ c.toolCallId = "" := not_not.mp fun h => heff (not_or.mp h)
      simp only [State.step, Store.captureToolSignature, if_pos hign] at h
      cases h
      exact .ignored c heff
  | evict key =>
    obtain ⟨store, hstore, rfl⟩ := Option.map_eq_some_iff.mp h
    exact .evict key store hstore
  | resolve id call =>
    simp only [State.step] at h
    split at h
    · cases h
    · next hid =>
      cases h
      rw [State.beginResolve_eq]
      exact .resolve id call hid
  | fetch id readable =>
    simp only [State.step] at h
    split at h
    · next call begunAt hid =>
      cases h
      exact .fetch id readable call begunAt hid
    · cases h
  | finish id =>
    simp only [State.step] at h
    split at h
    · next call begunAt rows readAt hid =>
      cases h
      exact .finish id call begunAt rows readAt hid
    · cases h
  | receive key =>
    simp only [State.step] at h
    split at h
    · next job queue hwriting hqueue =>
      split_ifs at h with hkey
      cases h
      subst hkey
      exact .receive job queue hwriting hqueue
    · cases h
  | persist key nonce stored =>
    simp only [State.step] at h
    split at h
    · next job hwriting =>
      split_ifs at h with hkey
      cases h
      subst hkey
      exact .persist job nonce stored hwriting
    · cases h
  | prune =>
    cases h
    exact .prune

/-- A store with an empty cache and an empty table. -/
def machine (env : Env) : Machine State Action where
  start := {}
  step := State.step env

/-- The result that a resolve has returned. -/
def State.answer (s : State) (id : TaskId) : Option OpaqueLookupResult :=
  (s.tasks id).bind fun task =>
    match task.phase with
    | .answered result => some result
    | _ => none

theorem answered_of_answer {s : State} {id : TaskId} {result : OpaqueLookupResult}
    (h : s.answer id = some result) :
    ∃ call begunAt, s.tasks id = some ⟨call, begunAt, .answered result⟩ := by
  unfold State.answer at h
  obtain ⟨⟨call, begunAt, phase⟩, htask, h⟩ := Option.bind_eq_some_iff.mp h
  cases phase with
  | looking | fetched rows readAt => cases h
  | answered result' =>
    cases h
    exact ⟨call, begunAt, htask⟩

end Kinetix.OpaqueState
