import Kinetix.CredentialRefresh.Coordinator

/-!
# One rotation of an account at a time

A rotation runs under the lock of the gate that its task has looked up. All tasks of an account that
have a gate have the same one as long as no gate is created while a task has an older one. `forget`
takes the gate out of the map, so that the next lookup creates another one: then two tasks can
rotate at the same time.
-/

namespace Kinetix.CredentialRefresh
open Slots

variable {env : Env}

/-- The gate that a task has a handle of. -/
def Phase.gate : Phase → Option Nat
  | .loading gate | .waiting gate _ | .resolving gate | .checking gate _ | .rotating gate
  | .confirming gate | .storing gate _ | .publishing gate _ | .returning gate _ => some gate
  | .called | .returned _ | .dropped => none

/-- The gate whose lock a task holds. -/
def Phase.held : Phase → Option Nat
  | .resolving gate | .checking gate _ | .rotating gate | .confirming gate | .storing gate _
  | .publishing gate _ | .returning gate _ => some gate
  | .called | .loading _ | .waiting _ _ | .returned _ | .dropped => none

namespace State

def held (s : State) (id : Nat) : Option Nat := (s.tasks id).bind (·.phase.held)

def holders (s : State) (gate : Nat) : Option Nat := (s.heap gate).holder

/-- A rotation of the account is in flight in the task. -/
def Rotating (s : State) (id : Nat) (key : CredentialKey) : Prop :=
  ∃ kind gate, s.tasks id = some ⟨key, kind, .rotating gate⟩

/-- No task of the account has a gate. -/
def Vacant (s : State) (key : CredentialKey) : Prop :=
  ∀ id task, s.tasks id = some task → task.key = key → task.phase.gate = none

end State

/-- No gate is created for an account while a task of it has one. -/
def KeepsGate (s : State) : Action → Prop
  | .lookup id => ∀ task, s.tasks id = some task → s.gates task.key = none → s.Vacant task.key
  | _ => True

/-- What a step can do to the map of gates, the locks and the places of the tasks. -/
inductive Moved (s : State) : Action → State → Prop
  | quiet {a : Action} {s' : State} (ht : s'.tasks = s.tasks) (hg : s'.gates = s.gates)
      (hh : s'.holders = s.holders) : Moved s a s'
  | forgotten {key : CredentialKey} {s' : State} (ht : s'.tasks = s.tasks)
      (hg : s'.gates = Function.update s.gates key none) (hh : s'.holders = s.holders) :
      Moved s (.forgetGate key) s'
  | started {id : Nat} {key : CredentialKey} {kind : Kind} {s' : State}
      (hid : s.tasks id = none)
      (ht : s'.tasks = Function.update s.tasks id (some ⟨key, kind, .called⟩))
      (hg : s'.gates = s.gates) (hh : s'.holders = s.holders) : Moved s (.call id key kind) s'
  | entered {id gate : Nat} {key : CredentialKey} {kind : Kind} {phase : Phase} {s' : State}
      (hid : s.tasks id = some ⟨key, kind, .called⟩)
      (ht : s'.tasks = Function.update s.tasks id (some ⟨key, kind, phase⟩))
      (hp : phase.gate = some gate) (hl : phase.held = none)
      (hg : s.gates key = some gate ∧ s'.gates = s.gates ∨
        s.gates key = none ∧ s'.gates = Function.update s.gates key (some gate))
      (hh : s'.holders = s.holders) : Moved s (.lookup id) s'
  | stayed {a : Action} {id : Nat} {key : CredentialKey} {kind : Kind} {phase phase' : Phase}
      {s' : State} (hid : s.tasks id = some ⟨key, kind, phase⟩)
      (ht : s'.tasks = Function.update s.tasks id (some ⟨key, kind, phase'⟩))
      (hp : phase'.gate = phase.gate) (hl : phase'.held = phase.held)
      (hg : s'.gates = s.gates) (hh : s'.holders = s.holders) : Moved s a s'
  | acquired {a : Action} {id gate : Nat} {key : CredentialKey} {kind : Kind}
      {phase phase' : Phase} {s' : State} (hid : s.tasks id = some ⟨key, kind, phase⟩)
      (ht : s'.tasks = Function.update s.tasks id (some ⟨key, kind, phase'⟩))
      (hp : phase'.gate = phase.gate) (hl : phase.held = none) (hl' : phase'.held = some gate)
      (hfree : s.holders gate = none) (hg : s'.gates = s.gates)
      (hh : s'.holders = Function.update s.holders gate (some id)) : Moved s a s'
  | released {a : Action} {id gate : Nat} {key : CredentialKey} {kind : Kind}
      {phase phase' : Phase} {s' : State} (hid : s.tasks id = some ⟨key, kind, phase⟩)
      (ht : s'.tasks = Function.update s.tasks id (some ⟨key, kind, phase'⟩))
      (hp : phase'.gate = none) (hl : phase.held = some gate) (hl' : phase'.held = none)
      (hg : s'.gates = s.gates) (hh : s'.holders = Function.update s.holders gate none) :
      Moved s a s'
  | left {a : Action} {id : Nat} {key : CredentialKey} {kind : Kind} {phase phase' : Phase}
      {s' : State} (hid : s.tasks id = some ⟨key, kind, phase⟩)
      (ht : s'.tasks = Function.update s.tasks id (some ⟨key, kind, phase'⟩))
      (hp : phase'.gate = none) (hl : phase.held = none) (hl' : phase'.held = none)
      (hg : s'.gates = s.gates) (hh : s'.holders = s.holders) : Moved s a s'

section Operations
variable (s : State) (id gate : Nat) (task : Task)

variable (error : CredentialRotationError) (phase : Phase)

@[simp] theorem State.setPhase_tasks : (s.setPhase id task phase).tasks =
    Function.update s.tasks id (some { task with phase := phase }) :=
  rfl

@[simp] theorem State.setPhase_gates : (s.setPhase id task phase).gates = s.gates :=
  rfl

@[simp] theorem State.setPhase_holders : (s.setPhase id task phase).holders = s.holders :=
  rfl

@[simp] theorem State.recordFailure_tasks : (s.recordFailure task error).tasks = s.tasks := by
  unfold State.recordFailure
  split_ifs <;> rfl

@[simp] theorem State.recordFailure_gates : (s.recordFailure task error).gates = s.gates := by
  unfold State.recordFailure
  split_ifs <;> rfl

@[simp] theorem State.recordFailure_holders : (s.recordFailure task error).holders = s.holders := by
  unfold State.recordFailure
  split_ifs <;> rfl

@[simp] theorem State.setHolder_holders (holder : Option Nat) :
    (s.setHolder gate holder).holders = Function.update s.holders gate holder := by
  funext g
  simp only [holders, setHolder, modifyGate, Function.update_apply]
  split_ifs <;> rfl

/-- A change of a gate that leaves its lock alone. -/
theorem State.modifyGate_holders {f : Gate → Gate} (hf : (f (s.heap gate)).holder =
    (s.heap gate).holder) : (s.modifyGate gate f).holders = s.holders := by
  funext g
  simp only [holders, modifyGate, Function.update_apply]
  split_ifs with hg
  · rw [hf, hg]
  · rfl

end Operations

variable {phase phase' : Phase} {s s' : State} {id : Nat} {key : CredentialKey} {kind : Kind}
  {a : Action}

/-- A task moves on under the same gate and lock. -/
theorem State.setPhase_moved {s t : State} (hid : s.tasks id = some ⟨key, kind, phase⟩)
    (ht : t.tasks = s.tasks) (hg : t.gates = s.gates) (hh : t.holders = s.holders)
    (hp : phase'.gate = phase.gate) (hl : phase'.held = phase.held) :
    Moved s a (t.setPhase id ⟨key, kind, phase⟩ phase') := by
  refine .stayed hid ?_ hp hl hg hh
  rw [setPhase_tasks, ht]

/-- A strategy call has failed. -/
theorem State.failed_moved {s : State} {error : CredentialRotationError}
    (hid : s.tasks id = some ⟨key, kind, phase⟩) (hp : phase'.gate = phase.gate)
    (hl : phase'.held = phase.held) :
    Moved s a ((s.recordFailure ⟨key, kind, phase⟩ error).setPhase id ⟨key, kind, phase⟩ phase') :=
  setPhase_moved hid (s.recordFailure_tasks _ _) (s.recordFailure_gates _ _)
    (s.recordFailure_holders _ _) hp hl

theorem acquired_gate (s : State) (gate : Nat) (observed : Option Nat) :
    (s.acquired gate observed).gate = some gate ∧ (s.acquired gate observed).held = some gate := by
  unfold State.acquired
  split
  · exact ⟨rfl, rfl⟩
  · split_ifs
    · split <;> exact ⟨rfl, rfl⟩
    · exact ⟨rfl, rfl⟩

theorem State.lookup_moved (hid : s.tasks id = some ⟨key, kind, .called⟩) :
    Moved s (.lookup id) (s.lookup id ⟨key, kind, .called⟩) := by
  simp only [lookup, State.gate]
  cases hg : s.gates key with
  | some g =>
    cases kind with
    | afterAuthError failedSecret | scheduled now =>
      exact .entered hid rfl rfl rfl (.inl ⟨hg, rfl⟩) rfl
  | none =>
    cases kind with
    | afterAuthError failedSecret | scheduled now =>
      exact .entered hid rfl rfl rfl (.inr ⟨hg, rfl⟩) rfl

variable {gate : Nat} {outcome : Except CredentialRotationError Lease}

theorem State.resolved_moved (hid : s.tasks id = some ⟨key, kind, .resolving gate⟩) :
    Moved s a (s.resolved env id ⟨key, kind, .resolving gate⟩ gate outcome) := by
  unfold resolved
  split
  · split_ifs
    · exact .stayed hid rfl rfl rfl rfl rfl
    · exact .stayed hid rfl rfl rfl rfl rfl
  · split_ifs
    · exact .stayed hid rfl rfl rfl rfl rfl
    · exact .stayed hid rfl rfl rfl rfl rfl
  · exact .stayed hid rfl rfl rfl rfl rfl
  · exact failed_moved hid rfl rfl

theorem State.confirmed_moved (hid : s.tasks id = some ⟨key, kind, .confirming gate⟩) :
    Moved s a (s.confirmed env id ⟨key, kind, .confirming gate⟩ gate outcome) := by
  unfold confirmed
  split
  · exact .stayed hid rfl rfl rfl rfl rfl
  · exact failed_moved hid rfl rfl
  · exact .stayed hid rfl rfl rfl rfl rfl
  · exact failed_moved hid rfl rfl

theorem State.checked_moved {now : Int} {current : ResolvedCredential}
    (hid : s.tasks id = some ⟨key, .scheduled now, .checking gate current⟩) :
    Moved s a
      (s.checked env id ⟨key, .scheduled now, .checking gate current⟩ gate current now) := by
  unfold checked
  split
  · exact .stayed hid rfl rfl rfl rfl rfl
  · exact .stayed hid rfl rfl rfl rfl rfl
  · split_ifs
    · exact .stayed hid rfl rfl rfl rfl rfl
    · exact .stayed hid rfl rfl rfl rfl rfl
    · exact .stayed hid rfl rfl rfl rfl rfl

theorem State.rotationEnded_moved {outcome : Except CredentialRotationError String}
    (hid : s.tasks id = some ⟨key, kind, .rotating gate⟩) :
    Moved s a (s.rotationEnded id ⟨key, kind, .rotating gate⟩ gate outcome) := by
  unfold rotationEnded
  split
  · exact .stayed hid rfl rfl rfl rfl rfl
  · exact failed_moved hid rfl rfl
  · exact failed_moved hid rfl rfl

theorem State.dropTask_moved {task : Task} (hid : s.tasks id = some task)
    (h : s.dropTask id task = some s') : Moved s (.drop id) s' := by
  rcases task with ⟨key, kind, phase⟩
  cases phase with
  | called | waiting gate observed =>
    cases h
    exact .left hid rfl rfl rfl rfl rfl rfl
  | resolving gate | rotating gate | confirming gate =>
    cases h
    exact .released hid rfl rfl rfl rfl rfl (by simp)
  | loading | checking | storing | publishing | returning | returned | dropped => cases h

/-- Every step is one of these moves. -/
theorem State.step_moved (h : s.step env a = some s') : Moved s a s' := by
  cases a with
  | tick d | claimDue now | forgetSchedule key =>
    cases h
    exact .quiet rfl rfl rfl
  | forgetGate key =>
    cases h
    exact .forgotten rfl rfl rfl
  | call id key kind =>
    simp only [step] at h
    split at h
    · cases h
    · next hid =>
      cases h
      exact .started hid rfl rfl rfl
  | lookup id =>
    simp only [step] at h
    split at h
    · next key kind hid =>
      cases h
      exact lookup_moved hid
    · cases h
  | load id =>
    simp only [step] at h
    split at h
    · next key kind g hid =>
      cases h
      exact .stayed hid rfl rfl rfl rfl rfl
    · cases h
  | acquire id =>
    simp only [step] at h
    split at h
    · next key kind g observed hid =>
      split at h
      · next hfree =>
        cases h
        obtain ⟨hp, hl⟩ := acquired_gate s g observed
        exact .acquired hid rfl hp rfl hl hfree rfl (by simp)
      · cases h
    · cases h
  | resolve id outcome =>
    simp only [step] at h
    split at h
    · next key kind g hid =>
      cases h
      exact resolved_moved hid
    · next key kind g hid =>
      cases h
      exact confirmed_moved hid
    · cases h
  | check id =>
    simp only [step] at h
    split at h
    · next key now g current hid =>
      cases h
      exact checked_moved hid
    · cases h
  | rotated id outcome =>
    simp only [step] at h
    split at h
    · next key kind g hid =>
      cases h
      exact rotationEnded_moved hid
    · cases h
  | store id =>
    simp only [step] at h
    split at h
    · next key kind g result hid =>
      cases h
      unfold storeResult
      exact setPhase_moved hid rfl rfl (s.modifyGate_holders g rfl) rfl rfl
    · cases h
  | publish id =>
    simp only [step] at h
    split at h
    · next key kind g result hid =>
      cases h
      unfold publishResult
      exact setPhase_moved hid rfl rfl (s.modifyGate_holders g rfl) rfl rfl
    · cases h
  | ret id =>
    simp only [step] at h
    split at h
    · next key kind g result hid =>
      cases h
      exact .released hid rfl rfl rfl rfl rfl (by simp)
    · cases h
  | drop id =>
    simp only [step] at h
    split at h
    · next task hid => exact dropTask_moved hid h
    · cases h

/-! ## Tasks of an account have one gate -/

/-- The locks are held by the tasks that they name, and all tasks of an account that have a gate
have the same one, which is the one in the map if there is one. -/
structure OneGate (s : State) : Prop where
  locks : Locks.Agree s.holders s.held
  listed : ∀ {id task gate g}, s.tasks id = some task → task.phase.gate = some gate →
    s.gates task.key = some g → g = gate
  shared : ∀ {id id' task task' gate gate'}, s.tasks id = some task → s.tasks id' = some task' →
    task.key = task'.key → task.phase.gate = some gate → task'.phase.gate = some gate' →
    gate = gate'

theorem State.held_update {task : Task} (h : s'.tasks = Function.update s.tasks id (some task)) :
    s'.held = Function.update s.held id task.phase.held := by
  funext id'
  rw [held, h]
  simp only [Function.update_apply]
  split_ifs
  · rfl
  · rfl

theorem State.held_congr (h : s'.tasks = s.tasks) : s'.held = s.held := by
  funext id
  rw [held, h]
  rfl

theorem State.held_of {s : State} {task : Task} (h : s.tasks id = some task) :
    s.held id = task.phase.held := by
  rw [held, h]
  rfl

/-- A lock that a task does not hold before or after its step. -/
theorem State.held_stay (hid : s.tasks id = some ⟨key, kind, phase⟩)
    (ht : s'.tasks = Function.update s.tasks id (some ⟨key, kind, phase'⟩))
    (hl : phase'.held = phase.held) : s'.held = s.held := by
  rw [held_update ht, hl]
  refine Function.update_eq_self_iff.mpr ?_
  rw [held_of hid]

namespace OneGate
variable {s s' : State} {id : Nat} {key : CredentialKey} {kind : Kind} {phase phase' : Phase}

/-- A task that has no gate that it had not before. -/
theorem update (O : OneGate s) (hid : s.tasks id = some ⟨key, kind, phase⟩)
    (ht : s'.tasks = Function.update s.tasks id (some ⟨key, kind, phase'⟩))
    (hp : ∀ gate, phase'.gate = some gate → phase.gate = some gate) (hg : s'.gates = s.gates)
    (locks : Locks.Agree s'.holders s'.held) : OneGate s' where
  locks := locks
  listed := by
    intro i task gate g h hgate hmap
    rw [ht] at h
    rw [hg] at hmap
    rcases update_eq_some.mp h with ⟨rfl, hnew⟩ | ⟨-, h⟩
    · cases hnew
      exact O.listed hid (hp _ hgate) hmap
    · exact O.listed h hgate hmap
  shared := by
    intro i i' task task' gate gate' h h' hkey hgate hgate'
    rw [ht] at h h'
    rcases update_eq_some.mp h with ⟨rfl, hnew⟩ | ⟨-, hold⟩ <;>
      rcases update_eq_some.mp h' with ⟨rfl, hnew'⟩ | ⟨-, hold'⟩
    · cases hnew
      cases hnew'
      exact Option.some.inj (hgate.symm.trans hgate')
    · cases hnew
      exact O.shared hid hold' hkey (hp _ hgate) hgate'
    · cases hnew'
      exact O.shared hold hid hkey hgate (hp _ hgate')
    · exact O.shared hold hold' hkey hgate hgate'

/-- A task gets the gate that the map has for its account, or a new one. -/
theorem enter (O : OneGate s) {gate : Nat} (hid : s.tasks id = some ⟨key, kind, .called⟩)
    (ht : s'.tasks = Function.update s.tasks id (some ⟨key, kind, phase⟩))
    (hp : phase.gate = some gate) (hmap : s'.gates key = some gate)
    (hothers : ∀ key', key' ≠ key → s'.gates key' = s.gates key')
    (hshared : ∀ {i task g}, s.tasks i = some task → task.key = key → task.phase.gate = some g →
      g = gate) (locks : Locks.Agree s'.holders s'.held) : OneGate s' where
  locks := locks
  listed := by
    intro i task g g' h hgate hlisted
    rw [ht] at h
    rcases update_eq_some.mp h with ⟨rfl, hnew⟩ | ⟨-, h⟩
    · cases hnew
      rw [hmap] at hlisted
      exact Option.some.inj (hlisted.symm.trans (hp.symm.trans hgate))
    · by_cases hkey : task.key = key
      · rw [hkey, hmap] at hlisted
        rw [hshared h hkey hgate]
        exact (Option.some.inj hlisted).symm
      · rw [hothers _ hkey] at hlisted
        exact O.listed h hgate hlisted
  shared := by
    intro i i' task task' g g' h h' hkey hgate hgate'
    rw [ht] at h h'
    rcases update_eq_some.mp h with ⟨rfl, hnew⟩ | ⟨-, hold⟩ <;>
      rcases update_eq_some.mp h' with ⟨rfl, hnew'⟩ | ⟨-, hold'⟩
    · cases hnew
      cases hnew'
      exact Option.some.inj (hgate.symm.trans hgate')
    · cases hnew
      cases hp.symm.trans hgate
      exact (hshared hold' hkey.symm hgate').symm
    · cases hnew'
      cases hp.symm.trans hgate'
      exact hshared hold hkey hgate
    · exact O.shared hold hold' hkey hgate hgate'

/-- A step keeps one gate for each account, if it creates none while a task has an older one. -/
theorem step {a : Action} (O : OneGate s) (hk : KeepsGate s a) (h : s.step env a = some s') :
    OneGate s' := by
  cases State.step_moved h with
  | quiet ht hg hh =>
    have hheld := State.held_congr ht
    exact {
      locks := by
        rw [hh, hheld]
        exact O.locks
      listed := by
        rw [ht, hg]
        exact O.listed
      shared := by
        rw [ht]
        exact O.shared }
  | @forgotten key _ ht hg hh =>
    have hheld := State.held_congr ht
    exact {
      locks := by
        rw [hh, hheld]
        exact O.locks
      listed := by
        intro i task gate g h hgate hmap
        rw [ht] at h
        rw [hg] at hmap
        rcases update_eq_some.mp hmap with ⟨-, hmap⟩ | ⟨-, hmap⟩
        · cases hmap
        · exact O.listed h hgate hmap
      shared := by
        rw [ht]
        exact O.shared }
  | @started id key kind _ hid ht hg hh =>
    have hheld : s'.held = s.held := by
      rw [State.held_update ht]
      refine Function.update_eq_self_iff.mpr ?_
      rw [State.held, hid]
      rfl
    exact {
      locks := by
        rw [hh, hheld]
        exact O.locks
      listed := by
        intro i task gate g h hgate hmap
        rw [ht] at h
        rw [hg] at hmap
        rcases update_eq_some.mp h with ⟨-, h⟩ | ⟨-, h⟩
        · cases h
          cases hgate
        · exact O.listed h hgate hmap
      shared := by
        intro i i' task task' gate gate' h h' hkey hgate hgate'
        rw [ht] at h h'
        rcases update_eq_some.mp h with ⟨-, h⟩ | ⟨-, h⟩
        · cases h
          cases hgate
        · rcases update_eq_some.mp h' with ⟨-, h'⟩ | ⟨-, h'⟩
          · cases h'
            cases hgate'
          · exact O.shared h h' hkey hgate hgate' }
  | @entered id gate key kind phase _ hid ht hp hl hg hh =>
    have hlocks : Locks.Agree s'.holders s'.held := by
      rw [hh, State.held_stay hid ht hl]
      exact O.locks
    rcases hg with ⟨hmap, hg⟩ | ⟨hmap, hg⟩
    · exact O.enter hid ht hp (hg ▸ hmap) (fun _ _ => by rw [hg])
        (fun h hkey hgate => (O.listed h hgate (hkey ▸ hmap)).symm) hlocks
    · refine O.enter hid ht hp (by rw [hg, Function.update_self])
        (fun _ hne => by rw [hg, Function.update_of_ne hne]) ?_ hlocks
      intro i task g h hkey hgate
      have hvacant := hk ⟨key, kind, .called⟩ hid hmap i task h hkey
      cases hvacant.symm.trans hgate
  | stayed hid ht hp hl hg hh =>
    refine O.update hid ht (fun _ h => hp ▸ h) hg ?_
    rw [hh, State.held_stay hid ht hl]
    exact O.locks
  | acquired hid ht hp hl hl' hfree hg hh =>
    refine O.update hid ht (fun _ h => hp ▸ h) hg ?_
    rw [hh, State.held_update ht, hl']
    exact O.locks.acquire hfree ((State.held_of hid).trans hl)
  | released hid ht hp hl hl' hg hh =>
    refine O.update hid ht (fun _ h => by rw [hp] at h; cases h) hg ?_
    rw [hh, State.held_update ht, hl']
    exact O.locks.release ((State.held_of hid).trans hl)
  | left hid ht hp hl hl' hg hh =>
    refine O.update hid ht (fun _ h => by rw [hp] at h; cases h) hg ?_
    rw [hh, State.held_stay hid ht (hl'.trans hl.symm)]
    exact O.locks

/-- Of two tasks of an account, one at most holds the lock of a gate. -/
theorem exclusive (O : OneGate s) {i i' : Nat} {task task' : Task} {g g' : Nat}
    (h : s.tasks i = some task) (h' : s.tasks i' = some task') (hkey : task.key = task'.key)
    (hl : task.phase.held = some g) (hl' : task'.phase.held = some g') : i = i' := by
  have gate_of_held : ∀ {phase : Phase} {g : Nat}, phase.held = some g → phase.gate = some g := by
    intro phase g hg
    cases phase <;> first | exact hg | cases hg
  cases O.shared h h' hkey (gate_of_held hl) (gate_of_held hl')
  exact O.locks.exclusive ((State.held_of h).trans hl) ((State.held_of h').trans hl')

end OneGate

theorem oneGate_start (secret : CredentialKey → String) : OneGate { secret := secret } where
  locks := by
    intro i k
    constructor <;> intro h <;> cases h
  listed := by
    intro id task gate g h
    cases h
  shared := by
    intro id id' task task' gate gate' h
    cases h

theorem oneGate_run {secret : CredentialKey → String} {as : List Action} {s : State}
    (hk : (machine env secret).Meets (fun _ => KeepsGate) as)
    (h : (machine env secret).run as = some s) : OneGate s :=
  (machine env secret).run_induction_of_meets (I := fun _ s => OneGate s) (oneGate_start secret)
    (fun _ _ _ _ O hk hstep => O.step hk hstep) as s hk h

/-- The map has the gate of every task that has one. -/
def Listed (s : State) : Prop :=
  ∀ id task gate, s.tasks id = some task → task.phase.gate = some gate →
    s.gates task.key = some gate

/-- Nothing but `forget` takes a gate out of the map. -/
theorem Listed.step {s s' : State} {a : Action} (L : Listed s) (ha : ∀ key, a ≠ .forgetGate key)
    (h : s.step env a = some s') : Listed s' := by
  have of_update : ∀ {id key kind phase phase'},
      s.tasks id = some ⟨key, kind, phase⟩ →
      s'.tasks = Function.update s.tasks id (some ⟨key, kind, phase'⟩) →
      (∀ gate, phase'.gate = some gate → phase.gate = some gate) → s'.gates = s.gates →
      Listed s' := by
    intro id key kind phase phase' hid ht hp hg i task gate h hgate
    rw [ht] at h
    rw [hg]
    rcases update_eq_some.mp h with ⟨-, hnew⟩ | ⟨-, hold⟩
    · cases hnew
      exact L _ ⟨key, kind, phase⟩ gate hid (hp _ hgate)
    · exact L _ _ _ hold hgate
  cases State.step_moved h with
  | quiet ht hg hh =>
    intro i task gate h hgate
    rw [ht] at h
    rw [hg]
    exact L _ _ _ h hgate
  | forgotten ht hg hh => exact absurd rfl (ha _)
  | started hid ht hg hh =>
    intro i task gate h hgate
    rw [ht] at h
    rw [hg]
    rcases update_eq_some.mp h with ⟨-, hnew⟩ | ⟨-, hold⟩
    · cases hnew
      cases hgate
    · exact L _ _ _ hold hgate
  | @entered id gate key kind phase _ hid ht hp hl hg hh =>
    have hkey : s'.gates key = some gate := by
      rcases hg with ⟨hmap, hg⟩ | ⟨-, hg⟩
      · rw [hg, hmap]
      · rw [hg, Function.update_self]
    have hothers : ∀ key' g, s.gates key' = some g → s'.gates key' = some g := by
      intro key' g hmap'
      rcases hg with ⟨-, hg⟩ | ⟨hmap, hg⟩
      · rw [hg, hmap']
      · rw [hg, Function.update_of_ne, hmap']
        rintro rfl
        cases hmap'.symm.trans hmap
    intro i task g h hgate
    rw [ht] at h
    rcases update_eq_some.mp h with ⟨-, hnew⟩ | ⟨-, hold⟩
    · cases hnew
      exact hkey.trans (hp.symm.trans hgate)
    · exact hothers _ _ (L _ _ _ hold hgate)
  | stayed hid ht hp hl hg hh | acquired hid ht hp hl hl' hfree hg hh =>
    exact of_update hid ht (fun _ h => hp ▸ h) hg
  | released hid ht hp hl hl' hg hh | left hid ht hp hl hl' hg hh =>
    exact of_update hid ht (fun _ h => by rw [hp] at h; cases h) hg

/-- Without `forget`, no gate is created for an account while a task of it has one. -/
theorem keepsGate_of_unforgotten {secret : CredentialKey → String} {as : List Action}
    (h : ∀ key, Action.forgetGate key ∉ as) :
    (machine env secret).Meets (fun _ => KeepsGate) as := by
  have hlisted : ∀ as s, (machine env secret).run as = some s →
      (∀ key, Action.forgetGate key ∉ as) → Listed s := by
    refine (machine env secret).run_induction
      (I := fun as s => (∀ key, Action.forgetGate key ∉ as) → Listed s) ?_ ?_
    · intro _ id task gate h
      cases h
    · intro as s a s' _ ih hstep hnot
      refine Listed.step (ih fun key hmem => hnot key (List.mem_append_left _ hmem)) ?_ hstep
      rintro key rfl
      exact hnot key (by simp)
  rintro pre a post s rfl hrun
  cases a with
  | lookup id =>
    intro task hid hmap i task' hi hkey
    have L := hlisted pre s hrun fun key hmem => h key (List.mem_append_left _ hmem)
    cases hgate : task'.phase.gate with
    | none => rfl
    | some gate =>
      have hmap' := L _ _ _ hi hgate
      rw [hkey, hmap] at hmap'
      cases hmap'
  | _ => trivial

/-- In a run that creates no gate for an account while a task of it has an older one, no two
rotations of the account are in flight. -/
theorem single_flight {secret : CredentialKey → String} {as : List Action} {s : State}
    {key : CredentialKey} {id id' : Nat}
    (hk : (machine env secret).Meets (fun _ => KeepsGate) as)
    (h : (machine env secret).run as = some s) (hid : s.Rotating id key)
    (hid' : s.Rotating id' key) : id = id' := by
  obtain ⟨kind, gate, hid⟩ := hid
  obtain ⟨kind', gate', hid'⟩ := hid'
  exact (oneGate_run hk h).exclusive hid hid' rfl rfl rfl

/-- The digests of the secrets of the examples. -/
def exampleDigests : Sha256.Table where
  digests :=
    [("stale", "a03f2386ae06b21109577020844df367857b72c2fcce384c1896fed98a89c82b"),
     ("fresh", "d098ab5e44b9aabb755f76d806598f43573c662b35e4a2eab1e312ec9ad195e2")]
  injective := by decide
  hex := by decide
  nonempty := by decide

/-- An environment for leases without timing hints. -/
def exampleEnv : Env where
  sha := .ofTable exampleDigests
  parseDt _ := none

def exampleKey : CredentialKey := ⟨"p1", "a1"⟩

def exampleLease : Lease := ⟨none, none, false⟩

/-- A call for the secret in force, up to its rotation. -/
def exampleRotation (id : Nat) : List Action :=
  [.call id exampleKey (.afterAuthError "stale"), .lookup id, .load id, .acquire id,
    .resolve id (.ok exampleLease)]

/-- A rotation in flight, and a call that waits for it. -/
theorem single_flight_waiting :
    let as := exampleRotation 0 ++ [.call 1 exampleKey (.scheduled 0), .lookup 1]
    ∃ s, (machine exampleEnv fun _ => "stale").run as = some s ∧ s.Rotating 0 exampleKey ∧
      ∀ id, s.Rotating id exampleKey → id = 0 := by
  intro as
  have hk : (machine exampleEnv fun _ => "stale").Meets (fun _ => KeepsGate) as :=
    keepsGate_of_unforgotten fun key hmem => by simp [as, exampleRotation] at hmem
  refine ⟨_, rfl, ⟨_, _, rfl⟩, fun id hid => ?_⟩
  exact single_flight hk rfl hid ⟨_, _, rfl⟩

/-- The gate is forgotten while a rotation runs under it, and the next call rotates under another
gate. -/
theorem forgotten_gate_rotates_twice :
    ¬ ∀ (env : Env) (secret : CredentialKey → String) (as : List Action) (s : State)
      (key : CredentialKey) (id id' : Nat), (machine env secret).run as = some s →
      s.Rotating id key → s.Rotating id' key → id = id' := by
  intro h
  have htwice := h exampleEnv (fun _ => "stale") (exampleRotation 0 ++
    [.forgetSchedule exampleKey, .forgetGate exampleKey] ++ exampleRotation 1) _ exampleKey 0 1 rfl
    ⟨_, _, rfl⟩ ⟨_, _, rfl⟩
  cases htwice

end Kinetix.CredentialRefresh
