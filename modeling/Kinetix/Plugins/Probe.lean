import Kinetix.Library.TaskList
import Kinetix.Plugins.Circuit
import Mathlib.Tactic

/-!
# The probe of a plugin's circuit

A half-open circuit is one whose probe some invocation owns. The row keeps this as long as the owner
lives to settle and nobody else settles meanwhile; the code sees to neither, so the probe can be
lost for good.
-/

namespace Kinetix.Plugins.Circuit
open StateMachine

/-- The invocation, once it was let in. -/
def Stage.call : Stage → Option Call
  | .running call => some call
  | .clear call => some call
  | .reopen call => some call
  | .bump call _ => some call
  | .count call => some call
  | .trip call => some call
  | _ => none

/-- A live invocation owns the probe. -/
def State.Owner (s : State) (i : Nat) (call : Call) : Prop :=
  ∃ stage, s.tasks[i]? = some stage ∧ stage.call = some call ∧ call.probe = true

/-- An invocation begins as the given task, looks at the circuit, and then claims the probe. -/
def claimAt (i : Nat) (t t' : Int) : List Action :=
  [.start (.gated false), .advance i ⟨t, true, none, false⟩, .advance i ⟨t', true, none, false⟩]

/-- The circuit is half-open exactly if one live invocation owns the probe, and no two do. If none
does, the circuit is closed, or an invocation that comes after some time claims a probe. -/
structure SlotKept (julianday : Int → Int) (s : State) : Prop where
  owned : s.shared.row.circuitState = .halfOpen → ∃ i call, s.Owner i call
  halfOpen : ∀ i call, s.Owner i call → s.shared.row.circuitState = .halfOpen
  single : ∀ i j call call', s.Owner i call → s.Owner j call' → i = j
  claimable : (∀ i call, ¬ s.Owner i call) → s.shared.row.circuitState = .closed ∨
    ∃ deadline, ∀ t t', deadline ≤ t → deadline ≤ t' → ∃ s' call,
      (circuit julianday).runFrom s (claimAt s.tasks.length t t') = some s' ∧
        s'.Owner s.tasks.length call

/-- A step of an invocation that was let in before the circuit was last opened neither closes nor
opens it. -/
def Harmless (s : State) (a : Action) (s' : State) : Prop :=
  ∀ i env stage call, a = .advance i env → s.tasks[i]? = some stage → stage.call = some call →
    call.openings < s.shared.openings →
    (s'.shared.row.circuitState = .closed → s.shared.row.circuitState = .closed) ∧
      s'.shared.openings = s.shared.openings

/-- The probe is kept in every state of the run, and every late result is harmless. -/
structure ProbeSafe (julianday : Int → Int) (as : List Action) : Prop where
  kept : ∀ pre post s, as = pre ++ post → (circuit julianday).run pre = some s →
    SlotKept julianday s
  harmless : ∀ pre a post s s', as = pre ++ a :: post → (circuit julianday).run pre = some s →
    (circuit julianday).step s a = some s' → Harmless s a s'

/-- What settles the owner of the probe succeeds, and its failure finds the count at the threshold.
A statement of any other invocation does not change a half-open circuit and, if the circuit was
opened since the invocation was let in, does not close or open it. -/
def Stage.Respects (s : Shared) (env : Env) : Stage → Prop
  | .clear call =>
    if call.probe then env.dbOk = true
    else env.dbOk = true → s.row.circuitState ≠ .halfOpen ∧
      (call.openings < s.openings → s.row.circuitState = .closed)
  | .reopen call =>
    if call.probe then env.dbOk = true else env.dbOk = true → s.row.circuitState ≠ .halfOpen
  | .bump call _ => call.probe = true → env.dbOk = true
  | .count call =>
    call.probe = true → env.dbOk = true ∧ circuitFaultThreshold ≤ s.row.consecutiveFailures
  | .trip call =>
    if call.probe then env.dbOk = true
    else env.dbOk = true → s.row.circuitState ≠ .halfOpen ∧ s.openings ≤ call.openings
  | _ => True

/-- The owner of the probe is not dropped and does not end with the process, and statements respect
the probe. -/
def State.Respects (s : State) : Action → Prop
  | .start _ => True
  | .advance i env => ∀ stage, s.tasks[i]? = some stage → stage.Respects s.shared env
  | .drop i => ∀ call, ¬ s.Owner i call
  | .restart => ∀ i call, ¬ s.Owner i call

instance (s : Shared) (env : Env) : (stage : Stage) → Decidable (stage.Respects s env)
  | .ready _ => .isTrue trivial
  | .claim _ => .isTrue trivial
  | .claimRead _ => .isTrue trivial
  | .running _ => .isTrue trivial
  | .clear _ => inferInstanceAs (Decidable (ite _ _ _))
  | .reopen _ => inferInstanceAs (Decidable (ite _ _ _))
  | .bump _ _ => inferInstanceAs (Decidable (_ → _))
  | .count _ => inferInstanceAs (Decidable (_ → _))
  | .trip _ => inferInstanceAs (Decidable (ite _ _ _))
  | .ended => .isTrue trivial

/-- The owner of the probe among the tasks, if it is the given one. -/
def State.owner (s : State) (i : Nat) : Option Call :=
  (s.tasks[i]?.bind Stage.call).filter Call.probe

theorem State.owner_eq_some {s : State} {i : Nat} {call : Call} :
    s.owner i = some call ↔ s.Owner i call := by
  simp only [owner, Option.filter_eq_some_iff, Option.bind_eq_some_iff, Owner]
  constructor
  · rintro ⟨⟨stage, hi, hcall⟩, hp⟩
    exact ⟨stage, hi, hcall, hp⟩
  · rintro ⟨stage, hi, hcall, hp⟩
    exact ⟨⟨stage, hi, hcall⟩, hp⟩

theorem State.owner_eq_none {s : State} {i : Nat} :
    s.owner i = none ↔ ∀ call, ¬ s.Owner i call := by
  simp only [Option.eq_none_iff_forall_ne_some, ne_eq, owner_eq_some]

theorem State.lt_of_owner {s : State} {i : Nat} {call : Call} (h : s.Owner i call) :
    i < s.tasks.length := by
  obtain ⟨stage, hi, -⟩ := h
  exact (List.getElem?_eq_some_iff.mp hi).1

instance (s : State) : (a : Action) → Decidable (s.Respects a)
  | .start _ => .isTrue trivial
  | .advance i env =>
    decidable_of_iff (∀ stage ∈ s.tasks[i]?, stage.Respects s.shared env) Iff.rfl
  | .drop i => decidable_of_iff (s.owner i = none) State.owner_eq_none
  | .restart =>
    decidable_of_iff (∀ i < s.tasks.length, s.owner i = none)
      ⟨fun h i call ho => State.owner_eq_none.mp (h i (State.lt_of_owner ho)) call ho,
        fun h i _ => State.owner_eq_none.mpr (h i)⟩

/-! ## Steps -/

/-- What a step of an invocation can do to the circuit. -/
inductive Effect (julianday : Int → Int) (env : Env) (s : Shared) : Stage → Shared → Stage → Prop
    where
  /-- The circuit stays as it is and so does the ownership of the probe. -/
  | quiet {stage next : Stage} {s' : Shared} (state : s'.row.circuitState = s.row.circuitState)
      (deadline : s'.row.circuitOpenUntil = s.row.circuitOpenUntil)
      (openings : s'.openings = s.openings)
      (owner : ∀ call : Call, call.probe = true →
        (next.call = some call ↔ stage.call = some call))
      (respects : stage.Respects s env) : Effect julianday env s stage s' next
  | claimed {cancellable : Bool} {row : RuntimeState}
      (claim : s.row.claim julianday env.now = some row) :
      Effect julianday env s (.claim cancellable) { s with row }
        (.running ⟨cancellable, true, s.openings⟩)
  | closes {call : Call} (dbOk : env.dbOk = true) :
      Effect julianday env s (.clear call) { s with row := s.row.clearFailures } .ended
  | reopens {call : Call} (dbOk : env.dbOk = true) (halfOpen : s.row.circuitState = .halfOpen) :
      Effect julianday env s (.reopen call) (s.openCircuit env.now) .ended
  | trips {call : Call} (dbOk : env.dbOk = true) :
      Effect julianday env s (.trip call) (s.openCircuit env.now) .ended
  /-- The invocation ends and leaves the circuit as it is. -/
  | lost {stage : Stage} {call : Call} (hcall : stage.call = some call)
      (other : call.probe = false → stage.Respects s env)
      (owner : s.row.circuitState = .halfOpen → stage.Respects s env → call.probe = false) :
      Effect julianday env s stage s .ended

section
variable {julianday : Int → Int} {env : Env} {s s' : Shared} {stage next : Stage}

@[simp] theorem settle_call (call : Call) : (settle call env).call = some call := by
  rw [settle]
  split
  · rfl
  · split
    · rfl
    · split <;> rfl

theorem Stage.effect (h : stage.advance julianday env s = some (s', next)) :
    Effect julianday env s stage s' next := by
  cases stage with
  | ready cancellable =>
    cases h
    refine .quiet rfl rfl rfl (fun call _ => ?_) trivial
    split <;> exact Iff.rfl
  | claim cancellable =>
    rw [advance] at h
    split at h
    · split at h
      · cases h
        exact .claimed ‹_›
      · cases h
        exact .quiet rfl rfl rfl (fun _ _ => Iff.rfl) trivial
    · cases h
      exact .quiet rfl rfl rfl (fun _ _ => Iff.rfl) trivial
  | claimRead cancellable =>
    cases h
    refine .quiet rfl rfl rfl (fun c hc => ?_) trivial
    split
    · refine iff_of_false (fun h => ?_) (by simp [call])
      cases h
      cases hc
    · exact Iff.rfl
  | running c =>
    cases h
    exact .quiet rfl rfl rfl (fun _ _ => by rw [settle_call, call]) trivial
  | clear c =>
    rw [advance] at h
    by_cases hdb : env.dbOk = true
    · rw [if_pos hdb] at h
      cases h
      exact .closes hdb
    · rw [if_neg hdb] at h
      cases h
      refine .lost rfl (fun hp => ?_) fun _ hr => ?_
      · rw [Respects, hp]
        exact fun h => absurd h hdb
      · rw [Respects] at hr
        by_contra hp
        rw [if_pos (eq_true_of_ne_false hp)] at hr
        exact hdb hr
  | reopen c =>
    rw [advance] at h
    by_cases hw : (env.dbOk && s.row.circuitState = .halfOpen) = true
    · rw [if_pos hw] at h
      cases h
      simp only [Bool.and_eq_true, decide_eq_true_eq] at hw
      exact .reopens hw.1 hw.2
    · rw [if_neg hw] at h
      cases h
      simp only [Bool.and_eq_true, decide_eq_true_eq] at hw
      refine .lost rfl (fun hp => ?_) fun hhalf hr => ?_
      · rw [Respects, hp]
        exact fun hdb hhalf => hw ⟨hdb, hhalf⟩
      · rw [Respects] at hr
        by_contra hp
        rw [if_pos (eq_true_of_ne_false hp)] at hr
        exact hw ⟨hr, hhalf⟩
  | bump c code =>
    rw [advance] at h
    by_cases hdb : env.dbOk = true
    · rw [if_pos hdb] at h
      cases h
      exact .quiet rfl rfl rfl (fun _ _ => Iff.rfl) fun _ => hdb
    · rw [if_neg hdb] at h
      cases h
      refine .lost rfl (fun hp h => ?_) fun _ hr => ?_
      · exact absurd (hp.symm.trans h) (by decide)
      · by_contra hp
        exact hdb (hr (eq_true_of_ne_false hp))
  | count c =>
    rw [advance] at h
    by_cases hn : (env.dbOk && circuitFaultThreshold ≤ s.row.consecutiveFailures) = true
    · rw [if_pos hn] at h
      cases h
      simp only [Bool.and_eq_true, decide_eq_true_eq] at hn
      exact .quiet rfl rfl rfl (fun _ _ => Iff.rfl) fun _ => hn
    · rw [if_neg hn] at h
      cases h
      simp only [Bool.and_eq_true, decide_eq_true_eq] at hn
      refine .lost rfl (fun hp h => ?_) fun _ hr => ?_
      · exact absurd (hp.symm.trans h) (by decide)
      · by_contra hp
        exact hn (hr (eq_true_of_ne_false hp))
  | trip c =>
    rw [advance] at h
    by_cases hdb : env.dbOk = true
    · rw [if_pos hdb] at h
      cases h
      exact .trips hdb
    · rw [if_neg hdb] at h
      cases h
      refine .lost rfl (fun hp => ?_) fun _ hr => ?_
      · rw [Respects, hp]
        exact fun h => absurd h hdb
      · rw [Respects] at hr
        by_contra hp
        rw [if_pos (eq_true_of_ne_false hp)] at hr
        exact hdb hr
  | ended => cases h

end

/-! ## Runs -/

structure Inv (s : State) : Prop where
  owned : s.shared.row.circuitState = .halfOpen → ∃ i call, s.Owner i call
  halfOpen : ∀ i call, s.Owner i call → s.shared.row.circuitState = .halfOpen
  single : ∀ i j call call', s.Owner i call → s.Owner j call' → i = j
  /-- The circuit was not opened since the probe was claimed. -/
  current : ∀ i call, s.Owner i call → call.openings = s.shared.openings
  deadline : s.shared.row.circuitState = .opened → s.shared.row.circuitOpenUntil.isSome = true

section
variable {julianday : Int → Int} {s s' : State} {a : Action} {i j : Nat} {call : Call}
  {stage next : Stage} {shared : Shared} {env : Env}

theorem State.owner_of_stage (hi : s.tasks[i]? = some stage) (h : s.Owner i call) :
    stage.call = some call ∧ call.probe = true := by
  obtain ⟨stage', hi', hcall, hp⟩ := h
  cases hi.symm.trans hi'
  exact ⟨hcall, hp⟩

/-- The owners after a task moved. -/
theorem State.owner_set (hi : s.tasks[i]? = some stage) :
    (⟨shared, s.tasks.set i next⟩ : State).Owner j call ↔
      (j = i ∧ next.call = some call ∧ call.probe = true) ∨ (j ≠ i ∧ s.Owner j call) := by
  constructor
  · rintro ⟨stage', hj, hcall, hp⟩
    rcases TaskList.of_set hj with ⟨rfl, rfl⟩ | ⟨hne, hold⟩
    · exact Or.inl ⟨rfl, hcall, hp⟩
    · exact Or.inr ⟨Ne.symm hne, stage', hold, hcall, hp⟩
  · rintro (⟨rfl, hcall, hp⟩ | ⟨hne, stage', hold, hcall, hp⟩)
    · exact ⟨next, TaskList.getElem?_set_same hi, hcall, hp⟩
    · exact ⟨stage', (List.getElem?_set_ne (Ne.symm hne)).trans hold, hcall, hp⟩

/-- A task that ends leaves the other owners. -/
theorem State.owner_set_ended (hi : s.tasks[i]? = some stage) :
    (⟨shared, s.tasks.set i .ended⟩ : State).Owner j call ↔ j ≠ i ∧ s.Owner j call := by
  rw [State.owner_set hi]
  constructor
  · rintro (⟨-, hcall, -⟩ | h)
    · cases hcall
    · exact h
  · exact Or.inr

theorem Invocation.first_call (n : Nat) (invocation : Invocation)
    (h : (invocation.first n).call = some call) : call.probe = false := by
  cases invocation with
  | gated cancellable => cases h
  | accountModelDiscover =>
    cases h
    rfl

/-- An invocation that begins does not own the probe. -/
theorem State.owner_start (invocation : Invocation) :
    (⟨s.shared, s.tasks ++ [invocation.first s.shared.openings]⟩ : State).Owner j call ↔
      s.Owner j call := by
  constructor
  · rintro ⟨stage', hj, hcall, hp⟩
    rcases TaskList.of_start hj with ⟨-, rfl⟩ | hold
    · exact absurd (Invocation.first_call _ _ hcall) (by simp [hp])
    · exact ⟨stage', hold, hcall, hp⟩
  · rintro ⟨stage', hj, hcall, hp⟩
    exact ⟨stage', by rw [List.getElem?_append_left (List.getElem?_eq_some_iff.mp hj).1, hj],
      hcall, hp⟩

/-- The invariant depends on the row, the openings and the owners only. -/
theorem Inv.of_owners (h : Inv s)
    (state : s'.shared.row.circuitState = s.shared.row.circuitState)
    (deadline : s'.shared.row.circuitOpenUntil = s.shared.row.circuitOpenUntil)
    (openings : s'.shared.openings = s.shared.openings)
    (owners : ∀ i call, s'.Owner i call ↔ s.Owner i call) : Inv s' where
  owned hs := by
    obtain ⟨i, call, howner⟩ := h.owned (state ▸ hs)
    exact ⟨i, call, (owners i call).mpr howner⟩
  halfOpen i call ho := state.trans (h.halfOpen i call ((owners i call).mp ho))
  single i j call call' hi hj :=
    h.single i j call call' ((owners i call).mp hi) ((owners j call').mp hj)
  current i call ho := (h.current i call ((owners i call).mp ho)).trans openings.symm
  deadline ho := by
    rw [deadline]
    exact h.deadline (state ▸ ho)

/-- No invocation owns the probe of a circuit that is not half-open. -/
theorem Inv.of_none (hs : s.shared.row.circuitState ≠ .halfOpen)
    (owners : ∀ i call, ¬ s.Owner i call)
    (deadline : s.shared.row.circuitState = .opened →
      s.shared.row.circuitOpenUntil.isSome = true) : Inv s where
  owned h := absurd h hs
  halfOpen i call ho := absurd ho (owners i call)
  single i _ call _ ho := absurd ho (owners i call)
  current i call ho := absurd ho (owners i call)
  deadline := deadline

/-- After the owner has ended, or if the circuit is not half-open, nobody owns the probe. -/
theorem Inv.none_after (h : Inv s) (hi : s.tasks[i]? = some stage) (hcall : stage.call = some call)
    (hp : call.probe = false → s.shared.row.circuitState ≠ .halfOpen) :
    ∀ j call', ¬ (⟨shared, s.tasks.set i .ended⟩ : State).Owner j call' := by
  intro j call'
  rw [State.owner_set_ended hi]
  rintro ⟨hne, ho⟩
  cases hprobe : call.probe with
  | false => exact hp hprobe (h.halfOpen j call' ho)
  | true => exact hne (h.single j i call' call ho ⟨stage, hi, hcall, hprobe⟩)

theorem RuntimeState.claim_eq_some {row row' : RuntimeState} {now : Int}
    (h : row.claim julianday now = some row') :
    row.circuitState = .opened ∧ row'.circuitState = .halfOpen := by
  rw [claim] at h
  split at h
  · split at h
    · cases h
      exact ⟨‹_›, rfl⟩
    · cases h
  · cases h

/-- A step of an invocation keeps the invariant and is harmless, if it respects the probe. -/
theorem Inv.effect (h : Inv s) (hi : s.tasks[i]? = some stage)
    (hr : stage.Respects s.shared env)
    (he : Effect julianday env s.shared stage shared next) :
    Inv ⟨shared, s.tasks.set i next⟩ ∧ ∀ call, stage.call = some call →
      call.openings < s.shared.openings →
      (shared.row.circuitState = .closed → s.shared.row.circuitState = .closed) ∧
        shared.openings = s.shared.openings := by
  -- the owner of the probe is not late
  have current : ∀ {call : Call}, stage.call = some call →
      call.openings < s.shared.openings → call.probe = false := by
    intro call hcall hlate
    by_contra hp
    have := h.current i call ⟨stage, hi, hcall, eq_true_of_ne_false hp⟩
    omega
  cases he with
  | quiet state deadline openings owner _ =>
    refine ⟨h.of_owners state deadline openings fun j call => ?_, fun call _ _ => ⟨?_, openings⟩⟩
    · rw [State.owner_set hi]
      constructor
      · rintro (⟨rfl, hcall, hp⟩ | ⟨-, ho⟩)
        · exact ⟨stage, hi, (owner call hp).mp hcall, hp⟩
        · exact ho
      · intro ho
        by_cases hj : j = i
        · subst hj
          obtain ⟨hcall, hp⟩ := State.owner_of_stage hi ho
          exact Or.inl ⟨rfl, (owner call hp).mpr hcall, hp⟩
        · exact Or.inr ⟨hj, ho⟩
    · exact fun hclosed => state ▸ hclosed
  | @claimed cancellable row claim =>
    obtain ⟨hopened, hhalf⟩ := RuntimeState.claim_eq_some claim
    have hnone : ∀ j call, ¬ s.Owner j call := fun j call ho => by
      cases hopened.symm.trans (h.halfOpen j call ho)
    have owner : ∀ j call, (⟨{ s.shared with row },
        s.tasks.set i (.running ⟨cancellable, true, s.shared.openings⟩)⟩ : State).Owner j call →
        j = i ∧ call.openings = s.shared.openings := by
      intro j call ho
      rcases (State.owner_set hi).mp ho with ⟨rfl, hcall, -⟩ | ⟨-, ho⟩
      · cases hcall
        exact ⟨rfl, rfl⟩
      · exact absurd ho (hnone j call)
    refine ⟨⟨fun _ => ⟨i, ⟨cancellable, true, s.shared.openings⟩, ?_⟩, fun _ _ _ => hhalf, ?_,
      fun j call ho => (owner j call ho).2, ?_⟩, fun call hcall => by cases hcall⟩
    · exact (State.owner_set hi).mpr (Or.inl ⟨rfl, rfl, rfl⟩)
    · intro j k call call' hj hk
      exact (owner j call hj).1.trans (owner k call' hk).1.symm
    · intro ho
      cases hhalf.symm.trans ho
  | @closes call hdb =>
    have other : call.probe = false → s.shared.row.circuitState ≠ .halfOpen ∧
        (call.openings < s.shared.openings → s.shared.row.circuitState = .closed) := by
      intro hp
      rw [Stage.Respects, hp] at hr
      exact hr hdb
    refine ⟨Inv.of_none (fun hs => by cases hs) (h.none_after hi rfl fun hp => (other hp).1)
      (fun hs => by cases hs), ?_⟩
    rintro _ ⟨⟩ hlate
    exact ⟨fun _ => (other (current rfl hlate)).2 hlate, rfl⟩
  | @reopens call hdb hhalf =>
    have hp : call.probe = true := by
      by_contra hp
      rw [Stage.Respects, if_neg hp] at hr
      exact hr hdb hhalf
    refine ⟨Inv.of_none (fun hs => by cases hs) (h.none_after hi rfl fun hp' => ?_)
      fun _ => rfl, ?_⟩
    · cases hp.symm.trans hp'
    · rintro _ ⟨⟩ hlate
      cases hp.symm.trans (current rfl hlate)
  | @trips call hdb =>
    have other : call.probe = false → s.shared.row.circuitState ≠ .halfOpen ∧
        s.shared.openings ≤ call.openings := by
      intro hp
      rw [Stage.Respects, hp] at hr
      exact hr hdb
    refine ⟨Inv.of_none (fun hs => by cases hs) (h.none_after hi rfl fun hp => (other hp).1)
      fun _ => rfl, ?_⟩
    rintro _ ⟨⟩ hlate
    exact absurd (other (current rfl hlate)).2 (Nat.not_le_of_lt hlate)
  | @lost _ call hcall _ owner =>
    have hp : call.probe = false := by
      by_contra hp
      have hhalf := h.halfOpen i call ⟨stage, hi, hcall, eq_true_of_ne_false hp⟩
      exact hp (owner hhalf hr)
    refine ⟨h.of_owners rfl rfl rfl fun j call' => ?_, fun _ _ _ => ⟨id, rfl⟩⟩
    rw [State.owner_set_ended hi]
    refine ⟨And.right, fun ho => ⟨?_, ho⟩⟩
    rintro rfl
    obtain ⟨hcall', hp'⟩ := State.owner_of_stage hi ho
    cases hcall.symm.trans hcall'
    cases hp.symm.trans hp'

/-- An invocation that does not own the probe is dropped. -/
theorem State.owner_drop (hi : ∀ call, ¬ s.Owner i call) :
    (⟨s.shared, s.tasks.set i .ended⟩ : State).Owner j call ↔ s.Owner j call := by
  cases hstage : s.tasks[i]? with
  | none => rw [List.set_eq_of_length_le (List.getElem?_eq_none_iff.mp hstage)]
  | some stage =>
    rw [State.owner_set_ended hstage]
    refine ⟨And.right, fun ho => ⟨?_, ho⟩⟩
    rintro rfl
    exact hi call ho

theorem Inv.step (h : Inv s) (hr : s.Respects a) (hs : s.step julianday a = some s') :
    Inv s' ∧ Harmless s a s' := by
  cases a with
  | start invocation =>
    cases hs
    exact ⟨h.of_owners rfl rfl rfl fun _ _ => State.owner_start invocation,
      fun i env stage call ha => by cases ha⟩
  | advance i env =>
    obtain ⟨stage, hstage, hs⟩ := Option.bind_eq_some_iff.mp hs
    obtain ⟨⟨shared, next⟩, hadvance, hs⟩ := Option.bind_eq_some_iff.mp hs
    cases hs
    obtain ⟨hinv, hlate⟩ := h.effect hstage (hr stage hstage) (Stage.effect hadvance)
    refine ⟨hinv, ?_⟩
    rintro _ _ stage' call ⟨⟩ hstage' hcall
    cases hstage.symm.trans hstage'
    exact hlate call hcall
  | drop i =>
    cases hs
    exact ⟨h.of_owners rfl rfl rfl fun _ _ => State.owner_drop hr,
      fun i env stage call ha => by cases ha⟩
  | restart =>
    cases hs
    refine ⟨h.of_owners rfl rfl rfl fun i call => iff_of_false ?_ (hr i call),
      fun i env stage call ha => by cases ha⟩
    rintro ⟨stage, hstage, -⟩
    cases hstage

/-- Once the owner of the probe has ended otherwise than by settling, the circuit is half-open for
good. -/
theorem Inv.owner_stays (h : Inv s)
    (owned : s'.shared.row.circuitState = .halfOpen → ∃ j call', s'.Owner j call')
    (owners : ∀ j call', s'.Owner j call' → j ≠ i ∧ s.Owner j call')
    (state : s'.shared.row.circuitState = s.shared.row.circuitState) : ¬ s.Owner i call := by
  intro ho
  obtain ⟨j, call', ho'⟩ := owned (state.trans (h.halfOpen i call ho))
  obtain ⟨hne, ho'⟩ := owners j call' ho'
  exact hne (h.single j i call' call ho' ho)

/-- A step of an invocation respects the probe, if the probe is kept after it and it is harmless. -/
theorem Inv.respects_of_effect (h : Inv s) (hi : s.tasks[i]? = some stage)
    (he : Effect julianday env s.shared stage shared next)
    (owned : shared.row.circuitState = .halfOpen →
      ∃ j call, (⟨shared, s.tasks.set i next⟩ : State).Owner j call)
    (halfOpen : ∀ j call, (⟨shared, s.tasks.set i next⟩ : State).Owner j call →
      shared.row.circuitState = .halfOpen)
    (harmless : ∀ call, stage.call = some call → call.openings < s.shared.openings →
      (shared.row.circuitState = .closed → s.shared.row.circuitState = .closed) ∧
        shared.openings = s.shared.openings) :
    stage.Respects s.shared env := by
  -- another invocation owns the probe of a half-open circuit and goes on
  have other : ∀ {call : Call}, next = .ended → stage.call = some call → call.probe ≠ true →
      s.shared.row.circuitState = .halfOpen → shared.row.circuitState = .halfOpen := by
    rintro call rfl hcall hp hhalf
    obtain ⟨j, call', ho⟩ := h.owned hhalf
    refine halfOpen j call' ((State.owner_set_ended hi).mpr ⟨?_, ho⟩)
    rintro rfl
    obtain ⟨hcall', hp'⟩ := State.owner_of_stage hi ho
    cases hcall.symm.trans hcall'
    exact hp hp'
  cases he with
  | quiet _ _ _ _ respects => exact respects
  | claimed _ => trivial
  | @closes call hdb =>
    rw [Stage.Respects]
    split
    · exact hdb
    · rename_i hp
      refine fun _ => ⟨fun hhalf => ?_, fun hlate => (harmless call rfl hlate).1 rfl⟩
      cases other rfl rfl hp hhalf
  | @reopens call hdb hhalf =>
    rw [Stage.Respects]
    split
    · exact hdb
    · rename_i hp
      cases other rfl rfl hp hhalf
  | @trips call hdb =>
    rw [Stage.Respects]
    split
    · exact hdb
    · rename_i hp
      refine fun _ => ⟨fun hhalf => ?_, ?_⟩
      · cases other rfl rfl hp hhalf
      · by_contra hlate
        have := (harmless call rfl (Nat.lt_of_not_le hlate)).2
        simp [Shared.openCircuit] at this
  | @lost _ call hcall other' owner =>
    refine other' ?_
    by_contra hp
    exact h.owner_stays owned (fun _ _ => (State.owner_set_ended hi).mp) rfl
      ⟨stage, hi, hcall, eq_true_of_ne_false hp⟩

theorem Inv.respects (h : Inv s) (hs : s.step julianday a = some s')
    (owned : s'.shared.row.circuitState = .halfOpen → ∃ i call, s'.Owner i call)
    (halfOpen : ∀ i call, s'.Owner i call → s'.shared.row.circuitState = .halfOpen)
    (harmless : Harmless s a s') : s.Respects a := by
  cases a with
  | start invocation => trivial
  | advance i env =>
    obtain ⟨stage, hstage, hs⟩ := Option.bind_eq_some_iff.mp hs
    obtain ⟨⟨shared, next⟩, hadvance, hs⟩ := Option.bind_eq_some_iff.mp hs
    cases hs
    intro stage' hstage'
    cases hstage.symm.trans hstage'
    exact h.respects_of_effect hstage (Stage.effect hadvance) owned halfOpen
      fun call hcall => harmless i env stage call rfl hstage hcall
  | drop i =>
    cases hs
    intro call ho
    obtain ⟨stage, hstage, hcall⟩ := ho
    exact h.owner_stays owned (fun _ _ => (State.owner_set_ended hstage).mp) rfl
      ⟨stage, hstage, hcall⟩
  | restart =>
    cases hs
    intro i call
    refine h.owner_stays owned ?_ rfl
    rintro j call' ⟨stage, hstage, -⟩
    exact absurd hstage (by simp)

theorem State.step_advance (hi : s.tasks[i]? = some stage)
    (h : stage.advance julianday env s.shared = some (shared, next)) :
    (circuit julianday).step s (.advance i env) = some ⟨shared, s.tasks.set i next⟩ := by
  simp [circuit, State.step, hi, h]

/-- The probe of an open circuit can be claimed once its deadline has come. -/
theorem State.claims (hjulian : Monotone julianday) {deadline t t' : Int}
    (hs : s.shared.row.circuitState = .opened)
    (hd : s.shared.row.circuitOpenUntil = some deadline) (ht : deadline ≤ t) (ht' : deadline ≤ t') :
    ∃ s' call, (circuit julianday).runFrom s (claimAt s.tasks.length t t') = some s' ∧
      s'.Owner s.tasks.length call := by
  have hready : Stage.advance julianday ⟨t, true, none, false⟩ s.shared (.ready false) =
      some (s.shared, .claim false) := by
    simp [Stage.advance, RuntimeState.circuitReady, hs, hd, ht]
  have hclaim : ∃ row, Stage.advance julianday ⟨t', true, none, false⟩ s.shared (.claim false) =
      some ({ s.shared with row }, .running ⟨false, true, s.shared.openings⟩) := by
    simp [Stage.advance, RuntimeState.claim, hs, hd, hjulian ht']
  obtain ⟨row, hclaim⟩ := hclaim
  have hfirst : (s.tasks ++ [Stage.ready false])[s.tasks.length]? = some (.ready false) := by simp
  have hnext : ((s.tasks ++ [Stage.ready false]).set s.tasks.length
      (Stage.claim false))[s.tasks.length]? = some (.claim false) :=
    TaskList.getElem?_set_same hfirst
  refine ⟨⟨{ s.shared with row }, ((s.tasks ++ [Stage.ready false]).set s.tasks.length
      (.claim false)).set s.tasks.length (.running ⟨false, true, s.shared.openings⟩)⟩,
    ⟨false, true, s.shared.openings⟩, ?_,
    ⟨.running ⟨false, true, s.shared.openings⟩, TaskList.getElem?_set_same hnext, rfl, rfl⟩⟩
  have hstart : (circuit julianday).step s (.start (.gated false)) =
      some ⟨s.shared, s.tasks ++ [Stage.ready false]⟩ := rfl
  have hlooked := State.step_advance (s := ⟨s.shared, s.tasks ++ [Stage.ready false]⟩) hfirst hready
  have hclaimed := State.step_advance
    (s := ⟨s.shared, (s.tasks ++ [Stage.ready false]).set s.tasks.length (.claim false)⟩)
    hnext hclaim
  rw [claimAt, Machine.runFrom_cons_of_step _ hstart, Machine.runFrom_cons_of_step _ hlooked,
    Machine.runFrom_cons_of_step _ hclaimed]
  rfl

theorem Inv.slotKept (hjulian : Monotone julianday) (h : Inv s) : SlotKept julianday s where
  owned := h.owned
  halfOpen := h.halfOpen
  single := h.single
  claimable hnone := by
    cases hs : s.shared.row.circuitState with
    | closed => exact Or.inl rfl
    | opened =>
      obtain ⟨deadline, hd⟩ := Option.isSome_iff_exists.mp (h.deadline hs)
      exact Or.inr ⟨deadline, fun t t' => State.claims hjulian hs hd⟩
    | halfOpen =>
      obtain ⟨i, call, ho⟩ := h.owned hs
      exact absurd ho (hnone i call)

theorem Inv.start : Inv (circuit julianday).start := by
  refine Inv.of_none (fun hs => by cases hs) ?_ (fun hs => by cases hs)
  rintro i call ⟨stage, hstage, -⟩
  cases hstage

theorem ProbeSafe.of_append {as bs : List Action} (h : ProbeSafe julianday (as ++ bs)) :
    ProbeSafe julianday as where
  kept pre post s he := h.kept pre (post ++ bs) s (by simp [he])
  harmless pre a post s s' he := h.harmless pre a (post ++ bs) s s' (by simp [he])

/-- The invariant holds in every run whose steps respect the probe. -/
theorem Inv.of_run {as : List Action} (h : (circuit julianday).Meets (fun _ => State.Respects) as)
    (hrun : (circuit julianday).run as = some s) : Inv s :=
  (circuit julianday).run_induction_of_meets (I := fun _ => Inv) .start
    (fun _ _ _ _ hinv hr hstep => (hinv.step hr hstep).1) as s h hrun

/-- In every run, the probe is kept and late results are harmless, exactly if every step respects
the probe. -/
theorem probe_safe_iff (julianday : Int → Int) (hjulian : Monotone julianday) (as : List Action)
    (s : State) (hrun : (circuit julianday).run as = some s) :
    ProbeSafe julianday as ↔ (circuit julianday).Meets (fun _ => State.Respects) as := by
  constructor
  · intro h
    induction as using List.reverseRecOn generalizing s with
    | nil => exact fun pre a post t he => by simp at he
    | append_singleton as a ih =>
      obtain ⟨t, ht, hstep⟩ := (circuit julianday).run_snoc_eq_some.mp hrun
      have hmeets := ih t ht h.of_append
      refine (circuit julianday).meets_snoc hmeets fun u hu => ?_
      cases ht.symm.trans hu
      have kept := h.kept (as ++ [a]) [] s (List.append_nil _).symm hrun
      exact (Inv.of_run hmeets ht).respects hstep kept.owned kept.halfOpen
        (h.harmless as a [] t s rfl ht hstep)
  · intro h
    constructor
    · rintro pre post t rfl hpre
      exact (Inv.of_run (h.of_append _) hpre).slotKept hjulian
    · rintro pre a post t t' rfl hpre hstep
      exact ((Inv.of_run (h.of_append _) hpre).step (h pre a post t rfl hpre) hstep).2

end

/-- Milliseconds. -/
def toMillis (t : Int) : Int := t / 1000000

/-- The statement succeeds, or the call ends, at a time. -/
def fine (t : Int) (fault : Option PluginFault) : Env := ⟨t, true, fault, false⟩

/-- An invocation as the given task, for a number of steps. -/
def invoke (i n : Nat) (t : Int) (fault : Option PluginFault) : List Action :=
  .start (.gated false) :: List.replicate n (.advance i (fine t fault))

/-- Five invocations trap, and the circuit opens. -/
def fiveTraps (i : Nat) : List Action :=
  (List.range 4).flatMap (fun k => invoke (i + k) 6 0 (some (.trap "unreachable"))) ++
    invoke (i + 4) 7 0 (some (.trap "unreachable"))

/-- After the cooldown a probe succeeds. -/
def probed : List Action := fiveTraps 0 ++ invoke 5 4 60000000000 none

/-- After the cooldown a probe is claimed, and its request is dropped. -/
def abandoned : List Action := fiveTraps 0 ++ invoke 5 2 60000000000 none ++ [.drop 5]

/-- An invocation that began before the circuit opened succeeds after that. -/
def succeededLate : List Action :=
  invoke 0 3 0 none ++ fiveTraps 1 ++ List.replicate 2 (.advance 0 (fine 0 none))

theorem toMillis_monotone : Monotone toMillis := fun _ _ h =>
  Int.ediv_le_ediv (by decide) h

/-- A probe that succeeds closes the circuit. -/
theorem probe_safe_probed :
    ∃ s, (circuit toMillis).run probed = some s ∧ s.shared.row.circuitState = .closed ∧
      s.shared.openings = 1 ∧ ProbeSafe toMillis probed := by
  refine ⟨_, rfl, rfl, rfl, (probe_safe_iff _ toMillis_monotone _ _ rfl).mpr ?_⟩
  apply Machine.Along.meets
  decide

/-- The probe of a dropped request is lost: the circuit is half-open and nobody owns the probe. A
result from before the circuit opened closes it. -/
theorem abandoned_probe_leaks :
    (∃ s, (circuit toMillis).run abandoned = some s ∧ s.shared.row.circuitState = .halfOpen ∧
      (∀ i call, ¬ s.Owner i call) ∧ ¬ ProbeSafe toMillis abandoned) ∧
    ∃ s, (circuit toMillis).run succeededLate = some s ∧ s.shared.row.circuitState = .closed ∧
      ¬ ProbeSafe toMillis succeededLate := by
  constructor
  · refine ⟨⟨⟨⟨.halfOpen, 5, none, some "plugin_internal", some 0⟩, 1⟩, List.replicate 6 .ended⟩,
      rfl, rfl, ?_⟩
    have lost : ∀ i call,
        ¬ (⟨⟨⟨.halfOpen, 5, none, some "plugin_internal", some 0⟩, 1⟩,
          List.replicate 6 .ended⟩ : State).Owner i call := by
      rintro i call ⟨stage, hi, hcall, -⟩
      obtain ⟨-, rfl⟩ := List.mem_replicate.mp (List.mem_of_getElem? hi)
      cases hcall
    refine ⟨lost, fun h => ?_⟩
    obtain ⟨i, call, ho⟩ := (h.kept abandoned [] _ (List.append_nil _).symm rfl).owned rfl
    exact lost i call ho
  · refine ⟨_, rfl, rfl, fun h => ?_⟩
    have late := h.harmless (invoke 0 3 0 none ++ fiveTraps 1 ++ [.advance 0 (fine 0 none)])
      (.advance 0 (fine 0 none)) [] _ _ rfl rfl rfl 0 (fine 0 none) _ _ rfl rfl rfl (by decide)
    exact absurd (late.1 rfl) (by decide)

end Kinetix.Plugins.Circuit
