import Mathlib.Data.Option.Basic
import Mathlib.Data.List.Induction

/-!
# Machines with named actions

A machine has one initial state and a partial step. An action that is not possible in a state has
no successor, so a run is a list of actions each of which was possible when it was taken. Choices of
the environment (which task moves, what a clock shows) are part of the action, so a run determines
its final state.
-/

namespace StateMachine

universe u v w
variable {σ : Type u} {τ : Type v} {α : Type w}

/-- A start state and a partial step for each action. -/
structure Machine (σ : Type u) (α : Type w) where
  start : σ
  step : σ → α → Option σ

namespace Machine
variable (M : Machine σ α)

/-- Take the actions in order from a given state. -/
def runFrom (s : σ) : List α → Option σ
  | [] => some s
  | a :: as =>
    match M.step s a with
    | some s' => runFrom s' as
    | none => none

/-- Take the actions in order from the start state. -/
def run (as : List α) : Option σ := M.runFrom M.start as

@[simp] theorem runFrom_nil (s : σ) : M.runFrom s [] = some s := rfl

variable {C : List α → σ → α → Prop} {as : List α} {a : α} {s : σ}

theorem runFrom_cons_of_step {s s' : σ} (h : M.step s a = some s') (as : List α) :
    M.runFrom s (a :: as) = M.runFrom s' as := by
  rw [runFrom, h]

theorem runFrom_singleton (s : σ) (a : α) : M.runFrom s [a] = M.step s a := by
  rw [runFrom]
  cases M.step s a <;> rfl

theorem runFrom_append (s : σ) (as bs : List α) :
    M.runFrom s (as ++ bs) = (M.runFrom s as).bind fun t => M.runFrom t bs := by
  induction as generalizing s with
  | nil => rfl
  | cons a as ih =>
    simp only [List.cons_append, runFrom]
    cases M.step s a with
    | none => rfl
    | some s' => exact ih s'

theorem run_append (as bs : List α) :
    M.run (as ++ bs) = (M.run as).bind fun t => M.runFrom t bs :=
  M.runFrom_append M.start as bs

theorem run_snoc (as : List α) (a : α) :
    M.run (as ++ [a]) = (M.run as).bind fun t => M.step t a := by
  rw [run_append]
  congr 1
  funext t
  exact M.runFrom_singleton t a

/-- The last action of a run was possible in the state that the actions before it reach. -/
theorem run_snoc_eq_some :
    M.run (as ++ [a]) = some s ↔ ∃ t, M.run as = some t ∧ M.step t a = some s := by
  rw [run_snoc, Option.bind_eq_some_iff]

/-- Every prefix of a run is a run. -/
theorem run_of_append {as bs : List α} (h : M.run (as ++ bs) = some s) :
    ∃ t, M.run as = some t ∧ M.runFrom t bs = some s := by
  rwa [run_append, Option.bind_eq_some_iff] at h

/-- What holds at the start, with no action taken, and is kept by each further action holds of every
run together with the actions it took. -/
theorem run_induction {I : List α → σ → Prop} (start : I [] M.start)
    (step : ∀ as s a s', M.run as = some s → I as s → M.step s a = some s' → I (as ++ [a]) s') :
    ∀ as s, M.run as = some s → I as s := by
  intro as
  induction as using List.reverseRecOn with
  | nil =>
    intro s h
    cases h
    exact start
  | append_singleton as a ih =>
    intro s h
    obtain ⟨t, ht, hs⟩ := M.run_snoc_eq_some.mp h
    exact step as t a s ht (ih t ht) hs

/-- An invariant of the step that holds at the start holds in every state that a run reaches. -/
theorem invariant {I : σ → Prop} (start : I M.start)
    (step : ∀ s a s', I s → M.step s a = some s' → I s') (h : M.run as = some s) : I s :=
  M.run_induction (I := fun _ s => I s) start (fun _ s a s' _ => step s a s') as s h

/-- What holds in a state and is kept by the actions of a class holds in each state that such
actions reach from it. -/
theorem runFrom_invariant {I : σ → Prop} {P : α → Prop}
    (step : ∀ s a s', P a → I s → M.step s a = some s' → I s') {s s' : σ} (hP : ∀ a ∈ as, P a)
    (hs : I s) (h : M.runFrom s as = some s') : I s' := by
  induction as generalizing s with
  | nil =>
    cases h
    exact hs
  | cons a as ih =>
    rw [runFrom] at h
    cases ha : M.step s a with
    | none =>
      rw [ha] at h
      cases h
    | some t =>
      rw [ha] at h
      exact ih (fun b hb => hP b (List.mem_cons_of_mem a hb))
        (step s a t (hP a List.mem_cons_self) hs ha) h

/-- Each action of the run met the condition in the state, and after the actions, in which it was
taken. -/
def Meets (C : List α → σ → α → Prop) (as : List α) : Prop :=
  ∀ pre a post s, as = pre ++ a :: post → M.run pre = some s → C pre s a

theorem Meets.of_append {as bs : List α} (h : M.Meets C (as ++ bs)) : M.Meets C as := by
  intro pre a post s he hr
  exact h pre a (post ++ bs) s (by simp [he]) hr

theorem Meets.last (h : M.Meets C (as ++ [a])) (hs : M.run as = some s) : C as s a :=
  h as a [] s rfl hs

/-- A condition is met by a run and by the actions that continue it. -/
theorem meets_append {as bs : List α} (ha : M.Meets C as)
    (hb : ∀ pre a post s, bs = pre ++ a :: post → M.run (as ++ pre) = some s →
      C (as ++ pre) s a) : M.Meets C (as ++ bs) := by
  intro pre a post s he hr
  rcases List.append_eq_append_iff.mp he with ⟨mid, rfl, hbs⟩ | ⟨mid, rfl, hbs⟩
  · exact hb mid a post s hbs hr
  · cases mid with
    | nil =>
      rw [List.append_nil] at *
      exact List.append_nil pre ▸ hb [] a post s hbs.symm (by rwa [List.append_nil])
    | cons b mid =>
      rw [List.cons_append, List.cons.injEq] at hbs
      obtain ⟨rfl, -⟩ := hbs
      exact ha pre a mid s rfl hr

theorem meets_snoc (ha : M.Meets C as) (hb : ∀ s, M.run as = some s → C as s a) :
    M.Meets C (as ++ [a]) := by
  refine M.meets_append ha fun pre b post s he hr => ?_
  cases pre with
  | nil =>
    obtain ⟨rfl, -⟩ := List.cons.inj he
    rw [List.append_nil] at hr ⊢
    exact hb s hr
  | cons c pre => simp at he

/-- Each action meets the condition along a run from a state, checked action by action. -/
def Along (C : σ → α → Prop) (s : σ) : List α → Prop
  | [] => True
  | a :: as =>
    C s a ∧ match M.step s a with
      | some t => Along C t as
      | none => True

instance decidableAlong (C : σ → α → Prop) [∀ s a, Decidable (C s a)] :
    (s : σ) → (as : List α) → Decidable (M.Along C s as)
  | _, [] => .isTrue trivial
  | s, a :: as =>
    haveI : Decidable (match M.step s a with | some t => M.Along C t as | none => True) :=
      match M.step s a with
      | some t => decidableAlong C t as
      | none => .isTrue trivial
    inferInstanceAs (Decidable (_ ∧ _))

theorem Along.meets {C : σ → α → Prop} (h : M.Along C M.start as) : M.Meets (fun _ => C) as := by
  have along : ∀ (as pre : List α) (a : α) (post : List α) (s t : σ), M.Along C s as →
      as = pre ++ a :: post → M.runFrom s pre = some t → C t a := by
    intro as pre
    induction pre generalizing as with
    | nil =>
      rintro a post s t halong rfl hrun
      cases hrun
      exact halong.1
    | cons b pre ih =>
      rintro a post s t halong rfl hrun
      have htail := halong.2
      rw [runFrom] at hrun
      cases hstep : M.step s b with
      | none =>
        rw [hstep] at hrun
        cases hrun
      | some u =>
        rw [hstep] at hrun htail
        exact ih _ a post u t htail rfl hrun
  intro pre a post s he hr
  exact along as pre a post M.start s h he hr

/-- Induction over the runs whose every action met a condition. -/
theorem run_induction_of_meets {I : List α → σ → Prop} (start : I [] M.start)
    (step : ∀ as s a s', I as s → C as s a → M.step s a = some s' → I (as ++ [a]) s') :
    ∀ as s, M.Meets C as → M.run as = some s → I as s := by
  intro as s hc hr
  refine M.run_induction (I := fun as s => M.Meets C as → I as s) (fun _ => start) ?_ as s hr hc
  intro as s a s' hr ih hs hc
  exact step as s a s' (ih (hc.of_append M)) (hc.last M hr) hs

/-- Whatever the actions are, a machine ends that can always step until it does and each time comes
closer to its end. -/
theorem ends_of_measure {final : σ → Prop} (μ : σ → ℕ)
    (progress : ∀ s a, ¬ final s → ∃ s', M.step s a = some s' ∧ (final s' ∨ μ s' < μ s))
    (s : σ) (f : ℕ → α) :
    ∃ n s', n ≤ μ s + 1 ∧ M.runFrom s ((List.range n).map f) = some s' ∧ final s' := by
  induction hμ : μ s using Nat.strongRecOn generalizing s f with
  | ind k ih =>
    by_cases hs : final s
    · exact ⟨0, s, Nat.zero_le _, rfl, hs⟩
    · obtain ⟨t, hstep, ht⟩ := progress s (f 0) hs
      have run_succ : ∀ n, M.runFrom s ((List.range (n + 1)).map f) =
          M.runFrom t ((List.range n).map fun i => f (i + 1)) := by
        intro n
        rw [List.range_succ_eq_map, List.map_cons, M.runFrom_cons_of_step hstep, List.map_map]
        rfl
      rcases ht with ht | ht
      · refine ⟨1, t, Nat.le_add_left 1 k, ?_, ht⟩
        rw [run_succ]
        rfl
      · obtain ⟨n, s', hn, hrun, hs'⟩ := ih (μ t) (hμ ▸ ht) t (fun i => f (i + 1)) rfl
        exact ⟨n + 1, s', by omega, (run_succ n).trans hrun, hs'⟩

section Emitted
variable {β : Type*} (emit : σ → α → List β)

/-- What the actions of a run emit in the states in which they are taken. -/
def emittedFrom (s : σ) : List α → List β
  | [] => []
  | a :: as =>
    match M.step s a with
    | some s' => emit s a ++ emittedFrom s' as
    | none => []

def emitted (as : List α) : List β := M.emittedFrom emit M.start as

theorem emittedFrom_snoc {s t u : σ} {as : List α} {a : α} (h : M.runFrom s as = some t)
    (ha : M.step t a = some u) :
    M.emittedFrom emit s (as ++ [a]) = M.emittedFrom emit s as ++ emit t a := by
  induction as generalizing s with
  | nil =>
    cases h
    simp [emittedFrom, ha]
  | cons b as ih =>
    rw [runFrom] at h
    cases hstep : M.step s b with
    | none =>
      rw [hstep] at h
      cases h
    | some s' =>
      rw [hstep] at h
      simp only [List.cons_append, emittedFrom, hstep]
      rw [ih h, List.append_assoc]

/-- The last action of a run emits last. -/
theorem emitted_snoc {s t : σ} {as : List α} {a : α} (h : M.run as = some s)
    (ha : M.step s a = some t) : M.emitted emit (as ++ [a]) = M.emitted emit as ++ emit s a :=
  M.emittedFrom_snoc emit h ha

end Emitted

end Machine

/-- Two machines over the same actions step together on the actions of a class: related states
refuse the same actions, and after an action that both take they are related again. -/
structure Lockstep (M : Machine σ α) (N : Machine τ α) (P : α → Prop) (R : σ → τ → Prop) :
    Prop where
  start : R M.start N.start
  step : ∀ s t a, P a → R s t → Option.Rel R (M.step s a) (N.step t a)

/-- What follows from the relation of two states follows for optional states. -/
theorem rel_imp {R S : σ → τ → Prop} (h : ∀ {s t}, R s t → S s t) {x : Option σ} {y : Option τ}
    (hr : Option.Rel R x y) : Option.Rel S x y := by
  cases hr with
  | none => exact Option.Rel.none
  | some hr => exact Option.Rel.some (h hr)

variable {R : σ → σ → Prop}

theorem rel_refl (h : ∀ s, R s s) (x : Option σ) : Option.Rel R x x := by
  cases x with
  | none => exact Option.Rel.none
  | some s => exact Option.Rel.some (h s)

theorem rel_symm (h : ∀ {s t}, R s t → R t s) {x y : Option σ} (hr : Option.Rel R x y) :
    Option.Rel R y x := by
  cases hr with
  | none => exact Option.Rel.none
  | some hr => exact Option.Rel.some (h hr)

theorem rel_trans (h : ∀ {s t u}, R s t → R t u → R s u) {x y z : Option σ}
    (hxy : Option.Rel R x y) (hyz : Option.Rel R y z) : Option.Rel R x z := by
  cases hxy with
  | none => exact hyz
  | some hxy =>
    cases hyz with
    | some hyz => exact Option.Rel.some (h hxy hyz)

/-- Machines in lockstep take the same runs and reach related states. -/
theorem Lockstep.run {M : Machine σ α} {N : Machine τ α} {P : α → Prop} {R : σ → τ → Prop}
    (L : Lockstep M N P R) (as : List α) (h : ∀ a ∈ as, P a) :
    Option.Rel R (M.run as) (N.run as) := by
  induction as using List.reverseRecOn with
  | nil => exact Option.Rel.some L.start
  | append_singleton as a ih =>
    rw [M.run_snoc, N.run_snoc]
    have hr := ih fun b hb => h b (List.mem_append_left _ hb)
    revert hr
    cases M.run as <;> cases N.run as <;> intro hr <;> cases hr
    · exact Option.Rel.none
    · exact L.step _ _ a (h a (by simp)) ‹_›

end StateMachine
