import Kinetix.Library.Machine
import Mathlib.Data.Nat.Init
import Mathlib.Tactic.Common

/-!
# Two runs side by side

Some actions of a machine are visible to an observer. If an action that is not visible leaves the
state as the observer sees it, and a visible action does the same to states that the observer cannot
tell apart, then two runs with the same visible actions end in such states. Both conditions may be
restricted to actions that are taken well.

A guest calls a system and gets answers. What it calls next is up to it and may depend on every
answer it got. Each call is made in surroundings of its own, which no call changes. Two systems that
answer alike in related states, as long as each call is one that is let through, give the guest the
same answers and stay related, so that the guest makes the same calls in both.
-/

namespace StateMachine

universe u w
variable {σ : Type u} {α : Type w}

/-- The unwinding conditions for the actions that `C` allows. -/
structure Unwinding (M : Machine σ α) (visible : α → Bool) (C : σ → α → Prop)
    (E : σ → σ → Prop) : Prop where
  start : E M.start M.start
  symm : ∀ {s t}, E s t → E t s
  quiet : ∀ {s t a t'}, visible a = false → E s t → C t a → M.step t a = some t' → E s t'
  loud : ∀ {s t a s' t'}, visible a = true → E s t → C s a → C t a → M.step s a = some s' →
    M.step t a = some t' → E s' t'

/-- Runs with the same visible actions end in states that the observer cannot tell apart. -/
theorem Unwinding.run {M : Machine σ α} {visible : α → Bool} {C : σ → α → Prop}
    {E : σ → σ → Prop} (U : Unwinding M visible C E) {as bs : List α} {s t : σ}
    (h : as.filter visible = bs.filter visible) (ha : M.Meets (fun _ => C) as)
    (hb : M.Meets (fun _ => C) bs) (hs : M.run as = some s) (ht : M.run bs = some t) :
    E s t := by
  induction hn : as.length + bs.length using Nat.strongRecOn generalizing as bs s t with
  | ind n ih =>
    -- Take an invisible action off one run, or the same visible action off both.
    rcases List.eq_nil_or_concat as with rfl | ⟨as, a, rfl⟩
    · rcases List.eq_nil_or_concat bs with rfl | ⟨bs, b, rfl⟩
      · cases hs
        cases ht
        exact U.start
      · rw [List.concat_eq_append] at *
        obtain ⟨t', ht', hstep⟩ := M.run_snoc_eq_some.mp ht
        cases hv : visible b with
        | true => simp [hv] at h
        | false =>
          have hE := ih ([].length + bs.length) (by simp at hn ⊢; omega)
            (by simpa [hv] using h) ha (hb.of_append M) hs ht' rfl
          exact U.quiet hv hE (hb.last M ht') hstep
    · rw [List.concat_eq_append] at *
      obtain ⟨s', hs', hsstep⟩ := M.run_snoc_eq_some.mp hs
      cases hv : visible a with
      | false =>
        have hE := ih (as.length + bs.length) (by simp at hn; omega)
          (by simpa [hv] using h) (ha.of_append M) hb hs' ht rfl
        exact U.symm (U.quiet hv (U.symm hE) (ha.last M hs') hsstep)
      | true =>
        rcases List.eq_nil_or_concat bs with rfl | ⟨bs, b, rfl⟩
        · simp [hv] at h
        · rw [List.concat_eq_append] at *
          obtain ⟨t', ht', htstep⟩ := M.run_snoc_eq_some.mp ht
          cases hw : visible b with
          | false =>
            have hE := ih ((as ++ [a]).length + bs.length) (by simp at hn ⊢; omega)
              (by simpa [hv, hw] using h) ha (hb.of_append M) hs ht' rfl
            exact U.quiet hw hE (hb.last M ht') htstep
          | true =>
            rw [List.filter_append, List.filter_append, List.filter_cons_of_pos hv,
              List.filter_cons_of_pos hw] at h
            obtain ⟨hpre, hlast⟩ := List.append_inj' h rfl
            cases hlast
            have hE := ih (as.length + bs.length) (by simp at hn; omega) hpre
              (ha.of_append M) (hb.of_append M) hs' ht' rfl
            exact U.loud hv hE (ha.last M hs') (hb.last M ht') hsstep htstep

end StateMachine

namespace Interaction

universe u v w x y

variable {σ : Type u} {τ : Type v} {C : Type w} {R : Type x} {W : Type y}

/-- The answers and the state after some calls; a guest may stop calling. -/
def run (step : W → σ → C → R × σ) (guest : List R → Option C) (worlds : ℕ → W) (start : σ) :
    ℕ → List R × σ
  | 0 => ([], start)
  | n + 1 =>
    let before := run step guest worlds start n
    match guest before.1 with
    | none => before
    | some c =>
      let after := step (worlds n) before.2 c
      (before.1 ++ [after.1], after.2)

variable {step : W → σ → C → R × σ} {step' : W → τ → C → R × τ} {guest : List R → Option C}
  {worlds : ℕ → W} {start : σ} {start' : τ} {n : ℕ}

theorem run_of_none (h : guest (run step guest worlds start n).1 = none) :
    run step guest worlds start (n + 1) = run step guest worlds start n := by
  rw [run, h]

theorem run_of_some {c : C} (h : guest (run step guest worlds start n).1 = some c) :
    run step guest worlds start (n + 1) =
      ((run step guest worlds start n).1 ++
          [(step (worlds n) (run step guest worlds start n).2 c).1],
        (step (worlds n) (run step guest worlds start n).2 c).2) := by
  rw [run, h]

/-- The calls that a guest makes are all let through. -/
def LetThrough (step : W → σ → C → R × σ) (guest : List R → Option C) (worlds : ℕ → W) (start : σ)
    (allowed : W → C → Prop) (n : ℕ) : Prop :=
  ∀ k < n, ∀ c, guest (run step guest worlds start k).1 = some c → allowed (worlds k) c

variable (step') in
/-- Systems that answer alike where calls are let through are alike to a guest whose calls are. -/
theorem runs_alike {related : σ → τ → Prop} {allowed : W → C → Prop}
    (hstart : related start start')
    (hstep : ∀ k s t c, related s t → allowed (worlds k) c →
      (step (worlds k) s c).1 = (step' (worlds k) t c).1 ∧
        related (step (worlds k) s c).2 (step' (worlds k) t c).2)
    (h : LetThrough step guest worlds start allowed n) :
    (run step guest worlds start n).1 = (run step' guest worlds start' n).1 ∧
      related (run step guest worlds start n).2 (run step' guest worlds start' n).2 := by
  induction n with
  | zero => exact ⟨rfl, hstart⟩
  | succ n ih =>
    obtain ⟨hseen, hrel⟩ := ih fun k hk => h k (Nat.lt_succ_of_lt hk)
    cases hc : guest (run step guest worlds start n).1 with
    | none =>
      rw [run_of_none hc, run_of_none (hseen ▸ hc)]
      exact ⟨hseen, hrel⟩
    | some c =>
      obtain ⟨hanswer, hnext⟩ := hstep n _ _ c hrel (h n n.lt_succ_self c hc)
      rw [run_of_some hc, run_of_some (hseen ▸ hc), hseen, hanswer]
      exact ⟨rfl, hnext⟩

end Interaction
