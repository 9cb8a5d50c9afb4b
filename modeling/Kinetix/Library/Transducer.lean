import Kinetix.Library.Machine

/-!
# Transducers

A transducer answers each input with some outputs. What may be put in and what may be read out are
languages, each accepted by a machine: a word is in the language if the machine can take it. If the
two machines and the transducer move together, then the outputs are in their language exactly when
the inputs are in theirs.
-/

namespace StateMachine

universe u v w w' x y z
variable {σ : Type u} {α : Type v} {β : Type w} {ρ : Type x} {τ : Type y}

/-- Each element of a word meets a condition, given the elements before it. -/
def Each (C : List α → α → Prop) (as : List α) : Prop :=
  ∀ i : Fin as.length, C (as.take i) as[i]

instance (C : List α → α → Prop) [∀ pre a, Decidable (C pre a)] (as : List α) :
    Decidable (Each C as) :=
  inferInstanceAs (Decidable (∀ i : Fin as.length, C (as.take i) as[i]))

theorem Each.split {C : List α → α → Prop} {as pre post : List α} {a : α} (h : Each C as)
    (he : as = pre ++ a :: post) : C pre a := by
  subst he
  have hi := h ⟨pre.length, by simp⟩
  simpa using hi

theorem each_snoc {C : List α → α → Prop} {as : List α} {a : α} :
    Each C (as ++ [a]) ↔ Each C as ∧ C as a := by
  constructor
  · intro h
    refine ⟨fun i => ?_, h.split rfl⟩
    have hi := h ⟨i, by rw [List.length_append]; exact Nat.lt_add_right _ i.isLt⟩
    simpa [List.take_append_of_le_length (Nat.le_of_lt i.isLt),
      List.getElem_append_left i.isLt] using hi
  · rintro ⟨h, ha⟩ ⟨i, hi⟩
    by_cases hlt : i < as.length
    · have hget := h ⟨i, hlt⟩
      simpa [List.take_append_of_le_length (Nat.le_of_lt hlt),
        List.getElem_append_left hlt] using hget
    · have heq : i = as.length := by
        simp only [List.length_append, List.length_singleton] at hi
        omega
      subst heq
      simpa using ha

/-- A start state, and for each input the next state and the outputs. -/
structure Transducer (σ : Type u) (α : Type v) (β : Type w) where
  start : σ
  step : σ → α → σ × List β

namespace Transducer
variable (T : Transducer σ α β)

/-- The state after some inputs and the outputs to them. -/
def feed (s : σ) : List α → σ × List β
  | [] => (s, [])
  | a :: as =>
    let (s, out) := T.step s a
    let (s, rest) := feed s as
    (s, out ++ rest)

@[simp] theorem feed_nil (s : σ) : T.feed s [] = (s, []) := rfl

theorem feed_cons (s : σ) (a : α) (as : List α) :
    T.feed s (a :: as) = ((T.feed (T.step s a).1 as).1,
      (T.step s a).2 ++ (T.feed (T.step s a).1 as).2) := rfl

theorem feed_append (s : σ) (as bs : List α) :
    T.feed s (as ++ bs) = ((T.feed (T.feed s as).1 bs).1,
      (T.feed s as).2 ++ (T.feed (T.feed s as).1 bs).2) := by
  induction as generalizing s with
  | nil => rfl
  | cons a as ih => simp [feed_cons, ih]

theorem feed_snoc (s : σ) (as : List α) (a : α) :
    T.feed s (as ++ [a]) = ((T.step (T.feed s as).1 a).1,
      (T.feed s as).2 ++ (T.step (T.feed s as).1 a).2) := by
  rw [feed_append, feed_cons, feed_nil, List.append_nil]

/-- What holds at the start and is kept by each input, given the inputs before it, holds after all
inputs. -/
theorem feed_induction {I : List α → σ × List β → Prop} (start : I [] (T.start, []))
    (step : ∀ as r a, I as r → I (as ++ [a]) ((T.step r.1 a).1, r.2 ++ (T.step r.1 a).2))
    (as : List α) : I as (T.feed T.start as) := by
  induction as using List.reverseRecOn with
  | nil => exact start
  | append_singleton as a ih =>
    rw [feed_snoc]
    exact step as _ a ih

/-- What holds of the outputs of every step holds of all outputs. -/
theorem forall_mem_feed {P : β → Prop} (step : ∀ s a, ∀ b ∈ (T.step s a).2, P b) (s : σ)
    (as : List α) : ∀ b ∈ (T.feed s as).2, P b := by
  induction as generalizing s with
  | nil => exact List.forall_mem_nil P
  | cons a as ih =>
    rw [feed_cons]
    exact List.forall_mem_append.mpr ⟨step s a, ih _⟩

/-- Two transducers that show the same in every step show the same in a run. -/
theorem feed_shows {ι : Type z} {γ : Type w'} {U : Transducer ρ α ι} {R : σ → ρ → Prop}
    {f : β → Option γ} {g : ι → Option γ}
    (step : ∀ s r a, R s r → R (T.step s a).1 (U.step r a).1 ∧
      (T.step s a).2.filterMap f = (U.step r a).2.filterMap g)
    {s : σ} {r : ρ} (start : R s r) (as : List α) :
    R (T.feed s as).1 (U.feed r as).1 ∧
      (T.feed s as).2.filterMap f = (U.feed r as).2.filterMap g := by
  induction as generalizing s r with
  | nil => exact ⟨start, rfl⟩
  | cons a as ih =>
    obtain ⟨hrel, hhead⟩ := step s r a start
    obtain ⟨hend, htail⟩ := ih hrel
    rw [feed_cons, feed_cons, List.filterMap_append, List.filterMap_append]
    exact ⟨hend, congrArg₂ (· ++ ·) hhead htail⟩

/-- The outputs are accepted as far as the inputs are. The step may use that the input is one that
the condition allows after the inputs before it. -/
theorem feed_rel {E : Machine ρ α} {M : Machine τ β} {C : List α → α → Prop}
    {R : List α → σ → ρ → τ → Prop} (start : R [] T.start E.start M.start)
    (step : ∀ as s e m a, C as a → R as s e m → Option.Rel (R (as ++ [a]) (T.step s a).1)
      (E.step e a) (M.runFrom m (T.step s a).2))
    (as : List α) (h : Each C as) :
    Option.Rel (R as (T.feed T.start as).1) (E.run as) (M.run (T.feed T.start as).2) := by
  induction as using List.reverseRecOn with
  | nil => exact Option.Rel.some start
  | append_singleton as a ih =>
    obtain ⟨hpre, ha⟩ := each_snoc.mp h
    have hrel := ih hpre
    rw [feed_snoc, E.run_snoc, M.run_append]
    generalize E.run as = x at hrel ⊢
    generalize M.run (T.feed T.start as).2 = y at hrel ⊢
    cases hrel with
    | none => exact Option.Rel.none
    | some hr => exact step as _ _ _ a ha hr

/-- A machine that reads the outputs follows exactly as long as each input is allowed, given what
was heard before it, and is then where that says. -/
theorem feed_follows {η : Type z} {M : Machine τ β} {hear : η → α → η} {h₀ : η}
    {allows : η → α → Bool} {R : σ → η → Prop} {p : η → τ} (start : R T.start h₀)
    (hplace : p h₀ = M.start)
    (step : ∀ s h a, R s h → R (T.step s a).1 (hear h a) ∧
      M.runFrom (p h) (T.step s a).2 = if allows h a then some (p (hear h a)) else none)
    (as : List α) :
    R (T.feed T.start as).1 (as.foldl hear h₀) ∧
      M.run (T.feed T.start as).2 =
        if Each (fun pre a => allows (pre.foldl hear h₀) a) as then
          some (p (as.foldl hear h₀))
        else none := by
  induction as using List.reverseRecOn with
  | nil =>
    have hnil : Each (fun pre a => allows (pre.foldl hear h₀) a) [] := fun i => i.elim0
    rw [if_pos hnil, List.foldl_nil, hplace]
    exact ⟨start, rfl⟩
  | append_singleton as a ih =>
    obtain ⟨hrel, hrun⟩ := ih
    obtain ⟨hnext, hstep⟩ := step _ _ a hrel
    rw [feed_snoc, List.foldl_append, M.run_append, hrun]
    refine ⟨hnext, ?_⟩
    by_cases hpre : Each (fun pre a => allows (pre.foldl hear h₀) a) as
    · rw [if_pos hpre, Option.bind_some, hstep]
      exact if_congr ⟨fun ha => each_snoc.mpr ⟨hpre, ha⟩, fun h => (each_snoc.mp h).2⟩ rfl rfl
    · rw [if_neg hpre, if_neg fun h => hpre (each_snoc.mp h).1, Option.bind_none]

end Transducer
end StateMachine
