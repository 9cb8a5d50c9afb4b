import Mathlib.Data.List.Basic
import Mathlib.Data.List.Infix
import Mathlib.Data.List.TakeWhile
import Mathlib.Tactic.Common

/-!
# Lists in pieces

A list that consists of one piece after another, a piece for each element of another list, and what
holds of the whole when it holds of the pieces. Elements that are held back until one opens the gate
are released in one piece. A function on lists may leave the separators where they are and change
what stands between them, each piece by itself.
-/

namespace Tiling
variable {α β : Type*} {R : ℕ → α → List β → Prop}

/-- The list is made of the pieces of the elements in order, which are numbered from the first. -/
inductive Tiled (R : ℕ → α → List β → Prop) : ℕ → List α → List β → Prop
  | nil (first : ℕ) : Tiled R first [] []
  | cons {first : ℕ} {a : α} {as : List α} {piece rest : List β} (head : R first a piece)
      (tail : Tiled R (first + 1) as rest) : Tiled R first (a :: as) (piece ++ rest)

/-- A single piece. -/
theorem Tiled.singleton {first : ℕ} {a : α} {piece : List β} (h : R first a piece) :
    Tiled R first [a] piece := by
  have hnil := Tiled.cons h (Tiled.nil (first + 1))
  rwa [List.append_nil] at hnil

end Tiling

namespace HeldBack

universe u

variable {α : Type u} (opens : α → Bool) {xs : List α}

/-- What is released of what has arrived. -/
def released (xs : List α) : List α := if xs.any opens then xs else []

/-- What is held back of what has arrived. -/
def held (xs : List α) : List α := if xs.any opens then [] else xs

variable {opens}

theorem released_of_open (h : xs.any opens = true) : released opens xs = xs := if_pos h

theorem released_of_closed (h : xs.any opens = false) : released opens xs = [] :=
  if_neg (Bool.not_eq_true _ ▸ h)

theorem held_of_open (h : xs.any opens = true) : held opens xs = [] := if_pos h

theorem held_of_closed (h : xs.any opens = false) : held opens xs = xs :=
  if_neg (Bool.not_eq_true _ ▸ h)

end HeldBack

namespace Piecewise
universe u
variable {α : Type u} {ends : α → Bool} {f g : List α → List α} {a b l r x y : List α} {c : α}

/-- There is no separator in the list. -/
def Free (ends : α → Bool) (l : List α) : Prop := ∀ c ∈ l, ends c = false

/-- A list is one piece, or a piece, a separator and the rest. -/
@[elab_as_elim] theorem pieces_induction {P : List α → Prop} (ends : α → Bool)
    (piece : ∀ a, Free ends a → P a)
    (cons : ∀ a c b, Free ends a → ends c = true → P b → P (a ++ c :: b)) (l : List α) : P l := by
  induction hn : l.length using Nat.strongRecOn generalizing l with
  | ind n ih =>
    have hfree : Free ends (l.takeWhile fun c => !ends c) := fun c hc => by
      simpa using List.mem_takeWhile_imp hc
    have hsplit := List.takeWhile_append_dropWhile (p := fun c => !ends c) (l := l)
    cases hrest : l.dropWhile fun c => !ends c with
    | nil =>
      rw [hrest, List.append_nil] at hsplit
      exact piece l (hsplit ▸ hfree)
    | cons c b =>
      have hc : ends c = true := by
        have hhead := List.head_dropWhile_not (fun c => !ends c) (l := l) (by rw [hrest]; simp)
        simpa [hrest] using hhead
      rw [hrest] at hsplit
      rw [← hsplit]
      refine cons _ c b hfree hc (ih b.length ?_ b rfl)
      rw [← hn, ← hsplit, List.length_append, List.length_cons]
      omega

/-- What `g` does to a list is what `f` does to the pieces. -/
structure Maps (ends : α → Bool) (f g : List α → List α) : Prop where
  piece : ∀ {a}, Free ends a → g a = f a
  cons : ∀ {a c b}, Free ends a → ends c = true → g (a ++ c :: b) = f a ++ c :: g b

/-- The first separators are at the same place. -/
theorem append_cons_inj {a' b' : List α} {c' : α} (ha : Free ends a) (ha' : Free ends a')
    (hc : ends c = true) (hc' : ends c' = true) (h : a ++ c :: b = a' ++ c' :: b') :
    a = a' ∧ c = c' ∧ b = b' := by
  induction a generalizing a' with
  | nil =>
    cases a' with
    | nil => exact ⟨rfl, (List.cons.inj h).1, (List.cons.inj h).2⟩
    | cons d a' =>
      rw [(List.cons.inj h).1, ha' d List.mem_cons_self] at hc
      exact absurd hc Bool.false_ne_true
  | cons d a ih =>
    cases a' with
    | nil =>
      rw [← (List.cons.inj h).1, ha d List.mem_cons_self] at hc'
      exact absurd hc' Bool.false_ne_true
    | cons d' a' =>
      obtain ⟨rfl, htail⟩ := List.cons.inj h
      obtain ⟨rfl, hrest⟩ := ih (fun c hmem => ha c (List.mem_cons_of_mem _ hmem))
        (fun c hmem => ha' c (List.mem_cons_of_mem _ hmem)) htail
      exact ⟨rfl, hrest⟩

/-- A list without a separator does not lie across one. -/
theorem infix_append_cons_iff (hr : Free ends r) (hc : ends c = true) :
    r <:+: x ++ c :: y ↔ r <:+: x ∨ r <:+: y := by
  constructor
  · rintro ⟨s, t, h⟩
    rw [List.append_assoc] at h
    rcases List.append_eq_append_iff.mp h with ⟨u, rfl, hu⟩ | ⟨u, rfl, hu⟩
    · -- the list begins in the first part
      rcases List.append_eq_append_iff.mp hu with ⟨v, rfl, -⟩ | ⟨v, hv, hy⟩
      · exact .inl ⟨s, v, by simp⟩
      · cases v with
        | nil => exact .inl ⟨s, [], by simp [hv]⟩
        | cons d v =>
          obtain ⟨rfl, -⟩ := List.cons.inj hy
          have hmem : c ∈ r := hv ▸ List.mem_append_right u List.mem_cons_self
          rw [hr c hmem] at hc
          exact absurd hc Bool.false_ne_true
    · cases u with
      | nil =>
        cases r with
        | nil => exact .inl (List.nil_infix)
        | cons d r =>
          obtain ⟨rfl, -⟩ := List.cons.inj hu
          rw [hr c List.mem_cons_self] at hc
          exact absurd hc Bool.false_ne_true
      | cons d u =>
        obtain ⟨rfl, rfl⟩ := List.cons.inj hu
        exact .inr ⟨u, t, by simp⟩
  · rintro (h | h)
    · exact h.trans (List.prefix_append x _).isInfix
    · exact h.trans ((List.suffix_cons c y).trans (List.suffix_append x _)).isInfix

namespace Maps

/-- What stands before a separator and what stands behind it are changed apart. -/
theorem append (h : Maps ends f g) (hc : ends c = true) (a b : List α) :
    g (a ++ c :: b) = g a ++ c :: g b := by
  induction a using pieces_induction ends with
  | piece a ha => rw [h.cons ha hc, h.piece ha]
  | cons a d b' ha hd ih => rw [List.append_assoc, List.cons_append, h.cons ha hd, ih, h.cons ha hd,
      List.append_assoc, List.cons_append]

/-- What follows a separator is changed apart. -/
theorem append_of_getLast (h : Maps ends f g) (hnil : f [] = [])
    (hx : ∀ c ∈ x.getLast?, ends c = true) (y : List α) : g (x ++ y) = g x ++ g y := by
  have hg : g [] = [] := (h.piece fun c hc => absurd hc List.not_mem_nil).trans hnil
  rcases List.eq_nil_or_concat x with rfl | ⟨x, c, rfl⟩
  · rw [hg]
    rfl
  · have hc : ends c = true := hx c (by simp)
    rw [List.concat_eq_append, List.append_assoc, List.singleton_append, h.append hc, h.append hc,
      hg, List.append_assoc, List.singleton_append]

/-- What is followed by a separator is changed apart. -/
theorem append_of_head (h : Maps ends f g) (hnil : f [] = [])
    (hy : ∀ c ∈ y.head?, ends c = true) (x : List α) : g (x ++ y) = g x ++ g y := by
  have hg : g [] = [] := (h.piece fun c hc => absurd hc List.not_mem_nil).trans hnil
  cases y with
  | nil => rw [hg, List.append_nil, List.append_nil]
  | cons c y =>
    have hc : ends c = true := hy c rfl
    have hcons := h.append hc [] y
    rw [hg, List.nil_append, List.nil_append] at hcons
    rw [h.append hc, hcons]

/-- A list stays as it is exactly if each of its pieces does. -/
theorem eq_self_iff (h : Maps ends f g) (hfree : ∀ a, Free ends a → Free ends (f a)) :
    g l = l ↔ ∀ a ∈ l.splitOnP ends, f a = a := by
  induction l using pieces_induction ends with
  | piece a ha => rw [h.piece ha, List.splitOnP_eq_singleton ha, List.forall_mem_singleton]
  | cons a c b ha hc ih =>
    rw [h.cons ha hc, List.splitOnP_append_cons_of_forall_mem ha c hc, List.forall_mem_cons, ← ih]
    constructor
    · intro heq
      obtain ⟨hfa, -, hgb⟩ := append_cons_inj (hfree a ha) ha hc hc heq
      exact ⟨hfa, hgb⟩
    · rintro ⟨hfa, hgb⟩
      rw [hfa, hgb]

theorem idempotent (h : Maps ends f g) (hfree : ∀ a, Free ends a → Free ends (f a))
    (hf : ∀ a, Free ends a → f (f a) = f a) : g (g l) = g l := by
  induction l using pieces_induction ends with
  | piece a ha => rw [h.piece ha, h.piece (hfree a ha), hf a ha]
  | cons a c b ha hc ih => rw [h.cons ha hc, h.cons (hfree a ha) hc, hf a ha, ih]

/-- A list without a separator lies in the result exactly if it does in that of a piece. -/
theorem infix_iff (h : Maps ends f g) (hr : Free ends r) :
    r <:+: g l ↔ ∃ a ∈ l.splitOnP ends, r <:+: f a := by
  induction l using pieces_induction ends with
  | piece a ha =>
    rw [h.piece ha, List.splitOnP_eq_singleton ha]
    simp
  | cons a c b ha hc ih =>
    rw [h.cons ha hc, infix_append_cons_iff hr hc, ih,
      List.splitOnP_append_cons_of_forall_mem ha c hc]
    simp

end Maps
end Piecewise
