import Mathlib.Data.List.Infix
import Mathlib.Tactic.Common

/-!
# Splitting a stream at delimiters

A stream is split at the leftmost occurrence of any of a finite set of delimiters, again and again,
which leaves the pieces and a rest without a delimiter. If no delimiter lies within another one that
is cut short, then what has been found in a part of the stream stays as it is when more arrives:
splitting in parts is splitting at once.
-/

namespace Splitting

universe u

/-- Delimiters of which none lies inside another without its last element. -/
structure Delimiters (α : Type u) [DecidableEq α] where
  patterns : List (List α)
  nonempty : [] ∉ patterns
  apart : ∀ p ∈ patterns, ∀ q ∈ patterns, ¬ q <:+: p.dropLast

namespace Delimiters
variable {α : Type u} [DecidableEq α] (D : Delimiters α) {xs ys p q : List α} {i k n : Nat}

/-- The length of the delimiter at the front. -/
def front (xs : List α) : Option Nat := (D.patterns.find? (·.isPrefixOf xs)).map List.length

/-- The place and the length of the leftmost delimiter. -/
def find : List α → Option (Nat × Nat)
  | [] => none
  | x :: xs =>
    match D.front (x :: xs) with
    | some n => some (0, n)
    | none => (find xs).map fun r => (r.1 + 1, r.2)

variable {D}

omit [DecidableEq α] in
/-- A list that is cut short lies in the list without its last element. -/
theorem prefix_dropLast (h : q <+: p) (hne : q ≠ p) : q <+: p.dropLast := by
  rcases List.eq_nil_or_concat p with rfl | ⟨l, a, rfl⟩
  · exact absurd (List.prefix_nil.mp h) hne
  · rw [List.concat_eq_append] at h hne ⊢
    rw [List.dropLast_concat]
    exact (List.prefix_concat_iff.mp h).resolve_left hne

/-- Two delimiters at the same place are the same. -/
theorem eq_of_prefix (hp : p ∈ D.patterns) (hq : q ∈ D.patterns) (hpx : p <+: xs)
    (hqx : q <+: xs) : p = q := by
  by_contra hne
  rcases List.prefix_or_prefix_of_prefix hpx hqx with h | h
  · exact D.apart q hq p hp (prefix_dropLast h hne).isInfix
  · exact D.apart p hp q hq (prefix_dropLast h (Ne.symm hne)).isInfix

theorem front_eq_none : D.front xs = none ↔ ∀ p ∈ D.patterns, ¬ p <+: xs := by
  simp [front, List.find?_eq_none]

theorem front_eq_some : D.front xs = some n ↔ ∃ p ∈ D.patterns, p <+: xs ∧ p.length = n := by
  constructor
  · intro h
    obtain ⟨p, hp, rfl⟩ := Option.map_eq_some_iff.mp h
    exact ⟨p, List.mem_of_find?_eq_some hp, by simpa using List.find?_some hp, rfl⟩
  · rintro ⟨p, hp, hpre, rfl⟩
    cases hf : D.patterns.find? (·.isPrefixOf xs) with
    | none => simp_all [List.find?_eq_none]
    | some q =>
      have hqx : q <+: xs := by simpa using List.find?_some hf
      rw [front, hf, eq_of_prefix hp (List.mem_of_find?_eq_some hf) hpre hqx]
      rfl

theorem front_nil : D.front [] = none := by
  refine front_eq_none.mpr fun p hp h => D.nonempty ?_
  rwa [List.prefix_nil.mp h] at hp

theorem front_bound (h : D.front xs = some n) : 0 < n ∧ n ≤ xs.length := by
  obtain ⟨p, hp, hpre, rfl⟩ := front_eq_some.mp h
  refine ⟨List.length_pos_iff.mpr ?_, hpre.length_le⟩
  rintro rfl
  exact D.nonempty hp

/-- A delimiter that is complete stays one when more follows. -/
theorem front_append (h : D.front xs = some n) : D.front (xs ++ ys) = some n := by
  obtain ⟨p, hp, hpre, rfl⟩ := front_eq_some.mp h
  exact front_eq_some.mpr ⟨p, hp, hpre.trans (List.prefix_append xs ys), rfl⟩

/-- Where enough is known to see every delimiter, more does not make one. -/
theorem front_append_none (hk : ∀ p ∈ D.patterns, p.length ≤ k) (hx : k ≤ xs.length)
    (h : D.front xs = none) : D.front (xs ++ ys) = none := by
  refine front_eq_none.mpr fun p hp hpre => front_eq_none.mp h p hp ?_
  exact List.prefix_of_prefix_length_le hpre (List.prefix_append xs ys) ((hk p hp).trans hx)

/-- Where a delimiter has only begun, no delimiter has appeared since. -/
theorem front_cut (h : D.front xs = none) (hn : D.front (xs ++ ys) = some n) (k : Nat) :
    D.front (xs.drop k) = none := by
  obtain ⟨p, hp, hpre, -⟩ := front_eq_some.mp hn
  have hnot := front_eq_none.mp h p hp
  have hxp : xs <+: p := by
    rcases List.prefix_or_prefix_of_prefix hpre (List.prefix_append xs ys) with hc | hc
    · exact absurd hc hnot
    · exact hc
  have hcut : xs <+: p.dropLast := prefix_dropLast hxp (by rintro rfl; exact hnot (List.prefix_rfl))
  refine front_eq_none.mpr fun q hq hqx => D.apart p hp q hq ?_
  exact (hqx.isInfix.trans (List.drop_suffix k xs).isInfix).trans hcut.isInfix

theorem find_of_front {x : α} (h : D.front (x :: xs) = some n) :
    D.find (x :: xs) = some (0, n) := by
  rw [find, h]

theorem find_of_front_none {x : α} (h : D.front (x :: xs) = none) :
    D.find (x :: xs) = (D.find xs).map fun r => (r.1 + 1, r.2) := by
  rw [find, h]

theorem find_eq_none : D.find xs = none ↔ ∀ k, D.front (xs.drop k) = none := by
  induction xs with
  | nil => simp [find, front_nil]
  | cons x xs ih =>
    rw [find]
    constructor
    · intro h k
      cases hf : D.front (x :: xs) with
      | some n => simp [hf] at h
      | none =>
        cases k with
        | zero => exact hf
        | succ k =>
          simp only [hf, Option.map_eq_none_iff] at h
          exact ih.mp h k
    · intro h
      rw [show D.front (x :: xs) = none from h 0]
      exact Option.map_eq_none_iff.mpr (ih.mpr fun k => h (k + 1))

theorem find_bound (h : D.find xs = some (i, n)) : 0 < n ∧ i + n ≤ xs.length := by
  induction xs generalizing i n with
  | nil => cases h
  | cons x xs ih =>
    rw [find] at h
    cases hf : D.front (x :: xs) with
    | some m =>
      simp only [hf, Option.some.injEq, Prod.mk.injEq] at h
      obtain ⟨rfl, rfl⟩ := h
      have := front_bound hf
      omega
    | none =>
      simp only [hf, Option.map_eq_some_iff, Prod.mk.injEq] at h
      obtain ⟨⟨j, m⟩, hj, rfl, rfl⟩ := h
      have := ih hj
      simp only [List.length_cons]
      omega

/-- What is found is a delimiter. -/
theorem front_of_find (h : D.find xs = some (i, n)) : D.front (xs.drop i) = some n := by
  induction xs generalizing i with
  | nil => cases h
  | cons x xs ih =>
    cases hf : D.front (x :: xs) with
    | some m =>
      rw [find_of_front hf] at h
      cases h
      exact hf
    | none =>
      rw [find_of_front_none hf] at h
      obtain ⟨⟨j, m⟩, hj, heq⟩ := Option.map_eq_some_iff.mp h
      cases heq
      exact ih hj

/-- What was found stays the leftmost delimiter when more follows. -/
theorem find_append {r : Nat × Nat} (h : D.find xs = some r) : D.find (xs ++ ys) = some r := by
  induction xs generalizing r with
  | nil => cases h
  | cons x xs ih =>
    rw [find] at h
    rw [List.cons_append, find, ← List.cons_append]
    cases hf : D.front (x :: xs) with
    | some m =>
      rw [hf] at h
      rw [front_append hf]
      exact h
    | none =>
      rw [hf] at h
      obtain ⟨r', hr', rfl⟩ := Option.map_eq_some_iff.mp h
      cases hc : D.front (x :: xs ++ ys) with
      | none => simp only [ih hr', Option.map_some]
      | some m =>
        have hnone := find_eq_none.mpr fun k => front_cut hf hc (k + 1)
        rw [hnone] at hr'
        cases hr'

/-- Places where no delimiter starts can be left out of the search. -/
theorem find_skip (k : Nat) (h : ∀ j < k, D.front (xs.drop j) = none) :
    D.find xs = (D.find (xs.drop k)).map fun r => (r.1 + k, r.2) := by
  induction k generalizing xs with
  | zero => simp
  | succ k ih =>
    cases xs with
    | nil => simp [find]
    | cons x xs =>
      have h0 : D.front (x :: xs) = none := h 0 (by omega)
      rw [find, h0]
      simp only [List.drop_succ_cons]
      rw [ih fun j hj => h (j + 1) (by omega), Option.map_map]
      rfl

/-- The pieces before the delimiters, and the rest after the last one. -/
def split (D : Delimiters α) (xs : List α) : List (List α) × List α :=
  match _h : D.find xs with
  | none => ([], xs)
  | some (i, n) =>
    let r := split D (xs.drop (i + n))
    (xs.take i :: r.1, r.2)
termination_by xs.length
decreasing_by
  have := find_bound _h
  simp only [List.length_drop]
  omega

theorem split_of_none (h : D.find xs = none) : D.split xs = ([], xs) := by
  rw [split]
  split
  · rfl
  · simp_all

theorem split_of_some (h : D.find xs = some (i, n)) : D.split xs =
    (xs.take i :: (D.split (xs.drop (i + n))).1, (D.split (xs.drop (i + n))).2) := by
  rw [split]
  split
  · simp_all
  · next j m hj =>
      rw [h] at hj
      cases hj
      rfl

/-- The rest has no delimiter. -/
theorem find_split_rest (xs : List α) : D.find (D.split xs).2 = none := by
  induction hn : xs.length using Nat.strongRecOn generalizing xs with
  | ind m ih =>
    cases hf : D.find xs with
    | none => rwa [split_of_none hf]
    | some r =>
      obtain ⟨i, n⟩ := r
      have hb := find_bound hf
      rw [split_of_some hf]
      exact ih (xs.drop (i + n)).length (by simp only [List.length_drop]; omega) _ rfl

/-- The pieces consist of elements of the stream. -/
theorem subset_of_mem_split (hp : p ∈ (D.split xs).1) : p ⊆ xs := by
  induction hn : xs.length using Nat.strongRecOn generalizing xs with
  | ind m ih =>
    cases hf : D.find xs with
    | none =>
      rw [split_of_none hf] at hp
      cases hp
    | some r =>
      obtain ⟨i, n⟩ := r
      have hb := find_bound hf
      rw [split_of_some hf] at hp
      rcases List.mem_cons.mp hp with rfl | hp
      · exact List.take_subset i xs
      · have hlen : (xs.drop (i + n)).length < m := by
          simp only [List.length_drop]
          omega
        exact List.Subset.trans (ih _ hlen hp rfl) (List.drop_subset _ xs)

/-- Splitting a stream is splitting a part of it, and then the rest of that part with what follows
it. -/
theorem split_append (xs ys : List α) : D.split (xs ++ ys) =
    ((D.split xs).1 ++ (D.split ((D.split xs).2 ++ ys)).1,
      (D.split ((D.split xs).2 ++ ys)).2) := by
  induction hn : xs.length using Nat.strongRecOn generalizing xs with
  | ind m ih =>
    cases hf : D.find xs with
    | none =>
      rw [split_of_none hf]
      rfl
    | some r =>
      obtain ⟨i, n⟩ := r
      have hb := find_bound hf
      rw [split_of_some (find_append hf), split_of_some hf,
        List.take_append_of_le_length (by omega), List.drop_append_of_le_length hb.2,
        ih (xs.drop (i + n)).length (by simp only [List.length_drop]; omega) _ rfl]
      rfl

/-- There is a delimiter, and nothing follows the last one. -/
def Closed (D : Delimiters α) (xs : List α) : Prop := D.find xs ≠ none ∧ (D.split xs).2 = []

theorem closed_of_find (h : D.find xs = some (i, n)) :
    D.Closed xs ↔ (D.split (xs.drop (i + n))).2 = [] := by
  rw [Closed, split_of_some h, h]
  exact and_iff_right (Option.some_ne_none _)

/-- Where no delimiter starts, it is what follows that has to be closed. -/
theorem closed_cons {x : α} (h : D.front (x :: xs) = none) : D.Closed (x :: xs) ↔ D.Closed xs := by
  have hfind := find_of_front_none h
  cases hr : D.find xs with
  | none => simp [Closed, hfind, hr]
  | some r =>
    obtain ⟨i, n⟩ := r
    rw [hr] at hfind
    rw [closed_of_find hfind, closed_of_find hr, Nat.add_right_comm, List.drop_succ_cons]

/-- There is no rest if there is nothing at all, or if it is closed. -/
theorem split_rest_eq_nil : (D.split xs).2 = [] ↔ xs = [] ∨ D.Closed xs := by
  cases hr : D.find xs with
  | none => simp [Closed, split_of_none hr, hr]
  | some r =>
    have hb := find_bound hr
    have hne : xs ≠ [] := by
      rintro rfl
      simp only [List.length_nil] at hb
      omega
    simp [Closed, hr, hne]

end Delimiters
end Splitting
