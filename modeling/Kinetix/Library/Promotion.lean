import Mathlib.Data.List.Rotate
import Mathlib.Data.List.Nodup
import Mathlib.Tactic.Common

/-!
# Bringing an element to the front

An element of a list is promoted when it is put in front of the others, which keep their order. A
rotation also brings it to the front, but moves those before it behind those after it: the two agree
exactly if these two parts commute, that is if both repeat one list.
-/

namespace Promotion

universe u

variable {α : Type u} {l u v w : List α} {i m n : Nat}

/-- Put the element at a position in front of the others. -/
def promote (l : List α) (i : Nat) : List α :=
  match l[i]? with
  | some a => a :: l.eraseIdx i
  | none => l

theorem promote_of_lt (h : i < l.length) : promote l i = l[i] :: (l.take i ++ l.drop (i + 1)) := by
  rw [promote, List.getElem?_eq_getElem h, List.eraseIdx_eq_take_drop_succ]

theorem rotate_of_lt (h : i < l.length) : l.rotate i = l[i] :: (l.drop (i + 1) ++ l.take i) := by
  rw [List.rotate_eq_drop_append_take h.le, List.drop_eq_getElem_cons h, List.cons_append]

/-! ## Commuting lists -/

/-- A list that is written several times. -/
def repeated (n : Nat) (w : List α) : List α := (List.replicate n w).flatten

theorem repeated_add (m n : Nat) (w : List α) :
    repeated m w ++ repeated n w = repeated (m + n) w := by
  rw [repeated, repeated, repeated, List.replicate_add, List.flatten_append]

theorem repeated_one (w : List α) : repeated 1 w = w := by simp [repeated]

/-- The shorter of two commuting lists begins the other one, and commutes with what it leaves. -/
theorem exists_append_of_comm (h : u ++ v = v ++ u) (hle : u.length ≤ v.length) :
    ∃ t, v = u ++ t ∧ u ++ t = t ++ u := by
  obtain ⟨t, rfl⟩ : u <+: v :=
    List.prefix_of_prefix_length_le ⟨v, h⟩ ⟨u, rfl⟩ hle
  refine ⟨t, rfl, (List.append_right_inj u).mp ?_⟩
  rw [h, List.append_assoc]

theorem repetition_of_comm (h : u ++ v = v ++ u) :
    ∃ w m n, u = repeated m w ∧ v = repeated n w := by
  -- The induction is on the sum of the lengths, with the shorter list taken from the longer one.
  induction hlen : u.length + v.length using Nat.strong_induction_on generalizing u v with
  | h k ih =>
    by_cases hu : u = []
    · exact ⟨v, 0, 1, hu, (repeated_one v).symm⟩
    by_cases hv : v = []
    · exact ⟨u, 1, 0, (repeated_one u).symm, hv⟩
    have hupos := List.length_pos_iff.mpr hu
    have hvpos := List.length_pos_iff.mpr hv
    rcases Nat.le_total u.length v.length with hle | hle
    · obtain ⟨t, rfl, ht⟩ := exists_append_of_comm h hle
      rw [List.length_append] at hlen
      obtain ⟨w, m, n, rfl, rfl⟩ := ih (u.length + t.length) (by omega) ht rfl
      exact ⟨w, m, m + n, rfl, repeated_add m n w⟩
    · obtain ⟨t, rfl, ht⟩ := exists_append_of_comm h.symm hle
      rw [List.length_append] at hlen
      obtain ⟨w, m, n, rfl, rfl⟩ := ih (v.length + t.length) (by omega) ht rfl
      exact ⟨w, m + n, m, repeated_add m n w, rfl⟩

/-- Two lists commute exactly if both repeat one list. -/
theorem append_comm_iff : u ++ v = v ++ u ↔ ∃ w m n, u = repeated m w ∧ v = repeated n w := by
  constructor
  · exact repetition_of_comm
  · rintro ⟨w, m, n, rfl, rfl⟩
    rw [repeated_add, repeated_add, Nat.add_comm]

/-- A rotation promotes the element that it brings to the front exactly if what is before it and
what is behind it repeat one list. -/
theorem rotate_eq_promote_iff (h : i < l.length) :
    l.rotate i = promote l i ↔
      ∃ w m n, l.take i = repeated m w ∧ l.drop (i + 1) = repeated n w := by
  rw [rotate_of_lt h, promote_of_lt h, List.cons_inj_right, eq_comm]
  exact append_comm_iff

/-- A rotation that brings an element to the front leaves a list as it is only if that element was
there before. -/
theorem head?_eq_of_rotate_eq_self (h : i < l.length) (heq : l.rotate i = l) :
    l.head? = l[i]? := by
  rw [← List.head?_rotate h, heq]

end Promotion
