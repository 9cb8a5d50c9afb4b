import Mathlib.Algebra.Order.Ring.Nat
import Mathlib.Data.Char
import Mathlib.Data.List.Lex
import Mathlib.Data.Nat.Digits.Defs

/-!
# Numbers of a fixed width

Texts are compared character by character. Numbers that are padded with zeros to one width compare
as their texts do, and so do the records made of fields of fixed widths: the first field in which
two of them differ decides.
-/

namespace FixedWidth

section Lists
variable {α : Type*} [LinearOrder α] {a b c d : List α} {x y : α}

/-- Of two texts whose first parts have one length, the first parts decide if they differ. -/
theorem append_lt_append_iff (h : a.length = b.length) :
    a ++ c < b ++ d ↔ a < b ∨ a = b ∧ c < d := by
  induction a generalizing b with
  | nil =>
    obtain rfl := List.length_eq_zero_iff.mp h.symm
    simp
  | cons x a ih =>
    cases b with
    | nil => simp at h
    | cons y b =>
      rw [List.cons_append, List.cons_append, List.cons_lt_cons_iff, List.cons_lt_cons_iff,
        ih (Nat.succ.inj h), List.cons.injEq]
      tauto

theorem append_lt_append_of_lt (h : a.length = b.length) (hlt : a < b) : a ++ c < b ++ d :=
  (append_lt_append_iff h).mpr (.inl hlt)

@[simp] theorem append_lt_append_left_iff : a ++ c < a ++ d ↔ c < d := by
  simp [append_lt_append_iff rfl]

theorem cons_lt_cons_of_lt (h : x < y) : x :: c < y :: d := List.cons_lt_cons_iff.mpr (.inl h)

end Lists

/-- `{:0w}`: the last `w` decimal digits of a number. -/
def padded : Nat → Nat → List Char
  | 0, _ => []
  | w + 1, n => padded w (n / 10) ++ [Nat.digitChar (n % 10)]

variable {v w m n : Nat}

@[simp] theorem length_padded (w n : Nat) : (padded w n).length = w := by
  induction w generalizing n with
  | zero => rfl
  | succ w ih => rw [padded, List.length_append, ih, List.length_singleton]

theorem digitChar_lt_digitChar (hm : m < 10) (hn : n < 10) :
    Nat.digitChar m < Nat.digitChar n ↔ m < n := by
  have h : ∀ m < 10, ∀ n < 10, (Nat.digitChar m < Nat.digitChar n ↔ m < n) := by decide
  exact h m hm n hn

theorem digitChar_bounds (hn : n < 10) : '/' < Nat.digitChar n ∧ Nat.digitChar n < ':' := by
  have h : ∀ n < 10, '/' < Nat.digitChar n ∧ Nat.digitChar n < ':' := by decide
  exact h n hn

/-- Numbers of one width compare as their texts do. -/
theorem padded_lt_padded (hm : m < 10 ^ w) (hn : n < 10 ^ w) :
    padded w m < padded w n ↔ m < n := by
  induction w generalizing m n with
  | zero =>
    rw [pow_zero, Nat.lt_one_iff] at hm hn
    simp [hm, hn, padded]
  | succ w ih =>
    rw [pow_succ] at hm hn
    have hlt := ih (m := m / 10) (n := n / 10) (by omega) (by omega)
    have hgt := ih (m := n / 10) (n := m / 10) (by omega) (by omega)
    have heq : padded w (m / 10) = padded w (n / 10) ↔ m / 10 = n / 10 := by
      constructor
      · intro h
        rw [h] at hlt hgt
        simp only [lt_self_iff_false, false_iff] at hlt hgt
        omega
      · exact congrArg _
    have hdigit := digitChar_lt_digitChar (Nat.mod_lt m (by decide)) (Nat.mod_lt n (by decide))
    rw [padded, padded, append_lt_append_iff (by simp), hlt, heq, List.cons_lt_cons_iff]
    rw [hdigit]
    simp only [List.not_lt_nil, and_false, or_false]
    omega

/-- The digits of a number are those of its first part and those of the rest. -/
theorem padded_add (w v n : Nat) :
    padded (w + v) n = padded w (n / 10 ^ v) ++ padded v (n % 10 ^ v) := by
  induction v generalizing n with
  | zero => simp [padded]
  | succ v ih =>
    rw [← Nat.add_assoc, padded, ih, padded, List.append_assoc, pow_succ, Nat.div_div_eq_div_mul,
      Nat.mul_comm (10 ^ v) 10, Nat.mod_mul_right_div_self,
      Nat.mod_mod_of_dvd _ (dvd_mul_right _ _)]

theorem head_padded (w n : Nat) : ∃ d < 10, ∃ rest, padded (w + 1) n = Nat.digitChar d :: rest := by
  refine ⟨n / 10 ^ w % 10, Nat.mod_lt _ (by decide), padded w (n % 10 ^ w), ?_⟩
  rw [Nat.add_comm, padded_add]
  rfl

/-- Whatever starts with a character before the digits is less than a number. -/
theorem cons_lt_padded_append {c : Char} (hc : c ≤ '/') (rest : List Char) {tail : List Char}
    (w n : Nat) : c :: rest < padded (w + 1) n ++ tail := by
  obtain ⟨d, hd, digits, htext⟩ := head_padded w n
  rw [htext]
  exact cons_lt_cons_of_lt (hc.trans_lt (digitChar_bounds hd).1)

/-- Fractions of one precision compare as their texts do also where zeros at the end are cut, if
what follows starts with a character before the digits. -/
theorem cut_lt_cut {c : Char} (hc : c ≤ '/') (rest : List Char) {u : Nat} (hwidth : w + v = u)
    {w' v' : Nat} (hwidth' : w' + v' = u) (hm : 10 ^ v ∣ m) (hn : 10 ^ v' ∣ n) (hlt : m < n)
    (hbound : n < 10 ^ u) :
    padded w (m / 10 ^ v) ++ c :: rest < padded w' (n / 10 ^ v') ++ c :: rest := by
  have hfits : ∀ w v, w + v = u → ∀ i < 10 ^ u, i / 10 ^ v < 10 ^ w := by
    rintro w v rfl i hi
    exact Nat.div_lt_of_lt_mul (by rwa [Nat.mul_comm, ← pow_add])
  have hparts : ∀ i v k, i / 10 ^ v / 10 ^ k = i / 10 ^ (v + k) := by
    intro i v k
    rw [Nat.div_div_eq_div_mul, ← pow_add]
  rcases le_or_gt w w' with hle | hgt
  · obtain ⟨k, rfl⟩ := Nat.exists_eq_add_of_le hle
    obtain rfl : v = v' + k := by omega
    rw [padded_add, List.append_assoc, append_lt_append_iff (by simp), hparts,
      padded_lt_padded (hfits _ _ hwidth _ (hlt.trans hbound)) (hfits _ _ hwidth _ hbound)]
    rcases (Nat.div_le_div_right hlt.le).lt_or_eq with hlt' | heq
    · exact .inl hlt'
    · refine .inr ⟨by rw [heq], ?_⟩
      cases k with
      | zero =>
        rw [Nat.add_zero] at hm heq
        exact absurd ((Nat.div_left_inj hm hn).mp heq) hlt.ne
      | succ k => exact cons_lt_padded_append hc _ _ _
  · obtain ⟨k, rfl⟩ := Nat.exists_eq_add_of_le hgt.le
    obtain rfl : v' = v + k := by omega
    rw [padded_add, List.append_assoc, append_lt_append_iff (by simp), hparts,
      padded_lt_padded (hfits _ _ hwidth' _ (hlt.trans hbound)) (hfits _ _ hwidth' _ hbound)]
    exact .inl (Nat.div_lt_of_lt_mul (hlt.trans_eq (Nat.mul_div_cancel' hn).symm))

end FixedWidth
