import Mathlib.Data.Int.Log
import Mathlib.Tactic

/-!
# Rounding to binary64

The value of an arithmetic operation on numbers of 64 bits is the exact one, rounded to the nearest
multiple of the last place. Rounding adds a small relative error, or a small absolute one among the
subnormal numbers, and it changes no value that a sum of 53 bits has.

## Implementation notes

Values are rational, and the range of the exponent has no upper end.
-/

namespace Binary64

/-- The nearest integer, and the even one of two. -/
def roundTiesEven (x : ℚ) : ℤ :=
  let below := ⌊x⌋
  if x - below < 1 / 2 ∨ x - below = 1 / 2 ∧ below % 2 = 0 then below else below + 1

/-- The exponent of the last place of a value. -/
def lastPlace (x : ℚ) : ℤ := max (Int.log 2 |x| - 52) (-1074)

/-- The nearest `f64`. -/
def roundF64 (x : ℚ) : ℚ := roundTiesEven (x / 2 ^ lastPlace x) * 2 ^ lastPlace x

/-- `f64::EPSILON`. -/
def epsilonF64 : ℚ := 1 / 2 ^ 52

def addF64 (x y : ℚ) : ℚ := roundF64 (x + y)

/-- A sum in the order of the list, rounded at every step. -/
def sumF64 (xs : List ℚ) : ℚ := xs.foldl addF64 0

variable {x y : ℚ}

theorem abs_roundTiesEven_sub_le (x : ℚ) : |roundTiesEven x - x| ≤ 1 / 2 := by
  have hle := Int.floor_le x
  have hlt := Int.lt_floor_add_one x
  rw [abs_le, roundTiesEven]
  split
  next h =>
    have hrest : x - ⌊x⌋ ≤ 1 / 2 := h.elim le_of_lt fun h => h.1.le
    constructor
    · linarith
    · linarith
  next h =>
    have hrest : 1 / 2 ≤ x - ⌊x⌋ := not_lt.mp fun hlow => h (.inl hlow)
    push_cast
    constructor
    · linarith
    · linarith

theorem roundTiesEven_intCast (n : ℤ) : roundTiesEven n = n := by
  simp [roundTiesEven]

theorem two_zpow_log_le (h : x ≠ 0) : (2 : ℚ) ^ Int.log 2 |x| ≤ |x| :=
  mod_cast Int.zpow_log_le_self (R := ℚ) (b := 2) (by decide) (abs_pos.mpr h)

/-- Half of the last place bounds the error. -/
theorem abs_roundF64_sub_le_half (x : ℚ) : |roundF64 x - x| ≤ 2 ^ lastPlace x / 2 := by
  have hpos : (0 : ℚ) < 2 ^ lastPlace x := zpow_pos (by decide) _
  calc |roundF64 x - x|
      = |(roundTiesEven (x / 2 ^ lastPlace x) : ℚ) - x / 2 ^ lastPlace x| * 2 ^ lastPlace x := by
        rw [← abs_of_pos hpos, ← abs_mul, abs_of_pos hpos, sub_mul, div_mul_cancel₀ _ hpos.ne',
          roundF64]
    _ ≤ 1 / 2 * 2 ^ lastPlace x :=
        mul_le_mul_of_nonneg_right (abs_roundTiesEven_sub_le _) hpos.le
    _ = 2 ^ lastPlace x / 2 := by ring

theorem roundF64_zero : roundF64 0 = 0 := by
  simp [roundF64, roundTiesEven]

/-- The error of a rounded value, relative to the value and to the smallest normal number. -/
theorem abs_roundF64_sub_le (x : ℚ) : |roundF64 x - x| ≤ (|x| + 2 ^ (-1022 : ℤ)) / 2 ^ 53 := by
  have hsmall : (0 : ℚ) < 2 ^ (-1022 : ℤ) := zpow_pos (by decide) _
  obtain rfl | hx := eq_or_ne x 0
  · rw [roundF64_zero, sub_self, abs_zero]
    positivity
  refine (abs_roundF64_sub_le_half x).trans ?_
  have hplace : (2 : ℚ) ^ lastPlace x * 2 ^ (52 : ℤ) ≤ |x| + 2 ^ (-1022 : ℤ) := by
    rw [← zpow_add₀ (by decide), lastPlace]
    rcases max_choice (Int.log 2 |x| - 52) (-1074) with h | h
    · rw [h, sub_add_cancel]
      exact (two_zpow_log_le hx).trans (le_add_of_nonneg_right hsmall.le)
    · rw [h]
      exact le_add_of_nonneg_left (abs_nonneg x)
  rw [div_le_div_iff₀ two_pos (by positivity)]
  calc (2 : ℚ) ^ lastPlace x * 2 ^ 53 = 2 ^ lastPlace x * 2 ^ (52 : ℤ) * 2 := by norm_num; ring
    _ ≤ (|x| + 2 ^ (-1022 : ℤ)) * 2 := mul_le_mul_of_nonneg_right hplace zero_le_two

/-- A multiple of a last place, of fewer than 53 bits, is its own rounding. -/
theorem roundF64_eq_self {m q : ℤ} (hm : |m| < 2 ^ 53) (hq : -1074 ≤ q) :
    roundF64 (m * 2 ^ q) = m * 2 ^ q := by
  obtain rfl | h0 := eq_or_ne m 0
  · rw [Int.cast_zero, zero_mul, roundF64_zero]
  have hpos : 0 < |(m : ℚ) * 2 ^ q| :=
    abs_pos.mpr (mul_ne_zero (mod_cast h0) (zpow_ne_zero _ two_ne_zero))
  have hlt : |(m : ℚ) * 2 ^ q| < 2 ^ (53 + q) := by
    rw [abs_mul, abs_of_pos (zpow_pos two_pos q : (0 : ℚ) < 2 ^ q), zpow_add₀ two_ne_zero]
    exact mul_lt_mul_of_pos_right (mod_cast hm) (zpow_pos two_pos q)
  have hlog := (Int.lt_zpow_iff_log_lt (b := 2) (by decide) hpos).mp (mod_cast hlt)
  have hplace : lastPlace (m * 2 ^ q) ≤ q := by
    unfold lastPlace
    omega
  obtain ⟨k, hk⟩ := Int.eq_ofNat_of_zero_le (sub_nonneg.mpr hplace)
  have hvalue : (m : ℚ) * 2 ^ q = (m * 2 ^ k : ℤ) * 2 ^ lastPlace (m * 2 ^ q) := by
    rw [Int.cast_mul, Int.cast_pow, mul_assoc, Int.cast_ofNat, ← zpow_natCast, ← hk,
      ← zpow_add₀ two_ne_zero, sub_add_cancel]
  rw [roundF64, (div_eq_iff (zpow_pos two_pos _).ne').mpr hvalue, roundTiesEven_intCast, ← hvalue]

theorem roundF64_natCast {n : ℕ} (h : n < 2 ^ 53) : roundF64 n = n := by
  have hself := roundF64_eq_self (m := n) (q := 0) (by rw [Nat.abs_cast]; exact_mod_cast h)
    (by decide)
  simpa using hself

/-! ## Order -/

theorem roundTiesEven_mono (h : x ≤ y) : roundTiesEven x ≤ roundTiesEven y := by
  rcases (Int.floor_mono h).lt_or_eq with hlt | heq
  · have hupper : roundTiesEven x ≤ ⌊x⌋ + 1 := by
      simp only [roundTiesEven]
      split_ifs <;> omega
    have hlower : ⌊y⌋ ≤ roundTiesEven y := by
      simp only [roundTiesEven]
      split_ifs <;> omega
    omega
  · simp only [roundTiesEven, heq]
    split_ifs with hx hy
    · exact le_rfl
    · omega
    · refine (hx ?_).elim
      rcases ‹_ ∨ _› with hlow | ⟨htie, heven⟩
      · exact .inl (by linarith)
      · rcases (sub_le_sub_right h (⌊y⌋ : ℚ)).lt_or_eq with hlt | hsame
        · exact .inl (by linarith)
        · exact .inr ⟨hsame.trans htie, heven⟩
    · exact le_rfl

/-- A multiple of the last place that bounds a value bounds its rounding. -/
theorem roundF64_le {n : ℤ} (h : x ≤ n * 2 ^ lastPlace x) : roundF64 x ≤ n * 2 ^ lastPlace x := by
  have hpos : (0 : ℚ) < 2 ^ lastPlace x := zpow_pos two_pos _
  refine mul_le_mul_of_nonneg_right (Int.cast_le.mpr ?_) hpos.le
  exact (roundTiesEven_mono ((div_le_iff₀ hpos).mpr h)).trans_eq (roundTiesEven_intCast n)

theorem le_roundF64 {n : ℤ} (h : n * 2 ^ lastPlace x ≤ x) : n * 2 ^ lastPlace x ≤ roundF64 x := by
  have hpos : (0 : ℚ) < 2 ^ lastPlace x := zpow_pos two_pos _
  refine mul_le_mul_of_nonneg_right (Int.cast_le.mpr ?_) hpos.le
  exact (roundTiesEven_intCast n).symm.trans_le (roundTiesEven_mono ((le_div_iff₀ hpos).mpr h))

theorem lastPlace_le (h0 : x ≠ 0) (h : |x| ≤ |y|) : lastPlace x ≤ lastPlace y :=
  max_le_max_right _ (sub_le_sub_right (Int.log_mono_right (abs_pos.mpr h0) h) 52)

/-- A value with a greater last place is separated by a multiple of both last places. -/
theorem separated (hy : y ≠ 0) (h : lastPlace x < lastPlace y) : ∃ m n : ℤ,
    |x| ≤ m * 2 ^ lastPlace x ∧ (m : ℚ) * 2 ^ lastPlace x = n * 2 ^ lastPlace y ∧
      n * 2 ^ lastPlace y ≤ |y| := by
  have hplace : lastPlace y = Int.log 2 |y| - 52 := by
    unfold lastPlace at *
    omega
  have hlog : Int.log 2 |x| < Int.log 2 |y| := by
    unfold lastPlace at *
    omega
  have hscale : ∀ (k : ℕ) (e : ℤ), k + e = Int.log 2 |y| →
      (2 ^ k : ℤ) * (2 : ℚ) ^ e = 2 ^ Int.log 2 |y| := by
    intro k e hk
    rw [Int.cast_pow, Int.cast_ofNat, ← zpow_natCast, ← zpow_add₀ two_ne_zero, hk]
  obtain ⟨k, hk⟩ := Int.eq_ofNat_of_zero_le (sub_nonneg.mpr h.le)
  have hfine := hscale (52 + k) (lastPlace x) (by push_cast; omega)
  have hcoarse := hscale 52 (lastPlace y) (by push_cast; omega)
  refine ⟨2 ^ (52 + k), 2 ^ 52, ?_, hfine.trans hcoarse.symm, ?_⟩
  · rw [hfine]
    rcases (abs_nonneg x).eq_or_lt with h0 | hpos
    · rw [← h0]
      positivity
    · exact ((Int.lt_zpow_iff_log_lt (b := 2) (by decide) hpos).mpr hlog).le
  · rw [hcoarse]
    exact two_zpow_log_le hy

theorem roundF64_mono (h : x ≤ y) : roundF64 x ≤ roundF64 y := by
  by_cases hzero : x ≤ 0 ∧ 0 ≤ y
  · have hx := roundF64_le (x := x) (n := 0) (by simpa using hzero.1)
    have hy := le_roundF64 (x := y) (n := 0) (by simpa using hzero.2)
    rw [Int.cast_zero, zero_mul] at hx hy
    exact hx.trans hy
  by_cases hsame : lastPlace x = lastPlace y
  · rw [roundF64, roundF64, hsame]
    refine mul_le_mul_of_nonneg_right (Int.cast_le.mpr (roundTiesEven_mono ?_)) (by positivity)
    exact div_le_div_of_nonneg_right h (by positivity)
  rcases lt_or_ge 0 x with hx0 | hx0
  · have hplace := lastPlace_le hx0.ne' (abs_le_abs_of_nonneg hx0.le h)
    obtain ⟨m, n, hx, hmn, hy⟩ := separated (hx0.trans_le h).ne' (hplace.lt_of_ne hsame)
    rw [abs_of_pos (hx0.trans_le h)] at hy
    exact (roundF64_le ((le_abs_self x).trans hx)).trans (hmn.le.trans (le_roundF64 hy))
  · have hy0 : y < 0 := lt_of_not_ge fun hy0 => hzero ⟨hx0, hy0⟩
    have hplace := lastPlace_le hy0.ne (abs_le_abs_of_nonpos hy0.le h)
    obtain ⟨m, n, hy, hmn, hx⟩ := separated (h.trans_lt hy0).ne (hplace.lt_of_ne' hsame)
    rw [abs_of_nonpos hx0] at hx
    rw [abs_of_neg hy0] at hy
    have hlower := roundF64_le (x := x) (n := -n) (by push_cast; linarith)
    have hupper := le_roundF64 (x := y) (n := -m) (by push_cast; linarith)
    push_cast at hlower hupper
    linarith

theorem addF64_mono (h : x ≤ y) (z : ℚ) : addF64 x z ≤ addF64 y z :=
  roundF64_mono (add_le_add_left h z)

/-! ## Smaller values and differences -/

/-- The smaller of a rounded value and a value that is near to another one. -/
theorem abs_min_roundF64_sub_le {x y y' e : ℚ} (hx : 0 ≤ x) (hy : |y' - y| ≤ e)
    (he : (y + 2 ^ (-1022 : ℤ)) / 2 ^ 53 ≤ e) : |min (roundF64 x) y' - min x y| ≤ e := by
  have hround := abs_roundF64_sub_le x
  rw [abs_of_nonneg hx] at hround
  rcases le_total x y with h | h
  · refine (abs_min_sub_min_le_max _ _ _ _).trans (max_le (hround.trans ?_) hy)
    exact le_trans (by gcongr) he
  · rw [min_eq_right h, abs_le]
    rw [abs_le] at hround hy
    constructor
    · rw [neg_le_sub_iff_le_add, min_def]
      split_ifs <;> linarith
    · linarith [min_le_right (roundF64 x) y']

/-- The rounded difference of values that are near to others. -/
theorem abs_roundF64_sub_sub_le {x x' y y' e f b : ℚ} (hx : |x' - x| ≤ e) (hy : |y' - y| ≤ f)
    (hb : |x - y| ≤ b) : |roundF64 (x' - y') - (x - y)| ≤
      e + f + (b + e + f + 2 ^ (-1022 : ℤ)) / 2 ^ 53 := by
  have hdiff : |(x' - y') - (x - y)| ≤ e + f := by
    calc |(x' - y') - (x - y)| = |(x' - x) - (y' - y)| := by ring_nf
      _ ≤ |x' - x| + |y' - y| := abs_sub _ _
      _ ≤ e + f := add_le_add hx hy
  have hsize : |x' - y'| ≤ b + (e + f) := by
    calc |x' - y'| = |(x - y) + ((x' - y') - (x - y))| := by ring_nf
      _ ≤ |x - y| + |(x' - y') - (x - y)| := abs_add_le _ _
      _ ≤ b + (e + f) := add_le_add hb hdiff
  calc |roundF64 (x' - y') - (x - y)|
      = |(roundF64 (x' - y') - (x' - y')) + ((x' - y') - (x - y))| := by ring_nf
    _ ≤ |roundF64 (x' - y') - (x' - y')| + |(x' - y') - (x - y)| := abs_add_le _ _
    _ ≤ (b + e + f + 2 ^ (-1022 : ℤ)) / 2 ^ 53 + (e + f) := by
        refine add_le_add ((abs_roundF64_sub_le _).trans ?_) hdiff
        gcongr
        linarith
    _ = e + f + (b + e + f + 2 ^ (-1022 : ℤ)) / 2 ^ 53 := add_comm _ _

/-! ## Sums -/

theorem sumF64_snoc (xs : List ℚ) (x : ℚ) : sumF64 (xs ++ [x]) = addF64 (sumF64 xs) x := by
  rw [sumF64, List.foldl_append]
  rfl

/-- A sum of which no part is rounded is exact. -/
theorem sumF64_eq_sum {xs : List ℚ} (h : ∀ ys : List ℚ, ys.Sublist xs → roundF64 ys.sum = ys.sum) :
    sumF64 xs = xs.sum := by
  induction xs using List.reverseRecOn with
  | nil => rfl
  | append_singleton xs x ih =>
    rw [sumF64_snoc, ih fun ys hys => h ys (hys.trans (List.sublist_append_left _ _)), addF64]
    have hlast := h _ (List.Sublist.refl (xs ++ [x]))
    rwa [List.sum_append, List.sum_singleton] at hlast ⊢

/-- The error of a sum, relative to the sum of the absolute values. -/
theorem abs_sumF64_sub_le (xs : List ℚ) : |sumF64 xs - xs.sum| ≤
    ((1 + 1 / 2 ^ 53) ^ xs.length - 1) * ((xs.map abs).sum + 2 ^ (-1022 : ℤ)) := by
  induction xs using List.reverseRecOn with
  | nil => simp [sumF64]
  | append_singleton xs x ih =>
    rw [sumF64_snoc, addF64, List.sum_append, List.map_append, List.sum_append, List.length_append,
      List.map_singleton, List.sum_singleton, List.sum_singleton, List.length_singleton]
    have hround := abs_roundF64_sub_le (sumF64 xs + x)
    have hsum : |xs.sum| ≤ (xs.map abs).sum := Multiset.abs_sum_le_sum_abs (s := (xs : Multiset ℚ))
    have hpow : (1 : ℚ) ≤ (1 + 1 / 2 ^ 53) ^ xs.length := one_le_pow₀ (by norm_num)
    generalize (2 : ℚ) ^ (-1022 : ℤ) = small at *
    generalize roundF64 (sumF64 xs + x) = rounded at *
    have hterms : |sumF64 xs + x| ≤ |sumF64 xs - xs.sum| + ((xs.map abs).sum + |x|) := by
      calc |sumF64 xs + x| = |(sumF64 xs - xs.sum) + (xs.sum + x)| := by ring_nf
        _ ≤ |sumF64 xs - xs.sum| + (|xs.sum| + |x|) :=
            (abs_add_le _ _).trans (add_le_add_right (abs_add_le _ _) _)
        _ ≤ _ := by linarith
    have hgrow := mul_nonneg (sub_nonneg.mpr hpow) (abs_nonneg x)
    calc |rounded - (xs.sum + x)|
        = |(rounded - (sumF64 xs + x)) + (sumF64 xs - xs.sum)| := by ring_nf
      _ ≤ |rounded - (sumF64 xs + x)| + |sumF64 xs - xs.sum| := abs_add_le _ _
      _ ≤ ((1 + 1 / 2 ^ 53) ^ (xs.length + 1) - 1) * ((xs.map abs).sum + |x| + small) := by
          rw [pow_succ]
          linarith

/-- A value that adding up the terms in some order can give. -/
def SumsTo (v : ℚ) (terms : Multiset ℚ) : Prop := ∃ xs : List ℚ, xs = terms ∧ sumF64 xs = v

variable {v : ℚ} {terms : Multiset ℚ}

theorem SumsTo.zero : SumsTo 0 0 := ⟨[], rfl, rfl⟩

theorem SumsTo.add (h : SumsTo v terms) (x : ℚ) : SumsTo (addF64 v x) (terms + {x}) := by
  obtain ⟨xs, rfl, rfl⟩ := h
  exact ⟨xs ++ [x], by rw [← Multiset.coe_add, Multiset.coe_singleton], sumF64_snoc xs x⟩

theorem SumsTo.ite {p : Prop} [Decidable p] {v' : ℚ} {terms' : Multiset ℚ} (h : SumsTo v terms)
    (h' : SumsTo v' terms') : SumsTo (if p then v else v') (if p then terms else terms') := by
  split_ifs
  exacts [h, h']

theorem SumsTo.abs_sub_le (h : SumsTo v terms) : |v - terms.sum| ≤
    ((1 + 1 / 2 ^ 53) ^ terms.card - 1) * ((terms.map abs).sum + 2 ^ (-1022 : ℤ)) := by
  obtain ⟨xs, rfl, rfl⟩ := h
  simpa using abs_sumF64_sub_le xs

end Binary64
