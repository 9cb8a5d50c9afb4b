import Mathlib.Algebra.BigOperators.Fin
import Mathlib.Data.List.Sort
import Mathlib.Order.Interval.Finset.Fin
import Mathlib.Order.Fin.Basic

/-!
# Histograms and ranks

Samples are counted in buckets, each of which takes what is no greater than its bound and not taken
by an earlier one. What is greater than all bounds is counted in the last bucket. The first bucket
up to which at least `k + 1` samples are counted is the one of the sample of rank `k`.
-/

namespace Histogram

universe u
variable {α : Type u} [LinearOrder α] {n : ℕ}

/-- The bounds of the buckets, in order. -/
structure Bounds (α : Type u) [LinearOrder α] (n : ℕ) where
  bound : Fin (n + 1) → α
  sorted : Monotone bound

namespace Bounds
variable (b : Bounds α n) {x y : α} {i : Fin (n + 1)}

/-- The first bucket whose bound is not exceeded, or else the last one. -/
def bucket (x : α) : Fin (n + 1) := (Fin.find? fun i => x ≤ b.bound i).getD (Fin.last n)

/-- The greatest bound. -/
def top : α := b.bound (Fin.last n)

theorem bucket_le_iff : b.bucket x ≤ i ↔ x ≤ b.bound i ∨ i = Fin.last n := by
  rw [bucket]
  cases h : Fin.find? fun i => decide (x ≤ b.bound i) with
  | none =>
    have hnone : ∀ j, ¬ x ≤ b.bound j := by simpa using Fin.find?_eq_none_iff.mp h
    simp [hnone, Fin.last_le_iff]
  | some j =>
    obtain ⟨hj, hbefore⟩ := Fin.find?_eq_some_iff.mp h
    rw [Option.getD_some]
    constructor
    · exact fun hle => .inl ((of_decide_eq_true hj).trans (b.sorted hle))
    · rintro (hx | rfl)
      · by_contra hlt
        exact of_decide_eq_false (hbefore i (lt_of_not_ge hlt)) hx
      · exact Fin.le_last j

theorem monotone_bucket : Monotone b.bucket := by
  intro x y hxy
  rw [bucket_le_iff]
  rcases b.bucket_le_iff.mp (le_refl (b.bucket y)) with hy | hy
  · exact .inl (hxy.trans hy)
  · exact .inr hy

/-- The bound of the bucket is not exceeded exactly if the greatest bound is not. -/
theorem le_bound_bucket_iff : x ≤ b.bound (b.bucket x) ↔ x ≤ b.top := by
  constructor
  · exact fun h => h.trans (b.sorted (Fin.le_last _))
  · intro h
    rcases b.bucket_le_iff.mp (le_refl (b.bucket x)) with hx | hx
    · exact hx
    · rw [hx]
      exact h

/-- What exceeds the greatest bound is in the last bucket. -/
theorem bound_bucket_of_top_lt (h : b.top < x) : b.bound (b.bucket x) = b.top := by
  rcases b.bucket_le_iff.mp (le_refl (b.bucket x)) with hx | hx
  · exact absurd (hx.trans (b.sorted (Fin.le_last _))) (not_le_of_gt h)
  · rw [hx, top]

/-- The count of each bucket. -/
def histogram (samples : List α) (i : Fin (n + 1)) : ℕ := samples.countP fun x => b.bucket x = i

@[simp] theorem histogram_nil : b.histogram [] = fun _ => 0 := rfl

theorem histogram_append (xs ys : List α) :
    b.histogram (xs ++ ys) = fun i => b.histogram xs i + b.histogram ys i := by
  funext i
  exact List.countP_append

/-- One more sample is counted in its own bucket. -/
theorem histogram_concat (xs : List α) (x : α) :
    b.histogram (xs ++ [x]) =
      Function.update (b.histogram xs) (b.bucket x) (b.histogram xs (b.bucket x) + 1) := by
  funext i
  rw [histogram_append, Function.update_apply]
  by_cases hi : i = b.bucket x
  · subst hi
    simp [histogram]
  · rw [if_neg hi]
    simp [histogram, Ne.symm hi]

end Bounds

variable {i : Fin (n + 1)}

/-- The count up to a bucket. -/
def cumulative (counts : Fin (n + 1) → ℕ) (i : Fin (n + 1)) : ℕ := ∑ j ∈ Finset.Iic i, counts j

/-- The count up to a bucket is the sum over the buckets that stand before it, and itself. -/
theorem cumulative_of_split {pre post : List (Fin (n + 1))}
    (h : pre ++ i :: post = List.finRange (n + 1)) (counts : Fin (n + 1) → ℕ) :
    cumulative counts i = (pre.map counts).sum + counts i := by
  have hlt : (pre ++ i :: post).Pairwise (· < ·) := h ▸ List.pairwise_lt_finRange _
  obtain ⟨hpre, hpost, hcross⟩ := List.pairwise_append.mp hlt
  have hmem : ∀ j, j ∈ Finset.Iic i ↔ j ∈ (pre ++ [i]).toFinset := by
    intro j
    rw [Finset.mem_Iic, List.mem_toFinset, List.mem_append, List.mem_singleton]
    constructor
    · intro hj
      have hj' : j ∈ pre ++ i :: post := h ▸ List.mem_finRange j
      rcases List.mem_append.mp hj' with hj' | hj'
      · exact .inl hj'
      · rcases List.mem_cons.mp hj' with rfl | hj'
        · exact .inr rfl
        · exact absurd ((List.pairwise_cons.mp hpost).1 j hj') (not_lt_of_ge hj)
    · rintro (hj | rfl)
      · exact (hcross j hj i List.mem_cons_self).le
      · exact le_rfl
  have hnodup : (pre ++ [i]).Nodup :=
    List.Nodup.sublist
      (List.Sublist.append_left (List.singleton_sublist.mpr List.mem_cons_self) pre)
      (h ▸ List.nodup_finRange _)
  rw [cumulative, Finset.ext hmem, List.sum_toFinset counts hnodup, List.map_append,
    List.sum_append, List.map_singleton, List.sum_singleton]

variable (b : Bounds α n) (samples : List α)

theorem cumulative_histogram (i : Fin (n + 1)) :
    cumulative (b.histogram samples) i = samples.countP fun x => b.bucket x ≤ i := by
  induction samples with
  | nil => simp [cumulative]
  | cons x xs ih =>
    simp only [cumulative, Bounds.histogram, List.countP_cons, Finset.sum_add_distrib] at ih ⊢
    rw [ih]
    simp

theorem sum_histogram : ∑ i, b.histogram samples i = samples.length := by
  have hall : cumulative (b.histogram samples) (Fin.last n) = samples.length := by
    rw [cumulative_histogram]
    exact List.countP_eq_length.mpr fun x _ => decide_eq_true (Fin.le_last _)
  rw [← hall, cumulative]
  congr 1
  ext i
  simp [Fin.le_last]

/-- The samples that satisfy a condition that passes to smaller ones stand first in order. -/
theorem lt_countP_iff {p : α → Bool} (hp : ∀ {x y}, x ≤ y → p y = true → p x = true) {xs : List α}
    (hsorted : xs.Pairwise (· ≤ ·)) {k : ℕ} (hk : k < xs.length) :
    k < xs.countP p ↔ p xs[k] = true := by
  induction xs generalizing k with
  | nil => exact absurd hk (Nat.not_lt_zero k)
  | cons x xs ih =>
    obtain ⟨hhead, htail⟩ := List.pairwise_cons.mp hsorted
    rw [List.countP_cons]
    cases hx : p x with
    | false =>
      have hnone : ∀ y ∈ xs, ¬ p y = true := fun y hy hpy => by
        rw [hp (hhead y hy) hpy] at hx
        cases hx
      rw [List.countP_eq_zero.mpr hnone]
      refine iff_of_false (by simp) ?_
      cases k with
      | zero => simp [hx]
      | succ k => exact hnone _ (List.getElem_mem _)
    | true =>
      cases k with
      | zero => simp [hx]
      | succ k =>
        rw [if_pos rfl, Nat.add_lt_add_iff_right, List.getElem_cons_succ]
        exact ih htail (Nat.lt_of_succ_lt_succ hk)

/-- The samples in order. -/
def inOrder (samples : List α) : List α := samples.insertionSort (· ≤ ·)

theorem pairwise_inOrder : (inOrder samples).Pairwise (· ≤ ·) :=
  List.pairwise_insertionSort _ samples

theorem length_inOrder : (inOrder samples).length = samples.length :=
  List.length_insertionSort _ _

/-- More than `k` samples are counted up to a bucket exactly if the sample of rank `k` is. -/
theorem lt_cumulative_iff {samples : List α} {k : ℕ} {x : α} (hx : (inOrder samples)[k]? = some x)
    (i : Fin (n + 1)) : k < cumulative (b.histogram samples) i ↔ b.bucket x ≤ i := by
  obtain ⟨hk, rfl⟩ := List.getElem?_eq_some_iff.mp hx
  have hcount : samples.countP (fun x => b.bucket x ≤ i) =
      (inOrder samples).countP fun x => b.bucket x ≤ i :=
    ((List.perm_insertionSort (· ≤ ·) samples).countP_eq _).symm
  rw [cumulative_histogram, hcount, lt_countP_iff _ (pairwise_inOrder samples) hk,
    decide_eq_true_iff]
  intro x y hxy hy
  exact decide_eq_true ((b.monotone_bucket hxy).trans (of_decide_eq_true hy))

/-- The bucket of the sample of a rank is the first one up to which enough samples are counted. -/
theorem find_cumulative {samples : List α} {k : ℕ} {x : α} (hx : (inOrder samples)[k]? = some x) :
    (Fin.find? fun i => k < cumulative (b.histogram samples) i) = some (b.bucket x) := by
  rw [Fin.find?_eq_some_iff]
  refine ⟨decide_eq_true ((lt_cumulative_iff b hx _).mpr le_rfl), fun i hi => ?_⟩
  exact decide_eq_false fun hlt => not_le_of_gt hi ((lt_cumulative_iff b hx i).mp hlt)

/-- Samples of higher rank are no less. -/
theorem le_of_rank_le {samples : List α} {k l : ℕ} {x y : α} (hkl : k ≤ l)
    (hx : (inOrder samples)[k]? = some x) (hy : (inOrder samples)[l]? = some y) : x ≤ y := by
  obtain ⟨hk, rfl⟩ := List.getElem?_eq_some_iff.mp hx
  obtain ⟨hl, rfl⟩ := List.getElem?_eq_some_iff.mp hy
  rcases Nat.lt_or_eq_of_le hkl with hlt | rfl
  · exact List.pairwise_iff_getElem.mp (pairwise_inOrder samples) k l hk hl hlt
  · exact le_rfl

end Histogram
