import Mathlib.Data.List.Dedup
import Mathlib.Data.List.DropRight
import Mathlib.Data.Set.Card
import Mathlib.Logic.Function.Basic

/-!
# Least recently used, with lifetimes

A cache of bounded size keeps the order in which its keys were last used. A use moves its key to the
end of the order, and what is too much leaves the order at the front and the cache with it. An entry
lives for a fixed time after the use that made it. When it has lapsed it may leave the cache, and
its key keeps its place in the order.

Uses come in order of time, so a key that has lapsed stands before every key that is live. A place
that it keeps is never missing to a live key: the last used live keys are in the cache, as many as
the cache has room for.
-/

namespace Recency

universe u
variable {κ : Type u} {keys : List κ} {k j : κ} {m t now now' ttl : ℕ}

/-! ## The end of a list -/

theorem rtake_suffix (l : List κ) (m : ℕ) : l.rtake m <:+ l := List.drop_suffix _ _

theorem length_rtake_le (l : List κ) (m : ℕ) : (l.rtake m).length ≤ m := by
  rw [List.rtake, List.length_drop]
  omega

/-- From a list that is long enough, what stands before it is not taken. -/
theorem rtake_append_of_le {l : List κ} (h : m ≤ l.length) (before : List κ) :
    (before ++ l).rtake m = l.rtake m := by
  rw [List.rtake, List.rtake, List.drop_append, List.length_append,
    List.drop_eq_nil_of_le (by omega), List.nil_append]
  congr 1
  omega

/-- Where every element after one that passes passes too, the last `m` that pass are among the
last `m`. -/
theorem rtake_filter_subset {p : κ → Bool} (h : keys.Pairwise fun a b => p a → p b) (m : ℕ) :
    (keys.filter p).rtake m ⊆ keys.rtake m := by
  induction keys using List.reverseRecOn generalizing m with
  | nil => exact List.Subset.refl _
  | append_singleton keys k ih =>
    obtain ⟨hkeys, -, hlast⟩ := List.pairwise_append.mp h
    by_cases hk : p k
    · rw [List.filter_append, List.filter_cons_of_pos hk, List.filter_nil]
      cases m with
      | zero => simp
      | succ m =>
        rw [List.rtake_concat_succ, List.rtake_concat_succ]
        exact List.append_subset.mpr
          ⟨List.Subset.trans (ih hkeys m) (List.subset_append_left _ _),
            List.subset_append_right _ _⟩
    · have hnone : (keys ++ [k]).filter p = [] := by
        rw [List.filter_eq_nil_iff]
        intro a ha hpa
        rcases List.mem_append.mp ha with ha | ha
        · exact hk (hlast a ha k (List.mem_singleton.mpr rfl) hpa)
        · exact hk (List.mem_singleton.mp ha ▸ hpa)
      simp [hnone]

/-! ## The order -/

section Order
variable [DecidableEq κ]

/-- Move a key to the end of the order, and keep the last `m`. -/
def touch (m : ℕ) (order : List κ) (k : κ) : List κ := (order.filter (· ≠ k) ++ [k]).rtake m

/-- What leaves the order at the front when a key is moved to its end. -/
def overflow (m : ℕ) (order : List κ) (k : κ) : List κ := (order.filter (· ≠ k) ++ [k]).rdrop m

/-- The distinct keys in the order of their last uses, after one more use. -/
theorem dedup_snoc (keys : List κ) (k : κ) :
    (keys ++ [k]).dedup = keys.dedup.filter (· ≠ k) ++ [k] := by
  induction keys with
  | nil => rfl
  | cons j keys ih =>
    by_cases hj : j ∈ keys
    · rw [List.cons_append, List.dedup_cons_of_mem (List.mem_append_left _ hj),
        List.dedup_cons_of_mem hj, ih]
    · by_cases hk : j = k
      · subst hk
        rw [List.cons_append, List.dedup_cons_of_mem (by simp), List.dedup_cons_of_notMem hj, ih,
          List.filter_cons_of_neg (by simp)]
      · rw [List.cons_append, List.dedup_cons_of_notMem (by simp [hj, hk]),
          List.dedup_cons_of_notMem hj, ih, List.filter_cons_of_pos (by simpa using hk),
          List.cons_append]

/-- Keeping only the last `m` distinct keys loses nothing that later uses leave among them. -/
theorem touch_rtake (hnd : keys.Nodup) (m : ℕ) (k : κ) :
    touch m (keys.rtake m) k = touch m keys k := by
  unfold touch
  cases m with
  | zero => simp only [List.rtake_zero]
  | succ m =>
    rw [List.rtake_concat_succ, List.rtake_concat_succ]
    congr 1
    by_cases hlen : keys.length ≤ m + 1
    · have hall : keys.rtake (m + 1) = keys := by
        rw [List.rtake, Nat.sub_eq_zero_of_le hlen, List.drop_zero]
      rw [hall]
    · have hsplit : keys = keys.rdrop (m + 1) ++ keys.rtake (m + 1) :=
        (List.take_append_drop _ _).symm
      have hlast : (keys.rtake (m + 1)).length = m + 1 := by
        rw [List.rtake, List.length_drop]
        omega
      -- at most one of the last `m + 1` keys is the one that is used again
      have hrest : m ≤ ((keys.rtake (m + 1)).filter (· ≠ k)).length := by
        have hone := List.le_length_erase (a := k) (l := keys.rtake (m + 1))
        rw [(hnd.sublist (rtake_suffix _ (m + 1)).sublist).erase_eq_filter, hlast] at hone
        simpa [bne, beq_eq_decide] using hone
      conv_rhs => rw [hsplit, List.filter_append]
      rw [rtake_append_of_le hrest]

/-- An order that holds the last `m` distinct keys holds them after one more use. -/
theorem touch_dedup (m : ℕ) (keys : List κ) (k : κ) :
    touch m (keys.dedup.rtake m) k = (keys ++ [k]).dedup.rtake m := by
  rw [touch_rtake (List.nodup_dedup keys), touch, dedup_snoc]

/-- What was in the order, or is used, stays in it or overflows. -/
theorem mem_touch_or_overflow {order : List κ} :
    j ∈ touch m order k ∨ j ∈ overflow m order k ↔ j ∈ order ∨ j = k := by
  have hsplit : overflow m order k ++ touch m order k = order.filter (· ≠ k) ++ [k] :=
    List.take_append_drop _ _
  have hmem : j ∈ overflow m order k ++ touch m order k ↔ j ∈ order.filter (· ≠ k) ++ [k] := by
    rw [hsplit]
  rw [List.mem_append, List.mem_append, List.mem_filter, List.mem_singleton] at hmem
  by_cases hj : j = k
  · simpa [hj, or_comm] using hmem
  · simpa [hj, or_comm] using hmem

/-- Nothing overflows that stays in the order. -/
theorem not_mem_overflow {order : List κ} (hnd : order.Nodup) (h : j ∈ touch m order k) :
    j ∉ overflow m order k := by
  have hall : (order.filter (· ≠ k) ++ [k]).Nodup := by
    rw [List.nodup_append]
    refine ⟨hnd.filter _, List.nodup_singleton k, fun a ha b hb => ?_⟩
    rw [List.mem_singleton.mp hb]
    simpa using (List.mem_filter.mp ha).2
  have hsplit : (overflow m order k ++ touch m order k).Nodup := by
    rwa [overflow, touch, List.rdrop, List.rtake, List.take_append_drop]
  exact fun hj => (List.nodup_append.mp hsplit).2.2 j hj j h rfl

/-! ## Uses in order of time -/

/-- When a key was used last. -/
def lastUse (uses : List (κ × ℕ)) (k : κ) : Option ℕ :=
  (uses.reverse.find? fun use => use.1 = k).map Prod.snd

/-- Whether what the last use of a key made is still alive. -/
def live (ttl : ℕ) (uses : List (κ × ℕ)) (now : ℕ) (k : κ) : Bool :=
  (lastUse uses k).any fun t => now ≤ t + ttl

/-- The `m` last used of the distinct keys that are live. -/
def mostRecent (m ttl : ℕ) (uses : List (κ × ℕ)) (now : ℕ) : List κ :=
  ((uses.map Prod.fst).dedup.filter (live ttl uses now)).rtake m

variable {uses : List (κ × ℕ)}

theorem lastUse_snoc : lastUse (uses ++ [(k, t)]) j = if k = j then some t else lastUse uses j := by
  rw [lastUse, List.reverse_append, List.reverse_singleton, List.singleton_append, List.find?_cons]
  by_cases hkj : k = j
  · simp [hkj]
  · simp [hkj, lastUse]

theorem mem_of_lastUse (h : lastUse uses k = some t) : (k, t) ∈ uses := by
  obtain ⟨⟨j, t'⟩, hfind, rfl⟩ := Option.map_eq_some_iff.mp h
  have hkey : j = k := by simpa using List.find?_some hfind
  subst hkey
  exact List.mem_reverse.mp (List.mem_of_find?_eq_some hfind)

theorem exists_lastUse (h : k ∈ uses.map Prod.fst) : ∃ t, lastUse uses k = some t := by
  obtain ⟨use, huse, rfl⟩ := List.mem_map.mp h
  have hfound : (uses.reverse.find? fun use' => use'.1 = use.1).isSome := by
    rw [List.find?_isSome]
    exact ⟨use, List.mem_reverse.mpr huse, by simp⟩
  obtain ⟨found, hfound⟩ := Option.isSome_iff_exists.mp hfound
  exact ⟨found.2, by rw [lastUse, hfound, Option.map_some]⟩

/-- Where the uses are in order of time, the keys are in order of their last uses. -/
theorem lastUse_pairwise (h : uses.Pairwise fun a b => a.2 ≤ b.2) :
    (uses.map Prod.fst).dedup.Pairwise fun a b =>
      ∀ t ∈ lastUse uses a, ∀ t' ∈ lastUse uses b, t ≤ t' := by
  induction uses using List.reverseRecOn with
  | nil => exact List.Pairwise.nil
  | append_singleton uses use ih =>
    obtain ⟨k, time⟩ := use
    obtain ⟨hbefore, -, hlast⟩ := List.pairwise_append.mp h
    rw [List.map_append, List.map_singleton, dedup_snoc, List.pairwise_append]
    refine ⟨?_, List.pairwise_singleton _ _, ?_⟩
    · refine ((ih hbefore).filter _).imp_of_mem fun {a b} ha hb hab => ?_
      have hak : k ≠ a := fun he => by simp [he] at ha
      have hbk : k ≠ b := fun he => by simp [he] at hb
      rwa [lastUse_snoc, lastUse_snoc, if_neg hak, if_neg hbk]
    · intro a ha b hb t ht t' ht'
      have hak : k ≠ a := fun he => by simp [he] at ha
      rw [lastUse_snoc, if_neg hak] at ht
      rw [lastUse_snoc, if_pos (List.mem_singleton.mp hb).symm] at ht'
      cases ht'
      exact hlast _ (mem_of_lastUse ht) _ (List.mem_singleton.mpr rfl)

/-! ## The cache -/

/-- The order and the entries' ends of life are what the uses so far have made of them. -/
structure Represents (m ttl : ℕ) (uses : List (κ × ℕ)) (now : ℕ) (order : List κ)
    (expiry : κ → Option ℕ) : Prop where
  order_eq : order = (uses.map Prod.fst).dedup.rtake m
  ordered : ∀ k t, expiry k = some t → k ∈ order
  current : ∀ k t, expiry k = some t → ∃ u ∈ lastUse uses k, t = u + ttl
  lapsed : ∀ k ∈ order, expiry k = none → ∀ u ∈ lastUse uses k, u + ttl < now
  chronological : uses.Pairwise fun a b => a.2 ≤ b.2
  past : ∀ use ∈ uses, use.2 ≤ now

namespace Represents
variable {order : List κ} {expiry : κ → Option ℕ}

theorem start (m ttl : ℕ) : Represents m ttl ([] : List (κ × ℕ)) 0 [] fun _ => none where
  order_eq := by simp
  ordered := by simp
  current := by simp
  lapsed := by simp
  chronological := List.Pairwise.nil
  past := by simp

/-- Time passes. -/
theorem elapse (R : Represents m ttl uses now order expiry) (h : now ≤ now') :
    Represents m ttl uses now' order expiry :=
  { R with
    lapsed := fun k hk he u hu => (R.lapsed k hk he u hu).trans_le h
    past := fun use hu => (R.past use hu).trans h }

/-- An entry that has lapsed leaves. -/
theorem lapse (R : Represents m ttl uses now order expiry) (hk : expiry k = some t) (ht : t < now) :
    Represents m ttl uses now order (Function.update expiry k none) where
  order_eq := R.order_eq
  ordered j t' hj := by
    rw [Function.update_apply] at hj
    split_ifs at hj
    exact R.ordered j t' hj
  current j t' hj := by
    rw [Function.update_apply] at hj
    split_ifs at hj
    exact R.current j t' hj
  lapsed j hj he u hu := by
    rw [Function.update_apply] at he
    split_ifs at he with hjk
    · obtain ⟨u', hu', rfl⟩ := R.current k t hk
      rw [hjk, Option.mem_def.mp hu'] at hu
      rwa [← Option.mem_some_iff.mp hu]
    · exact R.lapsed j hj he u hu
  chronological := R.chronological
  past := R.past

theorem nodup (R : Represents m ttl uses now order expiry) : order.Nodup := by
  rw [R.order_eq]
  exact (List.nodup_dedup _).sublist (rtake_suffix _ m).sublist

/-- A key is used, what overflows leaves. -/
theorem use (R : Represents m ttl uses now order expiry) (k : κ) :
    Represents m ttl (uses ++ [(k, now)]) now (touch m order k)
      fun j => if j ∈ overflow m order k then none else if j = k then some (now + ttl)
        else expiry j where
  order_eq := by
    rw [R.order_eq, touch_dedup, List.map_append, List.map_singleton]
  ordered j t hj := by
    split_ifs at hj with hover hjk
    · exact (mem_touch_or_overflow.mpr (.inr hjk)).resolve_right hover
    · exact (mem_touch_or_overflow.mpr (.inl (R.ordered j t hj))).resolve_right hover
  current j t hj := by
    rw [lastUse_snoc]
    split_ifs at hj with hover hjk
    · cases hj
      exact ⟨now, by simp [hjk], rfl⟩
    · rw [if_neg (Ne.symm hjk)]
      exact R.current j t hj
  lapsed j hj he u hu := by
    rw [if_neg (not_mem_overflow R.nodup hj)] at he
    split_ifs at he with hjk
    rw [lastUse_snoc, if_neg (Ne.symm hjk)] at hu
    have hold : j ∈ order := (mem_touch_or_overflow.mp (.inl hj)).resolve_right hjk
    exact R.lapsed j hold he u hu
  chronological := by
    rw [List.pairwise_append]
    refine ⟨R.chronological, List.pairwise_singleton _ _, fun a ha b hb => ?_⟩
    rw [List.mem_singleton.mp hb]
    exact R.past a ha
  past use hu := by
    rcases List.mem_append.mp hu with hu | hu
    · exact R.past use hu
    · rw [List.mem_singleton.mp hu]

theorem length_le (R : Represents m ttl uses now order expiry) : order.length ≤ m := by
  rw [R.order_eq]
  exact length_rtake_le _ m

/-- The cache has room for what it holds. -/
theorem encard_le (R : Represents m ttl uses now order expiry) :
    {k | expiry k ≠ none}.encard ≤ m := by
  have hsub : {k | expiry k ≠ none} ⊆ (order.toFinset : Set κ) := by
    intro k hk
    obtain ⟨t, ht⟩ := Option.ne_none_iff_exists'.mp hk
    simpa using R.ordered k t ht
  calc {k | expiry k ≠ none}.encard
      ≤ (order.toFinset : Set κ).encard := Set.encard_le_encard hsub
    _ = (order.toFinset.card : ℕ∞) := Set.encard_coe_eq_coe_finsetCard _
    _ ≤ m := by exact_mod_cast (List.toFinset_card_le order).trans R.length_le

/-- The last used live keys are in the cache, as many as it has room for. -/
theorem resident (R : Represents m ttl uses now order expiry) (h : k ∈ mostRecent m ttl uses now) :
    ∃ t, expiry k = some t ∧ now ≤ t := by
  have hlater : (uses.map Prod.fst).dedup.Pairwise fun a b =>
      live ttl uses now a → live ttl uses now b := by
    refine (lastUse_pairwise R.chronological).imp_of_mem fun {a b} _ hb hab hlive => ?_
    obtain ⟨t, ht, hnow⟩ := (Option.any_eq_true _ _).mp hlive
    obtain ⟨t', ht'⟩ := exists_lastUse (List.mem_dedup.mp hb)
    have hle := hab t ht t' ht'
    rw [decide_eq_true_eq] at hnow
    rw [live, ht', Option.any_some, decide_eq_true_eq]
    omega
  have horder : k ∈ order := R.order_eq ▸ rtake_filter_subset hlater m h
  have hlive : live ttl uses now k := (List.mem_filter.mp ((rtake_suffix _ m).subset h)).2
  obtain ⟨u, hu, hnow⟩ := (Option.any_eq_true _ _).mp hlive
  rw [decide_eq_true_eq] at hnow
  cases he : expiry k with
  | none => exact absurd (R.lapsed k horder he u hu) (Nat.not_lt.mpr hnow)
  | some t =>
    obtain ⟨u', hu', rfl⟩ := R.current k t he
    rw [hu] at hu'
    cases hu'
    exact ⟨_, rfl, hnow⟩

end Represents
end Order
end Recency
