import Mathlib.Algebra.BigOperators.Group.List.Basic
import Mathlib.Algebra.Order.Monoid.Defs
import Mathlib.Data.List.Perm.Subperm

/-!
# Totals of the current period

Time is divided into periods, such as days or months. A total of the amounts of events in the
current period is kept together with the period that it is for. When the clock enters a new period
the total starts again at zero, so that an event counts in its own period and in no other.
-/

namespace PeriodTotal

universe u v w x
variable {τ : Type u} {κ : Type v} {ε : Type w} {M : Type x} [DecidableEq κ] [AddCommMonoid M]

/-- The amounts of the events in the period of an instant. -/
def total (period : τ → κ) (time : ε → τ) (amount : ε → M) (t : τ) (events : List ε) : M :=
  ((events.filter fun e => period (time e) = period t).map amount).sum

variable {period : τ → κ} {time : ε → τ} {amount : ε → M} {t clock now : τ} {key : Option κ}
  {sum : M} {events l₁ l₂ : List ε} {e : ε}

theorem total_append (l₁ l₂ : List ε) : total period time amount t (l₁ ++ l₂) =
    total period time amount t l₁ + total period time amount t l₂ := by
  simp [total]

theorem total_singleton (e : ε) : total period time amount t [e] =
    if period (time e) = period t then amount e else 0 := by
  unfold total
  split_ifs with h <;> simp [h]

/-- The total depends on the instant through its period only. -/
theorem total_congr (h : period t = period now) :
    total period time amount t events = total period time amount now events := by
  simp only [total, h]

theorem total_add (amount' : ε → M) :
    total period time (fun e => amount e + amount' e) t events =
      total period time amount t events + total period time amount' t events :=
  List.sum_map_add

/-- Amounts that only some events have are those of these events. -/
theorem total_ite (q : ε → Bool) :
    total period time (fun e => if q e then amount e else 0) t events =
      (((events.filter q).filter fun e => period (time e) = period t).map amount).sum := by
  unfold total
  induction events with
  | nil => rfl
  | cons e events ih =>
    cases hq : q e <;> by_cases hp : period (time e) = period t <;> simp [hq, hp, ih]

/-- A sum over fewer events of smaller amounts is smaller, if no amount is negative. -/
theorem sum_filter_le [PartialOrder M] [IsOrderedAddMonoid M] {p q : ε → Bool} {f g : ε → M}
    (h : ∀ e ∈ events, p e → q e ∧ f e ≤ g e) (h0 : ∀ e ∈ events, 0 ≤ g e) :
    ((events.filter p).map f).sum ≤ ((events.filter q).map g).sum := by
  induction events with
  | nil => exact le_rfl
  | cons e events ih =>
    have hrest := ih (fun x hx => h x (List.mem_cons_of_mem _ hx)) fun x hx =>
      h0 x (List.mem_cons_of_mem _ hx)
    by_cases hp : p e
    · obtain ⟨hq, hle⟩ := h e List.mem_cons_self hp
      rw [List.filter_cons_of_pos hp, List.filter_cons_of_pos hq, List.map_cons, List.map_cons,
        List.sum_cons, List.sum_cons]
      exact add_le_add hle hrest
    · rw [List.filter_cons_of_neg hp]
      by_cases hq : q e
      · rw [List.filter_cons_of_pos hq, List.map_cons, List.sum_cons]
        exact le_add_of_nonneg_of_le (h0 e List.mem_cons_self) hrest
      · rw [List.filter_cons_of_neg hq]
        exact hrest

variable [Preorder τ]

/-- What lies between two instants of one period is in that period. -/
def Convex (period : τ → κ) : Prop :=
  ∀ {t u v}, t ≤ u → u ≤ v → period t = period v → period u = period t

/-- The kept key and total are those of the period of `t`, and no event is later than `t`. -/
structure Holds (period : τ → κ) (time : ε → τ) (amount : ε → M) (key : Option κ) (sum : M)
    (t : τ) (events : List ε) : Prop where
  key : key = some (period t)
  sum : sum = total period time amount t events
  past : ∀ e ∈ events, time e ≤ t

/-- The kept key and total were right when the clock was last read, if it ever was. -/
def Accumulates (period : τ → κ) (time : ε → τ) (amount : ε → M) (key : Option κ) (sum : M)
    (clock : τ) (events : List ε) : Prop :=
  key = none ∧ events = [] ∨ ∃ t ≤ clock, Holds period time amount key sum t events

theorem Holds.accumulates (h : Holds period time amount key sum t events) :
    Accumulates period time amount key sum t events := .inr ⟨t, le_rfl, h⟩

/-- Reading the clock carries the total over within a period and clears it in a new one. -/
theorem Accumulates.roll (hp : Convex period)
    (h : Accumulates period time amount key sum clock events) (hle : clock ≤ now) :
    Holds period time amount (some (period now)) (if key = some (period now) then sum else 0) now
      events where
  key := rfl
  sum := by
    rcases h with ⟨rfl, rfl⟩ | ⟨t, ht, h⟩
    · simp [total]
    · rw [h.key]
      by_cases heq : period t = period now
      · rw [if_pos (by rw [heq]), h.sum, total_congr heq]
      · rw [if_neg (fun hk => heq (Option.some.inj hk))]
        -- An event of the new period would put its own past, the old period, into it.
        have hnone : events.filter (fun e => period (time e) = period now) = [] := by
          rw [List.filter_eq_nil_iff]
          intro e he
          rw [decide_eq_true_eq]
          intro hen
          exact heq ((hp (h.past e he) (ht.trans hle) hen).trans hen)
        rw [total, hnone]
        rfl
  past := by
    rcases h with ⟨-, rfl⟩ | ⟨t, ht, h⟩
    · simp
    · exact fun e he => (h.past e he).trans (ht.trans hle)

/-- An event without an amount is new. -/
theorem Holds.push (h : Holds period time amount key sum t events) (ht : time e ≤ t)
    (h0 : amount e = 0) : Holds period time amount key sum t (events ++ [e]) where
  key := h.key
  sum := by
    rw [total_append, total_singleton, h0, ite_self, add_zero]
    exact h.sum
  past := by
    intro x hx
    rcases List.mem_append.mp hx with hx | hx
    · exact h.past x hx
    · rwa [List.mem_singleton.mp hx]

/-- An event of the current period is new. -/
theorem Holds.snoc (h : Holds period time amount key sum t events) (ht : time e = t) :
    Holds period time amount key (sum + amount e) t (events ++ [e]) where
  key := h.key
  sum := by
    rw [total_append, total_singleton, ht, if_pos rfl, h.sum]
  past := by
    intro x hx
    rcases List.mem_append.mp hx with hx | hx
    · exact h.past x hx
    · rw [List.mem_singleton.mp hx]
      exact ht.le

/-- An event that had no amount gets one, which counts if the event is of the kept period. -/
theorem Holds.charge (h : Holds period time amount key sum t (l₁ ++ e :: l₂)) (e' : ε)
    (ht : time e' = time e) (h0 : amount e = 0) :
    Holds period time amount key (if key = some (period (time e)) then sum + amount e' else sum) t
      (l₁ ++ e' :: l₂) where
  key := h.key
  sum := by
    have hsplit : ∀ x : ε, total period time amount t (l₁ ++ x :: l₂) =
        total period time amount t l₁ + (total period time amount t [x] +
          total period time amount t l₂) := by
      intro x
      rw [← List.singleton_append, total_append, total_append]
    have hsum := h.sum
    rw [hsplit, total_singleton, h0, ite_self, zero_add] at hsum
    rw [hsplit, total_singleton, ht, h.key]
    by_cases heq : period (time e) = period t
    · rw [if_pos heq, if_pos (by rw [heq]), hsum]
      rw [add_assoc, add_comm _ (amount e')]
    · rw [if_neg heq, if_neg (fun hk => heq (Option.some.inj hk).symm), hsum, zero_add]
  past := by
    intro x hx
    rw [List.mem_append, List.mem_cons] at hx
    rcases hx with hx | rfl | hx
    · exact h.past x (List.mem_append_left _ hx)
    · rw [ht]
      exact h.past e (by simp)
    · exact h.past x (by simp [hx])

/-- An event that keeps having no amount changes nothing. -/
theorem Accumulates.blank (h : Accumulates period time amount key sum clock (l₁ ++ e :: l₂))
    {e' : ε} (ht : time e' = time e) (h0 : amount e = 0) (h0' : amount e' = 0) :
    Accumulates period time amount key sum clock (l₁ ++ e' :: l₂) := by
  rcases h with ⟨-, hnil⟩ | ⟨t, hle, h⟩
  · simp at hnil
  · refine .inr ⟨t, hle, ?_⟩
    simpa only [h0', add_zero, ite_self] using h.charge e' ht h0

end PeriodTotal
