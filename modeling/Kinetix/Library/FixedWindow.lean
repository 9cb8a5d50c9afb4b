import Mathlib.Data.List.Count
import Mathlib.Order.Nat
import Mathlib.Tactic.Common

/-!
# Counting in fixed windows

A counter counts what happens in a window that begins with its first hit. A hit that comes a
window's length later, or finds no counter, begins another window. At most so many hits of each
window are admitted, so at most twice as many are in any interval of the length of a window: it
meets no more than two of them. A counter that has not been hit for the length of a window may be
dropped: the next hit begins a window in any case.
-/

namespace FixedWindow

structure Hit where
  time : Nat
  /-- When the window that the hit falls into began. -/
  started : Nat
  admitted : Bool

structure Counter where
  started : Nat
  count : Nat

variable {window limit now clock a s : Nat} {c c' : Counter} {c? : Option Counter} {h : List Hit}

/-- The counter after a hit. -/
def Counter.hit (window now : Nat) (c? : Option Counter) : Counter :=
  match c? with
  | some c => if window ≤ now - c.started then ⟨now, 1⟩ else ⟨c.started, c.count + 1⟩
  | none => ⟨now, 1⟩

/-- What a hit is remembered as. -/
def Counter.answer (limit now : Nat) (c : Counter) : Hit where
  time := now
  started := c.started
  admitted := c.count ≤ limit

/-- The hits that were admitted in the window that began at an instant. -/
def admittedIn (s : Nat) (h : List Hit) : Nat := h.countP fun x => x.started == s && x.admitted

/-- Two windows are one, or the earlier one has ended when the later one begins. -/
def Apart (window s t : Nat) : Prop := s = t ∨ s + window ≤ t ∨ t + window ≤ s

/-- Each hit is in its window, and the windows are apart. -/
structure Windowed (window : Nat) (h : List Hit) : Prop where
  inside : ∀ x ∈ h, x.started ≤ x.time ∧ x.time < x.started + window
  apart : ∀ x ∈ h, ∀ y ∈ h, Apart window x.started y.started

/-! ## Intervals -/

/-- Of three windows that an interval of their length meets, two are the same. -/
theorem eq_of_meets {t u : Nat} (hst : Apart window s t) (hsu : Apart window s u)
    (htu : Apart window t u) (hs : a < s + window ∧ s ≤ a + window)
    (ht : a < t + window ∧ t ≤ a + window) (hu : a < u + window ∧ u ≤ a + window) (hne : s ≠ t) :
    u = s ∨ u = t := by
  unfold Apart at *
  omega

theorem countP_le_add {p q r : Hit → Bool} (hp : ∀ x ∈ h, p x → q x ∨ r x) :
    h.countP p ≤ h.countP q + h.countP r := by
  induction h with
  | nil => simp
  | cons x h ih =>
    have htail := ih fun y hy => hp y (List.mem_cons_of_mem x hy)
    have hx := hp x List.mem_cons_self
    simp only [List.countP_cons]
    cases hpx : p x <;> cases hqx : q x <;> cases hrx : r x <;> simp_all <;> omega

/-- An interval of the length of a window meets at most two windows. -/
theorem two_windows (hw : Windowed window h) (a : Nat) :
    ∃ s t, ∀ x ∈ h, a ≤ x.time → x.time ≤ a + window → x.started = s ∨ x.started = t := by
  have hmeets : ∀ x ∈ h, a ≤ x.time → x.time ≤ a + window →
      a < x.started + window ∧ x.started ≤ a + window := by
    intro x hx hfrom hto
    obtain ⟨hle, hlt⟩ := hw.inside x hx
    omega
  by_cases hfirst : ∃ x ∈ h, a ≤ x.time ∧ x.time ≤ a + window
  swap
  · exact ⟨a, a, fun x hx hfrom hto => absurd ⟨x, hx, hfrom, hto⟩ hfirst⟩
  obtain ⟨x, hx, hxfrom, hxto⟩ := hfirst
  by_cases hsecond : ∃ y ∈ h, (a ≤ y.time ∧ y.time ≤ a + window) ∧ x.started ≠ y.started
  swap
  · refine ⟨x.started, x.started, fun y hy hfrom hto => .inl ?_⟩
    by_contra hne
    exact hsecond ⟨y, hy, ⟨hfrom, hto⟩, Ne.symm hne⟩
  obtain ⟨y, hy, ⟨hyfrom, hyto⟩, hne⟩ := hsecond
  exact ⟨x.started, y.started, fun z hz hfrom hto =>
    eq_of_meets (hw.apart x hx y hy) (hw.apart x hx z hz) (hw.apart y hy z hz)
      (hmeets x hx hxfrom hxto) (hmeets y hy hyfrom hyto) (hmeets z hz hfrom hto) hne⟩

/-- At most twice as many hits are admitted in an interval as in a window. -/
theorem countP_interval_le (hw : Windowed window h) (hl : ∀ s, admittedIn s h ≤ limit) (a : Nat) :
    (h.countP fun x => decide (a ≤ x.time ∧ x.time ≤ a + window) && x.admitted) ≤ 2 * limit := by
  obtain ⟨s, t, hst⟩ := two_windows hw a
  have hle : (h.countP fun x => decide (a ≤ x.time ∧ x.time ≤ a + window) && x.admitted) ≤
      admittedIn s h + admittedIn t h := by
    refine countP_le_add fun x hx hp => ?_
    simp only [Bool.and_eq_true, decide_eq_true_eq, beq_iff_eq] at hp ⊢
    rcases hst x hx hp.1.1 hp.1.2 with heq | heq
    · exact .inl ⟨heq, hp.2⟩
    · exact .inr ⟨heq, hp.2⟩
  have hs := hl s
  have ht := hl t
  omega

/-! ## A counter and the hits so far -/

/-- The counter is behind the hits so far: it holds those of the last window, and without a counter
the last window has ended. -/
structure Tracks (window limit clock : Nat) (c? : Option Counter) (h : List Hit) : Prop where
  windowed : Windowed window h
  past : ∀ x ∈ h, x.time ≤ clock
  limited : ∀ s, admittedIn s h ≤ limit
  counter : ∀ c, c? = some c → c.started ≤ clock ∧ admittedIn c.started h ≤ c.count ∧
    ∀ x ∈ h, x.started = c.started ∨ x.started + window ≤ c.started
  ended : c? = none → ∀ x ∈ h, x.started + window ≤ clock

theorem tracks_nil (window limit clock : Nat) : Tracks window limit clock none [] where
  windowed := by constructor <;> simp
  past := by simp
  limited := by simp [admittedIn]
  counter := by simp
  ended := by simp

theorem Tracks.later (T : Tracks window limit clock c? h) (hle : clock ≤ now) :
    Tracks window limit now c? h where
  windowed := T.windowed
  past := fun x hx => (T.past x hx).trans hle
  limited := T.limited
  counter := fun c hc => ⟨(T.counter c hc).1.trans hle, (T.counter c hc).2⟩
  ended := fun hc x hx => (T.ended hc x hx).trans hle

/-- A counter whose window has ended may be dropped. -/
theorem Tracks.drop (T : Tracks window limit clock (some c) h)
    (hended : c.started + window ≤ clock) : Tracks window limit clock none h where
  windowed := T.windowed
  past := T.past
  limited := T.limited
  counter := fun c hc => (Option.some_ne_none c hc.symm).elim
  ended := by
    intro _ x hx
    have hx := (T.counter c rfl).2.2 x hx
    omega

theorem admittedIn_snoc (s : Nat) (h : List Hit) (x : Hit) :
    admittedIn s (h ++ [x]) = admittedIn s h + if x.started = s ∧ x.admitted then 1 else 0 := by
  simp [admittedIn, List.countP_append, List.countP_cons]

/-- A counter that has counted a hit of its window is behind the hits with that one. -/
theorem Tracks.snoc (T : Tracks window limit clock c? h)
    (hstarted : c.started ≤ clock ∧ clock < c.started + window)
    (hcount : admittedIn c.started h + 1 ≤ c.count)
    (hold : ∀ x ∈ h, x.started = c.started ∨ x.started + window ≤ c.started) :
    Tracks window limit clock (some c) (h ++ [c.answer limit clock]) where
  windowed := by
    constructor
    · intro x hx
      rcases List.mem_append.mp hx with hx | hx
      · exact T.windowed.inside x hx
      · obtain rfl := List.mem_singleton.mp hx
        exact hstarted
    · intro x hx y hy
      rcases List.mem_append.mp hx with hx | hx <;> rcases List.mem_append.mp hy with hy | hy
      · exact T.windowed.apart x hx y hy
      · obtain rfl := List.mem_singleton.mp hy
        exact (hold x hx).imp id .inl
      · obtain rfl := List.mem_singleton.mp hx
        exact (hold y hy).imp Eq.symm .inr
      · obtain rfl := List.mem_singleton.mp hx
        obtain rfl := List.mem_singleton.mp hy
        exact .inl rfl
  past := by
    intro x hx
    rcases List.mem_append.mp hx with hx | hx
    · exact T.past x hx
    · obtain rfl := List.mem_singleton.mp hx
      exact le_rfl
  limited := by
    intro s
    rw [admittedIn_snoc]
    split
    · rename_i hnew
      obtain ⟨rfl, hadmitted⟩ := hnew
      have hle : c.count ≤ limit := by simpa [Counter.answer] using hadmitted
      exact hcount.trans hle
    · exact T.limited s
  counter := by
    intro c' hc'
    obtain rfl := Option.some.inj hc'
    refine ⟨hstarted.1, ?_, ?_⟩
    · rw [admittedIn_snoc]
      split
      · exact hcount
      · omega
    · intro x hx
      rcases List.mem_append.mp hx with hx | hx
      · exact hold x hx
      · obtain rfl := List.mem_singleton.mp hx
        exact .inl rfl
  ended := fun hc => (Option.some_ne_none c hc).elim

/-- A hit begins a window when the last one has ended. -/
theorem Tracks.hit_none (T : Tracks window limit clock none h) (hwindow : 0 < window) :
    Tracks window limit clock (some ⟨clock, 1⟩)
      (h ++ [Counter.answer limit clock ⟨clock, 1⟩]) := by
  have hended := T.ended rfl
  have hnone : admittedIn clock h = 0 := by
    rw [admittedIn, List.countP_eq_zero]
    intro x hx hadmitted
    have hx := hended x hx
    simp only [Bool.and_eq_true, beq_iff_eq] at hadmitted
    omega
  exact T.snoc ⟨le_rfl, Nat.lt_add_of_pos_right hwindow⟩ (by simp [hnone])
    fun x hx => .inr (hended x hx)

/-- After a hit the counter is behind the hits with that one. -/
theorem Tracks.hit (T : Tracks window limit clock c? h) (hwindow : 0 < window) :
    Tracks window limit clock (some (Counter.hit window clock c?))
      (h ++ [(Counter.hit window clock c?).answer limit clock]) := by
  cases c? with
  | none => exact T.hit_none hwindow
  | some c =>
    obtain ⟨hstarted, hcount, hold⟩ := T.counter c rfl
    by_cases hended : window ≤ clock - c.started
    · simp only [Counter.hit, hended, if_true]
      exact (T.drop (by omega)).hit_none hwindow
    · simp only [Counter.hit, hended, if_false]
      have hrunning : clock < c.started + window := by omega
      exact T.snoc ⟨hstarted, hrunning⟩ (Nat.add_le_add_right hcount 1) hold

end FixedWindow
