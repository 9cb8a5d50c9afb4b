import Mathlib.Data.Finset.Insert
import Mathlib.Data.Finset.Erase
import Mathlib.Data.List.Nodup
import Mathlib.Tactic

/-!
# Edge-triggered signals

Conditions are tested one after the other. The test of a condition that begins to hold raises a
signal under its key, and one that ceases to hold clears it. The signals of a key alternate, and a
round of tests leaves just the tested keys active whose condition holds, with the active ones that
were not tested.
-/

namespace EdgeTrigger

universe u
variable {κ : Type u} [DecidableEq κ]

/-- A signal is raised or cleared under its key. -/
inductive Signal (κ : Type u)
  | raised (key : κ)
  | cleared (key : κ)
  deriving DecidableEq, Repr

namespace Signal

def key : Signal κ → κ
  | raised key => key
  | cleared key => key

def isRaised : Signal κ → Bool
  | raised _ => true
  | cleared _ => false

end Signal

/-- The test of one condition. -/
def test (key : κ) (holds : Bool) (active : Finset κ) : Finset κ × List (Signal κ) :=
  if holds then
    if key ∈ active then (active, []) else (insert key active, [.raised key])
  else if key ∈ active then (active.erase key, [.cleared key])
  else (active, [])

variable {key k : κ} {holds : Bool} {active : Finset κ} {signals : List (Signal κ)}

/-- A test decides its own key and leaves the others. -/
theorem mem_test :
    k ∈ (test key holds active).1 ↔ if k = key then holds = true else k ∈ active := by
  rw [test]
  by_cases hk : k = key
  · subst hk
    cases holds <;> by_cases hmem : k ∈ active <;> simp [hmem]
  · cases holds <;> by_cases hmem : key ∈ active <;> simp [hmem, hk]

/-- A round of tests, each of the state in which it is taken. -/
def round (tests : List (κ × Bool)) (active : Finset κ) : Finset κ × List (Signal κ) :=
  match tests with
  | [] => (active, [])
  | (key, holds) :: tests =>
    let (active, signals) := test key holds active
    let (active, later) := round tests active
    (active, signals ++ later)

/-- After a round of tests of different keys. -/
theorem mem_round {tests : List (κ × Bool)} (h : (tests.map Prod.fst).Nodup) :
    k ∈ (round tests active).1 ↔
      (k, true) ∈ tests ∨ k ∉ tests.map Prod.fst ∧ k ∈ active := by
  induction tests generalizing active with
  | nil => simp [round]
  | cons t tests ih =>
    obtain ⟨key, holds⟩ := t
    obtain ⟨hnew, htail⟩ := List.nodup_cons.mp (List.map_cons ▸ h)
    rw [round, ih htail, mem_test]
    by_cases hk : k = key
    · subst hk
      have hnot : (k, true) ∉ tests := fun hmem => hnew (List.mem_map.mpr ⟨_, hmem, rfl⟩)
      cases holds <;> simp [hnot, hnew]
    · simp [hk]

/-- The signals of a key, by whether they are raised. -/
def signalsOf (k : κ) (signals : List (Signal κ)) : List Bool :=
  (signals.filter fun s => s.key = k).map Signal.isRaised

/-- Raised, cleared, raised, and so on. -/
def Alternates (raised : List Bool) : Prop :=
  ∀ i (h : i < raised.length), raised[i] = decide (i % 2 = 0)

theorem Alternates.concat {raised : List Bool} (h : Alternates raised) :
    Alternates (raised ++ [decide (raised.length % 2 = 0)]) := by
  intro i hi
  rw [List.getElem_append]
  split
  next hlt => exact h i hlt
  next hge =>
    rw [List.length_append, List.length_singleton] at hi
    have hlast : i = raised.length := by omega
    simp [hlast]

/-- The signals of each key alternate, and the last one tells whether it is active. -/
def Tracks (active : Finset κ) (signals : List (Signal κ)) : Prop :=
  ∀ k, Alternates (signalsOf k signals) ∧ (k ∈ active ↔ (signalsOf k signals).length % 2 = 1)

theorem tracks_nil : Tracks (∅ : Finset κ) [] := by
  intro k
  refine ⟨fun i hi => absurd hi (Nat.not_lt_zero i), ?_⟩
  simp [signalsOf]

theorem Tracks.signal (h : Tracks active signals) (s : Signal κ) (active' : Finset κ)
    (hs : s.isRaised = true ↔ s.key ∉ active) (hown : s.key ∈ active' ↔ s.isRaised = true)
    (hothers : ∀ k, k ≠ s.key → (k ∈ active' ↔ k ∈ active)) :
    Tracks active' (signals ++ [s]) := by
  intro k
  obtain ⟨halternates, hactive⟩ := h k
  rw [signalsOf, List.filter_append, List.map_append, List.filter_singleton]
  by_cases hk : k = s.key
  · subst hk
    have hraised : s.isRaised = decide ((signalsOf s.key signals).length % 2 = 0) := by
      rw [Bool.eq_iff_iff, hs, hactive, decide_eq_true_iff]
      omega
    rw [decide_eq_true rfl, cond_true, List.map_singleton, hraised]
    refine ⟨halternates.concat, ?_⟩
    rw [hown, hraised, List.length_append, List.length_singleton, decide_eq_true_iff]
    change _ ↔ ((signalsOf s.key signals).length + 1) % 2 = 1
    omega
  · rw [decide_eq_false (Ne.symm hk), cond_false, List.map_nil, List.append_nil, hothers k hk]
    exact ⟨halternates, hactive⟩

theorem Tracks.test (h : Tracks active signals) (key : κ) (holds : Bool) :
    Tracks (test key holds active).1 (signals ++ (test key holds active).2) := by
  rw [EdgeTrigger.test]
  cases holds with
  | true =>
    by_cases hmem : key ∈ active
    · simpa [hmem] using h
    · rw [if_pos rfl, if_neg hmem]
      refine h.signal (.raised key) _ (iff_of_true rfl hmem) (iff_of_true ?_ rfl) ?_
      · exact Finset.mem_insert_self key active
      · exact fun k hk => Finset.mem_insert.trans (or_iff_right hk)
  | false =>
    by_cases hmem : key ∈ active
    · rw [if_neg Bool.false_ne_true, if_pos hmem]
      refine h.signal (.cleared key) _ (iff_of_false Bool.false_ne_true (not_not_intro hmem))
        (iff_of_false ?_ Bool.false_ne_true) ?_
      · exact Finset.notMem_erase key active
      · exact fun k hk => Finset.mem_erase.trans (and_iff_right hk)
    · simpa [hmem] using h

theorem Tracks.round (h : Tracks active signals) (tests : List (κ × Bool)) :
    Tracks (round tests active).1 (signals ++ (round tests active).2) := by
  induction tests generalizing active signals with
  | nil => simpa [EdgeTrigger.round] using h
  | cons t tests ih =>
    obtain ⟨key, holds⟩ := t
    rw [EdgeTrigger.round, ← List.append_assoc]
    exact ih (h.test key holds)

end EdgeTrigger
