import Mathlib.Data.List.Basic
import Mathlib.Data.Option.Basic
import Mathlib.Data.Set.Card
import Mathlib.Logic.Function.Basic

/-!
# Tasks and what they hold

Tasks are started at the end of a list and each keeps its index; a step of one task replaces it. A
map from names to optional values is a set of slots of which some are in use. Each lock names the
task that holds it, and each task the lock that it holds: while the two agree, no two tasks hold the
same lock. Tickets are numbered in order, and a register keeps those that are out, or a counter in
its place.
-/

namespace TaskList

universe u
variable {τ : Type u} {tasks : List τ} {i j : ℕ} {task next : τ}

/-- A task after one was replaced is the new one, or was there before under another index. -/
theorem of_set (h : (tasks.set i next)[j]? = some task) :
    (i = j ∧ task = next) ∨ (i ≠ j ∧ tasks[j]? = some task) := by
  rw [List.getElem?_set] at h
  split at h
  · split at h
    · exact Or.inl ⟨‹_›, (Option.some.inj h).symm⟩
    · cases h
  · exact Or.inr ⟨‹_›, h⟩

/-- A task after one was started is the new one or was there before. -/
theorem of_start (h : (tasks ++ [next])[j]? = some task) :
    (j = tasks.length ∧ task = next) ∨ tasks[j]? = some task := by
  rcases Nat.lt_or_ge j tasks.length with hj | hj
  · rw [List.getElem?_append_left hj] at h
    exact Or.inr h
  · rw [List.getElem?_append_right hj, List.getElem?_singleton] at h
    split at h
    · exact Or.inl ⟨by omega, (Option.some.inj h).symm⟩
    · cases h

/-- A task that is not the new one was there before. -/
theorem of_set_of_ne (h : (tasks.set i next)[j]? = some task) (hne : task ≠ next) :
    i ≠ j ∧ tasks[j]? = some task :=
  (of_set h).resolve_left fun hnew => hne hnew.2

theorem of_start_of_ne (h : (tasks ++ [next])[j]? = some task) (hne : task ≠ next) :
    tasks[j]? = some task :=
  (of_start h).resolve_left fun hnew => hne hnew.2

theorem getElem?_set_same (h : tasks[i]? = some task) : (tasks.set i next)[i]? = some next :=
  List.getElem?_set_self (List.getElem?_eq_some_iff.mp h).1

/-- How many tasks satisfy a condition after one was replaced. -/
theorem countP_set (next : τ) (p : τ → Bool) (h : tasks[i]? = some task) :
    (tasks.set i next).countP p + (if p task then 1 else 0) =
      tasks.countP p + if p next then 1 else 0 := by
  induction tasks generalizing i with
  | nil => cases h
  | cons first tasks ih =>
    cases i with
    | zero =>
      cases h
      simp only [List.set_cons_zero, List.countP_cons]
      omega
    | succ i =>
      have hrest := ih (i := i) h
      simp only [List.set_cons_succ, List.countP_cons]
      omega

end TaskList

namespace Slots

universe u v
variable {κ : Type u} {ν : Type v} [DecidableEq κ] {f : κ → Option ν} {k k' : κ}
  {o : Option ν} {v : ν}

/-- A slot in use after an update is the updated one or was in use before. -/
theorem update_eq_some :
    Function.update f k o k' = some v ↔ k' = k ∧ o = some v ∨ k' ≠ k ∧ f k' = some v := by
  by_cases h : k' = k
  · subst h
    simp
  · simp [h]

/-- A slot other than the one that was emptied keeps its value. -/
theorem update_of_slot_ne {w : ν} (hf : f k = some w) (hv : f k' = some v) (hne : w ≠ v) :
    Function.update f k o k' = some v := by
  rw [Function.update_of_ne]
  · exact hv
  · rintro rfl
    exact hne (Option.some.inj (hf.symm.trans hv))

end Slots

namespace Locks

universe u v
variable {ι : Type u} {κ : Type v} {holder : κ → Option ι} {held : ι → Option κ} {i j : ι} {k : κ}

/-- A task holds a lock if and only if the lock names it. -/
def Agree (holder : κ → Option ι) (held : ι → Option κ) : Prop :=
  ∀ i k, held i = some k ↔ holder k = some i

namespace Agree

theorem exclusive (A : Agree holder held) (hi : held i = some k) (hj : held j = some k) : i = j :=
  Option.some.inj (((A i k).mp hi).symm.trans ((A j k).mp hj))

section
variable [DecidableEq ι] [DecidableEq κ]

/-- A task that holds none takes a lock that is free. -/
theorem acquire (A : Agree holder held) (hk : holder k = none) (hi : held i = none) :
    Agree (Function.update holder k (some i)) (Function.update held i (some k)) := by
  intro j l
  by_cases hj : j = i <;> by_cases hl : l = k
  · simp [hj, hl]
  · subst hj
    have hne : holder l ≠ some j := fun h => by simp [(A j l).mpr h] at hi
    simp [hl, hne, Ne.symm hl]
  · subst hl
    have hne : held j ≠ some l := fun h => by simp [(A j l).mp h] at hk
    simp [hj, hne, Ne.symm hj]
  · rw [Function.update_of_ne hj, Function.update_of_ne hl]
    exact A j l

/-- A task gives its lock back. -/
theorem release (A : Agree holder held) (hi : held i = some k) :
    Agree (Function.update holder k none) (Function.update held i none) := by
  intro j l
  have hk := (A i k).mp hi
  by_cases hj : j = i <;> by_cases hl : l = k
  · simp [hj, hl]
  · subst hj
    have hne : holder l ≠ some j := fun h =>
      hl (Option.some.inj (((A j l).mpr h).symm.trans hi))
    simp [hl, hne]
  · subst hl
    have hne : held j ≠ some l := fun h =>
      hj (Option.some.inj (((A j l).mp h).symm.trans hk))
    simp [hj, hne]
  · rw [Function.update_of_ne hj, Function.update_of_ne hl]
    exact A j l

end

end Agree
end Locks

namespace Tickets

universe u v
variable {ι : Type u} {f : ι → ℕ} {K : Set ℕ} {last : ℕ} {i : ι}

/-- The register holds exactly the tickets that are out, no two names have the same ticket, and no
ticket has a number above the last one given. -/
structure Registered (last : ℕ) (f : ι → ℕ) (K : Set ℕ) : Prop where
  le : ∀ i, f i ≤ last
  mem_iff : ∀ k, k ∈ K ↔ k ≠ 0 ∧ ∃ i, f i = k
  inj : ∀ i j, f i = f j → f i ≠ 0 → i = j

theorem Registered.start : Registered 0 (fun _ : ι => 0) ∅ where
  le _ := le_rfl
  mem_iff k := by
    simp only [Set.mem_empty_iff_false, false_iff, not_and, not_exists]
    intro hk i
    exact hk.symm
  inj _ _ _ h := absurd rfl h

variable [DecidableEq ι]

/-- A name without a ticket is given the next one. -/
theorem Registered.issue (h : Registered last f K) (hi : f i = 0) :
    Registered (last + 1) (Function.update f i (last + 1)) (insert (last + 1) K) where
  le j := by
    by_cases hj : j = i
    · simp [hj]
    · simpa [hj] using (h.le j).trans (Nat.le_succ last)
  mem_iff k := by
    rw [Set.mem_insert_iff, h.mem_iff]
    constructor
    · rintro (rfl | ⟨hk, j, rfl⟩)
      · exact ⟨Nat.succ_ne_zero _, i, Function.update_self ..⟩
      · have hj : j ≠ i := by
          rintro rfl
          exact hk hi
        exact ⟨hk, j, Function.update_of_ne hj ..⟩
    · rintro ⟨hk, j, rfl⟩
      by_cases hj : j = i
      · left
        rw [hj, Function.update_self]
      · right
        rw [Function.update_of_ne hj] at hk ⊢
        exact ⟨hk, j, rfl⟩
  inj j k := by
    have hlt : ∀ j, f j ≠ last + 1 := fun j => Nat.ne_of_lt (Nat.lt_succ_of_le (h.le j))
    by_cases hj : j = i
    · by_cases hk : k = i
      · intro _ _
        exact hj.trans hk.symm
      · rw [hj, Function.update_self, Function.update_of_ne hk]
        intro he
        exact absurd he.symm (hlt k)
    · by_cases hk : k = i
      · rw [hk, Function.update_self, Function.update_of_ne hj]
        intro he
        exact absurd he (hlt j)
      · rw [Function.update_of_ne hj, Function.update_of_ne hk]
        exact h.inj j k

/-- A name hands its ticket in, if it has one. -/
theorem Registered.retire (h : Registered last f K) :
    Registered last (Function.update f i 0) (K \ {f i}) where
  le j := by
    by_cases hj : j = i
    · simp [hj]
    · simpa [hj] using h.le j
  mem_iff k := by
    rw [Set.mem_sdiff, Set.mem_singleton_iff, h.mem_iff]
    constructor
    · rintro ⟨⟨hk, j, rfl⟩, hne⟩
      have hj : j ≠ i := by
        rintro rfl
        exact hne rfl
      exact ⟨hk, j, Function.update_of_ne hj ..⟩
    · rintro ⟨hk, j, rfl⟩
      have hj : j ≠ i := by
        rintro rfl
        exact hk (Function.update_self ..)
      rw [Function.update_of_ne hj] at hk ⊢
      exact ⟨⟨hk, j, rfl⟩, fun he => hj (h.inj j i he hk)⟩
  inj j k := by
    by_cases hj : j = i
    · intro _ hne
      exact absurd (by rw [hj, Function.update_self]) hne
    · by_cases hk : k = i
      · intro he hne
        rw [hk, Function.update_self] at he
        exact absurd he hne
      · rw [Function.update_of_ne hj, Function.update_of_ne hk]
        exact h.inj j k

/-! ## Counting -/

section
variable {α : Type v} {g : ι → α} {v w : α}

/-- One more name has a value. -/
theorem encard_update_self (hi : g i ≠ v) :
    {j | Function.update g i v j = v}.encard = {j | g j = v}.encard + 1 := by
  rw [← Set.encard_insert_of_notMem (a := i) hi]
  congr 1
  ext j
  by_cases hj : j = i
  · simp [hj]
  · simp [hj]

/-- One name less has a value. -/
theorem encard_update_of_ne (hi : g i = v) (hw : w ≠ v) :
    {j | Function.update g i w j = v}.encard + 1 = {j | g j = v}.encard := by
  rw [← encard_update_self (g := Function.update g i w) (by rwa [Function.update_self]),
    Function.update_idem, Function.update_eq_self_iff.mpr hi.symm]

end
end Tickets
