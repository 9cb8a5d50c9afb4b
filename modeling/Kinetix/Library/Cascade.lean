import Mathlib.Data.List.Perm.Basic
import Mathlib.Data.List.Forall2
import Mathlib.Tactic.Common

/-!
# Cascades of lookups

A lookup takes the first of its candidates and asks what it gives; if that is nothing, or there is
no candidate, the next lookup is tried. Where the candidates come in an order that nobody chose, the
result is fixed exactly if each candidate of a lookup gives the result or nothing, as long as some
order gets that far.
-/

namespace Cascade

universe u v

variable {α : Type u} {β : Type v} {r : Option β} {l l' : List (Option β)}
  {lookups lookups' : List (List (Option β))}

/-- What the first candidate gives. -/
def first (l : List (Option β)) : Option β := l.head?.join

/-- The result of the lookups, each given by what its candidates give. -/
def cascade : List (List (Option β)) → Option β
  | [] => none
  | l :: lookups => (first l).or (cascade lookups)

/-- A lookup gives nothing in some order of its candidates. -/
def Passes (l : List (Option β)) : Prop := l = [] ∨ none ∈ l

/-- Each candidate gives the result or nothing; where it can be nothing, so do the lookups that
follow. -/
def Yields : List (List (Option β)) → Option β → Prop
  | [], r => r = none
  | l :: lookups, r => (∀ b, some b ∈ l → r = some b) ∧ (Passes l → Yields lookups r)

theorem first_eq_some {b : β} (h : first l = some b) : some b ∈ l := by
  have hhead : l.head? = some (some b) := Option.join_eq_some_iff.mp h
  exact List.mem_of_mem_head? hhead

theorem passes_of_first_eq_none (h : first l = none) : Passes l := by
  cases l with
  | nil => exact .inl rfl
  | cons o l =>
    obtain rfl : o = none := by simpa [first] using h
    exact .inr List.mem_cons_self

theorem cascade_eq_of_yields (h : Yields lookups r) : cascade lookups = r := by
  induction lookups with
  | nil => exact h.symm
  | cons l lookups ih =>
    rw [cascade]
    cases hfirst : first l with
    | some b => exact (h.1 b (first_eq_some hfirst)).symm
    | none => exact ih (h.2 (passes_of_first_eq_none hfirst))

theorem passes_perm (h : l.Perm l') : Passes l ↔ Passes l' := by
  rw [Passes, Passes, h.mem_iff]
  exact or_congr ⟨fun hl => (hl ▸ h).nil_eq.symm, fun hl => (hl ▸ h).eq_nil⟩ Iff.rfl

theorem yields_perm (h : List.Forall₂ List.Perm lookups lookups') :
    Yields lookups r ↔ Yields lookups' r := by
  induction h with
  | nil => exact Iff.rfl
  | cons hl _ ih =>
    refine and_congr (forall_congr' fun b => ?_) (imp_congr (passes_perm hl) ih)
    rw [hl.mem_iff]

/-- A candidate can be brought to the front of its lookup. -/
theorem exists_perm_first {o : Option β} (h : o ∈ l) :
    ∃ l' : List (Option β), l.Perm l' ∧ first l' = o := by
  obtain ⟨before, after, rfl⟩ := List.append_of_mem h
  exact ⟨o :: (before ++ after), List.perm_middle, rfl⟩

theorem exists_perm_none (h : Passes l) : ∃ l' : List (Option β), l.Perm l' ∧ first l' = none := by
  rcases h with rfl | hnone
  · exact ⟨[], .refl [], rfl⟩
  · exact exists_perm_first hnone

/-- The result is the same in every order of the candidates exactly if the candidates yield it. -/
theorem yields_iff :
    Yields lookups r ↔
      ∀ lookups', List.Forall₂ List.Perm lookups lookups' → cascade lookups' = r := by
  constructor
  · intro h lookups' hperm
    exact cascade_eq_of_yields ((yields_perm hperm).mp h)
  · intro h
    induction lookups with
    | nil => exact (h [] .nil).symm
    | cons l lookups ih =>
      constructor
      · intro b hb
        obtain ⟨l', hl', hfirst⟩ := exists_perm_first hb
        have hresult := h (l' :: lookups) (.cons hl' (List.forall₂_same.mpr fun l _ => .refl l))
        rw [cascade, hfirst] at hresult
        exact hresult.symm
      · intro hpasses
        refine ih fun lookups' hperm => ?_
        obtain ⟨l', hl', hfirst⟩ := exists_perm_none hpasses
        have hresult := h (l' :: lookups') (.cons hl' hperm)
        rwa [cascade, hfirst, Option.none_or] at hresult

/-! ## Candidates of a list -/

/-- What a search gives is what its first match gives. -/
theorem find?_bind (p : α → Bool) (f : α → Option β) (as : List α) :
    (as.find? p).bind f = first ((as.filter p).map f) := by
  rw [first, List.head?_map, List.head?_filter]
  cases as.find? p <;> rfl

/-- Every order of what the elements give comes from an order of the elements. -/
theorem exists_perm_map {f : α → β} {bs : List β} {as : List α} (h : (as.map f).Perm bs) :
    ∃ as', as.Perm as' ∧ as'.map f = bs := by
  induction bs generalizing as with
  | nil =>
    obtain rfl := List.map_eq_nil_iff.mp h.eq_nil
    exact ⟨[], .refl [], rfl⟩
  | cons b bs ih =>
    obtain ⟨a, ha, rfl⟩ := List.mem_map.mp (h.mem_iff.mpr List.mem_cons_self)
    obtain ⟨before, after, rfl⟩ := List.append_of_mem ha
    rw [List.map_append, List.map_cons] at h
    have hrest : ((before ++ after).map f).Perm bs := by
      rw [List.map_append]
      exact (List.perm_middle.symm.trans h).cons_inv
    obtain ⟨as', hperm, rfl⟩ := ih hrest
    exact ⟨a :: as', List.perm_middle.trans (hperm.cons a), rfl⟩

/-- Every order of the matches comes from an order of the whole. -/
theorem exists_perm_filter {p : α → Bool} {as matches' : List α} (h : (as.filter p).Perm matches') :
    ∃ as', as.Perm as' ∧ as'.filter p = matches' := by
  refine ⟨matches' ++ as.filter fun a => !p a, ?_, ?_⟩
  · exact (List.filter_append_perm p as).symm.trans (h.append_right _)
  · have hall : matches'.filter p = matches' := by
      refine List.filter_eq_self.mpr fun a ha => ?_
      exact (List.mem_filter.mp (h.mem_iff.mpr ha)).2
    rw [List.filter_append, hall, List.filter_filter]
    simp

/-- Every order of what the matches give comes from an order of the whole. -/
theorem exists_perm_candidates {p : α → Bool} {f : α → β} {bs : List β} {as : List α}
    (h : ((as.filter p).map f).Perm bs) : ∃ as', as.Perm as' ∧ (as'.filter p).map f = bs := by
  obtain ⟨found, hfound, rfl⟩ := exists_perm_map h
  obtain ⟨as', hperm, rfl⟩ := exists_perm_filter hfound
  exact ⟨as', hperm, rfl⟩

end Cascade
