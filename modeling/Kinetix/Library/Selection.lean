import Mathlib.Data.List.Forall2

/-!
# Selections of a sequence

What is left of the outputs of a list if only some of its elements are kept, or two kinds of them
one after the other, and when that is all there was.
-/

namespace Selection
variable {α β γ : Type*}

section Lengths
variable {f g : α → List β} {l : List α}

theorem length_flatMap_le {f : α → List β} {g : α → List γ}
    (hle : ∀ a ∈ l, (f a).length ≤ (g a).length) :
    (l.flatMap f).length ≤ (l.flatMap g).length := by
  induction l with
  | nil => exact Nat.le_refl 0
  | cons a l ih =>
    obtain ⟨ha, hl⟩ := List.forall_mem_cons.mp hle
    rw [List.flatMap_cons, List.flatMap_cons, List.length_append, List.length_append]
    exact Nat.add_le_add ha (ih hl)

/-- Two lists of outputs, one of them nowhere longer, are equal only if they are so everywhere. -/
theorem flatMap_eq_flatMap_iff (hle : ∀ a ∈ l, (f a).length ≤ (g a).length) :
    l.flatMap f = l.flatMap g ↔ ∀ a ∈ l, f a = g a := by
  induction l with
  | nil => exact iff_of_true rfl fun a ha => (List.not_mem_nil ha).elim
  | cons a l ih =>
    obtain ⟨ha, hl⟩ := List.forall_mem_cons.mp hle
    rw [List.flatMap_cons, List.flatMap_cons, List.forall_mem_cons, ← ih hl]
    constructor
    · intro h
      have hrest := length_flatMap_le hl
      have hlength := congrArg List.length h
      rw [List.length_append, List.length_append] at hlength
      exact List.append_inj h (by omega)
    · rintro ⟨hhead, htail⟩
      rw [hhead, htail]

end Lengths

/-- The outputs of the elements that are kept. -/
def kept (keep : α → Bool) (f : α → List β) (l : List α) : List β := (l.filter keep).flatMap f

section Kept
variable {keep : α → Bool} {f : α → List β} {l : List α}

theorem kept_cons (keep : α → Bool) (f : α → List β) (a : α) (l : List α) :
    kept keep f (a :: l) = (if keep a then f a else []) ++ kept keep f l := by
  unfold kept
  by_cases h : keep a <;> simp [h]

theorem kept_eq_flatMap (keep : α → Bool) (f : α → List β) (l : List α) :
    kept keep f l = l.flatMap fun a => if keep a then f a else [] := by
  induction l with
  | nil => rfl
  | cons a l ih => rw [kept_cons, List.flatMap_cons, ih]

theorem length_ite_le (a : α) : (if keep a then f a else []).length ≤ (f a).length := by
  split
  · exact Nat.le_refl _
  · exact Nat.zero_le _

theorem length_kept_le : (kept keep f l).length ≤ (l.flatMap f).length := by
  rw [kept_eq_flatMap]
  exact length_flatMap_le fun a _ => length_ite_le a

theorem kept_eq_nil_iff : kept keep f l = [] ↔ ∀ a ∈ l, keep a → f a = [] := by
  simp [kept, List.flatMap_eq_nil_iff]

/-- All outputs are left exactly if the elements that are not kept had none. -/
theorem kept_eq_iff : kept keep f l = l.flatMap f ↔ ∀ a ∈ l, keep a ∨ f a = [] := by
  rw [kept_eq_flatMap, flatMap_eq_flatMap_iff fun a _ => length_ite_le a]
  refine forall₂_congr fun a _ => ?_
  by_cases ha : keep a
  · simp [ha]
  · rw [if_neg ha, eq_comm, or_iff_right ha]

end Kept

section Sorted
variable {p q : α → Bool} {f : α → List β} {kind : β → Bool} {l : List α}

theorem length_kept_append_le (hdisjoint : ∀ a, p a → q a = false) :
    (kept p f l ++ kept q f l).length ≤ (l.flatMap f).length := by
  induction l with
  | nil => exact Nat.le_refl 0
  | cons a l ih =>
    rw [List.length_append] at ih
    rw [kept_cons, kept_cons, List.flatMap_cons]
    simp only [List.length_append]
    have ha : (if p a then f a else []).length + (if q a then f a else []).length ≤
        (f a).length := by
      by_cases hpa : p a
      · simp [hpa, hdisjoint a hpa]
      · rw [if_neg hpa, List.length_nil, Nat.zero_add]
        exact length_ite_le a
    omega

/-- The outputs of two kinds, one after the other, are all outputs in their order exactly if the
other elements had none and no element of the second kind with outputs stands before one of the
first. -/
theorem kept_append_kept_iff (hdisjoint : ∀ a, p a → q a = false)
    (hp : ∀ a, p a → ∀ x ∈ f a, kind x) (hq : ∀ a, q a → ∀ x ∈ f a, kind x = false) :
    kept p f l ++ kept q f l = l.flatMap f ↔
      (∀ a ∈ l, p a ∨ q a ∨ f a = []) ∧
        l.Pairwise fun a b => q a → p b → f a = [] ∨ f b = [] := by
  induction l with
  | nil => simp [kept]
  | cons a l ih =>
    rw [kept_cons, kept_cons, List.flatMap_cons, List.forall_mem_cons, List.pairwise_cons]
    by_cases hpa : p a
    · have hqa := hdisjoint a hpa
      simp [hpa, hqa, ← ih]
    rw [if_neg hpa, List.nil_append]
    cases hfa : f a with
    | nil => simp [← ih]
    | cons x xs =>
      by_cases hqa : q a
      · rw [if_pos hqa]
        constructor
        · intro h
          -- What comes first is of the second kind, so nothing of the first kind is left.
          have hnil : kept p f l = [] := by
            cases hkept : kept p f l with
            | nil => rfl
            | cons y ys =>
              rw [hkept] at h
              obtain rfl : y = x := (List.cons.inj h).1
              have hmem : y ∈ kept p f l := by simp [hkept]
              obtain ⟨b, hb, hy⟩ := List.mem_flatMap.mp hmem
              have hfirst := hp b (List.of_mem_filter hb) y hy
              have hsecond := hq a hqa y (by simp [hfa])
              rw [hfirst] at hsecond
              cases hsecond
          rw [hnil, List.nil_append, List.append_cancel_left_eq] at h
          obtain ⟨hall, hsorted⟩ := ih.mp (by rw [hnil, List.nil_append, h])
          exact ⟨⟨.inr (.inl hqa), hall⟩,
            fun b hb _ hpb => .inr (kept_eq_nil_iff.mp hnil b hb hpb), hsorted⟩
        · rintro ⟨⟨-, hall⟩, hbefore, hsorted⟩
          have hnil : kept p f l = [] := kept_eq_nil_iff.mpr fun b hb hpb =>
            (hbefore b hb hqa hpb).resolve_left (by simp)
          have hrest := ih.mpr ⟨hall, hsorted⟩
          rw [hnil, List.nil_append] at hrest
          rw [hnil, List.nil_append, hrest]
      · rw [if_neg hqa, List.nil_append]
        refine iff_of_false (fun h => ?_) (by simp [hpa, hqa])
        have hle := length_kept_append_le (f := f) (l := l) hdisjoint
        rw [h, List.length_append, List.length_cons] at hle
        omega

/-- Two kinds of which every element has one leave all outputs, if not in their order. -/
theorem kept_append_kept_perm (keep : α → Bool) (f : α → List β) (l : List α) :
    (kept (fun a => !keep a) f l ++ kept keep f l).Perm (l.flatMap f) := by
  refine List.perm_append_comm.trans ?_
  unfold kept
  rw [← List.flatMap_append]
  exact (List.filter_append_perm keep l).flatMap_right f

end Sorted

section Occurrence
variable {R : α → β → Prop}

/-- Every element of the first list has its own in the second one, in the same order. -/
def InOrder (R : α → β → Prop) (l : List α) (m : List β) : Prop :=
  ∃ sub, sub.Sublist m ∧ List.Forall₂ R l sub

variable {l : List α} {m : List β}

/-- If what can be meant is not more than what is asked for, nothing of it is left over. -/
theorem inOrder_iff_forall₂ (keep : β → Bool) (hkeep : ∀ a b, R a b → keep b)
    (hle : (m.filter keep).length ≤ l.length) :
    InOrder R l m ↔ List.Forall₂ R l (m.filter keep) := by
  constructor
  · rintro ⟨sub, hsub, hall⟩
    have hkept : sub.filter keep = sub := by
      refine List.filter_eq_self.mpr fun b hb => ?_
      obtain ⟨i, hi, rfl⟩ := List.getElem_of_mem hb
      exact hkeep _ _ (hall.get (by rw [hall.length_eq]; exact hi) hi)
    have hfiltered := hsub.filter keep
    rw [hkept] at hfiltered
    rwa [← hfiltered.eq_of_length_le (by rw [← hall.length_eq]; exact hle)]
  · exact fun hall => ⟨m.filter keep, List.filter_sublist, hall⟩

/-- If there are no more than what is asked for, nothing at all is left over. -/
theorem inOrder_iff_forall₂_of_length (hle : m.length ≤ l.length) :
    InOrder R l m ↔ List.Forall₂ R l m := by
  have hall := inOrder_iff_forall₂ (R := R) (l := l) (m := m) (fun _ => true) (fun _ _ _ => rfl)
  rw [List.filter_true] at hall
  exact hall hle

theorem forall₂_trans {S : β → γ → Prop} {T : α → γ → Prop} {n : List γ}
    (hT : ∀ a b c, R a b → S b c → T a c) (hl : List.Forall₂ R l m) (hm : List.Forall₂ S m n) :
    List.Forall₂ T l n := by
  induction hl generalizing n with
  | nil =>
    cases hm
    exact .nil
  | cons hab _ ih =>
    cases hm with
    | cons hbc hrest => exact .cons (hT _ _ _ hab hbc) (ih hrest)

/-- Elements that have theirs in parts of the lists have them in the whole. -/
theorem forall₂_flatMap {f : γ → List α} {g : γ → List β} {l : List γ}
    (h : ∀ c ∈ l, List.Forall₂ R (f c) (g c)) : List.Forall₂ R (l.flatMap f) (l.flatMap g) := by
  induction l with
  | nil => exact .nil
  | cons c l ih =>
    obtain ⟨hc, hl⟩ := List.forall_mem_cons.mp h
    rw [List.flatMap_cons, List.flatMap_cons]
    exact List.rel_append hc (ih hl)

/-- Two parts of lists are related one by one, if no part of the second list is longer. -/
theorem forall₂_append_iff {l₁ l₂ : List α} {m₁ m₂ : List β} (h₁ : m₁.length ≤ l₁.length)
    (h₂ : m₂.length ≤ l₂.length) :
    List.Forall₂ R (l₁ ++ l₂) (m₁ ++ m₂) ↔ List.Forall₂ R l₁ m₁ ∧ List.Forall₂ R l₂ m₂ := by
  refine ⟨fun h => ?_, fun h => List.rel_append h.1 h.2⟩
  have hlength : l₁.length = m₁.length := by
    have htotal := h.length_eq
    rw [List.length_append, List.length_append] at htotal
    omega
  have hfirst := List.forall₂_take l₁.length h
  have hlast := List.forall₂_drop l₁.length h
  rw [List.take_left, hlength, List.take_left] at hfirst
  rw [List.drop_left, hlength, List.drop_left] at hlast
  exact ⟨hfirst, hlast⟩

/-- What there is no place for is nothing. -/
theorem forall₂_append_left_iff {l₁ l₂ : List α} (h : m.length ≤ l₁.length) :
    List.Forall₂ R (l₁ ++ l₂) m ↔ List.Forall₂ R l₁ m ∧ l₂ = [] := by
  have hnone : ([] : List β).length ≤ l₂.length := Nat.zero_le _
  have hboth := forall₂_append_iff (R := R) h hnone
  rwa [List.append_nil, List.forall₂_nil_right_iff] at hboth

/-- The converse of `forall₂_flatMap`, if no part of the second list is longer. -/
theorem forall₂_of_flatMap {f : γ → List α} {g : γ → List β} {l : List γ}
    (hle : ∀ c ∈ l, (g c).length ≤ (f c).length)
    (h : List.Forall₂ R (l.flatMap f) (l.flatMap g)) : ∀ c ∈ l, List.Forall₂ R (f c) (g c) := by
  induction l with
  | nil => exact fun c hc => (List.not_mem_nil hc).elim
  | cons c l ih =>
    obtain ⟨hc, hl⟩ := List.forall_mem_cons.mp hle
    rw [List.flatMap_cons, List.flatMap_cons] at h
    obtain ⟨hfirst, hlast⟩ := (forall₂_append_iff hc (length_flatMap_le hl)).mp h
    exact List.forall_mem_cons.mpr ⟨hfirst, ih hl hlast⟩

/-- A partial function finds for every element its own exactly if it is defined on all. -/
theorem forall₂_filterMap_iff {d : α → Option β} :
    List.Forall₂ R l (l.filterMap d) ↔ ∀ a ∈ l, ∃ b, d a = some b ∧ R a b := by
  induction l with
  | nil => exact iff_of_true .nil fun a ha => (List.not_mem_nil ha).elim
  | cons a l ih =>
    rw [List.forall_mem_cons, ← ih]
    cases hd : d a with
    | none =>
      rw [List.filterMap_cons_none hd]
      refine iff_of_false (fun h => ?_) (by rintro ⟨⟨b, hb, -⟩, -⟩; cases hb)
      have hlength := h.length_eq
      have hle := List.length_filterMap_le d l
      rw [List.length_cons] at hlength
      omega
    | some b =>
      rw [List.filterMap_cons_some hd, List.forall₂_cons]
      simp

end Occurrence

end Selection
