import Mathlib.Data.List.Destutter
import Mathlib.Data.List.Induction
import Mathlib.Data.List.Nodup
import Mathlib.Data.List.Sort
import Mathlib.Logic.Function.Basic

/-!
# Groups, buckets and stable sorting

The elements of a list in groups of one key each, in the order in which the keys first occur, and
the stable order of a list by a rank. Both are compatible with leaving out elements by what they are
grouped or ranked by. Of a bucket of the elements with one key, the values are taken once each, and
what is asked of them is whether there is one only.
-/

namespace Grouping

universe u v w
variable {α : Type u} {β : Type v} {κ : Type w}

/-! ## Stable sorting -/

section SortBy
variable {K : Type*} [LinearOrder K] (rank : α → K)

/-- The stable order by a rank. -/
def sortBy (l : List α) : List α := l.insertionSort fun a b => rank a ≤ rank b

variable {rank} {l l' : List α} {a : α} {p : α → Bool}

instance isTrans_rank : IsTrans α fun a b => rank a ≤ rank b := ⟨fun _ _ _ => le_trans⟩

instance total_rank : Std.Total fun a b => rank a ≤ rank b :=
  ⟨fun a b => le_total (rank a) (rank b)⟩

theorem sortBy_perm : (sortBy rank l).Perm l := List.perm_insertionSort _ l

theorem sortBy_pairwise : (sortBy rank l).Pairwise fun a b => rank a ≤ rank b :=
  List.pairwise_insertionSort _ l

/-- An element comes in at the same place whatever is left out of a list in order. -/
theorem filter_orderedInsert (h : l.Pairwise fun a b => rank a ≤ rank b) :
    (l.orderedInsert (fun a b => rank a ≤ rank b) a).filter p =
      if p a then (l.filter p).orderedInsert (fun a b => rank a ≤ rank b) a else l.filter p := by
  induction l with
  | nil => by_cases ha : p a <;> simp [ha]
  | cons b l ih =>
    obtain ⟨hb, hl⟩ := List.pairwise_cons.mp h
    by_cases hab : rank a ≤ rank b
    · have hall : ∀ c ∈ (b :: l).filter p, rank a ≤ rank c := by
        intro c hc
        rcases List.mem_cons.mp (List.mem_filter.mp hc).1 with rfl | hc
        · exact hab
        · exact hab.trans (hb c hc)
      rw [List.orderedInsert_cons_of_le (fun a b => rank a ≤ rank b) _ hab, List.filter_cons]
      by_cases ha : p a
      · rw [if_pos ha, if_pos ha]
        cases hf : (b :: l).filter p with
        | nil => rfl
        | cons c cs =>
          rw [List.orderedInsert_cons_of_le]
          exact hall c (hf ▸ List.mem_cons_self)
      · rw [if_neg ha, if_neg ha]
    · rw [List.orderedInsert_of_not_le (fun a b => rank a ≤ rank b) _ hab, List.filter_cons, ih hl]
      by_cases ha : p a <;> by_cases hpb : p b
      · simp [ha, hpb, hab]
      · simp [ha, hpb]
      · simp [ha, hpb]
      · simp [ha, hpb]

theorem filter_sortBy : (sortBy rank l).filter p = sortBy rank (l.filter p) := by
  induction l with
  | nil => rfl
  | cons a l ih =>
    rw [sortBy, List.insertionSort_cons, filter_orderedInsert (List.pairwise_insertionSort _ l)]
    rw [sortBy] at ih
    rw [ih, List.filter_cons]
    by_cases ha : p a
    · rw [if_pos ha, if_pos ha, sortBy, sortBy, List.insertionSort_cons]
    · rw [if_neg ha, if_neg ha]

theorem map_sortBy {K' : Type*} [LinearOrder K'] {rank' : β → K'} {f : α → β}
    (h : ∀ a ∈ l, ∀ b ∈ l, rank a ≤ rank b ↔ rank' (f a) ≤ rank' (f b)) :
    (sortBy rank l).map f = sortBy rank' (l.map f) :=
  List.map_insertionSort _ _ f l h

theorem sortBy_congr {rank' : α → K} (h : ∀ a ∈ l, rank a = rank' a) :
    sortBy rank l = sortBy rank' l := by
  have hmap : (sortBy rank l).map id = sortBy rank' (l.map id) := map_sortBy fun a ha b hb => by
    rw [h a ha, h b hb, id, id]
  rwa [List.map_id, List.map_id] at hmap

/-- Lists with the same elements are in the same order if different elements have
different ranks. -/
theorem sortBy_eq_of_perm (h : l.Perm l') (hinj : ∀ a ∈ l, ∀ b ∈ l, rank a = rank b → a = b) :
    sortBy rank l = sortBy rank l' := by
  refine List.Perm.eq_of_pairwise (fun a b ha hb hab hba => ?_) sortBy_pairwise sortBy_pairwise
    (sortBy_perm.trans (h.trans sortBy_perm.symm))
  exact hinj a (sortBy_perm.mem_iff.mp ha) b (h.mem_iff.mpr (sortBy_perm.mem_iff.mp hb))
    (le_antisymm hab hba)

end SortBy

/-! ## Groups -/

variable (key : α → κ)

section
variable [DecidableEq κ]

/-- Put an element into the group of its key, or into a new one at the end. -/
def insert (a : α) : List (κ × List α) → List (κ × List α)
  | [] => [(key a, [a])]
  | (k, as) :: gs => if k = key a then (k, as ++ [a]) :: gs else (k, as) :: insert a gs

def groups (l : List α) : List (κ × List α) := l.foldl (fun gs a => insert key a gs) []

end

/-- The groups have different keys, and all elements of the list between them. -/
structure Grouped (l : List α) (gs : List (κ × List α)) : Prop where
  nodup : (gs.map Prod.fst).Nodup
  key_eq : ∀ g ∈ gs, ∀ a ∈ g.2, key a = g.1
  perm : (gs.flatMap Prod.snd).Perm l

/-- The elements of each key stand next to each other. -/
def Contiguous (l : List α) : Prop :=
  ∀ k, ∃ before block after, l = before ++ block ++ after ∧ (∀ a ∈ block, key a = k) ∧
    ∀ a ∈ before ++ after, key a ≠ k

variable {key} {a : α} {l l' : List α} {gs gs' : List (κ × List α)}

section
variable [DecidableEq κ]

theorem groups_snoc (l : List α) (a : α) : groups key (l ++ [a]) = insert key a (groups key l) :=
  List.foldl_append ..

theorem mem_insert {g : κ × List α} (h : g ∈ insert key a gs) :
    g ∈ gs ∨ g.1 = key a ∧ ∃ as, g.2 = as ++ [a] ∧ ((key a, as) ∈ gs ∨ as = []) := by
  induction gs with
  | nil =>
    obtain rfl := List.mem_singleton.mp h
    exact Or.inr ⟨rfl, [], rfl, Or.inr rfl⟩
  | cons g' gs ih =>
    obtain ⟨k, as⟩ := g'
    rw [insert] at h
    split at h
    · rename_i hk
      rcases List.mem_cons.mp h with rfl | h
      · exact Or.inr ⟨hk, as, rfl, Or.inl (hk ▸ List.mem_cons_self)⟩
      · exact Or.inl (List.mem_cons_of_mem _ h)
    · rcases List.mem_cons.mp h with rfl | h
      · exact Or.inl List.mem_cons_self
      · refine (ih h).imp (List.mem_cons_of_mem _) fun ⟨hk, as', has, hmem⟩ => ?_
        exact ⟨hk, as', has, hmem.imp_left (List.mem_cons_of_mem _)⟩

theorem map_fst_insert (a : α) (gs : List (κ × List α)) :
    (insert key a gs).map Prod.fst =
      if key a ∈ gs.map Prod.fst then gs.map Prod.fst else gs.map Prod.fst ++ [key a] := by
  induction gs with
  | nil => rfl
  | cons g gs ih =>
    obtain ⟨k, as⟩ := g
    rw [insert]
    by_cases hk : k = key a
    · simp [hk]
    · rw [if_neg hk, List.map_cons, ih, List.map_cons]
      by_cases hmem : key a ∈ gs.map Prod.fst
      · rw [if_pos hmem, if_pos (List.mem_cons_of_mem _ hmem)]
      · rw [if_neg hmem, if_neg (by simpa [Ne.symm hk] using hmem), List.cons_append]

theorem insert_perm (a : α) (gs : List (κ × List α)) :
    ((insert key a gs).flatMap Prod.snd).Perm (gs.flatMap Prod.snd ++ [a]) := by
  induction gs with
  | nil => exact List.Perm.refl _
  | cons g gs ih =>
    obtain ⟨k, as⟩ := g
    rw [insert]
    split
    · rw [List.flatMap_cons, List.flatMap_cons, List.append_assoc, List.append_assoc]
      exact List.perm_append_comm.append_left as
    · rw [List.flatMap_cons, List.flatMap_cons, List.append_assoc]
      exact ih.append_left as

theorem Grouped.insert (h : Grouped key l gs) (a : α) :
    Grouped key (l ++ [a]) (insert key a gs) where
  nodup := by
    rw [map_fst_insert]
    split
    · exact h.nodup
    · exact List.nodup_append'.mpr ⟨h.nodup, List.nodup_singleton _,
        List.disjoint_singleton.mpr ‹_›⟩
  key_eq := by
    intro g hg b hb
    rcases mem_insert hg with hg | ⟨hk, as, has, hmem⟩
    · exact h.key_eq g hg b hb
    · rw [hk]
      rw [has] at hb
      rcases List.mem_append.mp hb with hb | hb
      · rcases hmem with hmem | rfl
        · exact h.key_eq _ hmem b hb
        · exact (List.not_mem_nil hb).elim
      · rw [List.mem_singleton.mp hb]
  perm := (insert_perm a gs).trans (h.perm.append_right [a])

theorem grouped_groups (l : List α) : Grouped key l (groups key l) := by
  induction l using List.reverseRecOn with
  | nil => exact ⟨List.nodup_nil, fun g hg => (List.not_mem_nil hg).elim, List.Perm.refl _⟩
  | append_singleton l a ih =>
    rw [groups_snoc]
    exact ih.insert a

end

/-- The groups in another order. -/
theorem Grouped.of_perm (h : Grouped key l gs) (hp : gs'.Perm gs) : Grouped key l gs' where
  nodup := ((hp.map Prod.fst).nodup_iff).mpr h.nodup
  key_eq g hg := h.key_eq g (hp.mem_iff.mp hg)
  perm := (hp.flatMap_right _).trans h.perm

/-- Each group in another order. -/
theorem Grouped.of_forall₂ (h : Grouped key l gs)
    (hp : List.Forall₂ (fun g g' => g'.1 = g.1 ∧ g'.2.Perm g.2) gs gs') : Grouped key l gs' := by
  suffices haux : gs'.map Prod.fst = gs.map Prod.fst ∧
      (∀ g' ∈ gs', ∃ g ∈ gs, g'.1 = g.1 ∧ g'.2.Perm g.2) ∧
      (gs'.flatMap Prod.snd).Perm (gs.flatMap Prod.snd) by
    obtain ⟨hfst, hmem, hperm⟩ := haux
    refine ⟨hfst ▸ h.nodup, ?_, hperm.trans h.perm⟩
    intro g' hg' a ha
    obtain ⟨g, hg, hkey, hg'⟩ := hmem g' hg'
    exact (h.key_eq g hg a (hg'.mem_iff.mp ha)).trans hkey.symm
  clear h
  induction hp with
  | nil => exact ⟨rfl, fun _ h => (List.not_mem_nil h).elim, List.Perm.refl _⟩
  | @cons g g' gs gs' hg _ ih =>
    obtain ⟨hfst, hmem, hperm⟩ := ih
    refine ⟨by rw [List.map_cons, List.map_cons, hfst, hg.1], ?_, ?_⟩
    · intro x hx
      rcases List.mem_cons.mp hx with rfl | hx
      · exact ⟨g, List.mem_cons_self, hg⟩
      · obtain ⟨y, hy, hxy⟩ := hmem x hx
        exact ⟨y, List.mem_cons_of_mem _ hy, hxy⟩
    · rw [List.flatMap_cons, List.flatMap_cons]
      exact hg.2.append hperm

/-- The elements of a group stand next to each other, and all others have other keys. -/
theorem Grouped.split (h : Grouped key l gs) {g : κ × List α} (hg : g ∈ gs) :
    ∃ before after, gs.flatMap Prod.snd = before ++ g.2 ++ after ∧
      ∀ a ∈ before ++ after, key a ≠ g.1 := by
  obtain ⟨gs₁, gs₂, rfl⟩ := List.append_of_mem hg
  refine ⟨gs₁.flatMap Prod.snd, gs₂.flatMap Prod.snd, by simp, ?_⟩
  intro a ha hak
  have hnodup := h.nodup
  rw [List.map_append, List.map_cons, List.nodup_middle, List.nodup_cons, ← List.map_append]
    at hnodup
  rw [← List.flatMap_append] at ha
  obtain ⟨g', hmem, hag⟩ := List.mem_flatMap.mp ha
  refine hnodup.1 (List.mem_map.mpr ⟨g', hmem, ?_⟩)
  refine (h.key_eq g' ?_ a hag).symm.trans hak
  rcases List.mem_append.mp hmem with hmem | hmem
  · exact List.mem_append_left _ hmem
  · exact List.mem_append_right _ (List.mem_cons_of_mem _ hmem)

theorem Grouped.contiguous (h : Grouped key l gs) : Contiguous key (gs.flatMap Prod.snd) := by
  intro k
  by_cases hk : k ∈ gs.map Prod.fst
  · obtain ⟨g, hg, rfl⟩ := List.mem_map.mp hk
    obtain ⟨before, after, heq, hother⟩ := h.split hg
    exact ⟨before, g.2, after, heq, h.key_eq g hg, hother⟩
  · refine ⟨gs.flatMap Prod.snd, [], [], by simp, fun a ha => (List.not_mem_nil ha).elim, ?_⟩
    intro a ha hak
    rw [List.append_nil] at ha
    obtain ⟨g, hg, hag⟩ := List.mem_flatMap.mp ha
    exact hk (List.mem_map.mpr ⟨g, hg, (h.key_eq g hg a hag).symm.trans hak⟩)

/-- A group has the elements of its key. -/
theorem Grouped.perm_filter [DecidableEq κ] (h : Grouped key l gs) {g : κ × List α} (hg : g ∈ gs) :
    g.2.Perm (l.filter fun a => key a = g.1) := by
  obtain ⟨before, after, heq, hother⟩ := h.split hg
  have hnone : ∀ l' : List α, (∀ a ∈ l', a ∈ before ++ after) →
      (l'.filter fun a => key a = g.1) = [] := by
    intro l' hl'
    refine List.filter_eq_nil_iff.mpr fun a ha => ?_
    simpa using hother a (hl' a ha)
  have hall : (g.2.filter fun a => key a = g.1) = g.2 := by
    refine List.filter_eq_self.mpr fun a ha => ?_
    simpa using h.key_eq g hg a ha
  have hfilter := h.perm.filter fun a => decide (key a = g.1)
  rw [heq, List.filter_append, List.filter_append, hall,
    hnone before fun a ha => List.mem_append_left _ ha,
    hnone after fun a ha => List.mem_append_right _ ha, List.nil_append, List.append_nil] at hfilter
  exact hfilter

theorem Grouped.mem_of_mem (h : Grouped key l gs) {g : κ × List α} (hg : g ∈ gs) (ha : a ∈ g.2) :
    a ∈ l :=
  h.perm.mem_iff.mp (List.mem_flatMap.mpr ⟨g, hg, ha⟩)

section
variable [DecidableEq κ]

/-- Leaving out all elements of some keys leaves out their groups. -/
theorem groups_filter (p : κ → Bool) (l : List α) :
    groups key (l.filter fun a => p (key a)) = (groups key l).filter fun g => p g.1 := by
  have filter_insert : ∀ (a : α) (gs : List (κ × List α)),
      (Grouping.insert key a gs).filter (fun g => p g.1) =
        if p (key a) then Grouping.insert key a (gs.filter fun g => p g.1)
        else gs.filter fun g => p g.1 := by
    intro a gs
    induction gs with
    | nil => by_cases ha : p (key a) <;> simp [Grouping.insert, ha]
    | cons g gs ih =>
      obtain ⟨k, as⟩ := g
      rw [Grouping.insert]
      by_cases hk : k = key a
      · subst hk
        by_cases ha : p (key a) <;> simp [Grouping.insert, ha]
      · rw [if_neg hk, List.filter_cons, ih]
        by_cases ha : p (key a) <;> by_cases hpk : p k <;> simp [Grouping.insert, ha, hpk, hk]
  induction l using List.reverseRecOn with
  | nil => rfl
  | append_singleton l a ih =>
    rw [groups_snoc, filter_insert, ← ih, List.filter_append]
    by_cases ha : p (key a)
    · have hkeep : ([a].filter fun b => p (key b)) = [a] := by simp [ha]
      rw [if_pos ha, hkeep, groups_snoc]
    · have hleave : ([a].filter fun b => p (key b)) = [] := by simp [ha]
      rw [if_neg ha, hleave, List.append_nil]

end

end Grouping

namespace Candidates

universe u v

variable {α : Type u} {κ : Type v}

section Buckets

/-- The values of a bucket; there are none if it was never made. -/
def bucket (buckets : κ → Option (List α)) (key : κ) : List α := (buckets key).getD []

@[simp] theorem bucket_empty (key : κ) : bucket (fun _ => (none : Option (List α))) key = [] := rfl

variable [DecidableEq κ]

/-- A value goes to the end of the bucket of its key. -/
def push (buckets : κ → Option (List α)) (key : κ) (value : α) : κ → Option (List α) :=
  Function.update buckets key (some (bucket buckets key ++ [value]))

theorem bucket_push (buckets : κ → Option (List α)) (key k : κ) (value : α) :
    bucket (push buckets key value) k = bucket buckets k ++ if key = k then [value] else [] := by
  by_cases h : key = k
  · subst h
    rw [if_pos rfl, bucket, push, Function.update_self, Option.getD_some]
  · rw [if_neg h, List.append_nil, bucket, push, Function.update_of_ne (Ne.symm h), bucket]

/-- The values that have a key go into its bucket. -/
def pushBy (key : α → Option κ) (buckets : κ → Option (List α)) (value : α) :
    κ → Option (List α) :=
  match key value with
  | some k => push buckets k value
  | none => buckets

theorem bucket_pushBy (key : α → Option κ) (buckets : κ → Option (List α)) (k : κ) (value : α) :
    bucket (pushBy key buckets value) k =
      bucket buckets k ++ if key value = some k then [value] else [] := by
  cases h : key value with
  | none => simp [pushBy, h]
  | some k' => simp only [pushBy, h, bucket_push, Option.some.injEq]

/-- A bucket holds the values that have its key, in their order. -/
theorem bucket_foldl (key : α → Option κ) (k : κ) (l : List α) (buckets : κ → Option (List α)) :
    bucket (l.foldl (pushBy key) buckets) k =
      bucket buckets k ++ l.filter fun value => key value = some k := by
  induction l generalizing buckets with
  | nil => rw [List.filter_nil, List.append_nil, List.foldl_nil]
  | cons value l ih =>
    rw [List.foldl_cons, ih, bucket_pushBy, List.append_assoc]
    congr 1
    by_cases h : key value = some k
    · rw [if_pos h, List.filter_cons_of_pos (by simpa using h), List.singleton_append]
    · rw [if_neg h, List.filter_cons_of_neg (by simpa using h), List.nil_append]

end Buckets

section Distinct
variable [LinearOrder α] {l : List α} {a : α}

/-- The values of a list in order, once each. -/
def dedupeSorted (l : List α) : List α := (Grouping.sortBy id l).destutter (· ≠ ·)

theorem dedupeSorted_eq_dedup : dedupeSorted l = (Grouping.sortBy id l).dedup := by
  have hsorted : (Grouping.sortBy id l).Pairwise (· ≤ ·) := Grouping.sortBy_pairwise
  exact hsorted.destutter_eq_dedup

theorem mem_dedupeSorted : a ∈ dedupeSorted l ↔ a ∈ l := by
  rw [dedupeSorted_eq_dedup, List.mem_dedup]
  exact Grouping.sortBy_perm.mem_iff

theorem nodup_dedupeSorted : (dedupeSorted l).Nodup := by
  rw [dedupeSorted_eq_dedup]
  exact List.nodup_dedup _

/-- There are two different values if there is one and not only one. -/
theorem exists_ne_of_dedupeSorted (hnil : dedupeSorted l ≠ []) (hone : ∀ a, dedupeSorted l ≠ [a]) :
    ∃ a ∈ dedupeSorted l, ∃ b ∈ dedupeSorted l, a ≠ b := by
  obtain ⟨a, ha⟩ := List.exists_mem_of_ne_nil _ hnil
  obtain hempty | ⟨b, hb, hne⟩ := (nodup_dedupeSorted.ne_singleton_iff a).mp (hone a)
  · exact absurd hempty hnil
  · exact ⟨a, ha, b, hb, hne.symm⟩

end Distinct

end Candidates
