import Mathlib.Data.List.Induction
import Mathlib.Data.List.Nodup
import Mathlib.Data.List.Perm.Basic
import Mathlib.Logic.Function.Basic
import Mathlib.Tactic.Common

/-!
# Where the first one counts

Sources write pairs of a key and a value one after the other, and a key keeps the value that it got
first. A source that owns keys reads there what it wrote itself, in every order of the sources,
exactly if no other source says anything else under them. In the same way different spellings may
stand for one name, and the first spelling of a name adds the name and is kept for it.
-/

namespace FirstWriter

universe u v w

variable {α : Type u} {κ : Type v} {β : Type w} [BEq κ] {said : α → List (κ × β)}
  {sources sources' : List α} {k : κ} {v : β}

/-- What is stored under a key. -/
def stored (said : α → List (κ × β)) (sources : List α) (k : κ) : Option β :=
  (sources.flatMap said).lookup k

@[simp] theorem stored_nil : stored said [] k = none := rfl

theorem stored_cons (a : α) :
    stored said (a :: sources) k = ((said a).lookup k).or (stored said sources k) := by
  rw [stored, List.flatMap_cons, List.lookup_append, stored]

theorem stored_singleton (a : α) : stored said [a] k = (said a).lookup k := by
  rw [stored_cons, stored_nil, Option.or_none]

/-- What is stored was said first by one of the sources. -/
theorem exists_of_stored (h : stored said sources k = some v) :
    ∃ a ∈ sources, (said a).lookup k = some v := by
  induction sources with
  | nil => exact absurd h.symm (Option.some_ne_none v)
  | cons a sources ih =>
    rw [stored_cons, Option.or_eq_some_iff] at h
    obtain ha | ⟨-, hrest⟩ := h
    · exact ⟨a, List.mem_cons_self, ha⟩
    · obtain ⟨b, hb, hsaid⟩ := ih hrest
      exact ⟨b, List.mem_cons_of_mem a hb, hsaid⟩

/-- Nothing is stored where no source said anything. -/
theorem stored_eq_none :
    stored said sources k = none ↔ ∀ a ∈ sources, (said a).lookup k = none := by
  induction sources with
  | nil => simp
  | cons a sources ih => rw [stored_cons, Option.or_eq_none_iff, ih, List.forall_mem_cons]

/-- A source reads what it says, whatever the order of all, exactly if the others say the same. -/
theorem stored_perm_iff {a : α} (ha : a ∈ sources) :
    (∀ sources', sources'.Perm sources → stored said sources' k = (said a).lookup k) ↔
      ∀ b ∈ sources, ∀ v, (said b).lookup k = some v → (said a).lookup k = some v := by
  constructor
  · intro h b hb v hv
    obtain ⟨before, after, rfl⟩ := List.append_of_mem hb
    have hfirst := h (b :: (before ++ after)) List.perm_middle.symm
    rw [stored_cons, hv, Option.some_or] at hfirst
    exact hfirst.symm
  · intro h sources' hperm
    cases hstored : stored said sources' k with
    | none => exact (stored_eq_none.mp hstored a (hperm.mem_iff.mpr ha)).symm
    | some v =>
      obtain ⟨b, hb, hv⟩ := exists_of_stored hstored
      exact (h b (hperm.mem_iff.mp hb) v hv).symm

end FirstWriter

namespace Spellings

variable {α κ : Type*} [DecidableEq κ]

/-- The names that were found, and the spelling of each. -/
structure Index (α κ : Type*) where
  names : List κ
  spelling : κ → Option α

variable (canonical : α → Option κ)

def add (index : Index α κ) (raw : α) : Index α κ :=
  match canonical raw with
  | none => index
  | some name =>
    if name ∈ index.names then index
    else ⟨index.names ++ [name], Function.update index.spelling name (some raw)⟩

def collect (raws : List α) : Index α κ := raws.foldl (add canonical) ⟨[], fun _ => none⟩

variable {canonical} {raws : List α} {raw : α} {name : κ}

theorem collect_concat :
    collect canonical (raws ++ [raw]) = add canonical (collect canonical raws) raw :=
  List.foldl_append

theorem mem_names_collect :
    name ∈ (collect canonical raws).names ↔ ∃ raw ∈ raws, canonical raw = some name := by
  induction raws using List.reverseRecOn with
  | nil => simp [collect]
  | append_singleton raws raw ih =>
    rw [collect_concat, add]
    simp only [List.mem_append, List.mem_singleton, or_and_right, exists_or, exists_eq_left, ← ih]
    split
    next h => simp [h]
    next other h =>
      rw [h, Option.some.injEq]
      split
      next hold =>
        refine ⟨Or.inl, ?_⟩
        rintro (hname | rfl)
        · exact hname
        · exact hold
      next => rw [List.mem_append, List.mem_singleton, eq_comm]

/-- What is kept for a name is its first spelling. -/
theorem spelling_collect :
    (collect canonical raws).spelling name = raws.find? fun raw => canonical raw = some name := by
  induction raws using List.reverseRecOn with
  | nil => rfl
  | append_singleton raws raw ih =>
    rw [collect_concat, add, List.find?_append, ← ih]
    split
    next h => simp [h]
    next other h =>
      by_cases hname : name = other
      · subst hname
        split
        next hold =>
          obtain ⟨first, hfirst, hcanonical⟩ := mem_names_collect.mp hold
          have hsome : (raws.find? fun raw => canonical raw = some name).isSome := by
            rw [List.find?_isSome]
            exact ⟨first, hfirst, by simpa using hcanonical⟩
          rw [ih, Option.or_of_isSome hsome]
        next hnew =>
          have hnone : (raws.find? fun raw => canonical raw = some name) = none := by
            rw [List.find?_eq_none]
            exact fun raw hraw h => hnew (mem_names_collect.mpr ⟨raw, hraw, by simpa using h⟩)
          simp [ih, hnone, h]
      · have hother : ¬ canonical raw = some name := by
          rw [h, Option.some.injEq]
          exact Ne.symm hname
        split
        next => simp [hother]
        next => simp [hother, hname]

theorem nodup_names_collect : (collect canonical raws).names.Nodup := by
  induction raws using List.reverseRecOn with
  | nil => exact List.nodup_nil
  | append_singleton raws raw ih =>
    rw [collect_concat, add]
    split
    next => exact ih
    next =>
      split
      next => exact ih
      next hnew =>
        rw [List.nodup_append]
        refine ⟨ih, List.nodup_singleton _, fun a ha b hb => ?_⟩
        rw [List.mem_singleton.mp hb]
        exact fun heq => hnew (heq ▸ ha)

/-- Different names, each under a spelling of its own, are read as they are. -/
theorem names_collect_map {names : List κ} (spell : κ → α) (hnodup : names.Nodup)
    (h : ∀ name ∈ names, canonical (spell name) = some name) :
    (collect canonical (names.map spell)).names = names := by
  induction names using List.reverseRecOn with
  | nil => rfl
  | append_singleton names name ih =>
    have hparts := List.nodup_append.mp hnodup
    have hnames := ih hparts.1 fun other hother => h other (List.mem_append_left _ hother)
    have hnew : name ∉ names := fun hmem => hparts.2.2 name hmem name List.mem_cons_self rfl
    rw [List.map_append, List.map_singleton, collect_concat, add,
      h name (List.mem_append_right _ List.mem_cons_self)]
    simp only [hnames, if_neg hnew]

end Spellings
