import Mathlib.Tactic

/-!
# Three-valued formulas

The values of strong Kleene logic, formulas over arbitrary atoms, and the evaluation of a formula
from left to right that stops at the first part that settles a list and may fail at an atom.

## Implementation notes

A conjunction and a disjunction are one constructor: `join b` is a list that a part of value `b`
settles, which is `false` for a conjunction and `true` for a disjunction.
-/

namespace Kleene

universe u
variable {α : Type u}

inductive Truth where
  | yes
  | no
  | unknown
  deriving DecidableEq, Repr

namespace Truth

def ofBool (b : Bool) : Truth := if b then yes else no

def neg : Truth → Truth
  | yes => no
  | no => yes
  | unknown => unknown

/-- The value of a list that `b` settles: it depends on the values that occur, not on their
order. -/
def join (b : Bool) (ts : List Truth) : Truth :=
  if ofBool b ∈ ts then ofBool b else if unknown ∈ ts then unknown else ofBool !b

/-- What is known stays as it is. -/
def Extends (t u : Truth) : Prop := t = unknown ∨ t = u

variable {b : Bool} {t u : Truth} {ts us : List Truth}

@[simp] theorem ofBool_ne_unknown (b : Bool) : ofBool b ≠ unknown := by
  cases b <;> decide

@[simp] theorem unknown_ne_ofBool (b : Bool) : unknown ≠ ofBool b := (ofBool_ne_unknown b).symm

@[simp] theorem ofBool_ne_ofBool_not (b : Bool) : ofBool b ≠ ofBool !b := by
  cases b <;> decide

/-- A value is what settles a list, or unknown, or the opposite. -/
theorem trichotomy (b : Bool) (t : Truth) : t = ofBool b ∨ t = unknown ∨ t = ofBool !b := by
  cases b <;> cases t <;> decide

theorem join_congr (h : ∀ t, t ∈ ts ↔ t ∈ us) : join b ts = join b us := by
  simp only [join, h]

theorem join_of_mem (h : ofBool b ∈ ts) : join b ts = ofBool b := if_pos h

/-- An unknown part leaves the list unknown unless it is settled. -/
theorem join_of_unknown_mem (hb : ofBool b ∉ ts) (hu : unknown ∈ ts) : join b ts = unknown := by
  rw [join, if_neg hb, if_pos hu]

theorem extends_refl (t : Truth) : Extends t t := .inr rfl

theorem Extends.eq_of_ne (h : Extends t u) (hne : t ≠ unknown) : u = t :=
  (h.resolve_left hne).symm

theorem Extends.neg (h : Extends t u) : Extends t.neg u.neg := by
  rcases h with rfl | rfl
  · exact .inl rfl
  · exact extends_refl _

theorem ofBool_mem_of_extends (h : List.Forall₂ Extends ts us) (hb : ofBool b ∈ ts) :
    ofBool b ∈ us := by
  induction h with
  | nil => exact hb
  | cons ht _ ih =>
    rcases List.mem_cons.mp hb with rfl | hb
    · exact List.mem_cons.mpr (.inl (ht.eq_of_ne (ofBool_ne_unknown b)).symm)
    · exact List.mem_cons_of_mem _ (ih hb)

theorem eq_of_extends (h : List.Forall₂ Extends ts us) (hu : unknown ∉ ts) : us = ts := by
  induction h with
  | nil => rfl
  | cons ht _ ih =>
    rw [List.mem_cons, not_or] at hu
    rw [ht.eq_of_ne (Ne.symm hu.1), ih hu.2]

/-- A list that is settled, or of which all parts are known, stays as it is. -/
theorem Extends.join (h : List.Forall₂ Extends ts us) : Extends (join b ts) (join b us) := by
  by_cases hb : ofBool b ∈ ts
  · rw [join_of_mem hb, join_of_mem (ofBool_mem_of_extends h hb)]
    exact extends_refl _
  · by_cases hu : unknown ∈ ts
    · exact .inl (join_of_unknown_mem hb hu)
    · rw [eq_of_extends h hu]
      exact extends_refl _

end Truth
open Truth

inductive Formula (α : Type u) where
  | const (b : Bool)
  | join (b : Bool) (parts : List (Formula α))
  | neg (part : Formula α)
  | atom (a : α)

namespace Formula

/-- Induction over a formula, where a list has the property of each of its parts. -/
@[elab_as_elim] theorem parts_induction {P : Formula α → Prop} (const : ∀ b, P (.const b))
    (join : ∀ b parts, (∀ f ∈ parts, P f) → P (.join b parts)) (neg : ∀ f, P f → P (.neg f))
    (atom : ∀ a, P (.atom a)) (f : Formula α) : P f :=
  f.rec (motive_1 := P) (motive_2 := fun parts => ∀ f ∈ parts, P f) const join neg atom
    (fun _ hf => absurd hf List.not_mem_nil)
    (fun _ _ h hs => List.forall_mem_cons.mpr ⟨h, hs⟩)

mutual
/-- The value of a formula where each atom has one. -/
def value (v : α → Truth) : Formula α → Truth
  | const b => ofBool b
  | join b parts => Truth.join b (values v parts)
  | neg part => (value v part).neg
  | atom a => v a

def values (v : α → Truth) : List (Formula α) → List Truth
  | [] => []
  | part :: parts => value v part :: values v parts
end

mutual
/-- The atoms at which an evaluation looks. -/
def reads (v : α → Truth) : Formula α → List α
  | const _ => []
  | join b parts => readsUntil v b parts
  | neg part => reads v part
  | atom a => [a]

/-- The atoms of the parts up to the first that settles the list. -/
def readsUntil (v : α → Truth) (b : Bool) : List (Formula α) → List α
  | [] => []
  | part :: parts =>
    reads v part ++ if value v part = ofBool b then [] else readsUntil v b parts
end

mutual
/-- Evaluation from left to right. -/
def run (read : α → Option Truth) : Formula α → Option Truth
  | const b => some (ofBool b)
  | join b parts => scan read b false parts
  | neg part => (run read part).map Truth.neg
  | atom a => read a

/-- The parts of a list in turn; a part that is unknown is remembered. -/
def scan (read : α → Option Truth) (b sawUnknown : Bool) : List (Formula α) → Option Truth
  | [] => some (if sawUnknown then unknown else ofBool !b)
  | part :: parts =>
    (run read part).bind fun t =>
      if t = ofBool b then some t else scan read b (sawUnknown || t == unknown) parts
end

/-- The children of a list in another order, at any depth. -/
inductive Reordered : Formula α → Formula α → Prop
  | refl (f) : Reordered f f
  | trans {f g h} : Reordered f g → Reordered g h → Reordered f h
  | perm {b fs gs} : fs.Perm gs → Reordered (.join b fs) (.join b gs)
  | part {b f g before after} : Reordered f g →
      Reordered (.join b (before ++ f :: after)) (.join b (before ++ g :: after))
  | neg {f g} : Reordered f g → Reordered (.neg f) (.neg g)

variable {v w : α → Truth} {read : α → Option Truth} {f g : Formula α} {fs : List (Formula α)}

theorem values_eq_map : values v fs = fs.map (value v) := by
  induction fs with
  | nil => rfl
  | cons f fs ih => rw [values, ih, List.map_cons]

/-- The value does not depend on the order of the parts of a list. -/
theorem Reordered.value_eq (h : Reordered f g) : f.value v = g.value v := by
  induction h with
  | refl f => rfl
  | trans _ _ ih₁ ih₂ => exact ih₁.trans ih₂
  | perm hp =>
    simp only [value, values_eq_map]
    exact join_congr fun t => (hp.map _).mem_iff
  | part _ ih => simp only [value, values_eq_map, List.map_append, List.map_cons, ih]
  | neg _ ih => rw [value, value, ih]

/-- Where the atoms keep what is known of them, so does a formula. -/
theorem value_extends (h : ∀ a, Extends (v a) (w a)) (f : Formula α) :
    Extends (f.value v) (f.value w) := by
  induction f using parts_induction with
  | const b => exact extends_refl _
  | join b parts ih =>
    simp only [value, values_eq_map]
    apply Extends.join
    rw [List.forall₂_map_left_iff, List.forall₂_map_right_iff, List.forall₂_same]
    exact ih
  | neg f ih => exact ih.neg
  | atom a => exact h a

/-- One part of a list: it settles the list, or the evaluation goes on. -/
theorem scan_cons_eq_some_iff {b sawUnknown : Bool} {t : Truth}
    (ih : ∀ t, f.run read = some t ↔ t = f.value v ∧ ∀ a ∈ f.reads v, (read a).isSome) :
    scan read b sawUnknown (f :: fs) = some t ↔ (∀ a ∈ f.reads v, (read a).isSome) ∧
      if f.value v = ofBool b then t = ofBool b
      else scan read b (sawUnknown || f.value v == unknown) fs = some t := by
  rw [scan, Option.bind_eq_some_iff]
  constructor
  · rintro ⟨u, hrun, hrest⟩
    obtain ⟨rfl, hreads⟩ := (ih u).mp hrun
    refine ⟨hreads, ?_⟩
    split at hrest
    next hb => rw [if_pos hb, ← hb, Option.some.inj hrest]
    next hb => rwa [if_neg hb]
  · rintro ⟨hreads, hrest⟩
    refine ⟨_, (ih _).mpr ⟨rfl, hreads⟩, ?_⟩
    split at hrest
    next hb => rw [if_pos hb, hb, hrest]
    next hb => rwa [if_neg hb]

/-- The evaluation of a list answers its value, if that of each part does. -/
theorem scan_eq_some_iff {b : Bool} (ih : ∀ f ∈ fs, ∀ t, f.run read = some t ↔
      t = f.value v ∧ ∀ a ∈ f.reads v, (read a).isSome) (sawUnknown : Bool) (t : Truth) :
    scan read b sawUnknown fs = some t ↔
      t = Truth.join b ((if sawUnknown then [unknown] else []) ++ values v fs) ∧
      ∀ a ∈ readsUntil v b fs, (read a).isSome := by
  induction fs generalizing sawUnknown with
  | nil =>
    have hnil : Truth.join b (if sawUnknown then [unknown] else []) =
        if sawUnknown then unknown else ofBool !b := by
      cases sawUnknown <;> simp [Truth.join]
    rw [scan, values, List.append_nil, hnil, Option.some.injEq, eq_comm]
    exact (and_iff_left fun a ha => absurd ha List.not_mem_nil).symm
  | cons f fs ihfs =>
    rw [List.forall_mem_cons] at ih
    rw [scan_cons_eq_some_iff ih.1, values, readsUntil]
    by_cases hb : f.value v = ofBool b
    · rw [if_pos hb, if_pos hb, List.append_nil, hb, join_of_mem (by simp)]
      exact and_comm
    · rw [if_neg hb, if_neg hb, ihfs ih.2, List.forall_mem_append]
      have hjoin : Truth.join b
          ((if sawUnknown || f.value v == unknown then [unknown] else []) ++ values v fs) =
          Truth.join b ((if sawUnknown then [unknown] else []) ++ f.value v :: values v fs) := by
        rcases trichotomy b (f.value v) with h | h | h
        · exact absurd h hb
        · apply join_congr
          cases sawUnknown <;> simp [h]
        · rw [List.append_cons]
          rw [h] at hb ⊢
          cases sawUnknown <;> simp [Truth.join]
      rw [hjoin]
      exact and_left_comm

/-- The evaluation answers if and only if every atom at which it looks can be read, and then it
answers the value. -/
theorem run_eq_some_iff (hread : ∀ a t, read a = some t → t = v a) (f : Formula α) (t : Truth) :
    f.run read = some t ↔ t = f.value v ∧ ∀ a ∈ f.reads v, (read a).isSome := by
  induction f using parts_induction generalizing t with
  | const b => simp only [run, value, reads, Option.some.injEq, List.not_mem_nil, false_imp_iff,
      implies_true, and_true, eq_comm]
  | join b parts ih => exact scan_eq_some_iff ih false t
  | neg f ih =>
    rw [run, value, reads, Option.map_eq_some_iff]
    constructor
    · rintro ⟨u, hu, rfl⟩
      obtain ⟨rfl, hreads⟩ := (ih u).mp hu
      exact ⟨rfl, hreads⟩
    · rintro ⟨rfl, hreads⟩
      exact ⟨_, (ih _).mpr ⟨rfl, hreads⟩, rfl⟩
  | atom a =>
    rw [run, value, reads, List.forall_mem_singleton, Option.isSome_iff_exists]
    constructor
    · intro h
      exact ⟨hread a t h, t, h⟩
    · rintro ⟨rfl, u, hu⟩
      rw [hu, hread a u hu]

end Formula
end Kleene
