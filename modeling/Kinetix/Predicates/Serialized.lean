import Kinetix.Foundation.JsonText
import Kinetix.Predicates.Expr

/-!
# Serialized target predicates

What `serde` writes a target predicate as, and which values represent one wholly, so that no key of
any node is left unread. What is represented is read back, also where floats are read as others.
-/

namespace Kinetix.Predicates
open Json

/-! ## Serialization -/

def FactRef.toValue : FactRef → Value
  | bare name => .string name
  | detailed name arg =>
    .object [("name", .string name), ("arg", (arg.map Value.string).getD .null)]

def CmpOp.toValue : CmpOp → Value
  | .eq => .string "eq"
  | .ne => .string "ne"
  | .lt => .string "lt"
  | .lte => .string "lte"
  | .gt => .string "gt"
  | .gte => .string "gte"
  | .in => .string "in"
  | .notIn => .string "not_in"
  | .contains => .string "contains"

def WhenUnknown.toValue : WhenUnknown → Value
  | .skip => .string "skip"
  | .allow => .string "allow"

mutual
def Predicate.toValue : Predicate → Value
  | .const b => .bool b
  | .and parts => .object [("and", .array (toValues parts))]
  | .or parts => .object [("or", .array (toValues parts))]
  | .not part => .object [("not", part.toValue)]
  | .cmp fact op value => .object [("fact", fact.toValue), ("op", op.toValue), ("value", value)]

def toValues : List Predicate → List Value
  | [] => []
  | p :: ps => p.toValue :: toValues ps
end

/-- The expression is left out where there is none. -/
def TargetPredicate.toValue (tp : TargetPredicate) : Value :=
  .object ((tp.expr.map fun expr => ("expr", expr.toValue)).toList ++
    [("when_unknown", tp.whenUnknown.toValue)])

/-! ## Whole representations -/

/-- An object whose fields are all among some names. -/
def Fields (fields : List (String × Value)) (names : List String) : Prop :=
  Distinct fields ∧ ∀ field ∈ fields, field.1 ∈ names

instance (fields : List (String × Value)) (names : List String) : Decidable (Fields fields names) :=
  inferInstanceAs (Decidable (_ ∧ _))

/-- A value represents a fact wholly. -/
def FactRef.Whole : FactRef → Value → Prop
  | bare name, v => v = .string name
  | detailed name arg, v => ∃ fields, v = .object fields ∧ Fields fields ["name", "arg"] ∧
      fields.lookup "name" = some (.string name) ∧ readArg (fields.lookup "arg") = some arg

mutual
/-- A value represents a predicate wholly. -/
def Predicate.Whole : Predicate → Value → Prop
  | .const b, v => v = .bool b
  | .and parts, v => ∃ items, v = .object [("and", .array items)] ∧ Wholes parts items
  | .or parts, v => ∃ items, v = .object [("or", .array items)] ∧ Wholes parts items
  | .not part, v => ∃ w, v = .object [("not", w)] ∧ part.Whole w
  | .cmp fact op value, v => ∃ fields, v = .object fields ∧ Fields fields ["fact", "op", "value"] ∧
      (∃ w, fields.lookup "fact" = some w ∧ fact.Whole w) ∧
      ((fields.lookup "op").map CmpOp.read).getD (some .eq) = some op ∧
      fields.lookup "value" = some value

def Wholes : List Predicate → List Value → Prop
  | [], items => items = []
  | p :: ps, items => ∃ v vs, items = v :: vs ∧ p.Whole v ∧ Wholes ps vs
end

/-- The value of a field, if any, represents an optional expression wholly. -/
def WholeExpr (expr : Option Predicate) (v : Option Value) : Prop :=
  match expr with
  | none => v = none ∨ v = some .null
  | some p => ∃ w, v = some w ∧ p.Whole w

/-- A value represents a target predicate wholly: as an envelope, or as a bare expression. -/
inductive Represents : Value → TargetPredicate → Prop
  | null : Represents .null {}
  | object {fields : List (String × Value)} {tp : TargetPredicate}
      (known : Fields fields ["expr", "when_unknown"])
      (expr : WholeExpr tp.expr (fields.lookup "expr"))
      (policy : readWhenUnknown (fields.lookup "when_unknown") = some tp.whenUnknown) :
      Represents (.object fields) tp
  | array {items : List Value} {tp : TargetPredicate} (known : items.length ≤ 2)
      (expr : WholeExpr tp.expr items[0]?)
      (policy : readWhenUnknown items[1]? = some tp.whenUnknown) :
      Represents (.array items) tp
  | bare {v : Value} {p : Predicate} (whole : p.Whole v) : Represents v { expr := some p }

/-! ## What is represented is read -/

variable {v : Value} {tp : TargetPredicate}

theorem FactRef.Whole.read {fact : FactRef} (h : fact.Whole v) : FactRef.read v = some fact := by
  cases fact with
  | bare name =>
    obtain rfl := h
    rfl
  | detailed name arg =>
    obtain ⟨fields, rfl, -, hname, harg⟩ := h
    simp [FactRef.read, hname, harg, Value.asStr]

/-- A name that is not among those of the fields. -/
theorem Fields.lookup {fields : List (String × Value)} {names : List String}
    (h : Fields fields names)
    {name : String} (hname : name ∉ names) : fields.lookup name = none := by
  apply lookup_eq_none_of_notMem
  intro hmem
  obtain ⟨field, hfield, rfl⟩ := List.mem_map.mp hmem
  exact hname (h.2 field hfield)

theorem lookup_readFields (fields : List (String × Value)) (name : String) :
    (readFields fields).lookup name = (fields.lookup name).map Predicates.read := by
  induction fields with
  | nil => rfl
  | cons field fields ih =>
    rw [readFields, List.lookup_cons, List.lookup_cons, ih]
    cases name == field.1 <;> rfl

/-- A node of a known kind has no other one. -/
theorem readObject_of_lookup {fields : List (String × Value)} (hand : fields.lookup "and" = none)
    (hor : fields.lookup "or" = none) (hnot : fields.lookup "not" = none) :
    readObject fields (readFields fields) = readCmp fields := by
  simp [readObject, lookup_readFields, hand, hor, hnot]

/-- The parts of a node are read if each is. -/
theorem readItems_of_wholes {parts : List Predicate} {items : List Value}
    (ih : ∀ p ∈ parts, ∀ v, p.Whole v → (Predicates.read v).one = some p)
    (h : Wholes parts items) : readItems items = some parts := by
  induction parts generalizing items with
  | nil =>
    obtain rfl := h
    rfl
  | cons p parts ihs =>
    obtain ⟨v, vs, rfl, hp, hps⟩ := h
    obtain ⟨ihp, ihparts⟩ := List.forall_mem_cons.mp ih
    simp [readItems, ihp v hp, ihs ihparts hps]

theorem Predicate.Whole.read {p : Predicate} (h : p.Whole v) :
    (Predicates.read v).one = some p := by
  induction p using Predicate.parts_induction generalizing v with
  | const b =>
    obtain rfl := h
    rfl
  | and parts ih =>
    obtain ⟨items, rfl, hitems⟩ := h
    have hread := readItems_of_wholes (fun p hp v hv => ih p hp hv) hitems
    simp [Predicates.read, readObject, readFields, hread]
  | or parts ih =>
    obtain ⟨items, rfl, hitems⟩ := h
    have hread := readItems_of_wholes (fun p hp v hv => ih p hp hv) hitems
    simp [Predicates.read, readObject, readFields, hread, List.lookup_cons]
  | not p ih =>
    obtain ⟨w, rfl, hw⟩ := h
    simp [Predicates.read, readObject, readFields, ih hw, List.lookup_cons]
  | cmp fact op value =>
    obtain ⟨fields, rfl, hknown, ⟨w, hw, hfact⟩, hop, hvalue⟩ := h
    rw [Predicates.read]
    rw [readObject_of_lookup (hknown.lookup (by decide)) (hknown.lookup (by decide))
      (hknown.lookup (by decide))]
    simp [readCmp, hw, hfact.read, hop, hvalue]

/-- The predicate that a value is read as, where its text is not refused. -/
def readStored (v : Value) : TargetPredicate :=
  let bare : TargetPredicate :=
    match (Predicates.read v).one with
    | some expr => { expr := some expr, whenUnknown := .skip }
    | none => {}
  match TargetPredicate.read v with
  | some tp => if tp.expr.isSome then tp else bare
  | none => bare

/-- A value without an expression reads as no predicate. -/
theorem readStored_eq_default (hread : ∀ tp, TargetPredicate.read v = some tp → tp.expr = none)
    (hbare : (Predicates.read v).one = none) : readStored v = {} := by
  rw [readStored, hbare]
  cases h : TargetPredicate.read v with
  | none => rfl
  | some tp => simp [hread tp h]

theorem readExpr_of_whole {expr : Option Predicate} {v : Option Value} (h : WholeExpr expr v) :
    readExpr v = some expr := by
  cases expr with
  | none =>
    obtain rfl | rfl := h
    · rfl
    · rfl
  | some p =>
    obtain ⟨w, rfl, hw⟩ := h
    have hread := hw.read
    cases w with
    | null => exact absurd hread (by simp [Predicates.read])
    | bool b | number n | string s | array items | object fields => simp [readExpr, hread]

/-- What represents an expression is no envelope of one. -/
theorem Predicate.Whole.not_envelope {p : Predicate} (h : p.Whole v)
    (hread : TargetPredicate.read v = some tp) : tp.expr = none := by
  have hobject : ∀ fields : List (String × Value), v = .object fields →
      fields.lookup "expr" = none → tp.expr = none := by
    rintro fields rfl hexpr
    rw [TargetPredicate.read, hexpr] at hread
    obtain ⟨expr, hnone, hread⟩ := Option.bind_eq_some_iff.mp hread
    obtain ⟨policy, -, heq⟩ := Option.bind_eq_some_iff.mp hread
    rw [← Option.some.inj heq]
    exact (Option.some.inj hnone).symm
  cases p with
  | const b =>
    obtain rfl := h
    exact absurd hread.symm (Option.some_ne_none tp)
  | and parts | or parts =>
    obtain ⟨items, hv, -⟩ := h
    exact hobject _ hv rfl
  | not part =>
    obtain ⟨w, hv, -⟩ := h
    exact hobject _ hv rfl
  | cmp fact op value =>
    obtain ⟨fields, hv, hknown, -⟩ := h
    exact hobject _ hv (hknown.lookup (by decide))

/-- The predicate of an envelope is what is read where the envelope itself is no expression. -/
theorem readStored_of_read (hread : TargetPredicate.read v = some tp)
    (hempty : tp.expr = none → tp.whenUnknown = .skip) (hbare : (Predicates.read v).one = none) :
    readStored v = tp := by
  cases htp : tp.expr with
  | some p => simp [readStored, hread, htp]
  | none =>
    have hpolicy := hempty htp
    have hdefault : tp = {} := by
      obtain ⟨expr, policy⟩ := tp
      obtain rfl : expr = none := htp
      obtain rfl : policy = .skip := hpolicy
      rfl
    rw [hdefault]
    refine readStored_eq_default (fun other hother => ?_) hbare
    rw [← Option.some.inj (hread.symm.trans hother), htp]

/-- What a value represents wholly is what it is read as. -/
theorem Represents.readStored (h : Represents v tp)
    (hempty : tp.expr = none → tp.whenUnknown = .skip) : readStored v = tp := by
  cases h with
  | null => rfl
  | @object fields _ known expr policy =>
    have hread : TargetPredicate.read (.object fields) = some tp := by
      simp [TargetPredicate.read, readExpr_of_whole expr, policy]
    have hbare : (Predicates.read (.object fields)).one = none := by
      rw [Predicates.read, readObject_of_lookup (known.lookup (by decide))
        (known.lookup (by decide)) (known.lookup (by decide)), readCmp,
        known.lookup (by decide)]
      rfl
    exact readStored_of_read hread hempty hbare
  | @array items _ known expr policy =>
    have hread : TargetPredicate.read (.array items) = some tp := by
      simp [TargetPredicate.read, Nat.not_lt.mpr known, readExpr_of_whole expr, policy]
    exact readStored_of_read hread hempty rfl
  | bare whole =>
    have hread := whole.read
    rw [Predicates.readStored, hread]
    split
    · rw [whole.not_envelope ‹_›]
      rfl
    · rfl

/-! ## What is serialized is represented -/

theorem FactRef.whole_toValue (fact : FactRef) : fact.Whole fact.toValue := by
  cases fact with
  | bare name => rfl
  | detailed name arg =>
    refine ⟨_, rfl, ⟨by simp [Distinct], by simp⟩, rfl, ?_⟩
    cases arg <;> rfl

theorem CmpOp.read_toValue (op : CmpOp) : CmpOp.read op.toValue = some op := by
  cases op <;> rfl

theorem WhenUnknown.read_toValue (policy : WhenUnknown) :
    WhenUnknown.read policy.toValue = some policy := by
  cases policy <;> rfl

theorem wholes_toValues {parts : List Predicate} (ih : ∀ p ∈ parts, p.Whole p.toValue) :
    Wholes parts (toValues parts) := by
  induction parts with
  | nil => rfl
  | cons p parts ihs =>
    obtain ⟨ihp, ihparts⟩ := List.forall_mem_cons.mp ih
    exact ⟨_, _, rfl, ihp, ihs ihparts⟩

theorem Predicate.whole_toValue (p : Predicate) : p.Whole p.toValue := by
  induction p using Predicate.parts_induction with
  | const b => rfl
  | and parts ih | or parts ih => exact ⟨_, rfl, wholes_toValues ih⟩
  | not p ih => exact ⟨_, rfl, ih⟩
  | cmp fact op value =>
    refine ⟨_, rfl, ⟨by simp [Distinct], by simp⟩, ⟨_, rfl, fact.whole_toValue⟩, ?_, rfl⟩
    exact op.read_toValue

theorem TargetPredicate.represents_toValue (tp : TargetPredicate) : Represents tp.toValue tp := by
  obtain ⟨expr, policy⟩ := tp
  cases expr with
  | none => exact .object ⟨by simp [Distinct], by simp⟩ (.inl rfl) policy.read_toValue
  | some p =>
    refine .object ⟨by simp [Distinct], by simp⟩ ⟨_, rfl, p.whole_toValue⟩ ?_
    exact policy.read_toValue

end Kinetix.Predicates
