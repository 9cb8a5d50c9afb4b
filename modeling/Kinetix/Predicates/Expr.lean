import Kinetix.Foundation.Json
import Kinetix.Foundation.Text

/-!
# Target predicates

The expression tree that a route target may carry, and the reading of its stored text.

## Implementation notes

The untagged enums of `serde` are read variant by variant, in the order in which they are declared.
`serde_json::from_str` of a text is a parameter; unknown fields are ignored.
-/

namespace Kinetix.Predicates
open Json

/-- How an unknown result affects the eligibility of a target. -/
inductive WhenUnknown where
  | skip
  | allow
  deriving DecidableEq

/-- `FactRef`. -/
inductive FactRef where
  | bare (name : String)
  | detailed (name : String) (arg : Option String)
  deriving DecidableEq

def FactRef.name : FactRef → String
  | bare name => name
  | detailed name _ => name

def FactRef.arg : FactRef → Option String
  | bare _ => none
  | detailed _ arg => arg

/-- `CmpOp`. -/
inductive CmpOp where
  | eq | ne | lt | lte | gt | gte | in | notIn | contains
  deriving DecidableEq

/-- `Predicate`. -/
inductive Predicate where
  | const (b : Bool)
  | and (parts : List Predicate)
  | or (parts : List Predicate)
  | not (part : Predicate)
  | cmp (fact : FactRef) (op : CmpOp) (value : Value)

/-- Induction over a predicate, where a list has the property of each of its parts. -/
@[elab_as_elim] theorem Predicate.parts_induction {P : Predicate → Prop}
    (const : ∀ b, P (.const b)) (and : ∀ parts, (∀ p ∈ parts, P p) → P (.and parts))
    (or : ∀ parts, (∀ p ∈ parts, P p) → P (.or parts)) (not : ∀ p, P p → P (.not p))
    (cmp : ∀ fact op value, P (.cmp fact op value)) (p : Predicate) : P p :=
  p.rec (motive_1 := P) (motive_2 := fun parts => ∀ p ∈ parts, P p) const and or not cmp
    (fun _ hp => absurd hp List.not_mem_nil)
    (fun _ _ h hs => List.forall_mem_cons.mpr ⟨h, hs⟩)

/-- The expression, and the policy for unknown results. -/
structure TargetPredicate where
  expr : Option Predicate := none
  whenUnknown : WhenUnknown := .skip

/-- The name of a variant without data, alone or as the only field of an object. -/
def unitVariant : Value → Option String
  | .string name => some name
  | .object [(name, .null)] => some name
  | _ => none

def WhenUnknown.read (v : Value) : Option WhenUnknown :=
  (unitVariant v).bind fun name =>
    match name with
    | "skip" => some .skip
    | "allow" => some .allow
    | _ => none

def CmpOp.read (v : Value) : Option CmpOp :=
  (unitVariant v).bind fun name =>
    match name with
    | "eq" => some .eq
    | "ne" => some .ne
    | "lt" => some .lt
    | "lte" => some .lte
    | "gt" => some .gt
    | "gte" => some .gte
    | "in" => some .in
    | "not_in" => some .notIn
    | "contains" => some .contains
    | _ => none

/-- `Option<String>` of a field that may be missing. -/
def readArg : Option Value → Option (Option String)
  | none => some none
  | some .null => some none
  | some (.string arg) => some (some arg)
  | some _ => none

def FactRef.read : Value → Option FactRef
  | .string name => some (.bare name)
  | .object fields => do
    let name ← (← fields.lookup "name").asStr
    let arg ← readArg (fields.lookup "arg")
    some (.detailed name arg)
  | _ => none

/-- A value as a predicate and as a list of predicates. -/
structure Reading where
  one : Option Predicate := none
  many : Option (List Predicate) := none

/-- `Predicate::Cmp`; the operator is `eq` if it is missing. -/
def readCmp (fields : List (String × Value)) : Option Predicate := do
  let fact ← FactRef.read (← fields.lookup "fact")
  let op ← ((fields.lookup "op").map CmpOp.read).getD (some .eq)
  let value ← fields.lookup "value"
  some (.cmp fact op value)

/-- The variants of an object in turn, with the readings of its fields. -/
def readObject (fields : List (String × Value)) (readings : List (String × Reading)) :
    Option Predicate :=
  ((readings.lookup "and").bind Reading.many).map Predicate.and <|>
  ((readings.lookup "or").bind Reading.many).map Predicate.or <|>
  ((readings.lookup "not").bind Reading.one).map Predicate.not <|>
  readCmp fields

mutual
/-- How serde reads an expression. -/
def read : Value → Reading
  | .bool b => { one := some (.const b) }
  | .array items => { many := readItems items }
  | .object fields => { one := readObject fields (readFields fields) }
  | _ => {}

def readItems : List Value → Option (List Predicate)
  | [] => some []
  | item :: items => do
    let p ← (read item).one
    let ps ← readItems items
    some (p :: ps)

def readFields : List (String × Value) → List (String × Reading)
  | [] => []
  | (name, value) :: fields => (name, read value) :: readFields fields
end

/-- `Option<Predicate>` of a field that may be missing. -/
def readExpr : Option Value → Option (Option Predicate)
  | none => some none
  | some .null => some none
  | some v => (read v).one.map some

/-- An absent policy is the default. -/
def readWhenUnknown (v : Option Value) : Option WhenUnknown :=
  (v.map WhenUnknown.read).getD (some .skip)

/-- A struct is read from an object, or from the list of its fields. -/
def TargetPredicate.read : Value → Option TargetPredicate
  | .object fields => do
    let expr ← readExpr (fields.lookup "expr")
    let whenUnknown ← readWhenUnknown (fields.lookup "when_unknown")
    some { expr, whenUnknown }
  | .array items =>
    if 2 < items.length then none
    else do
      let expr ← readExpr items[0]?
      let whenUnknown ← readWhenUnknown items[1]?
      some { expr, whenUnknown }
  | _ => none

/-- `TargetPredicate::parse`: the envelope, or else a bare expression, or else no predicate. -/
def TargetPredicate.parse (fromStr : String → Option Value) (raw : String) : TargetPredicate :=
  let text := Text.trim raw
  let bare : TargetPredicate :=
    match (fromStr raw).bind fun v => (Predicates.read v).one with
    | some expr => { expr := some expr, whenUnknown := .skip }
    | none => {}
  if text = "" ∨ text = "\x7b\x7d" ∨ text = "null" then {}
  else
    match (fromStr raw).bind TargetPredicate.read with
    | some tp => if tp.expr.isSome then tp else bare
    | none => bare

end Kinetix.Predicates
