import Kinetix.Library.Binary64

/-!
# JSON values

`serde_json::Value` as the code builds and reads it. The fields of an object are in the order in
which they were inserted, and have different names.
-/

namespace Kinetix.Json

inductive Number where
  | int (n : Int)
  | float (x : ℚ)
  deriving DecidableEq

/-- `serde_json::Value`. -/
inductive Value where
  | null
  | bool (b : Bool)
  | number (n : Number)
  | string (s : String)
  | array (items : List Value)
  | object (fields : List (String × Value))

namespace Value

instance : Inhabited Value := ⟨null⟩

/-- `Value::get` with a name. -/
def get (v : Value) (name : String) : Option Value :=
  match v with
  | object fields => fields.lookup name
  | _ => none

/-- `Value::as_str`. -/
def asStr : Value → Option String
  | string s => some s
  | _ => none

/-- `Value::as_bool`. -/
def asBool : Value → Option Bool
  | bool b => some b
  | _ => none

/-- `Value::as_array`. -/
def asArray : Value → Option (List Value)
  | array items => some items
  | _ => none

/-- `Value::as_object`. -/
def asObject : Value → Option (List (String × Value))
  | object fields => some fields
  | _ => none

/-- `Value::as_u64`. -/
def asU64 : Value → Option Nat
  | number (.int n) => if 0 ≤ n ∧ n < 2 ^ 64 then some n.toNat else none
  | _ => none

/-- `Value::as_i64`. -/
def asI64 : Value → Option Int
  | number (.int n) => if -2 ^ 63 ≤ n ∧ n < 2 ^ 63 then some n else none
  | _ => none

/-- `Value::as_f64`. -/
def asF64 : Value → Option ℚ
  | number (.int n) => some (Binary64.roundF64 n)
  | number (.float x) => some x
  | _ => none

def isNull : Value → Bool
  | null => true
  | _ => false

def isString : Value → Bool
  | string _ => true
  | _ => false

def isBoolean : Value → Bool
  | bool _ => true
  | _ => false

def isNumber : Value → Bool
  | number _ => true
  | _ => false

end Value

/-- `Map::insert`: a field that exists keeps its place. -/
def insertField (name : String) (value : Value) : List (String × Value) → List (String × Value)
  | [] => [(name, value)]
  | field :: fields =>
    if field.1 = name then (name, value) :: fields
    else field :: insertField name value fields

theorem lookup_insertField (name : String) (value : Value) (fields : List (String × Value)) :
    (insertField name value fields).lookup name = some value := by
  induction fields with
  | nil => simp [insertField]
  | cons field fields ih =>
    rw [insertField]
    split
    next h => simp
    next h =>
      rw [List.lookup_cons, ih]
      have hne : (name == field.1) = false := by simpa using Ne.symm h
      rw [hne]

/-- `Map::remove`: the last field takes the place of the one that is removed. -/
def removeField (name : String) (fields : List (String × Value)) : List (String × Value) :=
  match fields.findIdx? (·.1 == name), fields.getLast? with
  | some i, some last => fields.dropLast.set i last
  | some _, none => fields
  | none, _ => fields

/-- A change of the value of a field, if the field exists. -/
def mapField (name : String) (f : Value → Value) (fields : List (String × Value)) :
    List (String × Value) :=
  fields.map fun field => if field.1 = name then (field.1, f field.2) else field

/-- The text of a value and its reading. -/
structure SerdeJson where
  /-- `serde_json::from_str`. -/
  fromStr : String → Option Value
  /-- `Value::to_string`. -/
  toString : Value → String

/-- A reader that knows the empty object only. -/
def SerdeJson.ofEmptyObject : SerdeJson where
  fromStr text := if text = "{}" then some (.object []) else none
  toString _ := "{}"

end Kinetix.Json
