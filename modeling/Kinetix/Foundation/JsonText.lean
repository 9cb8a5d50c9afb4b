import Kinetix.Foundation.JsonFields

/-!
# JSON values as texts

`Value::to_string` and `==` of `serde_json`, and what a change of the floats of a value leaves as it
is.

## Implementation notes

The text of a float is a parameter. A float is the rational that it stands for; no number of JSON is
out of range.
-/

namespace Kinetix.Json

/-- `char::escape` as `serde_json` writes it. -/
def escapeChar (c : Char) : List Char :=
  match c with
  | '"' => ['\\', '"']
  | '\\' => ['\\', '\\']
  | '\n' => ['\\', 'n']
  | '\r' => ['\\', 'r']
  | '\t' => ['\\', 't']
  | c =>
    if c.toNat = 8 then ['\\', 'b']
    else if c.toNat = 12 then ['\\', 'f']
    else if c.toNat < 32 then
      ['\\', 'u', '0', '0', Nat.digitChar (c.toNat / 16), Nat.digitChar (c.toNat % 16)]
    else [c]

/-- A string in quotation marks. -/
def quoted (s : String) : String := "\"" ++ String.ofList (s.toList.flatMap escapeChar) ++ "\""

namespace Value

section
variable (floatText : ℚ → String)

mutual
/-- `Value::to_string`. -/
def toText : Value → String
  | null => "null"
  | bool b => if b then "true" else "false"
  | number (.int n) => ToString.toString n
  | number (.float x) => floatText x
  | string s => quoted s
  | array items => "[" ++ ",".intercalate (itemTexts items) ++ "]"
  | object fields => "\x7b" ++ ",".intercalate (fieldTexts fields) ++ "\x7d"

def itemTexts : List Value → List String
  | [] => []
  | item :: items => toText item :: itemTexts items

def fieldTexts : List (String × Value) → List String
  | [] => []
  | (name, value) :: fields => (quoted name ++ ":" ++ toText value) :: fieldTexts fields
end

end

mutual
/-- `==`: the order of the fields of an object does not matter. -/
def eq : Value → Value → Bool
  | null, null => true
  | bool a, bool b => a == b
  | number m, number n => m == n
  | string s, string t => s == t
  | array xs, array ys => eqItems xs ys
  | object xs, object ys => xs.length == ys.length && eqFields xs ys
  | _, _ => false

def eqItems : List Value → List Value → Bool
  | [], [] => true
  | x :: xs, y :: ys => eq x y && eqItems xs ys
  | _, _ => false

/-- Each field of the first object is in the second. -/
def eqFields : List (String × Value) → List (String × Value) → Bool
  | [], _ => true
  | (name, x) :: xs, ys => (ys.lookup name).any (eq x) && eqFields xs ys
end

end Value

/-- A reader that knows the texts of some values only, of which none has a float. -/
def SerdeJson.ofValues (values : List Value) : SerdeJson where
  fromStr text := values.find? fun v => v.toText (fun _ => "") = text
  toString := Value.toText fun _ => ""

theorem SerdeJson.ofValues_toString (values : List Value)
    (h : (values.map (SerdeJson.ofValues values).toString).Nodup) {v : Value} (hv : v ∈ values) :
    (SerdeJson.ofValues values).fromStr ((SerdeJson.ofValues values).toString v) = some v := by
  have hfound : ((SerdeJson.ofValues values).fromStr
      ((SerdeJson.ofValues values).toString v)).isSome :=
    List.find?_isSome.mpr ⟨v, hv, decide_eq_true rfl⟩
  obtain ⟨found, hfound⟩ := Option.isSome_iff_exists.mp hfound
  have htext := List.find?_some hfound
  rw [decide_eq_true_eq] at htext
  rw [hfound, List.inj_on_of_nodup_map h (List.mem_of_find?_eq_some hfound) hv htext]

namespace Value

section
variable (f : ℚ → ℚ)

mutual
/-- A change of the floats of a value. -/
def mapFloats : Value → Value
  | null => null
  | bool b => bool b
  | number (.int n) => number (.int n)
  | number (.float x) => number (.float (f x))
  | string s => string s
  | array items => array (mapItems items)
  | object fields => object (mapFields fields)

def mapItems : List Value → List Value
  | [] => []
  | item :: items => mapFloats item :: mapItems items

def mapFields : List (String × Value) → List (String × Value)
  | [] => []
  | (name, value) :: fields => (name, mapFloats value) :: mapFields fields
end

variable {f}

theorem mapItems_eq (items : List Value) : mapItems f items = items.map (mapFloats f) := by
  induction items with
  | nil => rfl
  | cons item items ih => rw [mapItems, ih, List.map_cons]

theorem lookup_mapFields (fields : List (String × Value)) (name : String) :
    (mapFields f fields).lookup name = (fields.lookup name).map (mapFloats f) := by
  induction fields with
  | nil => rfl
  | cons field fields ih =>
    rw [mapFields, List.lookup_cons, List.lookup_cons, ih]
    cases name == field.1 <;> rfl

@[simp] theorem asStr_mapFloats (v : Value) : (mapFloats f v).asStr = v.asStr := by
  fun_cases mapFloats f v <;> rfl

end

mutual
/-- How deeply arrays and objects are nested. -/
def depth : Value → Nat
  | array items => itemsDepth items + 1
  | object fields => fieldsDepth fields + 1
  | _ => 0

def itemsDepth : List Value → Nat
  | [] => 0
  | item :: items => max (depth item) (itemsDepth items)

def fieldsDepth : List (String × Value) → Nat
  | [] => 0
  | (_, value) :: fields => max (depth value) (fieldsDepth fields)
end

end Value
end Kinetix.Json
