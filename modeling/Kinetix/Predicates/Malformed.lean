import Kinetix.Predicates.Eval
import Kinetix.Predicates.Serialized

/-!
# Malformed target predicates

`write_route_targets` stores the predicate of a target as a text, and `TargetPredicate::parse` reads
it: when what the author wrote is kept, or at least not taken for no condition at all.

## Implementation notes

The text of a value is read as that value with its floats as they are read, which without the
feature `float_roundtrip` of `serde_json` can be others, or not at all if it is nested more than 127
deep. The typed reader of the code looks into fields that it ignores no further; such texts are not
stored, since the values come from a request body, which the same reader has read.
-/

namespace Kinetix.Predicates
open Json

/-! ## Floats that are read as others -/

section Floats
variable (f : ℚ → ℚ)

mutual
def Predicate.mapFloats : Predicate → Predicate
  | .const b => .const b
  | .and parts => .and (mapParts parts)
  | .or parts => .or (mapParts parts)
  | .not part => .not part.mapFloats
  | .cmp fact op value => .cmp fact op (value.mapFloats f)

def mapParts : List Predicate → List Predicate
  | [] => []
  | p :: ps => p.mapFloats :: mapParts ps
end

def TargetPredicate.mapFloats (tp : TargetPredicate) : TargetPredicate :=
  { tp with expr := tp.expr.map (Predicate.mapFloats f) }

def Reading.mapFloats (r : Reading) : Reading where
  one := r.one.map (Predicate.mapFloats f)
  many := r.many.map (mapParts f)

variable {f}

variable (v : Value)

theorem unitVariant_mapFloats : unitVariant (v.mapFloats f) = unitVariant v := by
  cases v with
  | number n => cases n <;> rfl
  | object fields =>
    match fields with
    | [] => rfl
    | [(name, value)] =>
      cases value with
      | number n => cases n <;> rfl
      | _ => rfl
    | _ :: _ :: _ => simp [unitVariant, Value.mapFloats, Value.mapFields]
  | _ => rfl

theorem opRead_mapFloats : CmpOp.read (v.mapFloats f) = CmpOp.read v := by
  rw [CmpOp.read, CmpOp.read, unitVariant_mapFloats]

theorem policyRead_mapFloats : WhenUnknown.read (v.mapFloats f) = WhenUnknown.read v := by
  rw [WhenUnknown.read, WhenUnknown.read, unitVariant_mapFloats]

theorem readArg_mapFloats (v : Option Value) : readArg (v.map (Value.mapFloats f)) = readArg v := by
  cases v with
  | none => rfl
  | some v =>
    cases v with
    | number n => cases n <;> rfl
    | _ => rfl

theorem factRead_mapFloats : FactRef.read (v.mapFloats f) = FactRef.read v := by
  cases v with
  | number n => cases n <;> rfl
  | object fields =>
    simp only [Value.mapFloats, FactRef.read, Value.lookup_mapFields, readArg_mapFloats]
    cases fields.lookup "name" <;> simp
  | _ => rfl

theorem readCmp_mapFields (fields : List (String × Value)) :
    readCmp (Value.mapFields f fields) = (readCmp fields).map (Predicate.mapFloats f) := by
  have hop : ((fields.lookup "op").map (Value.mapFloats f)).map CmpOp.read =
      (fields.lookup "op").map CmpOp.read := by
    rw [Option.map_map]
    exact congrArg (Option.map · _) (funext opRead_mapFloats)
  simp only [readCmp, Value.lookup_mapFields, hop]
  cases fields.lookup "fact" with
  | none => rfl
  | some w =>
    simp only [Option.map_some, Option.bind_eq_bind, Option.bind_some, factRead_mapFloats]
    cases FactRef.read w with
    | none => rfl
    | some fact =>
      simp only [Option.bind_some]
      cases ((fields.lookup "op").map CmpOp.read).getD (some .eq) with
      | none => rfl
      | some op => cases fields.lookup "value" <;> rfl

/-- The nodes of an object are read from the readings of its fields. -/
theorem readObject_mapFields {fields : List (String × Value)}
    {readings readings' : List (String × Reading)}
    (h : ∀ name, readings'.lookup name = (readings.lookup name).map (Reading.mapFloats f)) :
    readObject (Value.mapFields f fields) readings' =
      (readObject fields readings).map (Predicate.mapFloats f) := by
  have hmany : ∀ name, (readings'.lookup name).bind Reading.many =
      ((readings.lookup name).bind Reading.many).map (mapParts f) := by
    intro name
    rw [h]
    cases readings.lookup name <;> rfl
  have hone : (readings'.lookup "not").bind Reading.one =
      ((readings.lookup "not").bind Reading.one).map (Predicate.mapFloats f) := by
    rw [h]
    cases readings.lookup "not" <;> rfl
  simp only [readObject, hmany, hone, readCmp_mapFields]
  cases (readings.lookup "and").bind Reading.many with
  | some parts => rfl
  | none =>
    cases (readings.lookup "or").bind Reading.many with
    | some parts => rfl
    | none => cases (readings.lookup "not").bind Reading.one <;> rfl

theorem readItems_mapItems {items : List Value}
    (ih : ∀ v ∈ items, Predicates.read (v.mapFloats f) = (Predicates.read v).mapFloats f) :
    readItems (Value.mapItems f items) = (readItems items).map (mapParts f) := by
  induction items with
  | nil => rfl
  | cons item items ihs =>
    obtain ⟨ihitem, ihitems⟩ := List.forall_mem_cons.mp ih
    simp only [Value.mapItems, readItems, ihitem, ihs ihitems, Reading.mapFloats]
    cases (Predicates.read item).one with
    | none => rfl
    | some p => cases readItems items <;> rfl

theorem read_mapFloats : Predicates.read (v.mapFloats f) = (Predicates.read v).mapFloats f := by
  induction v using Value.parts_induction with
  | null | bool b | string s => rfl
  | number n => cases n <;> rfl
  | array items ih => simp only [Value.mapFloats, Predicates.read, readItems_mapItems ih]; rfl
  | object fields ih =>
    have hlookup : ∀ name, (readFields (Value.mapFields f fields)).lookup name =
        ((readFields fields).lookup name).map (Reading.mapFloats f) := by
      intro name
      rw [lookup_readFields, lookup_readFields, Value.lookup_mapFields]
      cases hname : fields.lookup name with
      | none => rfl
      | some v => exact congrArg some (ih (name, v) (mem_of_lookup hname))
    simp only [Value.mapFloats, Predicates.read, readObject_mapFields hlookup]
    rfl

theorem readExpr_mapFloats (v : Option Value) :
    readExpr (v.map (Value.mapFloats f)) =
      (readExpr v).map (Option.map (Predicate.mapFloats f)) := by
  have hread : ∀ v : Value, ((Predicates.read (v.mapFloats f)).one.map some) =
      ((Predicates.read v).one.map some).map (Option.map (Predicate.mapFloats f)) := by
    intro v
    rw [read_mapFloats, Reading.mapFloats]
    cases (Predicates.read v).one <;> rfl
  cases v with
  | none => rfl
  | some v =>
    cases v with
    | null => rfl
    | number n =>
      cases n with
      | int i => exact hread (.number (.int i))
      | float x => exact hread (.number (.float x))
    | bool b => exact hread (.bool b)
    | string s => exact hread (.string s)
    | array items => exact hread (.array items)
    | object fields => exact hread (.object fields)

theorem readWhenUnknown_mapFloats (v : Option Value) :
    readWhenUnknown (v.map (Value.mapFloats f)) = readWhenUnknown v := by
  rw [readWhenUnknown, readWhenUnknown, Option.map_map]
  exact congrArg (fun read => (Option.map read v).getD (some .skip)) (funext policyRead_mapFloats)

theorem envelope_mapFloats : TargetPredicate.read (v.mapFloats f) =
    (TargetPredicate.read v).map (TargetPredicate.mapFloats f) := by
  cases v with
  | number n => cases n <;> rfl
  | object fields =>
    simp only [Value.mapFloats, TargetPredicate.read, Value.lookup_mapFields, readExpr_mapFloats,
      readWhenUnknown_mapFloats]
    cases readExpr (fields.lookup "expr") with
    | none => rfl
    | some expr => cases readWhenUnknown (fields.lookup "when_unknown") <;> rfl
  | array items =>
    simp only [Value.mapFloats, TargetPredicate.read, Value.mapItems_eq, List.length_map,
      List.getElem?_map, readExpr_mapFloats, readWhenUnknown_mapFloats]
    split
    · rfl
    · cases readExpr items[0]? with
      | none => rfl
      | some expr => cases readWhenUnknown items[1]? <;> rfl
  | _ => rfl

/-- The predicate of a value with other floats is the one of the value with these. -/
theorem readStored_mapFloats : readStored (v.mapFloats f) = (readStored v).mapFloats f := by
  simp only [readStored, envelope_mapFloats, read_mapFloats, Reading.mapFloats]
  cases TargetPredicate.read v with
  | none => cases (Predicates.read v).one <;> rfl
  | some tp =>
    obtain ⟨expr, policy⟩ := tp
    cases expr with
    | some p => rfl
    | none => cases (Predicates.read v).one <;> rfl

end Floats

/-! ## Stored texts -/

/-- The texts of values, and what is read of them. -/
structure Reader where
  floatText : ℚ → String
  fromStr : String → Option Value
  /-- The float that its text is read as. -/
  reread : ℚ → ℚ

/-- The text of a value is read, up to its floats, if it is not nested too deeply. -/
def Reader.Reads (reader : Reader) (v : Value) : Prop :=
  reader.fromStr (v.toText reader.floatText) =
    if v.depth ≤ 127 then some (v.mapFloats reader.reread) else none

/-- The text that `write_route_targets` stores. -/
def storedText (floatText : ℚ → String) (predicate : Value) : String :=
  if predicate.isNull then "\x7b\x7d" else predicate.toText floatText

/-- `serde_json::to_string`. -/
def TargetPredicate.serialize (floatText : ℚ → String) (tp : TargetPredicate) : String :=
  tp.toValue.toText floatText

/-- The texts for which no predicate is read. -/
def Trivial (text : String) : Prop :=
  Text.trim text = "" ∨ Text.trim text = "\x7b\x7d" ∨ Text.trim text = "null"

instance (text : String) : Decidable (Trivial text) := inferInstanceAs (Decidable (_ ∨ _ ∨ _))

variable {floatText : ℚ → String} {fromStr : String → Option Value} {reader : Reader}
  {v : Value} {p : Predicate} {tp : TargetPredicate}

theorem parse_of_trivial {text : String} (h : Trivial text) :
    TargetPredicate.parse fromStr text = {} := if_pos h

theorem parse_of_not_trivial {text : String} (h : ¬ Trivial text) :
    TargetPredicate.parse fromStr text = ((fromStr text).map readStored).getD {} := by
  refine (if_neg h).trans ?_
  cases fromStr text <;> rfl

/-- A text in which there is a bracket or a quotation mark says something. -/
theorem not_trivial_of_mem {text : String} {c : Char} (hc : c = '[' ∨ c = '"')
    (h : c ∈ text.toList) : ¬ Trivial text := by
  have hspace : Text.isWhitespace c = false := by rcases hc with rfl | rfl <;> decide
  have hmem := Text.mem_trim hspace h
  rintro (heq | heq | heq)
  · rw [heq] at hmem
    rcases hc with rfl | rfl <;> exact absurd hmem (by decide +kernel)
  · rw [heq] at hmem
    rcases hc with rfl | rfl <;> exact absurd hmem (by decide +kernel)
  · rw [heq] at hmem
    rcases hc with rfl | rfl <;> exact absurd hmem (by decide +kernel)

/-- Where the text of a value is trivial, the value is no predicate. -/
theorem readStored_of_trivial (f : ℚ → ℚ) (h : Trivial (v.toText floatText)) :
    readStored (v.mapFloats f) = {} := by
  cases v with
  | null | string s => rfl
  | bool b =>
    cases b with
    | true => exact absurd (show Trivial "true" from h) (by decide +kernel)
    | false => exact absurd (show Trivial "false" from h) (by decide +kernel)
  | number n => cases n <;> rfl
  | array items =>
    refine absurd h (not_trivial_of_mem (.inl rfl) ?_)
    simp [Value.toText]
  | object fields =>
    cases fields with
    | nil => rfl
    | cons field fields =>
      refine absurd h (not_trivial_of_mem (.inr rfl) ?_)
      have hname : '"' ∈ (quoted field.1 ++ ":" ++ field.2.toText floatText).toList := by
        simp [quoted]
      rw [Value.toText, Value.fieldTexts, String.toList_append, String.toList_append]
      exact List.mem_append_left _ (List.mem_append_right _ (Text.mem_intercalate_cons hname))

/-- What is parsed of the text of a value. -/
theorem parse_toText (h : reader.Reads v) :
    TargetPredicate.parse reader.fromStr (v.toText reader.floatText) =
      if v.depth ≤ 127 then (readStored v).mapFloats reader.reread else {} := by
  by_cases htrivial : Trivial (v.toText reader.floatText)
  · rw [parse_of_trivial htrivial, ← readStored_mapFloats, readStored_of_trivial _ htrivial,
      ite_self]
  · rw [parse_of_not_trivial htrivial, h]
    split
    · rw [Option.map_some, Option.getD_some, readStored_mapFloats]
    · rfl

/-- What is parsed of the text that is stored for a value. -/
theorem parse_storedText (h : reader.Reads v) :
    TargetPredicate.parse reader.fromStr (storedText reader.floatText v) =
      if v.depth ≤ 127 then (readStored v).mapFloats reader.reread else {} := by
  rw [storedText]
  split
  next hnull =>
    cases v with
    | null => exact parse_of_trivial (by decide +kernel)
    | _ => exact Bool.noConfusion hnull
  next => exact parse_toText h

/-! ## Predicates that are kept -/

/-- A target is eligible for every request, the floats being printed as the code prints them. -/
def Unconditional (floatText : ℚ → String) (tp : TargetPredicate) : Prop :=
  ∀ (req : RequestFacts) (t : TargetFacts) (plugin : PluginFacts),
    ∃ e, eligibilityWithFacts floatText req t plugin tp = some e ∧ e.eligible = true

/-- What is parsed of the stored text represents the value wholly, and is parsed again of its own
text. -/
def Exact (reader : Reader) (v : Value) : Prop :=
  Represents v (TargetPredicate.parse reader.fromStr (storedText reader.floatText v)) ∧
    TargetPredicate.parse reader.fromStr
        ((TargetPredicate.parse reader.fromStr (storedText reader.floatText v)).serialize
          reader.floatText) =
      TargetPredicate.parse reader.fromStr (storedText reader.floatText v)

/-- The stored predicate is exact, or is at least some condition. -/
def Kept (reader : Reader) (v : Value) : Prop :=
  Exact reader v ∨
    ¬ Unconditional reader.floatText
      (TargetPredicate.parse reader.fromStr (storedText reader.floatText v))

/-- What is written of a target predicate is nested no deeper than can be read, and its floats are
read as they are. -/
def Legible (reader : Reader) (tp : TargetPredicate) : Prop :=
  tp.expr = none ∧ tp.whenUnknown = .skip ∨
    tp.expr.isSome ∧ tp.toValue.depth ≤ 127 ∧ tp.mapFloats reader.reread = tp

theorem unconditional_default : Unconditional floatText {} := fun _ _ _ => ⟨_, rfl, rfl⟩

theorem default_of_expr_none {tp : TargetPredicate} (h : tp.expr = none)
    (hpolicy : tp.whenUnknown = .skip) : tp = {} := by
  obtain ⟨expr, policy⟩ := tp
  obtain rfl : expr = none := h
  obtain rfl : policy = .skip := hpolicy
  rfl

/-- Without an expression there is no policy either in what is read. -/
theorem readStored_policy (h : (readStored v).expr = none) :
    (readStored v).whenUnknown = .skip := by
  cases htp : TargetPredicate.read v with
  | none => cases hone : (Predicates.read v).one <;> simp [readStored, htp, hone]
  | some tp =>
    cases hexpr : tp.expr with
    | some expr => simp [readStored, htp, hexpr] at h
    | none => cases hone : (Predicates.read v).one <;> simp [readStored, htp, hexpr, hone]

/-- A target predicate is parsed of its own text exactly if it is legible. -/
theorem parse_serialize_iff (h : reader.Reads tp.toValue) :
    TargetPredicate.parse reader.fromStr (tp.serialize reader.floatText) = tp ↔
      Legible reader tp := by
  rw [TargetPredicate.serialize, parse_toText h]
  constructor
  · intro heq
    cases hexpr : tp.expr with
    | none =>
      refine .inl ⟨hexpr, ?_⟩
      split at heq
      · have hnone : (readStored tp.toValue).expr = none := by
          have hmap : (readStored tp.toValue).expr.map _ = none :=
            (congrArg TargetPredicate.expr heq).trans hexpr
          exact Option.map_eq_none_iff.mp hmap
        have hpolicy := congrArg TargetPredicate.whenUnknown heq
        exact hpolicy.symm.trans (readStored_policy hnone)
      · exact (congrArg TargetPredicate.whenUnknown heq).symm
    | some expr =>
      have hread := tp.represents_toValue.readStored fun hnone =>
        absurd (hnone.symm.trans hexpr) (Option.some_ne_none expr).symm
      split at heq
      next hdepth => exact .inr ⟨hexpr ▸ rfl, hdepth, by rwa [hread] at heq⟩
      next =>
        have hnone := (congrArg TargetPredicate.expr heq).trans hexpr
        exact absurd hnone.symm (Option.some_ne_none expr)
  · rintro (⟨hnone, hskip⟩ | ⟨hsome, hdepth, hfloats⟩)
    · obtain rfl := default_of_expr_none hnone hskip
      rfl
    · rw [if_pos hdepth, tp.represents_toValue.readStored, hfloats]
      intro hnone
      rw [hnone] at hsome
      exact Bool.noConfusion hsome

theorem legible_default : Legible reader {} := .inl ⟨rfl, rfl⟩

/-- A value is kept exactly if it says nothing, if it is not nested too deeply and is wholly a
predicate that is legible, or if it is read as one that refuses some request. -/
theorem kept_iff (hv : reader.Reads v) (hs : reader.Reads
      (TargetPredicate.parse reader.fromStr (storedText reader.floatText v)).toValue) :
    Kept reader v ↔ Represents v {} ∨ v.depth ≤ 127 ∧
      ((∃ own, Represents v own ∧ own.expr.isSome ∧ Legible reader own) ∨
        ¬ Unconditional reader.floatText ((readStored v).mapFloats reader.reread)) := by
  have hparse := parse_storedText hv
  constructor
  · rintro (⟨hrep, hagain⟩ | hcond)
    · have hlegible := (parse_serialize_iff hs).mp hagain
      obtain ⟨hnone, hskip⟩ | ⟨hsome, -⟩ := id hlegible
      · rw [default_of_expr_none hnone hskip] at hrep
        exact .inl hrep
      · refine .inr ⟨?_, .inl ⟨_, hrep, hsome, hlegible⟩⟩
        by_contra hdeep
        rw [hparse, if_neg hdeep] at hsome
        exact Bool.noConfusion hsome
    · rw [hparse] at hcond
      split at hcond
      next hdepth => exact .inr ⟨hdepth, .inr hcond⟩
      next => exact absurd unconditional_default hcond
  · rintro (hrep | ⟨hdepth, ⟨own, hrep, hsome, hlegible⟩ | hcond⟩)
    · have hdefault :
          TargetPredicate.parse reader.fromStr (storedText reader.floatText v) = {} := by
        rw [hparse, hrep.readStored fun _ => rfl]
        exact ite_self _
      refine .inl ⟨hdefault ▸ hrep, (parse_serialize_iff hs).mpr ?_⟩
      exact hdefault ▸ legible_default
    · have hexpr : own.expr ≠ none := fun hnone => by simp [hnone] at hsome
      have hown : TargetPredicate.parse reader.fromStr (storedText reader.floatText v) = own := by
        rw [hparse, if_pos hdepth, hrep.readStored fun hnone => absurd hnone hexpr]
        obtain ⟨hnone, -⟩ | ⟨-, -, hfloats⟩ := hlegible
        · exact absurd hnone hexpr
        · exact hfloats
      refine .inl ⟨hown ▸ hrep, (parse_serialize_iff hs).mpr ?_⟩
      exact hown ▸ hlegible
    · rw [Kept, hparse, if_pos hdepth]
      exact .inr hcond

/-- The condition that a request has tools, without an operator. -/
def toolsValue : Value := .object [("fact", .string "has_tools"), ("value", .bool true)]

def toolsPredicate : TargetPredicate :=
  { expr := some (.cmp (.bare "has_tools") .eq (.bool true)) }

/-- The same condition with an operator that there is not. -/
def misspeltValue : Value :=
  .object [("fact", .string "has_tools"), ("op", .string "equals"), ("value", .bool true)]

/-- A reader of the texts of some values. -/
def readerOf (values : List Value) : Reader where
  floatText _ := "0.5"
  fromStr text := values.find? fun v => v.toText (fun _ => "0.5") = text
  reread := id

theorem readerOf_reads {values : List Value} (hdepth : v.depth ≤ 127) (hfloats : v.mapFloats id = v)
    (hfind : values.find? (fun w => w.toText (fun _ => "0.5") = v.toText fun _ => "0.5") = some v) :
    (readerOf values).Reads v := by
  rw [Reader.Reads, if_pos hdepth]
  exact hfind.trans (congrArg some hfloats.symm)

end Kinetix.Predicates
