import Kinetix.Predicates.Eval

/-!
# Which predicates can be evaluated, and to what

The results of `eval_with_facts` are those of a short-circuit evaluation of the formula whose atoms
are the comparisons, and only the explanation of a comparison can panic. Where it can be evaluated,
a predicate has its strong Kleene value, whatever the order of the children, and further facts of
plugins change what is unknown only.
-/

namespace Kinetix.Predicates
open Json Kleene

structure Comparison where
  fact : FactRef
  op : CmpOp
  value : Value

mutual
/-- A predicate as a formula over its comparisons. -/
def Predicate.formula : Predicate → Formula Comparison
  | .const b => .const b
  | .and parts => .join false (formulas parts)
  | .or parts => .join true (formulas parts)
  | .not part => .neg part.formula
  | .cmp fact op value => .atom ⟨fact, op, value⟩

def formulas : List Predicate → List (Formula Comparison)
  | [] => []
  | p :: ps => p.formula :: formulas ps
end

/-- What an operator says of two values, if it is defined for them. -/
def holds (op : CmpOp) (actual expected : Value) : Option Bool :=
  match op with
  | .eq => some (jsonEq actual expected)
  | .ne => some (!jsonEq actual expected)
  | .lt | .lte | .gt | .gte =>
    (actual.asF64).bind fun a => (expected.asF64).bind fun b => compareNumbers op a b
  | .in => expected.asArray.map fun arr => arr.any (jsonEq actual)
  | .notIn => expected.asArray.map fun arr => !arr.any (jsonEq actual)
  | .contains =>
    match actual, expected with
    | .string s, .string sub => some (Text.contains s sub)
    | .array a, v => some (a.any fun x => jsonEq x v)
    | _, _ => none

/-- The value of what is known and defined. -/
def ofOption (b : Option Bool) : Truth := (b.map Truth.ofBool).getD .unknown

/-- The text of a value is short, or can be cut at byte 60. -/
def Fits (floatText : ℚ → String) (v : Value) : Prop :=
  (v.toText floatText).utf8ByteSize ≤ 60 ∨ Text.IsCharBoundary (v.toText floatText) 60

theorem compact_isSome_iff {floatText : ℚ → String} {v : Value} :
    (compact floatText v).isSome ↔ Fits floatText v := by
  rw [compact, Fits]
  split
  next h => rw [Option.isSome_map, Text.sliceTo_isSome_iff, or_iff_right (Nat.not_le.mpr h)]
  next h => exact iff_of_true rfl (.inl (Nat.not_lt.mp h))

/-- The comparison always answers, and with what the operator says. -/
theorem judge_result (label : String) (op : CmpOp) (actual expected : Value) :
    (judge label op actual expected).map (·.result) =
      some (ofOption (holds op actual expected)) := by
  cases op with
  | eq | ne => rfl
  | lt | lte | gt | gte =>
    simp only [judge, holds]
    cases actual.asF64 with
    | none => rfl
    | some a =>
      cases expected.asF64 with
      | none | some b => rfl
  | «in» | notIn =>
    simp only [judge, holds]
    cases expected.asArray with
    | none | some arr => rfl
  | contains =>
    cases actual with
    | array a => rfl
    | string s => cases expected <;> rfl
    | null | bool | number | object => rfl

section
variable {floatText : ℚ → String} {req : RequestFacts} {t : TargetFacts} {plugin : PluginFacts}

/-- The value of a comparison: unknown if the fact is, or if the operator is not defined. -/
def Comparison.truth (req : RequestFacts) (t : TargetFacts) (plugin : PluginFacts)
    (c : Comparison) : Truth :=
  ofOption ((factValue c.fact req t plugin).bind fun actual => holds c.op actual c.value)

/-- The explanation can be built: the fact is unknown, or the expected value fits. -/
def Comparison.Shown (floatText : ℚ → String) (req : RequestFacts) (t : TargetFacts)
    (plugin : PluginFacts) (c : Comparison) : Prop :=
  (factValue c.fact req t plugin).isSome → Fits floatText c.value

/-- The result of a comparison, if it does not panic. -/
def Comparison.result (floatText : ℚ → String) (req : RequestFacts) (t : TargetFacts)
    (plugin : PluginFacts) (c : Comparison) : Option Truth :=
  (evalCmp floatText req t plugin c.fact c.op c.value).map (·.result)

/-- A comparison answers its value if its explanation can be built, and panics if not. -/
theorem Comparison.result_eq_some_iff {c : Comparison} {r : Truth} :
    c.result floatText req t plugin = some r ↔
      r = c.truth req t plugin ∧ c.Shown floatText req t plugin := by
  rw [result, evalCmp, truth, Shown]
  cases factValue c.fact req t plugin with
  | none => simp [Eval.unknown, ofOption, eq_comm]
  | some actual =>
    simp only [Option.isSome_some, true_imp_iff, Option.bind_some, ← compact_isSome_iff]
    cases compact floatText c.value with
    | none => simp
    | some text => simp [judge_result, eq_comm]

theorem Comparison.result_isSome_iff {c : Comparison} :
    (c.result floatText req t plugin).isSome ↔ c.Shown floatText req t plugin := by
  simp [Option.isSome_iff_exists, result_eq_some_iff]

/-! ## The evaluation as one of a formula -/

theorem andLoop_result {ps : List Predicate}
    (ih : ∀ p ∈ ps, (evalWithFacts floatText req t plugin p).map (·.result) =
      p.formula.run (Comparison.result floatText req t plugin)) (parts : List String)
    (sawUnknown : Bool) :
    (andLoop floatText req t plugin parts sawUnknown ps).map (·.result) =
      Formula.scan (Comparison.result floatText req t plugin) false sawUnknown (formulas ps) := by
  induction ps generalizing parts sawUnknown with
  | nil => cases sawUnknown <;> rfl
  | cons p ps ihps =>
    rw [List.forall_mem_cons] at ih
    rw [formulas, Formula.scan, ← ih.1, andLoop]
    cases evalWithFacts floatText req t plugin p with
    | none => rfl
    | some e =>
      rw [Option.bind_some, Option.map_some, Option.bind_some]
      cases hr : e.result with
      | no => rfl
      | unknown =>
        rw [ihps ih.2, if_neg (by decide)]
        exact congrArg (Formula.scan _ _ · _) (Bool.or_true sawUnknown).symm
      | yes =>
        rw [ihps ih.2, if_neg (by decide)]
        exact congrArg (Formula.scan _ _ · _) (Bool.or_false sawUnknown).symm

theorem orLoop_result {ps : List Predicate}
    (ih : ∀ p ∈ ps, (evalWithFacts floatText req t plugin p).map (·.result) =
      p.formula.run (Comparison.result floatText req t plugin)) (parts : List String)
    (sawUnknown : Bool) :
    (orLoop floatText req t plugin parts sawUnknown ps).map (·.result) =
      Formula.scan (Comparison.result floatText req t plugin) true sawUnknown (formulas ps) := by
  induction ps generalizing parts sawUnknown with
  | nil => cases sawUnknown <;> rfl
  | cons p ps ihps =>
    rw [List.forall_mem_cons] at ih
    rw [formulas, Formula.scan, ← ih.1, orLoop]
    cases evalWithFacts floatText req t plugin p with
    | none => rfl
    | some e =>
      rw [Option.bind_some, Option.map_some, Option.bind_some]
      cases hr : e.result with
      | yes => rfl
      | unknown =>
        rw [ihps ih.2, if_neg (by decide)]
        exact congrArg (Formula.scan _ _ · _) (Bool.or_true sawUnknown).symm
      | no =>
        rw [ihps ih.2, if_neg (by decide)]
        exact congrArg (Formula.scan _ _ · _) (Bool.or_false sawUnknown).symm

/-- The results are those of the formula, whose atoms answer what the comparisons do. -/
theorem evalWithFacts_result (p : Predicate) :
    (evalWithFacts floatText req t plugin p).map (·.result) =
      p.formula.run (Comparison.result floatText req t plugin) := by
  induction p using Predicate.parts_induction with
  | const b | cmp fact op value => rfl
  | and parts ih => exact andLoop_result ih [] false
  | or parts ih => exact orLoop_result ih [] false
  | not p ih =>
    rw [Predicate.formula, Formula.run, ← ih, evalWithFacts, Option.map_map, Option.map_map]
    rfl

/-- The comparisons that an evaluation reaches: the children of a list are taken in turn, up to the
first that settles it. -/
def Predicate.reached (req : RequestFacts) (t : TargetFacts) (plugin : PluginFacts)
    (p : Predicate) : List Comparison :=
  p.formula.reads (Comparison.truth req t plugin)

/-- Every comparison that is reached can be explained. -/
def Predicate.Shown (floatText : ℚ → String) (req : RequestFacts) (t : TargetFacts)
    (plugin : PluginFacts) (p : Predicate) : Prop :=
  ∀ c ∈ p.reached req t plugin, c.Shown floatText req t plugin

/-- The strong Kleene value of a predicate. -/
def Predicate.kleene (req : RequestFacts) (t : TargetFacts) (plugin : PluginFacts)
    (p : Predicate) : Truth :=
  p.formula.value (Comparison.truth req t plugin)

/-- What the evaluation of a predicate answers, and when it does. -/
theorem evalWithFacts_eq_some_iff {p : Predicate} {r : Truth} :
    (evalWithFacts floatText req t plugin p).map (·.result) = some r ↔
      r = p.kleene req t plugin ∧ p.Shown floatText req t plugin := by
  rw [evalWithFacts_result, Formula.run_eq_some_iff
    (v := Comparison.truth req t plugin) fun c r h => (Comparison.result_eq_some_iff.mp h).1]
  simp only [Comparison.result_isSome_iff]
  rfl

theorem evalWithFacts_isSome_iff {p : Predicate} :
    (evalWithFacts floatText req t plugin p).isSome ↔ p.Shown floatText req t plugin := by
  rw [← Option.isSome_map (f := (·.result)), Option.isSome_iff_exists]
  simp only [evalWithFacts_eq_some_iff, exists_and_right, exists_eq, true_and]

end

/-- The evaluation of a predicate and the eligibility of its target are values if and only if every
comparison that is reached, and whose fact is known, expects a value whose text is at most 60 bytes
long or has a character boundary there. -/
theorem eligibility_isSome_iff (floatText : ℚ → String) (req : RequestFacts) (t : TargetFacts)
    (plugin : PluginFacts) (pred : TargetPredicate) :
    ((eligibilityWithFacts floatText req t plugin pred).isSome ∧
      ∀ expr, pred.expr = some expr →
        (evalWithFacts floatText req t plugin expr).isSome) ↔
      ∀ expr, pred.expr = some expr → expr.Shown floatText req t plugin := by
  rw [eligibilityWithFacts]
  cases pred.expr with
  | none => simp
  | some expr =>
    simp only [Option.some.injEq, forall_eq', Option.isSome_map, and_self]
    exact evalWithFacts_isSome_iff

/-! ## A text that is cut inside a character -/

/-- Letters of two bytes: behind the quotation mark, byte 60 is inside one of them. -/
def longTag : String := String.ofList (List.replicate 40 'é')

def tagPredicate : Predicate := .cmp (.bare "key_tag") .eq (.string longTag)

/-- The stored text of the predicate. -/
def tagText : String := "\x7b\"fact\":\"key_tag\",\"value\":\"" ++ longTag ++ "\"\x7d"

/-- A reader that knows this text only. -/
def readTagText (text : String) : Option Value :=
  if text = tagText then
    some (.object [("fact", .string "key_tag"), ("value", .string longTag)])
  else none

def tagRequest : RequestFacts where
  frontend := "openai"
  requestedModel := "coder"
  requestedRoute := none
  keyTag := some "dev"
  hasTools := false
  hasImages := false
  hasReasoning := false
  inputTokens := 100

def plainTarget : TargetFacts where
  modelId := "m1"
  providerId := "p1"
  capabilities := {}
  capabilitiesRaw := .object []
  contextWindow := none
  maxOutputTokens := none

/-- A predicate that the parser accepts cannot be evaluated for a key with a tag. -/
theorem eligibility_panics :
    TargetPredicate.parse readTagText tagText = { expr := some tagPredicate } ∧
    ¬ ∀ (floatText : ℚ → String) (fromStr : String → Option Value) (raw : String)
      (req : RequestFacts) (t : TargetFacts) (plugin : PluginFacts),
      (eligibilityWithFacts floatText req t plugin (TargetPredicate.parse fromStr raw)).isSome := by
  have hparse : TargetPredicate.parse readTagText tagText = { expr := some tagPredicate } := by
    have hraw : readTagText tagText =
        some (.object [("fact", .string "key_tag"), ("value", .string longTag)]) := if_pos rfl
    have htext : ¬ (Text.trim tagText = "" ∨ Text.trim tagText = "\x7b\x7d" ∨
        Text.trim tagText = "null") := by decide +kernel
    rw [TargetPredicate.parse, if_neg htext, hraw]
    rfl
  refine ⟨hparse, fun h => ?_⟩
  have hsome := h (fun _ => "0.5") readTagText tagText tagRequest plainTarget {}
  rw [hparse] at hsome
  revert hsome
  decide +kernel

variable {floatText : ℚ → String} {req : RequestFacts} {t : TargetFacts} {plugin : PluginFacts}

/-- A fact that is known keeps its value when plugins contribute further ones. -/
theorem factValue_insertAll {fact : FactRef} {v : Value}
    (h : factValue fact req t plugin = some v) (entries : List PluginFactEntry) :
    factValue fact req t (plugin.insertAll entries) = some v := by
  rw [factValue] at h ⊢
  split at h
  next hplugin =>
    rw [if_pos hplugin]
    exact PluginFacts.get_insertAll h entries
  next hnative =>
    rw [if_neg hnative]
    exact h

theorem Comparison.truth_extends (entries : List PluginFactEntry) (c : Comparison) :
    Truth.Extends (c.truth req t plugin) (c.truth req t (plugin.insertAll entries)) := by
  rw [truth, truth]
  cases h : factValue c.fact req t plugin with
  | none => exact .inl rfl
  | some v =>
    rw [factValue_insertAll h]
    exact Truth.extends_refl _

/-- A value that is known is kept, and only one that is unknown may become known. -/
theorem Predicate.kleene_extends (entries : List PluginFactEntry) (p : Predicate) :
    Truth.Extends (p.kleene req t plugin) (p.kleene req t (plugin.insertAll entries)) :=
  Formula.value_extends (Comparison.truth_extends entries) p.formula

/-- The evaluation agrees with strong Kleene logic, and the facts of further inserts only add
information. -/
structure Informative (floatText : ℚ → String) (req : RequestFacts) (t : TargetFacts)
    (plugin : PluginFacts) (entries : List PluginFactEntry) (p : Predicate) : Prop where
  kleene : ∃ e, evalWithFacts floatText req t plugin p = some e ∧ e.result = p.kleene req t plugin
  extended : ∃ e, evalWithFacts floatText req t (plugin.insertAll entries) p = some e ∧
    e.result = p.kleene req t (plugin.insertAll entries)
  monotone : ∀ e e', evalWithFacts floatText req t plugin p = some e →
    evalWithFacts floatText req t (plugin.insertAll entries) p = some e' →
    e.result ≠ .unknown → e'.result = e.result
  /-- The order of the children does not matter. -/
  reordered : ∀ q e e', Formula.Reordered p.formula q.formula →
    evalWithFacts floatText req t plugin p = some e →
    evalWithFacts floatText req t plugin q = some e' → e'.result = e.result

/-- An answer is the strong Kleene value. -/
theorem result_eq_kleene {p : Predicate} {e : Eval}
    (h : evalWithFacts floatText req t plugin p = some e) : e.result = p.kleene req t plugin :=
  (evalWithFacts_eq_some_iff.mp (congrArg (Option.map (·.result)) h)).1

/-- The evaluation agrees with strong Kleene logic, now and with further facts, if and only if no
comparison that is reached cuts the text of its expected value inside a character. -/
theorem informative_iff (floatText : ℚ → String) (req : RequestFacts) (t : TargetFacts)
    (plugin : PluginFacts) (entries : List PluginFactEntry) (p : Predicate) :
    Informative floatText req t plugin entries p ↔
      p.Shown floatText req t plugin ∧ p.Shown floatText req t (plugin.insertAll entries) := by
  constructor
  · intro h
    obtain ⟨e, he, -⟩ := h.kleene
    obtain ⟨e', he', -⟩ := h.extended
    rw [← evalWithFacts_isSome_iff, ← evalWithFacts_isSome_iff, he, he']
    exact ⟨rfl, rfl⟩
  · rintro ⟨hshown, hshown'⟩
    obtain ⟨e, he⟩ := Option.isSome_iff_exists.mp (evalWithFacts_isSome_iff.mpr hshown)
    obtain ⟨e', he'⟩ := Option.isSome_iff_exists.mp (evalWithFacts_isSome_iff.mpr hshown')
    constructor
    · exact ⟨e, he, result_eq_kleene he⟩
    · exact ⟨e', he', result_eq_kleene he'⟩
    · intro e₁ e₂ h₁ h₂ hne
      rw [result_eq_kleene h₁] at hne ⊢
      rw [result_eq_kleene h₂]
      exact (p.kleene_extends entries).eq_of_ne hne
    · intro q e₁ e₂ hq h₁ h₂
      rw [result_eq_kleene h₁, result_eq_kleene h₂]
      exact hq.value_eq.symm

/-- The predicate on the tag has a value, but its evaluation has none. -/
theorem not_informative :
    ¬ ∀ (floatText : ℚ → String) (req : RequestFacts) (t : TargetFacts) (plugin : PluginFacts)
      (entries : List PluginFactEntry) (p : Predicate),
      Informative floatText req t plugin entries p := by
  intro h
  obtain ⟨e, he, -⟩ := (h (fun _ => "0.5") tagRequest plainTarget {} [] tagPredicate).kleene
  have hnone : (evalWithFacts (fun _ => "0.5") tagRequest plainTarget {} tagPredicate).isSome =
      false := by decide +kernel
  rw [he] at hnone
  exact Bool.noConfusion hnone

end Kinetix.Predicates
