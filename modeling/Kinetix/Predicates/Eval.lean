import Kinetix.Foundation.JsonText
import Kinetix.Library.Kleene
import Kinetix.Predicates.Expr

/-!
# Evaluation of target predicates

`eval_with_facts` and `eligibility_with_facts` of `predicate.rs`, with the explanations that they
build.

## Implementation notes

`none` is a panic. The loops over the children of `And` and `Or` are functions of their own, which
carry the parts of the explanation and whether a child was unknown.
-/

namespace Kinetix.Predicates
open Binary64 Json Kleene

/-- `Tri`, where `yes` is `True` and `no` is `False`. -/
abbrev Tri := Truth

/-- `Capabilities`. -/
structure Capabilities where
  text : Bool := false
  vision : Bool := false
  reasoning : Bool := false
  toolCalling : Bool := false
  audio : Bool := false
  structuredOutput : Bool := false

/-- What predicates read of a request. -/
structure RequestFacts where
  frontend : String
  requestedModel : String
  requestedRoute : Option String
  keyTag : Option String
  hasTools : Bool
  hasImages : Bool
  hasReasoning : Bool
  inputTokens : UInt64

/-- What predicates read of a target. -/
structure TargetFacts where
  modelId : String
  providerId : String
  capabilities : Capabilities
  /-- The stored JSON, in which a capability may be missing. -/
  capabilitiesRaw : Value
  contextWindow : Option Int64
  maxOutputTokens : Option Int64

structure PluginFactEntry where
  name : String
  value : Value
  source : Value

/-- The facts that plugins contribute. -/
structure PluginFacts where
  entries : List PluginFactEntry := []

namespace PluginFacts

/-- `insert`: the first writer of a name wins. -/
def insert (facts : PluginFacts) (name : String) (value source : Value) : PluginFacts :=
  if facts.entries.any (·.name == name) then facts
  else { facts with entries := facts.entries ++ [{ name, value, source }] }

def get (facts : PluginFacts) (name : String) : Option Value :=
  (facts.entries.find? (·.name == name)).map (·.value)

/-- Further inserts. -/
def insertAll (facts : PluginFacts) (entries : List PluginFactEntry) : PluginFacts :=
  entries.foldl (fun facts e => facts.insert e.name e.value e.source) facts

/-- An insert adds a name that is new and changes nothing else. -/
theorem get_insert (facts : PluginFacts) (name : String) (value source : Value) (n : String) :
    (facts.insert name value source).get n =
      (facts.get n).or (if name = n then some value else none) := by
  rw [insert]
  split
  next h =>
    have hsome : name = n → (facts.get n).isSome := by
      rintro rfl
      rw [get, Option.isSome_map, List.find?_isSome]
      simpa using h
    by_cases hn : name = n
    · rw [Option.or_of_isSome (hsome hn)]
    · rw [if_neg hn, Option.or_none]
  next h =>
    simp only [get, List.find?_append, Option.map_or]
    congr 1
    by_cases hn : name = n <;> simp [hn]

/-- What is known of a fact stays. -/
theorem get_insertAll {facts : PluginFacts} {n : String} {v : Value} (h : facts.get n = some v)
    (entries : List PluginFactEntry) : (facts.insertAll entries).get n = some v := by
  induction entries generalizing facts with
  | nil => exact h
  | cons e entries ih =>
    rw [insertAll, List.foldl_cons]
    apply ih
    rw [get_insert, h, Option.some_or]

end PluginFacts

/-- `Eval`: a verdict and its explanation. -/
structure Eval where
  result : Tri
  explanation : String

def Eval.known (result : Bool) (explanation : String) : Eval := ⟨.ofBool result, explanation⟩

def Eval.unknown (explanation : String) : Eval := ⟨.unknown, explanation⟩

/-- A capability by its name. -/
def capabilityFlag (caps : Capabilities) (name : String) : Bool :=
  match name with
  | "text" => caps.text
  | "vision" => caps.vision
  | "reasoning" => caps.reasoning
  | "tool_calling" | "tools" => caps.toolCalling
  | "audio" => caps.audio
  | "structured_output" => caps.structuredOutput
  | _ => false

/-- Whether the stored JSON names a capability. -/
def capabilitiesDeclared (raw : Value) (name : String) : Bool :=
  let keys :=
    match name with
    | "tool_calling" => ["tool_calling", "tools", "tool_calls"]
    | "structured_output" => ["structured_output", "structuredOutput"]
    | other => [other]
  keys.any fun key => (raw.get key).isSome

/-- A fact as a JSON value, if it is known. -/
def factValue (fact : FactRef) (req : RequestFacts) (t : TargetFacts) (plugin : PluginFacts) :
    Option Value :=
  if Text.startsWith fact.name "plugin." then plugin.get fact.name
  else
    match fact.name with
    | "has_tools" => some (.bool req.hasTools)
    | "has_images" => some (.bool req.hasImages)
    | "has_reasoning" => some (.bool req.hasReasoning)
    | "frontend" => some (.string req.frontend)
    | "requested_alias" | "requested_model" => some (.string req.requestedModel)
    | "requested_route" => req.requestedRoute.map .string
    | "key_tag" => req.keyTag.map .string
    | "input_tokens" => some (.number (.int req.inputTokens.toNat))
    | "target_model" | "target_model_id" => some (.string t.modelId)
    | "target_provider" | "target_provider_id" => some (.string t.providerId)
    | "target_capability" =>
      fact.arg.bind fun cap =>
        if capabilitiesDeclared t.capabilitiesRaw cap then
          some (.bool (capabilityFlag t.capabilities cap))
        else none
    | "target_context_window" => t.contextWindow.map fun v => .number (.int v.toInt)
    | "target_max_output_tokens" => t.maxOutputTokens.map fun v => .number (.int v.toInt)
    | _ => none

def opStr : CmpOp → String
  | .eq => "=="
  | .ne => "!="
  | .lt => "<"
  | .lte => "<="
  | .gt => ">"
  | .gte => ">="
  | .in => "in"
  | .notIn => "not in"
  | .contains => "contains"

/-- Equality of values, and of numbers up to `f64::EPSILON`. -/
def jsonEq (a b : Value) : Bool :=
  if a.eq b then true
  else
    match a.asF64, b.asF64 with
    | some x, some y => decide (|roundF64 (x - y)| < epsilonF64)
    | _, _ => false

/-- A value as a text of at most 60 bytes, and an ellipsis where it is cut. -/
def compact (floatText : ℚ → String) (v : Value) : Option String :=
  let s := v.toText floatText
  if 60 < s.utf8ByteSize then (Text.sliceTo s 60).map (· ++ "…") else some s

/-- `format!("\x7bresult\x7d")` of a boolean. -/
def boolText (b : Bool) : String := if b then "true" else "false"

/-- The argument of a fact in parentheses. -/
def argText (fact : FactRef) : String := (fact.arg.map fun a => "(" ++ a ++ ")").getD ""

/-- The comparison of two numbers; the last case is unreachable. -/
def compareNumbers (op : CmpOp) (a b : ℚ) : Option Bool :=
  match op with
  | .lt => some (decide (a < b))
  | .lte => some (decide (a ≤ b))
  | .gt => some (decide (a > b))
  | .gte => some (decide (a ≥ b))
  | _ => none

/-- What `eval_cmp` does with a known fact, once the label is there. -/
def judge (label : String) (op : CmpOp) (actual expected : Value) : Option Eval :=
  let answer (result : Bool) : Option Eval :=
    some (.known result (label ++ " => " ++ boolText result))
  match op with
  | .eq => answer (jsonEq actual expected)
  | .ne => answer (!jsonEq actual expected)
  | .lt | .lte | .gt | .gte =>
    match actual.asF64, expected.asF64 with
    | some a, some b => (compareNumbers op a b).bind answer
    | _, _ => some (.unknown (label ++ ": not comparable (non-numeric)"))
  | .in | .notIn =>
    match expected.asArray with
    | some arr =>
      let contains := arr.any (jsonEq actual)
      answer (if op = .in then contains else !contains)
    | none => some (.unknown (label ++ ": 'in' value must be an array"))
  | .contains =>
    match actual, expected with
    | .string s, .string sub => answer (Text.contains s sub)
    | .array a, v => answer (a.any fun x => jsonEq x v)
    | _, _ => some (.unknown (label ++ ": 'contains' needs a string or array"))

section
variable (floatText : ℚ → String) (req : RequestFacts) (t : TargetFacts) (plugin : PluginFacts)

/-- `eval_cmp`; nothing is a panic. -/
def evalCmp (fact : FactRef) (op : CmpOp) (expected : Value) : Option Eval :=
  match factValue fact req t plugin with
  | none => some (.unknown ("fact '" ++ fact.name ++ "'" ++ argText fact ++ " is unknown"))
  | some actual => do
    let text ← compact floatText expected
    let label := fact.name ++ argText fact ++ " " ++ opStr op ++ " " ++ text
    judge label op actual expected

/-- The explanation of a child in brackets. -/
def bracketed (e : Eval) : String := "[" ++ e.explanation ++ "]"

mutual
/-- `eval_with_facts`. -/
def evalWithFacts : Predicate → Option Eval
  | .const b => some (.known b ("constant " ++ boolText b))
  | .and parts => andLoop [] false parts
  | .or parts => orLoop [] false parts
  | .not part =>
    (evalWithFacts part).map fun e => ⟨e.result.neg, "not [" ++ e.explanation ++ "]"⟩
  | .cmp fact op value => evalCmp floatText req t plugin fact op value

/-- `false` decides a conjunction, an unknown only blurs it. -/
def andLoop (parts : List String) (sawUnknown : Bool) : List Predicate → Option Eval
  | [] =>
    if sawUnknown then some (.unknown ("and: unknown because " ++ " ".intercalate parts))
    else some (.known true ("and: all true " ++ " ".intercalate parts))
  | p :: ps =>
    (evalWithFacts p).bind fun e =>
      match e.result with
      | .no =>
        some (.known false
          ("and: false because " ++ " ".intercalate (parts ++ [bracketed e])))
      | .unknown => andLoop (parts ++ [bracketed e]) true ps
      | .yes => andLoop (parts ++ [bracketed e]) sawUnknown ps

/-- `true` decides a disjunction, an unknown only blurs it. -/
def orLoop (parts : List String) (sawUnknown : Bool) : List Predicate → Option Eval
  | [] =>
    if sawUnknown then some (.unknown ("or: unknown because " ++ " ".intercalate parts))
    else some (.known false ("or: all false " ++ " ".intercalate parts))
  | p :: ps =>
    (evalWithFacts p).bind fun e =>
      match e.result with
      | .yes =>
        some (.known true ("or: true because " ++ " ".intercalate (parts ++ [bracketed e])))
      | .unknown => orLoop (parts ++ [bracketed e]) true ps
      | .no => orLoop (parts ++ [bracketed e]) sawUnknown ps
end

/-- Whether a target may serve, and why. -/
structure Eligibility where
  eligible : Bool
  result : Tri
  explanation : String

def whenUnknownText : WhenUnknown → String
  | .skip => "skip"
  | .allow => "allow"

/-- `eligibility_with_facts`. -/
def eligibilityWithFacts (pred : TargetPredicate) : Option Eligibility :=
  match pred.expr with
  | none => some ⟨true, .yes, "no predicate configured"⟩
  | some expr =>
    (evalWithFacts floatText req t plugin expr).map fun e =>
      let eligible :=
        match e.result with
        | .yes => true
        | .no => false
        | .unknown => decide (pred.whenUnknown = .allow)
      ⟨eligible, e.result,
        e.explanation ++ " (when_unknown=" ++ whenUnknownText pred.whenUnknown ++ ")"⟩

/-- `eligibility`, with native facts only. -/
def eligibility (pred : TargetPredicate) : Option Eligibility :=
  eligibilityWithFacts floatText req t {} pred

end

end Kinetix.Predicates
