import Kinetix.Frontends.Request
import Kinetix.Library.Fallible

/-!
# Decoding an OpenAI Responses request

`decode_request` of `frontends/responses.rs`.

## Implementation notes

What is tested is a list of possible errors; the first that occurs is reported.
-/

namespace Kinetix.Frontends.Responses
open Json Kinetix.Types

/-! ## Input items -/

/-- The text of all blocks. -/
def contentAsText : Option Value → Option String
  | some (.string s) => some s
  | some (.array parts) => some (String.join (parts.filterMap (strField · "text")))
  | _ => none

def roleOf (item : Value) : String := (strField item "role").getD "user"

def nonEmpty (s : Option String) : Option String := s.filter (· ≠ "")

/-- The text of an output: a string as it is, another value as its text. -/
def outputText (J : SerdeJson) : Option Value → String
  | some (.string s) => s
  | some other => J.toString other
  | none => ""

/-- A call without an id or a name is refused. -/
def decodeFunctionCall (J : SerdeJson) (item : Value) : Except ProxyError Message :=
  match nonEmpty (((item.get "call_id").or (item.get "id")).bind (·.asStr)),
      nonEmpty (strField item "name") with
  | none, _ => .error (.badRequest "Responses function_call requires a non-empty call_id")
  | some _, none => .error (.badRequest "Responses function_call requires a non-empty name")
  | some callId, some name =>
    .ok ⟨.assistant,
      [.toolCall (some callId) name (argumentsText J (item.get "arguments")) none]⟩

/-- A result without an id is refused. -/
def decodeFunctionCallOutput (J : SerdeJson) (item : Value) : Except ProxyError Message :=
  match nonEmpty (strField item "call_id") with
  | none => .error (.badRequest "Responses function_call_output requires a non-empty call_id")
  | some callId => .ok ⟨.tool, [.toolResult callId none (outputText J (item.get "output")) false]⟩

/-- The system text or the message of an item that is a message. -/
def decodeMessageItem (J : SerdeJson) (item : Value) : Option (String ⊕ Message) :=
  let role := roleOf item
  if role = "system" ∨ role = "developer" then
    (nonEmpty (contentAsText (item.get "content"))).map .inl
  else if role = "user" then some (.inr ⟨.user, decodeContentParts (item.get "content")⟩)
  else if role = "assistant" then
    some (.inr ⟨.assistant, decodeContentParts (item.get "content") ++ decodeToolCalls J item⟩)
  else if role = "tool" then
    some (.inr ⟨.tool, [.toolResult
      ((((item.get "tool_call_id").or (item.get "call_id")).bind (·.asStr)).getD "") none
      ((contentAsText (item.get "content")).getD "") false]⟩)
  else none

/-- A system text, a message, or nothing. -/
def decodeInputItem (J : SerdeJson) (item : Value) :
    Except ProxyError (Option (String ⊕ Message)) :=
  if kindOf item = "function_call" then (decodeFunctionCall J item).map (some ∘ .inr)
  else if kindOf item = "function_call_output" then
    (decodeFunctionCallOutput J item).map (some ∘ .inr)
  else .ok (decodeMessageItem J item)

/-- What the input gives. -/
def decodeInput (J : SerdeJson) : Option Value → Except ProxyError (List (String ⊕ Message))
  | none => .ok []
  | some (.string text) => .ok (if text = "" then [] else [.inr ⟨.user, [.text text]⟩])
  | some (.array items) => (items.mapM (decodeInputItem J)).map (·.filterMap id)
  | some _ => .error (.badRequest "'input' must be either a string or an array of items")

/-! ## Issues -/

/-- What of an item cannot be translated. -/
def inspectItem (i : Nat) (item : Value) : List String :=
  let kind := kindOf item
  if kind = "function_call" ∨ kind = "function_call_output" then []
  else if kind = "" ∨ kind = "message" then
    let role := roleOf item
    (if role ∈ ["system", "developer", "user", "assistant", "tool"] then []
      else [s!"input[{i}] has unsupported role '{role}'"]) ++
      inspectContent s!"input[{i}].content" (role ∈ ["system", "developer", "tool"])
        (item.get "content")
  else [s!"input[{i}] type '{kind}' has no canonical cross-format representation"]

/-- The issues of the fields that are not in a list. -/
def inspectKeys (i : Nat) (allowed : List String) (v : Value) : List String :=
  (v.asObject.getD []).flatMap fun field =>
    if field.1 ∈ allowed then []
    else [s!"tools[{i}].{field.1} has unsupported function-tool semantics"]

/-- What of a tool cannot be translated. -/
def inspectTool (i : Nat) (tool : Value) : List String :=
  let kind := (strField tool "type").getD "function"
  if kind ≠ "function" then
    [s!"tools[{i}] type '{kind}' has no canonical cross-format representation"]
  else
    let function := (tool.get "function").getD tool
    (if (tool.get "function").isSome then inspectKeys i ["type", "function"] tool else []) ++
      (if (function.get "strict").bind (·.asBool) = some true then
        [s!"tools[{i}].strict=true cannot be enforced on translated upstreams"] else []) ++
      inspectKeys i ["type", "name", "description", "parameters", "strict", "function"] function

def inspectItems : Option Value → List String
  | some (.array items) => items.zipIdx.flatMap fun (item, i) => inspectItem i item
  | _ => []

/-- What of a body cannot be translated. -/
def nestedTranslationIssues (obj : List (String × Value)) : List String :=
  let tools := ((obj.lookup "tools").bind (·.asArray)).getD []
  (if (obj.lookup "instructions").any (!·.isString) then
    ["instructions has a non-text structure that cannot be translated"] else []) ++
    inspectItems (obj.lookup "input") ++ tools.zipIdx.flatMap fun (tool, i) => inspectTool i tool

/-! ## The supported subset -/

/-- The fields that a translated request may have. -/
def supported : List String :=
  ["model", "input", "instructions", "tools", "tool_choice", "temperature", "top_p", "top_k",
    "max_output_tokens", "max_tokens", "presence_penalty", "frequency_penalty", "stream",
    "reasoning", "reasoning_effort", "prompt_cache_key", "store", "background", "text",
    "stream_options", "truncation", "parallel_tool_calls", "metadata", "include"]

section Tests
variable (obj : List (String × Value))

/-- An error if the condition holds. -/
def test (condition : Bool) (error : ProxyError) : List ProxyError :=
  if condition then [error] else []

/-- The fields outside the subset. -/
def unsupportedFields : List ProxyError :=
  obj.flatMap fun field =>
    test (field.1 ∉ supported) (.unsupported
      s!"Responses API field '{field.1}' is not supported by Kinetix's translated subset")

/-- A field that is there has a type. -/
def typed (hasType : Value → Bool) (error : String → String) (names : List String) :
    List ProxyError :=
  names.flatMap fun name =>
    test ((obj.lookup name).any (!hasType ·)) (.badRequest (error name))

def testInclude : List ProxyError :=
  match obj.lookup "include" with
  | none | some (.array []) => []
  | some (.array _) => [.unsupported "Responses API 'include' expansions are unsupported"]
  | some _ => [.badRequest "Responses API 'include' must be an array"]

/-- The keys of an object that are not the one allowed. -/
def otherKeys (allowed : String) (error : String → String) (fields : List (String × Value)) :
    List ProxyError :=
  fields.flatMap fun field => test (field.1 ≠ allowed) (.unsupported (error field.1))

def testText : List ProxyError :=
  match obj.lookup "text" with
  | none => []
  | some (.object text) =>
    otherKeys "format" (fun key => s!"Responses API text.{key} is unsupported") text ++
      match text.lookup "format" with
      | none => []
      | some (.object format) =>
        otherKeys "type" (fun key => s!"Responses API text.format.{key} is unsupported")
            format ++
          test (((format.lookup "type").bind (·.asStr)).getD "text" ≠ "text") (.unsupported
            "Responses API structured text.format is unsupported on translated upstreams")
      | some _ => [.badRequest "Responses API 'text.format' must be an object"]
  | some _ => [.badRequest "Responses API 'text' must be an object"]

def testStreamOptions : List ProxyError :=
  match obj.lookup "stream_options" with
  | none => []
  | some (.object options) =>
    options.flatMap fun (key, value) =>
      if key = "include_obfuscation" then
        test (value.asBool ≠ some false)
          (.unsupported "Responses API stream obfuscation is unsupported")
      else [.unsupported s!"Responses API stream_options.{key} is unsupported"]
  | some _ => [.badRequest "Responses API 'stream_options' must be an object"]

/-- The tests of an effort, named as in the error. -/
def testEffort (name : String) : Option Value → List ProxyError
  | none => []
  | some (.string effort) =>
    test (mapReasoningEffort effort).isNone
      (.unsupported s!"Responses API reasoning effort '{effort}' is unsupported")
  | some _ => [.badRequest s!"Responses API {name} must be a string"]

def testReasoning : List ProxyError :=
  (match obj.lookup "reasoning" with
    | none => []
    | some (.object reasoning) =>
      otherKeys "effort" (fun key =>
        s!"Responses API reasoning.{key} is unsupported; only reasoning.effort is translated")
          reasoning ++
        testEffort "reasoning.effort" (reasoning.lookup "effort")
    | some _ => [.badRequest "Responses API 'reasoning' must be an object"]) ++
    testEffort "reasoning_effort" (obj.lookup "reasoning_effort")

/-- The tool choices that are accepted. -/
def toolChoiceSupported : Option Value → Bool
  | none | some .null => true
  | some (.string value) => value ∈ ["auto", "none", "required"]
  | some (.object value) =>
    (value.lookup "type").bind (·.asStr) = some "function" ∧
      ((value.lookup "name").bind (·.asStr)).any (· ≠ "") ∧
        value.all fun field => field.1 ∈ ["type", "name"]
  | some _ => false

/-- `validate_supported_subset`: what is wrong, in the order of the tests. -/
def subsetErrors : List ProxyError :=
  unsupportedFields obj ++
    typed obj (·.isBoolean) (fun name => s!"Responses API '{name}' must be boolean") ["stream"] ++
    typed obj (·.isString) (fun name => s!"Responses API '{name}' must be a string")
      ["prompt_cache_key"] ++
    typed obj (·.isBoolean) (fun name => s!"Responses API '{name}' must be boolean")
      ["store", "background"] ++
    typed obj (·.isNumber) (fun name => s!"Responses API '{name}' must be numeric")
      ["temperature", "top_p", "top_k", "presence_penalty", "frequency_penalty"] ++
    typed obj (·.asU64.isSome)
      (fun name => s!"Responses API '{name}' must be a non-negative integer")
      ["max_output_tokens", "max_tokens"] ++
    test ((obj.lookup "store").bind (·.asBool) = some true) (.unsupported
      ("Responses API 'store: true' is unsupported; " ++
        "Kinetix does not persist response objects")) ++
    test ((obj.lookup "background").bind (·.asBool) = some true)
      (.unsupported "Responses API background mode is unsupported") ++
    test (obj.lookup "parallel_tool_calls").isSome (.unsupported
      "Responses API 'parallel_tool_calls' is not enforceable on translated upstreams") ++
    test (obj.lookup "metadata").isSome
      (.unsupported "Responses API response metadata storage is unsupported") ++
    testInclude obj ++
    test (((obj.lookup "truncation").bind (·.asStr)).any (· ≠ "disabled")) (.unsupported
      "Responses API automatic truncation is unsupported; only 'disabled' is accepted") ++
    testText obj ++ testStreamOptions obj ++ testReasoning obj ++
    test (!toolChoiceSupported (obj.lookup "tool_choice")) (.unsupported
      "Responses API tool_choice supports only auto/none/required or a named function") ++
    (nestedTranslationIssues obj).map fun issue => .unsupported
      s!"Responses API content is outside Kinetix's translated subset: {issue}"

end Tests

/-! ## The request -/

/-- The choice, and the tool that it names. -/
def decodeToolChoice : Option Value → Option ToolChoice × Option String
  | some (.string s) => (some (choiceOfName s), none)
  | some (.object o) =>
    (some .specific,
      ((o.lookup "name").or ((o.lookup "function").bind (·.get "name"))).bind (·.asStr))
  | _ => (some .auto, none)

/-- The instructions, if they are not blank. -/
def instructions (obj : List (String × Value)) : List String :=
  match (obj.lookup "instructions").bind (·.asStr) with
  | some inst => if Text.trim inst = "" then [] else [inst]
  | none => []

/-- `decode_request` of the Responses frontend. -/
def decodeRequest (J : SerdeJson) (body : Value) : Except ProxyError InternalRequest :=
  match body.asObject with
  | none => .error (.badRequest "request body must be a JSON object")
  | some obj =>
    match subsetErrors obj with
    | error :: _ => .error error
    | [] =>
      match (obj.lookup "model").bind (·.asStr), decodeInput J (obj.lookup "input") with
      | none, _ => .error (.badRequest "missing required field 'model'")
      | some _, .error error => .error error
      | some model, .ok decoded =>
        match resolveToolResultNames (decoded.filterMap Sum.getRight?) with
        | (_, issue :: _) => .error (.unsupported
            s!"Responses API tool-call state is not translatable: {issue}")
        | (resolved, []) =>
          let (toolChoice, toolChoiceName) := decodeToolChoice (obj.lookup "tool_choice")
          .ok
            { requestedModel := model
              system := instructions obj ++ decoded.filterMap Sum.getLeft?
              messages := resolved
              tools := decodeFunctionTools (obj.lookup "tools")
              toolChoice := toolChoice
              toolChoiceName := toolChoiceName
              params :=
                { temperature := (obj.lookup "temperature").bind (·.asF64)
                  topP := (obj.lookup "top_p").bind (·.asF64)
                  topK := (obj.lookup "top_k").bind (·.asF64)
                  maxTokens :=
                    (((obj.lookup "max_output_tokens").or (obj.lookup "max_tokens")).bind
                      (·.asU64)).map asU32
                  presencePenalty := (obj.lookup "presence_penalty").bind (·.asF64)
                  frequencyPenalty := (obj.lookup "frequency_penalty").bind (·.asF64) }
              stream := ((obj.lookup "stream").bind (·.asBool)).getD false
              includeUsage := false
              thinking :=
                ((((obj.lookup "reasoning").bind (strField · "effort")).or
                  ((obj.lookup "reasoning_effort").bind (·.asStr)))).bind
                    mapReasoningEffort
              extra := ((obj.lookup "prompt_cache_key").map fun key =>
                ("prompt_cache_key", key)).toList
              rawBody := some (J.toString body) }

/-! ## What a decoded request holds -/

theorem decodeRequest_eq_ok {J : SerdeJson} {body : Value} {request : InternalRequest}
    (h : decodeRequest J body = .ok request) :
    ∃ obj decoded, body = .object obj ∧ nestedTranslationIssues obj = [] ∧
      decodeInput J (obj.lookup "input") = .ok decoded ∧
      request.system = instructions obj ++ decoded.filterMap Sum.getLeft? ∧
      request.messages = (resolveToolResultNames (decoded.filterMap Sum.getRight?)).1 := by
  cases body with
  | object obj =>
    simp only [decodeRequest, Value.asObject] at h
    cases herrors : subsetErrors obj with
    | cons error errors =>
      rw [herrors] at h
      cases h
    | nil =>
      cases hmodel : (obj.lookup "model").bind (·.asStr) with
      | none =>
        rw [herrors, hmodel] at h
        cases h
      | some model =>
        cases hinput : decodeInput J (obj.lookup "input") with
        | error error =>
          rw [herrors, hmodel, hinput] at h
          cases h
        | ok decoded =>
          rw [herrors, hmodel, hinput] at h
          dsimp only at h
          have hnested : nestedTranslationIssues obj = [] := by
            unfold subsetErrors at herrors
            exact List.map_eq_nil_iff.mp (List.append_eq_nil_iff.mp herrors).2
          refine ⟨obj, decoded, rfl, hnested, hinput, ?_⟩
          generalize resolveToolResultNames (decoded.filterMap Sum.getRight?) = resolved
            at h ⊢
          obtain ⟨resolved, issues⟩ := resolved
          cases issues with
          | nil =>
            cases h
            exact ⟨rfl, rfl⟩
          | cons issue issues => cases h
  | _ => cases h

end Kinetix.Frontends.Responses
