import Kinetix.Frontends.Request

/-!
# Decoding an Anthropic request

`decode_request` of `frontends/anthropic.rs`.
-/

namespace Kinetix.Frontends.Anthropic
open Json Kinetix.Types

/-! ## Content -/

/-- The part of an image block. Only a URL source can miss its datum. -/
def decodeImage (source : Option Value) : Option Part :=
  let sourceType := (source.bind (strField · "type")).getD ""
  if sourceType = "base64" then
    let mime := (source.bind (strField · "media_type")).getD "image/png"
    let data := (source.bind (strField · "data")).getD ""
    some (.image (.base64 mime data))
  else if sourceType = "url" then (source.bind (strField · "url")).map fun url => .image (.url url)
  else none

/-- The text of a tool result. -/
def resultText : Option Value → String
  | some (.string s) => s
  | some (.array items) => String.join (items.filterMap (strField · "text"))
  | _ => ""

section Blocks
variable (J : SerdeJson)

/-- The input of a tool block as text. -/
def inputText : Option Value → String
  | some input => J.toString input
  | none => "\x7b\x7d"

/-- A tool block without a name is left out. -/
def decodeToolUse (b : Value) : Option Part :=
  let name := (strField b "name").getD ""
  if name = "" then none
  else some (.toolCall (strField b "id") name (inputText J (b.get "input")) none)

/-- A result; what it contains is made a text. -/
def decodeToolResult (b : Value) : Part :=
  .toolResult ((strField b "tool_use_id").getD "") none (resultText (b.get "content"))
    (((b.get "is_error").bind (·.asBool)).getD false)

/-- The part of a block, if there is one. -/
def decodeContentBlock (b : Value) : Option Part :=
  match kindOf b with
  | "text" => (strField b "text").map .text
  | "image" => decodeImage (b.get "source")
  | "tool_use" => decodeToolUse J b
  | "tool_result" => some (decodeToolResult b)
  | "thinking" => some (.thinking ((strField b "thinking").getD "") (strField b "signature"))
  | _ => none

/-- A text, or a list of blocks. -/
def decodeContent : Option Value → List Part
  | some (.string s) => [.text s]
  | some (.array blocks) => blocks.filterMap (decodeContentBlock J)
  | _ => []

/-- A message without parts is left out. -/
def decodeMessage (m : Value) : Option Message :=
  let parts := decodeContent J (m.get "content")
  if parts = [] then none
  else some ⟨if strField m "role" = some "assistant" then .assistant else .user, parts⟩

/-- Messages that say nothing are left out. -/
def decodeMessages (messages : List Value) : List Message := messages.filterMap (decodeMessage J)

end Blocks

/-- The system texts. -/
def decodeSystem : Option Value → List String
  | some (.string s) => [s]
  | some (.array blocks) =>
    blocks.filterMap fun b => if strField b "type" = some "text" then strField b "text" else none
  | _ => []

/-! ## Issues -/

/-- What of the system cannot be translated. -/
def inspectSystem : Option Value → List String
  | some (.array blocks) =>
    blocks.zipIdx.flatMap fun (block, i) =>
      if kindOf block = "text" then []
      else [s!"system[{i}] type '{kindOf block}' has no canonical cross-format representation"]
  | _ => []

def inspectResult (path : String) : Option Value → List String
  | some (.array blocks) =>
    blocks.zipIdx.flatMap fun (block, i) =>
      if kindOf block = "text" then []
      else [s!"{path}.content[{i}] type '{kindOf block}' would be dropped during translation"]
  | _ => []

/-- What of a block cannot be translated. -/
def inspectContentBlock (path : String) (block : Value) : List String :=
  match kindOf block with
  | "text" | "tool_use" | "thinking" => []
  | "image" =>
    let sourceType := ((block.get "source").bind (strField · "type")).getD ""
    if sourceType = "base64" ∨ sourceType = "url" then []
    else [s!"{path} image source type '{sourceType}' is not translatable"]
  | "tool_result" => inspectResult path (block.get "content")
  | kind => [s!"{path} type '{kind}' has no canonical cross-format representation"]

/-- What of a message cannot be translated. -/
def inspectMessage (i : Nat) (message : Value) : List String :=
  let role := (strField message "role").getD "user"
  (if role = "user" ∨ role = "assistant" then []
    else [s!"messages[{i}] has unsupported role '{role}'"]) ++
    match message.get "content" with
    | some (.array blocks) =>
      blocks.zipIdx.flatMap fun (block, j) =>
        inspectContentBlock s!"messages[{i}].content[{j}]" block
    | some (.string _) | none => []
    | some _ => [s!"messages[{i}].content has unsupported nested structure"]

def inspectOutputConfig (obj : List (String × Value)) : List String :=
  match obj.lookup "output_config" with
  | none => []
  | some (.object config) =>
    let adaptive := (obj.lookup "thinking").bind (strField · "type") = some "adaptive"
    config.flatMap fun (key, _) =>
      if key ≠ "effort" ∨ ¬ adaptive then
        [s!"output_config.{key} has no canonical cross-format representation"]
      else []
  | some _ => ["output_config has unsupported nested structure for cross-format translation"]

def inspectTool (i : Nat) (tool : Value) : List String :=
  match strField tool "type" with
  | some kind =>
    if kind = "custom" then []
    else [s!"tools[{i}] server-tool type '{kind}' has no canonical cross-format representation"]
  | none => []

/-- What of a body cannot be translated. -/
def nestedTranslationIssues (obj : List (String × Value)) : List String :=
  let messages := ((obj.lookup "messages").bind (·.asArray)).getD []
  let tools := ((obj.lookup "tools").bind (·.asArray)).getD []
  inspectSystem (obj.lookup "system") ++
    messages.zipIdx.flatMap (fun (message, i) => inspectMessage i message) ++
    inspectOutputConfig obj ++ tools.zipIdx.flatMap fun (tool, i) => inspectTool i tool

/-! ## The request -/

/-- Tools without a name are left out. -/
def decodeTools (tools : Option Value) : List ToolDef :=
  ((tools.bind (·.asArray)).getD []).filterMap fun t =>
    (strField t "name").map fun name =>
      { name := name
        description := strField t "description"
        parameters := (t.get "input_schema").getD
          (.object [("type", .string "object"), ("properties", .object [])])
        deferLoading := (t.get "defer_loading").bind (·.asBool) }

def decodeToolChoice : Option Value → Option ToolChoice × Option String
  | some (.object o) =>
    match (o.lookup "type").bind (·.asStr) with
    | some "any" => (some .required, none)
    | some "none" => (some .none, none)
    | some "tool" => (some .specific, (o.lookup "name").bind (·.asStr))
    | _ => (some .auto, none)
  | _ => (some .auto, none)

/-- An effort that is no level is refused. -/
def decodeEffort (obj : List (String × Value)) : Except ProxyError (Option ThinkingLevel) :=
  match (obj.lookup "output_config").bind (strField · "effort") with
  | none => .ok none
  | some "low" => .ok (some .low)
  | some "medium" => .ok (some .medium)
  | some "high" => .ok (some .high)
  | some "xhigh" => .ok (some .xHigh)
  | some "max" => .ok (some .max)
  | some effort => .error (.badRequest s!"unsupported Anthropic output_config.effort '{effort}'")

/-- `thinking` decides; the effort is for `adaptive` only. -/
def decodeThinking (effort : Option ThinkingLevel) (thinking : Option Value) :
    Option ThinkingLevel :=
  thinking.bind fun t =>
    match kindOf t with
    | "disabled" => some .off
    | "adaptive" => some (effort.getD .default)
    | "enabled" =>
      let budget := ((t.get "budget_tokens").bind (·.asU64)).getD 0
      some (if budget = 0 then .off else if budget ≤ 2048 then .low
        else if budget ≤ 8192 then .medium else .high)
    | _ => none

/-- The fields that are not handed on as unknown ones. -/
def known : List String :=
  ["model", "messages", "system", "stream", "temperature", "top_p", "top_k", "max_tokens",
    "stop_sequences", "output_config", "tools", "tool_choice", "thinking"]

/-- `decode_request` of the Anthropic frontend. -/
def decodeRequest (J : SerdeJson) (body : Value) : Except ProxyError InternalRequest :=
  match body.asObject with
  | none => .error (.badRequest "request body must be a JSON object")
  | some obj =>
    match (obj.lookup "model").bind (·.asStr), (obj.lookup "messages").bind (·.asArray) with
    | none, _ => .error (.badRequest "missing required field 'model'")
    | some _, none => .error (.badRequest "missing required field 'messages'")
    | some model, some messages =>
      match decodeEffort obj with
      | .error error => .error error
      | .ok effort =>
        let (resolved, unresolved) := resolveToolResultNames (decodeMessages J messages)
        let (toolChoice, toolChoiceName) := decodeToolChoice (obj.lookup "tool_choice")
        .ok
          { requestedModel := model
            system := decodeSystem (obj.lookup "system")
            messages := resolved
            tools := decodeTools (obj.lookup "tools")
            toolChoice := toolChoice
            toolChoiceName := toolChoiceName
            params :=
              { temperature := (obj.lookup "temperature").bind (·.asF64)
                topP := (obj.lookup "top_p").bind (·.asF64)
                topK := (obj.lookup "top_k").bind (·.asF64)
                maxTokens := ((obj.lookup "max_tokens").bind (·.asU64)).map asU32
                stop := (((obj.lookup "stop_sequences").bind (·.asArray)).getD []).filterMap
                  (·.asStr) }
            stream := ((obj.lookup "stream").bind (·.asBool)).getD false
            includeUsage := false
            thinking := decodeThinking effort (obj.lookup "thinking")
            extra := attachTranslationIssues (obj.filter fun field => field.1 ∉ known)
              (nestedTranslationIssues obj ++ unresolved)
            rawBody := none }

/-- What a decoded request holds of its body. -/
theorem decodeRequest_eq_ok {J : SerdeJson} {obj : List (String × Value)}
    {request : InternalRequest} (h : decodeRequest J (.object obj) = .ok request) :
    ∃ messages, (obj.lookup "messages").bind (·.asArray) = some messages ∧
      request.system = decodeSystem (obj.lookup "system") ∧
      request.messages = (resolveToolResultNames (decodeMessages J messages)).1 ∧
      request.extra = attachTranslationIssues (obj.filter fun field => field.1 ∉ known)
        (nestedTranslationIssues obj ++
          (resolveToolResultNames (decodeMessages J messages)).2) := by
  simp only [decodeRequest, Value.asObject] at h
  cases hmodel : (obj.lookup "model").bind (·.asStr) with
  | none =>
    rw [hmodel] at h
    cases h
  | some model =>
    cases hmessages : (obj.lookup "messages").bind (·.asArray) with
    | none =>
      rw [hmodel, hmessages] at h
      cases h
    | some messages =>
      rw [hmodel, hmessages] at h
      cases heffort : decodeEffort obj with
      | error error =>
        rw [heffort] at h
        cases h
      | ok effort =>
        rw [heffort] at h
        cases h
        exact ⟨messages, rfl, rfl, rfl, rfl⟩

/-- A body with a model, messages and no effort is accepted. -/
theorem decodeRequest_isOk {J : SerdeJson} {obj : List (String × Value)} {model : String}
    {messages : List Value} (hmodel : obj.lookup "model" = some (.string model))
    (hmessages : obj.lookup "messages" = some (.array messages))
    (heffort : obj.lookup "output_config" = none) :
    ∃ request, decodeRequest J (.object obj) = .ok request := by
  have hdecoded : decodeEffort obj = .ok none := by
    rw [decodeEffort, heffort]
    rfl
  simp only [decodeRequest, Value.asObject, hmodel, hmessages, hdecoded, Option.bind_some,
    Value.asStr, Value.asArray]
  exact ⟨_, rfl⟩

end Kinetix.Frontends.Anthropic
