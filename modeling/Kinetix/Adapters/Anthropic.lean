import Kinetix.Frontends.Anthropic.Decode

/-!
# Requests to Anthropic, and back

The messages that `AnthropicAdapter` of `adapters/anthropic.rs` builds, and that the Anthropic
frontend decodes them to the messages they were built from.

## Implementation notes

The other fields of a body do not matter to its messages.
-/

namespace Kinetix.Adapters.Anthropic
open Frontends Frontends.Anthropic Json

section Build
variable (J : SerdeJson)

/-- The block of a part; thinking without a signature has none. -/
def contentBlock : Part → Option Value
  | .text t => some (.object [("type", .string "text"), ("text", .string t)])
  | .thinking text signature =>
    signature.map fun sig =>
      .object [("type", .string "thinking"), ("thinking", .string text),
        ("signature", .string sig)]
  | .image (.base64 mime data) =>
    some (.object [("type", .string "image"), ("source", .object [("type", .string "base64"),
      ("media_type", .string mime), ("data", .string data)])])
  | .image (.url url) =>
    some (.object [("type", .string "image"),
      ("source", .object [("type", .string "url"), ("url", .string url)])])
  | .toolCall id name arguments _ =>
    some (.object [("type", .string "tool_use"), ("id", .string (id.getD ("toolu_" ++ name))),
      ("name", .string name), ("input", (J.fromStr arguments).getD (.object []))])
  | .toolResult toolCallId _ content isError =>
    some (.object [("type", .string "tool_result"), ("tool_use_id", .string toolCallId),
      ("content", .string content), ("is_error", .bool isError)])

def contentBlocks (parts : List Part) : List Value := parts.filterMap (contentBlock J)

/-- The message for an internal one; system messages and empty ones have none. -/
def buildMessage (m : Message) : Option Value :=
  match m.role with
  | .system => none
  | .assistant | .user | .tool =>
    let blocks := contentBlocks J m.parts
    if blocks = [] then none
    else some (.object [("role", .string (if m.role = .assistant then "assistant" else "user")),
      ("content", .array blocks)])

def buildMessages (messages : List Message) : List Value := messages.filterMap (buildMessage J)

end Build

/-! ## The way back -/

/-- The text of the arguments is that of the object they are. -/
def Canonical (J : SerdeJson) (arguments : String) : Prop :=
  ∃ fields, J.fromStr arguments = some (.object fields) ∧ J.toString (.object fields) = arguments

/-- A part that the format has a place for. -/
def Carried (J : SerdeJson) : Part → Prop
  | .text _ | .image _ | .toolResult _ _ _ _ => True
  | .toolCall id _ arguments signature => id.isSome ∧ Canonical J arguments ∧ signature = none
  | .thinking _ signature => signature.isSome

/-- A message that the format has a place for. -/
structure CarriedMessage (J : SerdeJson) (m : Message) : Prop where
  role : m.role = .user ∨ m.role = .assistant
  parts : m.parts ≠ []
  carried : ∀ part ∈ m.parts, Carried J part

/-- A call says which tool it calls. -/
def NamesTool : Part → Prop
  | .toolCall _ name _ _ => name ≠ ""
  | _ => True

/-- The name of a result is not part of the format. -/
def withoutName : Part → Part
  | .toolResult id _ content isError => .toolResult id none content isError
  | part => part

def unnamed (m : Message) : Message := { m with parts := m.parts.map withoutName }

section Back
variable {J : SerdeJson}

theorem decode_contentBlock {part : Part} (h : Carried J part) (hname : NamesTool part) :
    ∃ block, contentBlock J part = some block ∧
      decodeContentBlock J block = some (withoutName part) := by
  cases part with
  | text t | toolResult id name content isError => exact ⟨_, rfl, rfl⟩
  | image image =>
    cases image with
    | base64 mime data | url url => exact ⟨_, rfl, rfl⟩
  | thinking text signature =>
    obtain ⟨sig, rfl⟩ := Option.isSome_iff_exists.mp h
    exact ⟨_, rfl, rfl⟩
  | toolCall id name arguments signature =>
    obtain ⟨hid, ⟨fields, hread, hshow⟩, rfl⟩ := h
    obtain ⟨id, rfl⟩ := Option.isSome_iff_exists.mp hid
    refine ⟨_, rfl, ?_⟩
    rw [hread]
    change (if name = "" then none else
      some (Part.toolCall (some id) name (J.toString (.object fields)) none)) = _
    rw [if_neg hname, hshow]
    rfl

/-- The content of a message is decoded to its parts, one by one. -/
theorem decode_contentBlocks {parts : List Part} (h : ∀ part ∈ parts, Carried J part)
    (hname : ∀ part ∈ parts, NamesTool part) :
    (contentBlocks J parts).length = parts.length ∧
      decodeContent J (some (.array (contentBlocks J parts))) = parts.map withoutName := by
  induction parts with
  | nil => exact ⟨rfl, rfl⟩
  | cons part parts ih =>
    obtain ⟨hpart, hparts⟩ := List.forall_mem_cons.mp h
    obtain ⟨hnamed, hnames⟩ := List.forall_mem_cons.mp hname
    obtain ⟨block, hblock, hdecoded⟩ := decode_contentBlock hpart hnamed
    obtain ⟨hlength, hrest⟩ := ih hparts hnames
    have hblocks : contentBlocks J (part :: parts) = block :: contentBlocks J parts :=
      List.filterMap_cons_some hblock
    rw [hblocks]
    refine ⟨congrArg (· + 1) hlength, ?_⟩
    rw [decodeContent, List.filterMap_cons_some hdecoded, List.map_cons, ← hrest, decodeContent]

theorem decode_buildMessage {m : Message} (h : CarriedMessage J m)
    (hname : ∀ part ∈ m.parts, NamesTool part) :
    ∃ message, buildMessage J m = some message ∧ decodeMessage J message = some (unnamed m) := by
  obtain ⟨role, parts⟩ := m
  obtain ⟨hlength, hdecoded⟩ := decode_contentBlocks h.carried hname
  have hblocks : contentBlocks J parts ≠ [] := by
    rw [← List.length_pos_iff, hlength, List.length_pos_iff]
    exact h.parts
  have hparts : parts.map withoutName ≠ [] := by
    simpa using h.parts
  have decoded : ∀ text role', (if some text = some "assistant" then Role.assistant else .user) =
      role' → decodeMessage J (.object [("role", .string text),
        ("content", .array (contentBlocks J parts))]) = some ⟨role', parts.map withoutName⟩ := by
    rintro text _ rfl
    have hget : (Value.object [("role", .string text),
        ("content", .array (contentBlocks J parts))]).get "content" =
          some (.array (contentBlocks J parts)) := rfl
    rw [decodeMessage, hget, hdecoded]
    simp only [if_neg hparts]
    rfl
  cases h.role with
  | inl hrole =>
    obtain rfl : role = .user := hrole
    exact ⟨_, if_neg hblocks, decoded "user" .user (by decide)⟩
  | inr hrole =>
    obtain rfl : role = .assistant := hrole
    exact ⟨_, if_neg hblocks, decoded "assistant" .assistant (by decide)⟩

theorem decode_buildMessages {messages : List Message} (h : ∀ m ∈ messages, CarriedMessage J m)
    (hname : ∀ m ∈ messages, ∀ part ∈ m.parts, NamesTool part) :
    decodeMessages J (buildMessages J messages) = messages.map unnamed := by
  induction messages with
  | nil => rfl
  | cons m messages ih =>
    obtain ⟨hm, hmessages⟩ := List.forall_mem_cons.mp h
    obtain ⟨hnamed, hnames⟩ := List.forall_mem_cons.mp hname
    obtain ⟨message, hmessage, hdecoded⟩ := decode_buildMessage hm hnamed
    rw [buildMessages, List.filterMap_cons_some hmessage, ← buildMessages, decodeMessages,
      List.filterMap_cons_some hdecoded, ← decodeMessages, ih hmessages hnames, List.map_cons]

end Back

/-! ## The body -/

/-- What a body takes from the account, its provider and the model. -/
structure UpstreamContext where
  credential : String
  credentialPlugin : String
  upstreamId : String
  maxOutputTokens : Option Int
  /-- Whether the model supports a parameter, where its configuration says so. -/
  params : List (String × Bool)

/-- `is_claude_code_oauth`. -/
def isClaudeCodeOauth (ctx : UpstreamContext) : Bool :=
  "sk-ant-oat".toList.isPrefixOf ctx.credential.toList ||
    Text.contains ctx.credentialPlugin "claude-code"

def ephemeral : Value := .object [("type", .string "ephemeral"), ("ttl", .string "1h")]

/-- A field that a body has if there is a value for it. -/
def field (name : String) (value : Option Value) : List (String × Value) :=
  value.toList.map fun value => (name, value)

/-- The texts of the request and those of system messages. -/
def systemTexts (req : InternalRequest) : List String :=
  req.system ++ req.messages.flatMap fun m =>
    if m.role = .system then
      m.parts.filterMap fun part =>
        match part with
        | .text t => if Text.trim t = "" then none else some t
        | _ => none
    else []

def billingHeader : String :=
  "x-anthropic-billing-header: cc_version=1.18.31; cc_entrypoint=cli; cch=00000;"

def sentinel : String := "You are Claude Code, Anthropic's official CLI for Claude."

/-- The system texts that an OAuth token of Claude Code needs. -/
def claudeCodeSystem (system : List String) : List String :=
  let system :=
    if system.any (Text.contains · "x-anthropic-billing-header:") then system
    else billingHeader :: system
  if system.any (Text.contains · "You are Claude Code") then system
  else system.insertIdx (if system = [] then 0 else 1) sentinel

/-- The `system` of the body. -/
def systemValue (ctx : UpstreamContext) (req : InternalRequest) : Option Value :=
  if isClaudeCodeOauth ctx then
    let system := claudeCodeSystem (systemTexts req)
    some (.array (system.zipIdx.map fun (text, index) =>
      .object ([("type", .string "text"), ("text", .string text)] ++
        if index = system.length - 1 then [("cache_control", ephemeral)] else [])))
  else if systemTexts req = [] then none
  else some (.string ("\n\n".intercalate (systemTexts req)))

/-- A sampling parameter, unless the model does not take it. -/
def samplingField (ctx : UpstreamContext) (name : String) (value : Option ℚ) :
    List (String × Value) :=
  if (ctx.params.lookup name).getD true then field name (value.map fun x => .number (.float x))
  else []

/-- The fields of a tool. -/
def toolFields (t : ToolDef) : List (String × Value) :=
  [("name", .string t.name), ("description", .string (t.description.getD "")),
    ("input_schema",
      if t.parameters.isNull then
        .object [("type", .string "object"), ("properties", .object [])]
      else t.parameters)] ++ field "defer_loading" (t.deferLoading.map .bool)

def buildTool (t : ToolDef) : Value := .object (toolFields t)

/-- The last tool that is not loaded later is marked. -/
def markLastCacheableTool : List ToolDef → List Value
  | [] => []
  | t :: tools =>
    let cacheable (t : ToolDef) := t.deferLoading ≠ some true
    .object (toolFields t ++
      if cacheable t ∧ ¬ tools.any cacheable then [("cache_control", ephemeral)] else []) ::
      markLastCacheableTool tools

/-- The `tools` of the body. -/
def toolsValue (ctx : UpstreamContext) (req : InternalRequest) : Option Value :=
  if req.tools = [] then none
  else if isClaudeCodeOauth ctx then some (.array (markLastCacheableTool req.tools))
  else some (.array (req.tools.map buildTool))

/-- The `tool_choice` of the body. -/
def buildToolChoice (req : InternalRequest) : Option Value :=
  match req.toolChoice with
  | some .none => some (.object [("type", .string "none")])
  | some .required => some (.object [("type", .string "any")])
  | some .specific =>
    some (.object [("type", .string "tool"), ("name", .string (req.toolChoiceName.getD ""))])
  | some .auto | none => none

/-- The body for a request; `further` are the fields that the thinking map and the model's extra
request add. -/
def buildBody (J : SerdeJson) (ctx : UpstreamContext) (req : InternalRequest)
    (further : List (String × Value)) : Value :=
  .object ([("model", .string ctx.upstreamId), ("stream", .bool true)] ++
    field "system" (systemValue ctx req) ++
    [("messages", .array (buildMessages J req.messages)),
      ("max_tokens", .number (.int
        (((req.params.maxTokens.map Int.ofNat).or ctx.maxOutputTokens).getD 4096)))] ++
    samplingField ctx "temperature" req.params.temperature ++
    samplingField ctx "top_p" req.params.topP ++
    samplingField ctx "top_k" req.params.topK ++
    field "stop_sequences"
      (if req.params.stop = [] then none else some (.array (req.params.stop.map .string))) ++
    field "tools" (toolsValue ctx req) ++
    field "tool_choice" (buildToolChoice req) ++ further)

section Fields
variable (J : SerdeJson) (ctx : UpstreamContext) (req : InternalRequest)

theorem lookup_field_of_ne {name key : String} (h : key ≠ name) (value : Option Value) :
    (field name value).lookup key = none := by
  cases value with
  | none => rfl
  | some value =>
    change [(name, value)].lookup key = none
    rw [List.lookup_cons, beq_eq_false_iff_ne.mpr h]
    rfl

theorem lookup_samplingField_of_ne {name key : String} (h : key ≠ name) (value : Option ℚ) :
    (samplingField ctx name value).lookup key = none := by
  unfold samplingField
  split
  · exact lookup_field_of_ne h _
  · rfl

/-- The messages of a body are those built, whatever else is added. -/
theorem buildBody_messages (further : List (String × Value)) :
    (buildBody J ctx req further).get "messages" =
      some (.array (buildMessages J req.messages)) := by
  rw [buildBody, Value.get]
  cases systemValue ctx req <;> rfl

/-- The adapter itself sets no effort. -/
theorem buildBody_effort : (buildBody J ctx req []).get "output_config" = none := by
  rw [buildBody, Value.get]
  simp (disch := decide) only [List.lookup_append, lookup_field_of_ne, lookup_samplingField_of_ne]
  rfl

end Fields

/-- Messages whose calls name their tools come back from every body that is accepted as they were,
with the names of the results that their calls give; and a body is accepted if nothing is added to
it. -/
theorem messages_round_trip (J : SerdeJson) (ctx : UpstreamContext) (req : InternalRequest)
    (h : ∀ m ∈ req.messages, CarriedMessage J m)
    (hname : ∀ m ∈ req.messages, ∀ part ∈ m.parts, NamesTool part) :
    (∀ further decoded, decodeRequest J (buildBody J ctx req further) = .ok decoded →
      decoded.messages = (resolveToolResultNames (req.messages.map unnamed)).1) ∧
      ∃ decoded, decodeRequest J (buildBody J ctx req []) = .ok decoded := by
  refine ⟨fun further decoded hdecode => ?_, ?_⟩
  · obtain ⟨messages, hmessages, -, hdecoded, -⟩ := decodeRequest_eq_ok hdecode
    have hbuilt := buildBody_messages J ctx req further
    rw [buildBody, Value.get] at hbuilt
    rw [hbuilt] at hmessages
    cases hmessages
    rw [hdecoded, decode_buildMessages h hname]
  · have hmodel : (buildBody J ctx req []).get "model" = some (.string ctx.upstreamId) := rfl
    have hmessages := buildBody_messages J ctx req []
    have heffort := buildBody_effort J ctx req
    rw [buildBody, Value.get] at hmodel hmessages heffort
    exact decodeRequest_isOk hmodel hmessages heffort

def exampleContext : UpstreamContext where
  credential := "sk-ant-api"
  credentialPlugin := ""
  upstreamId := "claude"
  maxOutputTokens := none
  params := []

def exampleRequest (messages : List Message) : InternalRequest where
  requestedModel := "claude"
  system := []
  messages := messages
  tools := []
  toolChoice := none
  toolChoiceName := none
  params := {}
  stream := false
  includeUsage := false
  thinking := none
  extra := []
  rawBody := none

def exampleConversation : List Message :=
  [⟨.user, [.text "What time is it?"]⟩,
    ⟨.assistant, [.toolCall (some "call_1") "clock" "\x7b\x7d" none]⟩,
    ⟨.user, [.toolResult "call_1" (some "clock") "noon" false, .text "Is it late?"]⟩]

theorem exampleConversation_round_trip :
    ∃ decoded, decodeRequest .ofEmptyObject
        (buildBody .ofEmptyObject exampleContext (exampleRequest exampleConversation) []) =
          .ok decoded ∧
      decoded.messages = exampleConversation := by
  have hcanonical : Canonical .ofEmptyObject "\x7b\x7d" := ⟨[], rfl, rfl⟩
  have hcarried : ∀ m ∈ exampleConversation, CarriedMessage .ofEmptyObject m := by
    intro m hm
    simp only [exampleConversation, List.mem_cons, List.not_mem_nil, or_false] at hm
    rcases hm with rfl | rfl | rfl
    · exact ⟨.inl rfl, by simp, by simp [Carried]⟩
    · exact ⟨.inr rfl, by simp, by simp [Carried, hcanonical]⟩
    · exact ⟨.inl rfl, by simp, by simp [Carried]⟩
  have hname : ∀ m ∈ exampleConversation, ∀ part ∈ m.parts, NamesTool part := by
    simp [exampleConversation, NamesTool]
  obtain ⟨hback, decoded, hdecoded⟩ := messages_round_trip .ofEmptyObject exampleContext
    (exampleRequest exampleConversation) hcarried hname
  exact ⟨decoded, hdecoded, (hback [] decoded hdecoded).trans (by decide)⟩

def namelessCall : List Message :=
  [⟨.assistant, [.toolCall (some "call_1") "" "\x7b\x7d" none]⟩]

/-- A call of a tool without a name does not come back. -/
theorem nameless_call_lost :
    ¬ ∀ (J : SerdeJson) (ctx : UpstreamContext) (req : InternalRequest),
      (∀ m ∈ req.messages, CarriedMessage J m) → ∀ decoded,
        decodeRequest J (buildBody J ctx req []) = .ok decoded →
          decoded.messages = (resolveToolResultNames (req.messages.map unnamed)).1 := by
  intro h
  have hcarried : ∀ m ∈ namelessCall, CarriedMessage .ofEmptyObject m := by
    intro m hm
    rw [List.mem_singleton.mp hm]
    exact ⟨.inr rfl, by simp, by simpa [Carried] using ⟨[], rfl, rfl⟩⟩
  obtain ⟨decoded, hdecoded, hmessages⟩ : ∃ decoded, decodeRequest .ofEmptyObject
      (buildBody .ofEmptyObject exampleContext (exampleRequest namelessCall) []) =
        .ok decoded ∧ decoded.messages = [] := ⟨_, rfl, by decide⟩
  have hback := h .ofEmptyObject exampleContext (exampleRequest namelessCall) hcarried decoded
    hdecoded
  rw [hmessages] at hback
  cases hback

end Kinetix.Adapters.Anthropic
