import Kinetix.Frontends.Content

/-!
# OpenAI Chat Completions requests

`decode_request` of `frontends/openai.rs`, and which contents of a body that is accepted and
translated are represented in the internal request.
-/

namespace Kinetix.Frontends.OpenAi
open Json Kinetix.Types

/-! ## Messages -/

/-- The text of the blocks of type `text`. -/
def contentAsText : Option Value → Option String
  | some (.string s) => some s
  | some (.array parts) =>
    some (String.join (parts.filterMap fun p =>
      if strField p "type" = some "text" then strField p "text" else none))
  | _ => none

/-- The reasoning of an assistant message. -/
def decodeReasoning (m : Value) : List Part :=
  match ((m.get "reasoning_content").or (m.get "reasoning")).bind (·.asStr) with
  | some reasoning =>
    if reasoning = "" then [] else [.thinking reasoning (strField m "reasoning_signature")]
  | none => []

def roleOf (m : Value) : String := (strField m "role").getD "user"

/-- The system text or the message that a message gives. -/
def decodeMessage (J : SerdeJson) (m : Value) : Option (String ⊕ Message) :=
  let role := roleOf m
  if role = "system" ∨ role = "developer" then
    ((contentAsText (m.get "content")).filter (· ≠ "")).map .inl
  else if role = "user" then some (.inr ⟨.user, decodeContentParts (m.get "content")⟩)
  else if role = "assistant" then
    some (.inr ⟨.assistant,
      decodeContentParts (m.get "content") ++ decodeReasoning m ++ decodeToolCalls J m⟩)
  else if role = "tool" ∨ role = "function" then
    some (.inr ⟨.tool, [.toolResult ((strField m "tool_call_id").getD "") (strField m "name")
      ((contentAsText (m.get "content")).getD "") false]⟩)
  else none

/-! ## Issues -/

def textOnly (role : String) : Bool := role ∈ ["system", "developer", "tool", "function"]

def inspectMessage (i : Nat) (message : Value) : List String :=
  let role := roleOf message
  (if role ∈ ["system", "developer", "user", "assistant", "tool", "function"] then []
    else [s!"messages[{i}] has unsupported role '{role}'"]) ++
    inspectContent s!"messages[{i}].content" (textOnly role) (message.get "content") ++
    ["audio", "function_call", "refusal", "reasoning_details"].flatMap fun field =>
      if (message.get field).any (!·.isNull) then
        [s!"messages[{i}].{field} has no canonical cross-format representation"]
      else []

def inspectTool (i : Nat) (tool : Value) : List String :=
  let kind := (strField tool "type").getD "function"
  if kind = "function" then []
  else [s!"tools[{i}] type '{kind}' has no canonical cross-format representation"]

def nestedTranslationIssues (obj : List (String × Value)) : List String :=
  let messages := ((obj.lookup "messages").bind (·.asArray)).getD []
  let tools := ((obj.lookup "tools").bind (·.asArray)).getD []
  (messages.zipIdx.flatMap fun (message, i) => inspectMessage i message) ++
    tools.zipIdx.flatMap fun (tool, i) => inspectTool i tool

/-! ## The request -/

def decodeToolChoice : Option Value → Option ToolChoice × Option String
  | some (.string s) => (some (choiceOfName s), none)
  | some (.object o) => (some .specific, ((o.lookup "function").bind (strField · "name")))
  | _ => (some .auto, none)

def decodeStop : Option Value → List String
  | some (.string s) => [s]
  | some (.array a) => a.filterMap (·.asStr)
  | _ => []

/-- The fields that are not handed on as unknown ones. -/
def known : List String :=
  ["model", "messages", "stream", "stream_options", "temperature", "top_p", "top_k", "max_tokens",
    "max_completion_tokens", "stop", "seed", "presence_penalty", "frequency_penalty", "tools",
    "tool_choice", "reasoning_effort"]

/-- `decode_request` of the Chat frontend. -/
def decodeRequest (J : SerdeJson) (body : Value) : Except ProxyError InternalRequest :=
  match body.asObject with
  | none => .error (.badRequest "request body must be a JSON object")
  | some obj =>
    match (obj.lookup "model").bind (·.asStr), (obj.lookup "messages").bind (·.asArray) with
    | none, _ => .error (.badRequest "missing required field 'model'")
    | some _, none => .error (.badRequest "missing required field 'messages'")
    | some model, some messages =>
      let decoded := messages.filterMap (decodeMessage J)
      let (resolved, unresolved) :=
        resolveToolResultNames (decoded.filterMap Sum.getRight?)
      let (toolChoice, toolChoiceName) := decodeToolChoice (obj.lookup "tool_choice")
      .ok
        { requestedModel := model
          system := decoded.filterMap Sum.getLeft?
          messages := resolved
          tools := decodeFunctionTools (obj.lookup "tools")
          toolChoice := toolChoice
          toolChoiceName := toolChoiceName
          params :=
            { temperature := (obj.lookup "temperature").bind (·.asF64)
              topP := (obj.lookup "top_p").bind (·.asF64)
              topK := (obj.lookup "top_k").bind (·.asF64)
              maxTokens :=
                (((obj.lookup "max_tokens").or (obj.lookup "max_completion_tokens")).bind
                  (·.asU64)).map asU32
              stop := decodeStop (obj.lookup "stop")
              seed := (obj.lookup "seed").bind (·.asI64)
              presencePenalty := (obj.lookup "presence_penalty").bind (·.asF64)
              frequencyPenalty := (obj.lookup "frequency_penalty").bind (·.asF64) }
          stream := ((obj.lookup "stream").bind (·.asBool)).getD false
          includeUsage :=
            ((((obj.lookup "stream_options").bind (·.get "include_usage"))).bind
              (·.asBool)).getD false
          thinking :=
            ((obj.lookup "reasoning_effort").bind (·.asStr)).bind mapReasoningEffort
          extra := attachTranslationIssues (obj.filter fun field => field.1 ∉ known)
            (nestedTranslationIssues obj ++ unresolved)
          rawBody := none }

/-- What a decoded request holds of its body. -/
theorem decodeRequest_eq_ok {J : SerdeJson} {body : Value} {request : InternalRequest}
    (h : decodeRequest J body = .ok request) :
    ∃ obj messages, body = .object obj ∧
      (obj.lookup "messages").bind (·.asArray) = some messages ∧
      request.system = (messages.filterMap (decodeMessage J)).filterMap Sum.getLeft? ∧
      request.messages = (resolveToolResultNames
        ((messages.filterMap (decodeMessage J)).filterMap Sum.getRight?)).1 ∧
      ∃ unresolved, request.extra = attachTranslationIssues
        (obj.filter fun field => field.1 ∉ known) (nestedTranslationIssues obj ++ unresolved) := by
  cases body with
  | object obj =>
    simp only [decodeRequest, Value.asObject] at h
    cases hmodel : (obj.lookup "model").bind (·.asStr) with
    | none =>
      rw [hmodel] at h
      cases h
    | some model =>
      cases hmessages : (obj.lookup "messages").bind (·.asArray) with
      | none =>
        rw [hmodel, hmessages] at h
        cases h
      | some messages =>
        rw [hmodel, hmessages] at h
        cases h
        exact ⟨obj, messages, rfl, hmessages, rfl, rfl, _, rfl⟩
  | _ => cases h

open Selection

def isSystem (m : Value) : Bool := roleOf m = "system" ∨ roleOf m = "developer"

def isTool (m : Value) : Bool := roleOf m = "tool" ∨ roleOf m = "function"

/-- The contents of the system messages that have a text. -/
def systemContents (messages : List Value) : List (Option Value) :=
  ((messages.filter isSystem).map (·.get "content")).filter saysText

/-- What a message that is no system message says, and calls wherever they stand. -/
def contents : Value → List Content
  | .object fields =>
    let m := Value.object fields
    (if isSystem m then [] else if isTool m then [.result m]
      else contentItems (m.get "content")) ++ callItems (m.get "tool_calls")
  | v => [.other v]

/-- The part says the same. -/
def Says (J : SerdeJson) : Content → Part → Prop
  | .plain t, part => part = .text t
  | .block b, part => BlockSays b part
  | .call call, part => CallSays J call part
  | .result m, .toolResult id name content _ =>
    (∃ given, FieldIs m "tool_call_id" given ∧ id = given.getD "") ∧
      (∃ given, FieldIs m "name" given ∧ (given = none ∨ name = given)) ∧
        contentText (m.get "content") = some content
  | _, _ => False

/-! ## Readable messages -/

/-- The entries whose text `content_as_text` keeps. -/
def keeps (b : Value) : Bool := strField b "type" = some "text"

def ReadableMessage (m : Value) : Prop :=
  m.asObject.isSome ∧
    if isSystem m then callItems (m.get "tool_calls") = []
    else if isTool m then
      stringOrNothing (m.get "tool_call_id") ∧ stringOrNothing (m.get "name") ∧
        TextReadable keeps (m.get "content") ∧ callItems (m.get "tool_calls") = []
    else if roleOf m = "assistant" then
      ContentReadable (m.get "content") ∧ CallsReadable (m.get "tool_calls")
    else ContentReadable (m.get "content") ∧ callItems (m.get "tool_calls") = []

theorem contentAsText_eq (content : Option Value) :
    contentAsText content = keptText keeps content := by
  cases content with
  | none => rfl
  | some value =>
    cases value with
    | array blocks => simp [contentAsText, keptText, keeps]
    | _ => rfl

theorem says_readsEntries (J : SerdeJson) : ReadsEntries J (Says J) where
  plain _ _ := Iff.rfl
  block _ _ := Iff.rfl
  call _ _ := Iff.rfl
  other _ _ h := h

theorem Says.filled {J : SerdeJson} {c : Content} {p q : Part} (hpq : NameFilled p q)
    (h : Says J c p) : Says J c q := by
  cases hpq with
  | same => exact h
  | filled id name content isError =>
    cases c with
    | result m =>
      obtain ⟨hid, ⟨given, hgiven, hname⟩, hcontent⟩ := h
      obtain rfl : given = none := by
        rcases hname with hnone | hnone
        · exact hnone
        · exact hnone.symm
      exact ⟨hid, ⟨none, hgiven, .inl rfl⟩, hcontent⟩
    | plain t => cases h
    | block b | call call | item item | other v => exact h.elim

theorem Says.not_isThinking {J : SerdeJson} {c : Content} {p : Part} (h : Says J c p) :
    !p.isThinking := by
  cases p with
  | thinking text signature => cases c <;> cases h
  | _ => rfl

/-! ## The parts of a message -/

/-- The parts that a message is decoded to. -/
def parts (J : SerdeJson) (m : Value) : List Part :=
  match decodeMessage J m with
  | some (.inr message) => message.parts
  | _ => []

section Parts
variable {J : SerdeJson} {m : Value}

theorem filter_decodeReasoning : (decodeReasoning m).filter (!·.isThinking) = [] := by
  unfold decodeReasoning
  cases ((m.get "reasoning_content").or (m.get "reasoning")).bind (·.asStr) with
  | none => rfl
  | some reasoning =>
    by_cases h : reasoning = ""
    · simp [h]
    · simp [h, Part.isThinking]

theorem parts_of_isSystem (h : isSystem m) : parts J m = [] := by
  have hrole : roleOf m = "system" ∨ roleOf m = "developer" := by simpa [isSystem] using h
  unfold parts decodeMessage
  simp only [if_pos hrole]
  cases (contentAsText (m.get "content")).filter (· ≠ "") <;> rfl

theorem parts_of_isTool (h : isTool m) :
    parts J m = [.toolResult ((strField m "tool_call_id").getD "") (strField m "name")
      ((keptText keeps (m.get "content")).getD "") false] := by
  have hrole : roleOf m = "tool" ∨ roleOf m = "function" := by simpa [isTool] using h
  unfold parts decodeMessage
  rw [← contentAsText_eq]
  rcases hrole with hrole | hrole <;> simp [hrole]

theorem parts_of_assistant (h : roleOf m = "assistant") :
    parts J m = decodeContentParts (m.get "content") ++ decodeReasoning m ++
      decodeToolCalls J m := by
  unfold parts decodeMessage
  simp [h]

theorem parts_of_user (h : roleOf m = "user") :
    parts J m = decodeContentParts (m.get "content") := by
  unfold parts decodeMessage
  simp [h]

theorem not_isSystem_of_isTool (h : isTool m) : isSystem m = false := by
  have hrole : roleOf m = "tool" ∨ roleOf m = "function" := by simpa [isTool] using h
  rcases hrole with hrole | hrole <;> simp [isSystem, hrole]

/-- The roles of messages that are not complained of. -/
theorem role_of_inspectMessage {i : Nat} (h : inspectMessage i m = []) :
    isSystem m ∨ isTool m ∨ roleOf m = "assistant" ∨ roleOf m = "user" := by
  simp only [inspectMessage, List.append_eq_nil_iff] at h
  have hrole := h.1.1
  split at hrole
  next hmem =>
    simp only [List.mem_cons, List.not_mem_nil, or_false] at hmem
    simp only [isSystem, isTool, decide_eq_true_eq]
    tauto
  · cases hrole

theorem inspectContent_of_inspectMessage {i : Nat} (h : inspectMessage i m = [])
    (hrole : roleOf m = "assistant" ∨ roleOf m = "user") :
    inspectContent s!"messages[{i}].content" false (m.get "content") = [] := by
  simp only [inspectMessage, List.append_eq_nil_iff] at h
  rcases hrole with hrole | hrole
  · simpa [textOnly, hrole] using h.1.2
  · simpa [textOnly, hrole] using h.1.2

end Parts

section Messages
variable {J : SerdeJson}

theorem result_iff {m : Value} {name : Option String} (hname : name = strField m "name" ∨
      strField m "name" = none) :
    Says J (.result m) (.toolResult ((strField m "tool_call_id").getD "") name
        ((keptText keeps (m.get "content")).getD "") false) ↔
      stringOrNothing (m.get "tool_call_id") ∧ stringOrNothing (m.get "name") ∧
        TextReadable keeps (m.get "content") := by
  simp only [Says, fieldIs_iff, contentText_eq_keptText_iff]
  constructor
  · rintro ⟨⟨given, ⟨hid, -⟩, -⟩, ⟨given', ⟨hnamed, -⟩, -⟩, htext⟩
    exact ⟨hid, hnamed, htext⟩
  · rintro ⟨hid, hnamed, htext⟩
    exact ⟨⟨_, ⟨hid, rfl⟩, rfl⟩, ⟨_, ⟨hnamed, rfl⟩, hname.symm⟩, htext⟩

theorem result_upToName_iff {m : Value} :
    UpToName (Says J) (.result m) (.toolResult ((strField m "tool_call_id").getD "")
        (strField m "name") ((keptText keeps (m.get "content")).getD "") false) ↔
      stringOrNothing (m.get "tool_call_id") ∧ stringOrNothing (m.get "name") ∧
        TextReadable keeps (m.get "content") := by
  constructor
  · rintro ⟨q, hq, hsaid⟩
    generalize hgiven : strField m "name" = given at hq
    cases hq with
    | same => exact (result_iff (.inl hgiven.symm)).mp hsaid
    | filled => exact (result_iff (.inr hgiven)).mp hsaid
  · exact fun h => ⟨_, .same _, (result_iff (.inl rfl)).mpr h⟩

/-- A message that is not complained of says what its parts say exactly if it is readable; the name
of a result may have been filled in. -/
theorem contents_iff {R : Content → Part → Prop} (hR : ReadsEntries J R) {m : Value} {i : Nat}
    (hresult : isTool m → (R (.result m) (.toolResult ((strField m "tool_call_id").getD "")
      (strField m "name") ((keptText keeps (m.get "content")).getD "") false) ↔
        stringOrNothing (m.get "tool_call_id") ∧ stringOrNothing (m.get "name") ∧
          TextReadable keeps (m.get "content")))
    (h : inspectMessage i m = []) :
    ((parts J m).filter (!·.isThinking)).length ≤ (contents m).length ∧
      (List.Forall₂ R (contents m) ((parts J m).filter (!·.isThinking)) ↔ ReadableMessage m) := by
  cases m with
  | object fields =>
    generalize hm : Value.object fields = m at h hresult
    have hcontents : contents m = (if isSystem m then [] else if isTool m then [.result m]
        else contentItems (m.get "content")) ++ callItems (m.get "tool_calls") := by
      rw [← hm]
      rfl
    have hobject : m.asObject.isSome := by
      rw [← hm]
      rfl
    have hcalls := length_decodeToolCalls_le J m
    have hcontent := length_decodeContentParts_le (m.get "content")
    rw [hcontents, ReadableMessage]
    simp only [hobject, true_and]
    rcases role_of_inspectMessage h with hrole | hrole | hrole | hrole
    · rw [parts_of_isSystem hrole, if_pos hrole, if_pos hrole]
      exact ⟨Nat.zero_le _, (forall₂_append_left_iff (Nat.zero_le _)).trans
        (and_iff_right .nil)⟩
    · have hnot := not_isSystem_of_isTool hrole
      rw [parts_of_isTool hrole, hnot]
      simp only [Bool.false_eq_true, if_false, if_pos hrole]
      refine ⟨by simp [Part.isThinking], (forall₂_append_left_iff ?_).trans ?_⟩
      · exact Nat.le_refl 1
      · rw [List.filter_cons_of_pos rfl, List.filter_nil, List.forall₂_cons, hresult hrole]
        simp [and_assoc]
    · rw [parts_of_assistant hrole]
      simp only [isSystem, isTool, hrole, List.filter_append, filter_decodeContentParts,
        filter_decodeToolCalls, filter_decodeReasoning, List.append_nil]
      simp only [String.reduceEq, or_self, decide_false, Bool.false_eq_true, if_false, if_true]
      have hinspect := inspectContent_of_inspectMessage h (.inl hrole)
      rw [forall₂_append_iff hcontent hcalls, contentItems_iff hR hinspect, callItems_iff hR,
        List.length_append, List.length_append]
      exact ⟨Nat.add_le_add hcontent hcalls, Iff.rfl⟩
    · rw [parts_of_user hrole]
      simp only [isSystem, isTool, hrole, filter_decodeContentParts]
      simp only [String.reduceEq, or_self, decide_false, Bool.false_eq_true, if_false]
      have hinspect := inspectContent_of_inspectMessage h (.inr hrole)
      rw [forall₂_append_left_iff hcontent, contentItems_iff hR hinspect, List.length_append]
      exact ⟨Nat.le_add_right_of_le hcontent, Iff.rfl⟩
  | _ => exact ⟨Nat.zero_le _, iff_of_false (fun h => by cases h) (fun h => by cases h.1)⟩

theorem system_eq (messages : List Value) :
    (messages.filterMap (decodeMessage J)).filterMap Sum.getLeft? =
      ((messages.filter isSystem).map (·.get "content")).filterMap (systemText keeps) := by
  rw [List.filterMap_map, List.filterMap_filter, List.filterMap_filterMap]
  refine List.filterMap_congr fun m _ => ?_
  unfold decodeMessage
  by_cases hsystem : roleOf m = "system" ∨ roleOf m = "developer"
  · have hbool : isSystem m := by simpa [isSystem] using hsystem
    simp only [if_pos hsystem, hbool, if_true, Function.comp_apply, systemText, contentAsText_eq]
    cases (keptText keeps (m.get "content")).filter (· ≠ "") <;> rfl
  · have hbool : isSystem m = false := by simpa [isSystem] using hsystem
    simp only [if_neg hsystem, hbool, Bool.false_eq_true, if_false]
    split_ifs <;> rfl

theorem parts_eq (messages : List Value) :
    ((messages.filterMap (decodeMessage J)).filterMap Sum.getRight?).flatMap (·.parts) =
      messages.flatMap (parts J) := by
  induction messages with
  | nil => rfl
  | cons m messages ih =>
    rw [List.flatMap_cons, ← ih, parts]
    cases hm : decodeMessage J m with
    | none => rw [List.filterMap_cons_none hm, List.nil_append]
    | some decoded =>
      rw [List.filterMap_cons_some hm]
      cases decoded <;> rfl

end Messages

/-- Every system text and every content of the body is represented, in order. -/
def Represented (J : SerdeJson) (body : Value) (req : InternalRequest) : Prop :=
  InOrder (fun content s => contentText content = some s) (systemContents (bodyMessages body))
      req.system ∧
    InOrder (Says J) ((bodyMessages body).flatMap contents) (req.messages.flatMap (·.parts))

/-- The body's system texts are whole and its messages readable. -/
def Readable (body : Value) : Prop :=
  (∀ m ∈ bodyMessages body, isSystem m → TextReadable keeps (m.get "content")) ∧
    ∀ m ∈ bodyMessages body, ReadableMessage m

theorem represented_iff {J : SerdeJson} {body : Value} {req : InternalRequest}
    (hdecode : decodeRequest J body = .ok req) (h : translationUnsupported req.extra = none) :
    Represented J body req ↔ Readable body := by
  obtain ⟨obj, messages, rfl, hmessages, hsystem, hresolved, unresolved, hextra⟩ :=
    decodeRequest_eq_ok hdecode
  have hbody : bodyMessages (.object obj) = messages := by
    rw [bodyMessages, Value.get, hmessages]
    rfl
  rw [hextra] at h
  have hissues := (List.append_eq_nil_iff.mp (issues_of_translatable h)).1
  have hinspect : ∀ m ∈ messages, ∃ i, inspectMessage i m = [] := by
    intro m hm
    obtain ⟨i, hi, rfl⟩ := List.getElem_of_mem hm
    simp only [nestedTranslationIssues, hmessages, Option.getD_some, List.append_eq_nil_iff,
      List.flatMap_eq_nil_iff] at hissues
    exact ⟨i, hissues.1 (messages[i], i) (List.mem_zipIdx_iff_getElem?.mpr (by simp [hi]))⟩
  rw [Represented, Readable, hbody, hsystem, hresolved, system_eq]
  refine and_congr ?_ ?_
  · rw [systemContents, inOrder_iff_forall₂_of_length (length_systemTexts_le _), systemTexts_iff,
      List.forall_mem_map]
    simp only [List.mem_filter, and_imp]
  · have hfinal : List.Forall₂ NameFilled (messages.flatMap (parts J)) ((resolveToolResultNames
        ((messages.filterMap (decodeMessage J)).filterMap Sum.getRight?)).1.flatMap (·.parts)) := by
      rw [← parts_eq]
      exact nameFilled_resolveFrom _ 0 _
    refine inOrder_contents_iff (!·.isThinking) hfinal
      (fun c p hc => hc.not_isThinking) (fun p q hpq => by rw [hpq.isThinking])
      (fun c p q hpq hc => hc.filled hpq) ?_ ?_ ?_
    · intro m hm
      obtain ⟨i, hi⟩ := hinspect m hm
      exact (contents_iff (says_readsEntries J) (fun _ => result_iff (.inl rfl)) hi).1
    · intro m hm
      obtain ⟨i, hi⟩ := hinspect m hm
      exact (contents_iff (says_readsEntries J) (fun _ => result_iff (.inl rfl)) hi).2.mpr
    · intro m hm
      obtain ⟨i, hi⟩ := hinspect m hm
      exact (contents_iff (says_readsEntries J).upToName (fun _ => result_upToName_iff) hi).2.mp

end Kinetix.Frontends.OpenAi
