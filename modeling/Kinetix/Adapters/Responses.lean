import Kinetix.Adapters.OpenAi
import Kinetix.Library.Fallible

/-!
# Requests to OpenAI Responses

The input items that `OpenAiResponsesAdapter` of `adapters/openai_responses.rs` builds, which
requests it refuses, and which requests keep the order of their parts.

## Implementation notes

The built items are read back as the sequence of what they show. The adapter joins the texts of a
system message, so that these are one text.
-/

namespace Kinetix.Adapters.Responses
open Frontends Json Kinetix.Types Selection
open OpenAi (urlOf textOf isContent)

def badRequest (message : String) : UpstreamFailure :=
  { kind := .badRequest, status := none, retryAfterSecs := none, message := message,
    quotaResetAt := none }

/-! ## Input items -/

/-- The block of a part of a user or of the assistant. -/
def inputBlock (role : Role) : Part → Except UpstreamFailure Value
  | .text text =>
    .ok (.object [("type", .string (if role = .assistant then "output_text" else "input_text")),
      ("text", .string text)])
  | .image image =>
    .ok (.object [("type", .string "input_image"), ("image_url", .string (urlOf image))])
  | .toolCall _ _ _ _ | .toolResult _ _ _ _ =>
    .error (badRequest "tool state must be serialized as Responses function-call input items")
  | .thinking _ _ =>
    .error (badRequest "provider reasoning state is not supported as Responses input")

def inputContent (parts : List Part) (role : Role) : Except UpstreamFailure (List Value) :=
  parts.mapM (inputBlock role)

/-- A system message has texts only. -/
def systemText : Part → Except UpstreamFailure String
  | .text text => .ok text
  | .thinking _ _ =>
    .error (badRequest "provider reasoning state is not supported as Responses input")
  | _ => .error (badRequest "system messages only support text in Responses input")

def functionCall (callId name arguments : String) : Value :=
  .object [("type", .string "function_call"), ("call_id", .string callId), ("name", .string name),
    ("arguments", .string arguments)]

def functionCallOutput (callId output : String) : Value :=
  .object [("type", .string "function_call_output"), ("call_id", .string callId),
    ("output", .string output)]

/-- The items and the content of a user's or an assistant's message, after one of its parts. -/
def addPart (role : Role) (state : List Value × List Value) (part : Part) :
    Except UpstreamFailure (List Value × List Value) :=
  match role, part with
  | .assistant, .toolCall id name arguments _ =>
    match id.filter (· ≠ "") with
    | none =>
      .error (badRequest "Responses function calls require a non-empty call id")
    | some callId => .ok (state.1 ++ [functionCall callId name arguments], state.2)
  | .user, .toolResult toolCallId _ output _ =>
    if toolCallId = "" then
      .error (badRequest "Responses function-call outputs require a non-empty call id")
    else .ok (state.1 ++ [functionCallOutput toolCallId output], state.2)
  | role, other => (inputContent [other] role).map fun content => (state.1, state.2 ++ content)

/-- A part of a tool message is a result. -/
def toolItem : Part → Except UpstreamFailure Value
  | .toolResult toolCallId _ content _ =>
    if toolCallId = "" then
      .error (badRequest "Responses function-call outputs require a non-empty call id")
    else .ok (functionCallOutput toolCallId content)
  | _ => .error (badRequest "Responses tool messages require function-call output items")

def messageItem (role : Role) (content : List Value) : Value :=
  .object [("role", .string (if role = .assistant then "assistant" else "user")),
    ("content", .array content)]

/-- The items of a message: its calls and results before its content. -/
def messageItems (m : Message) : Except UpstreamFailure (List Value) :=
  match m.role with
  | .system =>
    (m.parts.mapM systemText).map fun texts =>
      if texts = [] then []
      else [.object [("role", .string "system"), ("content", .string (String.join texts))]]
  | .user | .assistant =>
    (m.parts.foldlM (addPart m.role) ([], [])).map fun (items, content) =>
      items ++ if content = [] then [] else [messageItem m.role content]
  | .tool => m.parts.mapM toolItem

/-- `input_items`. -/
def inputItems (req : InternalRequest) : Except UpstreamFailure (List Value) :=
  (req.messages.mapM messageItems).map List.flatten

/-! ## What items show -/

/-- What an item shows. -/
inductive Shown where
  | text (role text : String)
  | image (role url : String)
  | call (callId name arguments : String)
  | result (callId output : String)
  deriving DecidableEq

/-- Whether it is a text or an image. -/
def Shown.isContent : Shown → Bool
  | .text _ _ | .image _ _ => true
  | _ => false

def readBlock (role : String) (block : Value) : Shown :=
  if kindOf block = "input_image" then .image role ((strField block "image_url").getD "")
  else .text role ((strField block "text").getD "")

def readContent (role : String) : Option Value → List Shown
  | some (.string text) => [.text role text]
  | some (.array blocks) => blocks.map (readBlock role)
  | _ => []

/-- What a reader finds in an item. -/
def readItem (item : Value) : List Shown :=
  match kindOf item with
  | "function_call" =>
    [.call ((strField item "call_id").getD "") ((strField item "name").getD "")
      ((strField item "arguments").getD "")]
  | "function_call_output" =>
    [.result ((strField item "call_id").getD "") ((strField item "output").getD "")]
  | _ => readContent ((strField item "role").getD "") (item.get "content")

def roleName : Role → String
  | .system => "system"
  | .assistant => "assistant"
  | .user | .tool => "user"

/-- What a part has to show. -/
def partShown (role : Role) : Part → List Shown
  | .text text => [.text (roleName role) text]
  | .image image => [.image (roleName role) (urlOf image)]
  | .toolCall id name arguments _ => [.call (id.getD "") name arguments]
  | .toolResult toolCallId _ content _ => [.result toolCallId content]
  | .thinking _ _ => []

/-- What a message has to show. -/
def messageShown (m : Message) : List Shown :=
  if m.role = .system then
    if m.parts = [] then [] else [.text "system" (String.join (m.parts.filterMap textOf))]
  else m.parts.flatMap (partShown m.role)

/-- What the messages of a request have to show. -/
def requestShown (req : InternalRequest) : List Shown := req.messages.flatMap messageShown

/-! ## Which requests are refused -/

def accepts : Role → Part → Bool
  | .system, part => part.isText
  | .user, .toolResult toolCallId _ _ _ => toolCallId ≠ ""
  | .assistant, .toolCall id _ _ _ => id.getD "" ≠ ""
  | .tool, .toolResult toolCallId _ _ _ => toolCallId ≠ ""
  | .user, part | .assistant, part => isContent part
  | .tool, _ => false

/-- A request of which every part has a place. -/
def Accepted (req : InternalRequest) : Prop :=
  ∀ m ∈ req.messages, ∀ part ∈ m.parts, accepts m.role part

variable {role : Role} {parts : List Part} {part : Part} {m : Message}

/-- What one part adds to what the items and the content show. -/
theorem addPart_accepted (hrole : role = .user ∨ role = .assistant) (h : accepts role part)
    (state : List Value × List Value) :
    ∃ items content, addPart role state part = .ok (state.1 ++ items, state.2 ++ content) ∧
      items.flatMap readItem = (if !isContent part then partShown role part else []) ∧
      content.map (readBlock (roleName role)) =
        if isContent part then partShown role part else [] := by
  cases part with
  | text t | image image =>
    rcases hrole with rfl | rfl
    · exact ⟨[], [_], by rw [List.append_nil]; rfl, rfl, rfl⟩
    · exact ⟨[], [_], by rw [List.append_nil]; rfl, rfl, rfl⟩
  | toolCall id name arguments signature =>
    rcases hrole with rfl | rfl
    · cases h
    · obtain ⟨callId, rfl⟩ : ∃ callId, id = some callId := by
        cases id with
        | none => simp [accepts] at h
        | some callId => exact ⟨callId, rfl⟩
      have hid : callId ≠ "" := by simpa [accepts] using h
      refine ⟨[functionCall callId name arguments], [], ?_, rfl, rfl⟩
      simp [addPart, Option.filter_some, hid]
  | toolResult toolCallId name output isError =>
    rcases hrole with rfl | rfl
    · have hid : toolCallId ≠ "" := by simpa [accepts] using h
      refine ⟨[functionCallOutput toolCallId output], [], ?_, rfl, rfl⟩
      simp [addPart, hid]
    · cases h
  | thinking t signature =>
    rcases hrole with rfl | rfl
    · cases h
    · cases h

theorem addPart_refused (hrole : role = .user ∨ role = .assistant) (h : accepts role part = false)
    (state : List Value × List Value) : ∃ failure, addPart role state part = .error failure := by
  cases part with
  | text t | image image =>
    rcases hrole with rfl | rfl
    · cases h
    · cases h
  | toolCall id name arguments signature =>
    rcases hrole with rfl | rfl
    · exact ⟨_, rfl⟩
    · have hid : id.filter (· ≠ "") = none := by
        cases id with
        | none => rfl
        | some callId =>
          have hempty : callId = "" := by simpa [accepts] using h
          rw [hempty]
          rfl
      refine ⟨badRequest "Responses function calls require a non-empty call id", ?_⟩
      simp only [addPart, hid]
  | toolResult toolCallId name output isError =>
    rcases hrole with rfl | rfl
    · have hid : toolCallId = "" := by simpa [accepts] using h
      exact ⟨_, by rw [addPart, if_pos hid]⟩
    · exact ⟨_, rfl⟩
  | thinking t signature =>
    rcases hrole with rfl | rfl
    · exact ⟨_, rfl⟩
    · exact ⟨_, rfl⟩

theorem addParts_accepted (hrole : role = .user ∨ role = .assistant)
    (h : ∀ part ∈ parts, accepts role part) (state : List Value × List Value) : ∃ items content,
      parts.foldlM (addPart role) state = .ok (state.1 ++ items, state.2 ++ content) ∧
      items.flatMap readItem = kept (fun part => !isContent part) (partShown role) parts ∧
      content.map (readBlock (roleName role)) = kept isContent (partShown role) parts := by
  induction parts generalizing state with
  | nil => exact ⟨[], [], by rw [List.append_nil, List.append_nil]; rfl, rfl, rfl⟩
  | cons part parts ih =>
    obtain ⟨hpart, hparts⟩ := List.forall_mem_cons.mp h
    obtain ⟨items, content, hadd, hitems, hcontent⟩ := addPart_accepted hrole hpart state
    obtain ⟨items', content', hadd', hitems', hcontent'⟩ :=
      ih hparts (state.1 ++ items, state.2 ++ content)
    refine ⟨items ++ items', content ++ content', ?_, ?_, ?_⟩
    · rw [List.foldlM_cons, hadd]
      simp only [List.append_assoc] at hadd'
      exact hadd'
    · rw [List.flatMap_append, hitems, hitems', kept_cons]
    · rw [List.map_append, hcontent, hcontent', kept_cons]

theorem addParts_refused (hrole : role = .user ∨ role = .assistant)
    (h : ∃ part ∈ parts, accepts role part = false) (state : List Value × List Value) :
    ∃ failure, parts.foldlM (addPart role) state = .error failure := by
  induction parts generalizing state with
  | nil => simp at h
  | cons part parts ih =>
    rw [List.foldlM_cons]
    cases hpart : accepts role part with
    | false =>
      obtain ⟨failure, hfailure⟩ := addPart_refused hrole hpart state
      exact ⟨failure, by rw [hfailure]; rfl⟩
    | true =>
      obtain ⟨items, content, hadd, -⟩ := addPart_accepted hrole hpart state
      have hrest : ∃ part ∈ parts, accepts role part = false := by simpa [hpart] using h
      obtain ⟨failure, hfailure⟩ := ih hrest (state.1 ++ items, state.2 ++ content)
      exact ⟨failure, by rw [hadd]; exact hfailure⟩

/-- What the items of a message show: its calls and results first, and then its texts and images. -/
def builtShown (m : Message) : List Shown :=
  if m.role = .system then messageShown m
  else kept (fun part => !isContent part) (partShown m.role) m.parts ++
    kept isContent (partShown m.role) m.parts

theorem read_messageItem (hrole : role = .user ∨ role = .assistant) (content : List Value) :
    (if content = [] then [] else [messageItem role content]).flatMap readItem =
      content.map (readBlock (roleName role)) := by
  cases content with
  | nil => rfl
  | cons block content =>
    rcases hrole with rfl | rfl
    · exact List.append_nil _
    · exact List.append_nil _

theorem read_spokenItems (hrole : role = .user ∨ role = .assistant)
    (h : ∀ part ∈ parts, accepts role part) : ∃ items, messageItems ⟨role, parts⟩ = .ok items ∧
      items.flatMap readItem = builtShown ⟨role, parts⟩ := by
  obtain ⟨items, content, hadd, hitems, hcontent⟩ := addParts_accepted hrole h ([], [])
  refine ⟨items ++ if content = [] then [] else [messageItem role content], ?_, ?_⟩
  · rcases hrole with rfl | rfl
    · exact congrArg (Except.map _) hadd
    · exact congrArg (Except.map _) hadd
  · rw [List.flatMap_append, hitems, read_messageItem hrole, hcontent, builtShown, if_neg]
    rcases hrole with rfl | rfl
    · exact Role.noConfusion
    · exact Role.noConfusion

theorem read_toolItems (h : ∀ part ∈ parts, accepts .tool part) :
    ∃ items, messageItems ⟨.tool, parts⟩ = .ok items ∧
      items.flatMap readItem = builtShown ⟨.tool, parts⟩ := by
  induction parts with
  | nil => exact ⟨[], rfl, rfl⟩
  | cons part parts ih =>
    obtain ⟨hpart, hparts⟩ := List.forall_mem_cons.mp h
    obtain ⟨items, hitems, hread⟩ := ih hparts
    cases part with
    | toolResult toolCallId name output isError =>
      have hid : toolCallId ≠ "" := by simpa [accepts] using hpart
      refine ⟨functionCallOutput toolCallId output :: items, ?_, ?_⟩
      · refine Fallible.mapM_cons_eq_ok_iff.mpr ⟨_, _, ?_, hitems, rfl⟩
        rw [toolItem, if_neg hid]
      · rw [List.flatMap_cons, hread]
        rfl
    | _ => cases hpart

theorem read_systemItems (h : ∀ part ∈ parts, accepts .system part) :
    ∃ items, messageItems ⟨.system, parts⟩ = .ok items ∧
      items.flatMap readItem = builtShown ⟨.system, parts⟩ := by
  have htexts : parts.mapM systemText = .ok (parts.filterMap textOf) ∧
      (parts.filterMap textOf = [] ↔ parts = []) := by
    induction parts with
    | nil => exact ⟨rfl, iff_of_true rfl rfl⟩
    | cons part parts ih =>
      obtain ⟨hpart, hparts⟩ := List.forall_mem_cons.mp h
      cases part with
      | text t =>
        exact ⟨Fallible.mapM_cons_eq_ok_iff.mpr ⟨_, _, rfl, (ih hparts).1, rfl⟩,
          iff_of_false (List.cons_ne_nil _ _) (List.cons_ne_nil _ _)⟩
      | _ => cases hpart
  refine ⟨_, congrArg (Except.map _) htexts.1, ?_⟩
  by_cases hparts : parts = []
  · rw [hparts]
    rfl
  · beta_reduce
    rw [if_neg (hparts ∘ htexts.2.mp), builtShown, if_pos rfl, messageShown, if_pos rfl,
      if_neg hparts]
    rfl

/-- What the items of a message show, if each of its parts has a place. -/
theorem read_messageItems (h : ∀ part ∈ m.parts, accepts m.role part) :
    ∃ items, messageItems m = .ok items ∧ items.flatMap readItem = builtShown m := by
  obtain ⟨role, parts⟩ := m
  cases role with
  | system => exact read_systemItems h
  | user => exact read_spokenItems (.inl rfl) h
  | assistant => exact read_spokenItems (.inr rfl) h
  | tool => exact read_toolItems h

/-- A message with a part that has no place is refused. -/
theorem messageItems_refused (h : ∃ part ∈ m.parts, accepts m.role part = false)
    (items : List Value) : messageItems m ≠ .ok items := by
  obtain ⟨role, parts⟩ := m
  obtain ⟨part, hpart, hrefused⟩ := h
  intro hitems
  cases role with
  | system =>
    cases htexts : parts.mapM systemText with
    | error failure => simp [messageItems, htexts, Except.map] at hitems
    | ok texts =>
      obtain ⟨text, htext⟩ := Fallible.exists_mapM_eq_ok_iff.mp ⟨texts, htexts⟩ part hpart
      cases part with
      | text t => cases hrefused
      | _ => cases htext
  | user =>
    obtain ⟨failure, hfailure⟩ := addParts_refused (.inl rfl) ⟨part, hpart, hrefused⟩ ([], [])
    simp [messageItems, hfailure, Except.map] at hitems
  | assistant =>
    obtain ⟨failure, hfailure⟩ := addParts_refused (.inr rfl) ⟨part, hpart, hrefused⟩ ([], [])
    simp [messageItems, hfailure, Except.map] at hitems
  | tool =>
    obtain ⟨item, hitem⟩ := Fallible.exists_mapM_eq_ok_iff.mp ⟨items, hitems⟩ part hpart
    cases part with
    | toolResult toolCallId name output isError =>
      have hid : toolCallId = "" := by simpa [accepts] using hrefused
      rw [toolItem, if_pos hid] at hitem
      cases hitem
    | _ => cases hitem

/-- A request is built exactly if every part of it has a place. -/
theorem inputItems_isOk_iff (req : InternalRequest) :
    (∃ items, inputItems req = .ok items) ↔ Accepted req := by
  have hall : (∃ items, inputItems req = .ok items) ↔
      ∃ results, req.messages.mapM messageItems = .ok results := by
    rw [inputItems]
    cases req.messages.mapM messageItems with
    | error failure => exact iff_of_false (fun ⟨_, h⟩ => by cases h) (fun ⟨_, h⟩ => by cases h)
    | ok results => exact iff_of_true ⟨_, rfl⟩ ⟨_, rfl⟩
  rw [hall, Fallible.exists_mapM_eq_ok_iff]
  refine forall₂_congr fun m _ => ⟨fun ⟨items, hitems⟩ part hpart => ?_, fun h => ?_⟩
  · by_contra hrefused
    exact messageItems_refused ⟨part, hpart, by simpa using hrefused⟩ items hitems
  · obtain ⟨items, hitems, -⟩ := read_messageItems h
    exact ⟨items, hitems⟩

/-! ## The order of the parts -/

/-- A message with no text or image before a call or a result. -/
def ToolsFirst (m : Message) : Prop := m.parts.Pairwise fun a b => isContent a → isContent b

theorem read_results {messages : List Message} {results : List (List Value)}
    (haccepted : ∀ m ∈ messages, ∀ part ∈ m.parts, accepts m.role part)
    (h : List.Forall₂ (fun m items => messageItems m = .ok items) messages results) :
    results.flatten.flatMap readItem = messages.flatMap builtShown := by
  induction h with
  | nil => rfl
  | cons hm _ ih =>
    obtain ⟨hfirst, hrest⟩ := List.forall_mem_cons.mp haccepted
    obtain ⟨items, hitems, hread⟩ := read_messageItems hfirst
    obtain rfl := Except.ok.inj (hm.symm.trans hitems)
    rw [List.flatten_cons, List.flatMap_append, hread, ih hrest, List.flatMap_cons]

theorem read_inputItems {req : InternalRequest} {items : List Value}
    (h : inputItems req = .ok items) :
    items.flatMap readItem = req.messages.flatMap builtShown := by
  have haccepted := (inputItems_isOk_iff req).mp ⟨items, h⟩
  rw [inputItems] at h
  cases hresults : req.messages.mapM messageItems with
  | error failure =>
    rw [hresults] at h
    cases h
  | ok results =>
    rw [hresults] at h
    cases h
    exact read_results haccepted (Fallible.mapM_eq_ok_iff.mp hresults)

theorem builtShown_perm (m : Message) : (builtShown m).Perm (messageShown m) := by
  unfold builtShown
  split
  · exact .refl _
  next hrole =>
    rw [messageShown, if_neg hrole]
    exact kept_append_kept_perm _ _ _

theorem isContent_of_mem {shown : Shown} (h : shown ∈ partShown role part) :
    shown.isContent = isContent part := by
  cases part with
  | thinking t signature => cases h
  | _ =>
    rw [List.mem_singleton.mp h]
    rfl

theorem partShown_ne_nil (h : accepts role part) : partShown role part ≠ [] := by
  cases part with
  | thinking t signature => cases role <;> cases h
  | _ => exact List.cons_ne_nil _ _

/-- The items of a message show its parts in their order exactly if its calls and results come
first. -/
theorem builtShown_eq_iff (haccepted : ∀ part ∈ m.parts, accepts m.role part) :
    builtShown m = messageShown m ↔ ToolsFirst m := by
  obtain ⟨role, parts⟩ := m
  by_cases hrole : role = .system
  · subst hrole
    refine iff_of_true (by rw [builtShown, if_pos rfl]) ?_
    refine List.pairwise_of_forall_mem_list fun a _ b hb _ => ?_
    have htext := haccepted b hb
    simp only [accepts] at htext
    rw [isContent, htext, Bool.true_or]
  · have htool : ∀ part, (!isContent part) = true → ∀ shown ∈ partShown role part,
        (!shown.isContent) = true := by
      intro part hpart shown hshown
      rw [isContent_of_mem hshown, hpart]
    have hcontent : ∀ part, isContent part = true → ∀ shown ∈ partShown role part,
        (!shown.isContent) = false := by
      intro part hpart shown hshown
      rw [isContent_of_mem hshown, hpart]
      rfl
    rw [builtShown, if_neg hrole, messageShown, if_neg hrole,
      kept_append_kept_iff (fun part hpart => by simpa using hpart) htool hcontent, and_iff_right]
    · refine List.Pairwise.iff_of_mem fun ha hb => ?_
      have hshown := partShown_ne_nil (haccepted _ ha)
      have hshown' := partShown_ne_nil (haccepted _ hb)
      simp [hshown, hshown']
    · intro part _
      cases hpart : isContent part with
      | false => exact .inl rfl
      | true => exact .inr (.inl rfl)

/-- The adapter keeps every text, image, call and result of a request that it accepts, and it keeps
their order exactly if no message has a text or an image before a call or a result. -/
theorem input_items_keep_order_iff (req : InternalRequest) :
    (∀ items, inputItems req = .ok items →
      (items.flatMap readItem).Perm (requestShown req)) ∧
    ((∀ items, inputItems req = .ok items → items.flatMap readItem = requestShown req) ↔
      (Accepted req → ∀ m ∈ req.messages, ToolsFirst m)) := by
  have hle (m : Message) (_ : m ∈ req.messages) :
      (builtShown m).length ≤ (messageShown m).length :=
    (builtShown_perm m).length_eq.le
  have hiff (haccepted : Accepted req) :
      req.messages.flatMap builtShown = requestShown req ↔ ∀ m ∈ req.messages, ToolsFirst m := by
    rw [requestShown, flatMap_eq_flatMap_iff hle]
    exact forall₂_congr fun m hm => builtShown_eq_iff (haccepted m hm)
  refine ⟨fun items hitems => ?_, fun h haccepted => ?_, fun h items hitems => ?_⟩
  · rw [read_inputItems hitems]
    exact List.Perm.flatMap_left _ fun m _ => builtShown_perm m
  · obtain ⟨items, hitems⟩ := (inputItems_isOk_iff req).mpr haccepted
    rw [← hiff haccepted, ← read_inputItems hitems]
    exact h items hitems
  · have haccepted := (inputItems_isOk_iff req).mp ⟨items, hitems⟩
    rw [read_inputItems hitems]
    exact (hiff haccepted).mpr (h haccepted)

/-- A body in which the assistant says something before it calls a tool. -/
def announcedCallBody : Value :=
  .object [("model", .string "claude"), ("messages", .array
    [.object [("role", .string "user"), ("content", .string "What time is it?")],
      .object [("role", .string "assistant"), ("content", .array
        [.object [("type", .string "text"), ("text", .string "I look at the clock.")],
          .object [("type", .string "tool_use"), ("id", .string "call_1"),
            ("name", .string "clock"), ("input", .object [])]])]])]

/-- The text that an assistant says before a call comes after it in the items. -/
theorem announced_call_reordered :
    ¬ ∀ (J : SerdeJson) (body : Value) (req : InternalRequest) (items : List Value),
      Anthropic.decodeRequest J body = .ok req → inputItems req = .ok items →
        items.flatMap readItem = requestShown req := by
  intro h
  obtain ⟨req, items, hdecoded, hitems, hreversed⟩ : ∃ req items,
      Anthropic.decodeRequest .ofEmptyObject announcedCallBody = .ok req ∧
        inputItems req = .ok items ∧ items.flatMap readItem ≠ requestShown req :=
    ⟨_, _, rfl, rfl, by decide⟩
  exact hreversed (h .ofEmptyObject announcedCallBody req items hdecoded hitems)

end Kinetix.Adapters.Responses
