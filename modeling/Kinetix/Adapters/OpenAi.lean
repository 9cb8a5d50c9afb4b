import Kinetix.Frontends.Anthropic.Decode
import Kinetix.Library.Selection

/-!
# Requests to OpenAI Chat Completions

The messages that `OpenAiAdapter` of `adapters/openai.rs` builds, and which conversations they hold
whole.

## Implementation notes

The built messages are read back as the sequence of what they show. Text is shown character by
character, because the adapter joins the texts of a message; an image is shown as its URL.
-/

namespace Kinetix.Adapters.OpenAi
open Frontends Json Selection

/-- An image as a URL. -/
def urlOf : ImageData → String
  | .base64 mime data => "data:" ++ mime ++ ";base64," ++ data
  | .url url => url

/-- The text of a text part. -/
def textOf : Part → Option String
  | .text t => some t
  | _ => none

/-- The block of a text or an image. -/
def contentBlock : Part → Option Value
  | .text t => some (.object [("type", .string "text"), ("text", .string t)])
  | .image image =>
    some (.object [("type", .string "image_url"),
      ("image_url", .object [("url", .string (urlOf image))])])
  | _ => none

def contentValue (parts : List Part) : Value :=
  if parts.any (·.isImage) then .array (parts.filterMap contentBlock)
  else .string (String.join (parts.filterMap textOf))

def callId (id : Option String) (name : String) : String := id.getD ("call_" ++ name)

/-- A call of the assistant. -/
def toolCallValue : Part → Option Value
  | .toolCall id name arguments _ =>
    some (.object [("id", .string (callId id name)), ("type", .string "function"),
      ("function", .object [("name", .string name), ("arguments", .string arguments)])])
  | _ => none

/-- Texts are joined, and calls listed beside them. -/
def assistantMessage (parts : List Part) : Value :=
  let text := String.join (parts.filterMap textOf)
  let toolCalls := parts.filterMap toolCallValue
  .object
    ([("role", .string "assistant"), ("content", if text ≠ "" then .string text else .null)] ++
    if toolCalls ≠ [] then [("tool_calls", .array toolCalls)] else [])

/-- A result, as a message of its own. -/
def toolMessage : Part → Option Value
  | .toolResult id _ content _ =>
    some (.object [("role", .string "tool"), ("tool_call_id", .string id),
      ("content", .string content)])
  | _ => none

/-- The messages for an internal one. -/
def renderMessage (m : Message) : List Value :=
  match m.role with
  | .assistant => [assistantMessage m.parts]
  | .tool => m.parts.filterMap toolMessage
  | .system | .user => [.object [("role", .string "user"), ("content", contentValue m.parts)]]

def systemMessage (s : String) : Value :=
  .object [("role", .string "system"), ("content", .string s)]

/-- The `messages` of the body. -/
def buildMessages (req : InternalRequest) : List Value :=
  req.system.map systemMessage ++ req.messages.flatMap renderMessage

/-! ## What messages show -/

/-- What a message shows. -/
inductive Shown where
  | char (c : Char)
  | image (url : String)
  | call (id name arguments : String)
  | result (toolCallId content : String)
  deriving DecidableEq

/-- What a part has to show. -/
def partShown : Part → List Shown
  | .text t => t.toList.map .char
  | .image image => [.image (urlOf image)]
  | .toolCall id name arguments _ => [.call (callId id name) name arguments]
  | .toolResult id _ content _ => [.result id content]
  | .thinking _ _ => []

/-- What a content block of a built message shows. -/
def readBlock (block : Value) : List Shown :=
  if kindOf block = "image_url" then
    (((block.get "image_url").bind (strField · "url")).map .image).toList
  else ((strField block "text").getD "").toList.map .char

def readContent : Option Value → List Shown
  | some (.string text) => text.toList.map .char
  | some (.array blocks) => blocks.flatMap readBlock
  | _ => []

def readCall (call : Value) : Shown :=
  let function := (call.get "function").getD .null
  .call ((strField call "id").getD "") ((strField function "name").getD "")
    ((strField function "arguments").getD "")

/-- What a built message shows of the conversation; the system texts are not part of it. -/
def readMessage (message : Value) : List Shown :=
  match strField message "role" with
  | some "system" => []
  | some "tool" =>
    [.result ((strField message "tool_call_id").getD "") ((strField message "content").getD "")]
  | _ =>
    readContent (message.get "content") ++
      (((message.get "tool_calls").bind (·.asArray)).getD []).map readCall

/-- What a reader finds in the messages. -/
def readMessages (messages : List Value) : List Shown := messages.flatMap readMessage

/-- What the messages of a conversation have to show. -/
def conversationShown (messages : List Message) : List Shown :=
  messages.flatMap fun m => m.parts.flatMap partShown

/-! ## What is built -/

def isContent (part : Part) : Bool := part.isText || part.isImage

variable (parts : List Part) (m : Message) (part : Part)

theorem readText : (String.join (parts.filterMap textOf)).toList.map Shown.char =
      kept Part.isText partShown parts := by
  rw [String.toList_join]
  induction parts with
  | nil => rfl
  | cons part parts ih =>
    rw [kept_cons, ← ih]
    cases part with
    | text t => simp [textOf, Part.isText, partShown]
    | _ => rfl

theorem readBlocks :
    (parts.filterMap contentBlock).flatMap readBlock = kept isContent partShown parts := by
  induction parts with
  | nil => rfl
  | cons part parts ih =>
    rw [kept_cons, ← ih]
    cases part <;> rfl

theorem readCalls :
    (parts.filterMap toolCallValue).map readCall = kept Part.isCall partShown parts := by
  induction parts with
  | nil => rfl
  | cons part parts ih =>
    rw [kept_cons, ← ih]
    cases part <;> rfl

theorem readResults :
    readMessages (parts.filterMap toolMessage) = kept Part.isResult partShown parts := by
  induction parts with
  | nil => rfl
  | cons part parts ih =>
    rw [kept_cons, ← ih]
    cases part <;> rfl

theorem readContentValue :
    readContent (some (contentValue parts)) = kept isContent partShown parts := by
  unfold contentValue
  split
  · exact readBlocks parts
  next himage =>
    rw [List.any_eq_true, not_exists] at himage
    refine (readText parts).trans (congrArg (List.flatMap partShown) ?_)
    refine List.filter_congr fun part hpart => ?_
    have hnot : part.isImage = false := by simpa [hpart] using himage part
    rw [isContent, hnot, Bool.or_false]

theorem readAssistant : readMessage (assistantMessage parts) =
      kept Part.isText partShown parts ++ kept Part.isCall partShown parts := by
  rw [← readText, ← readCalls, assistantMessage]
  generalize String.join (parts.filterMap textOf) = text
  generalize parts.filterMap toolCallValue = toolCalls
  have hcontent : readContent (some (if text ≠ "" then .string text else .null)) =
      text.toList.map .char := by
    by_cases h : text = ""
    · rw [if_neg (not_not.mpr h), h]
      rfl
    · rw [if_pos h]
      rfl
  rw [← hcontent]
  cases toolCalls with
  | nil => exact (List.append_nil _).trans (List.append_nil _).symm
  | cons call calls => rfl

/-- What the messages for one of the conversation show. -/
theorem read_renderMessage : readMessages (renderMessage m) = match m.role with
      | .assistant => kept Part.isText partShown m.parts ++ kept Part.isCall partShown m.parts
      | .tool => kept Part.isResult partShown m.parts
      | .system | .user => kept isContent partShown m.parts := by
  obtain ⟨role, parts⟩ := m
  have huser : readMessages [.object [("role", .string "user"), ("content", contentValue parts)]] =
      kept isContent partShown parts := by
    rw [← readContentValue]
    exact (List.append_nil _).trans (List.append_nil _)
  cases role with
  | system | user => exact huser
  | assistant => exact (List.append_nil _).trans (readAssistant parts)
  | tool => exact readResults parts

/-! ## Which conversations are held whole -/

/-- A message of which nothing is lost: its role has a place for every part that shows something,
and an assistant's texts stand before its calls. -/
def Held (m : Message) : Prop :=
  match m.role with
  | .assistant =>
    (∀ part ∈ m.parts, part.isText ∨ part.isCall ∨ partShown part = []) ∧
      m.parts.Pairwise fun a b => a.isCall → b.isText → partShown a = [] ∨ partShown b = []
  | .tool => ∀ part ∈ m.parts, part.isResult ∨ partShown part = []
  | .system | .user => ∀ part ∈ m.parts, isContent part ∨ partShown part = []

def Shown.isChar : Shown → Bool
  | .char _ => true
  | _ => false

theorem not_isCall_of_isText (h : part.isText) : part.isCall = false := by
  cases part with
  | text t => rfl
  | _ => cases h

theorem isChar_of_isText (h : part.isText) : ∀ shown ∈ partShown part, shown.isChar := by
  cases part with
  | text t =>
    intro shown hshown
    obtain ⟨c, -, rfl⟩ := List.mem_map.mp hshown
    rfl
  | _ => cases h

theorem not_isChar_of_isCall (h : part.isCall) :
    ∀ shown ∈ partShown part, shown.isChar = false := by
  cases part with
  | toolCall id name arguments signature =>
    intro shown hshown
    rw [List.mem_singleton.mp hshown]
    rfl
  | _ => cases h

theorem held_iff : readMessages (renderMessage m) = m.parts.flatMap partShown ↔ Held m := by
  rw [read_renderMessage]
  obtain ⟨role, parts⟩ := m
  cases role with
  | system | user | tool => exact kept_eq_iff
  | assistant =>
    exact kept_append_kept_iff not_isCall_of_isText isChar_of_isText not_isChar_of_isCall

theorem length_renderMessage_le :
    (readMessages (renderMessage m)).length ≤ (m.parts.flatMap partShown).length := by
  rw [read_renderMessage]
  obtain ⟨role, parts⟩ := m
  cases role with
  | system | user | tool => exact length_kept_le
  | assistant => exact length_kept_append_le not_isCall_of_isText

/-- The built messages show the conversation, each part once and in order, exactly if nothing of any
message is lost. -/
theorem conversation_shown_iff (req : InternalRequest) :
    readMessages (buildMessages req) = conversationShown req.messages ↔
      ∀ m ∈ req.messages, Held m := by
  have hsystem : readMessages (req.system.map systemMessage) = [] := by
    rw [readMessages, List.flatMap_map, List.flatMap_eq_nil_iff]
    exact fun s _ => rfl
  have hbuilt : readMessages (buildMessages req) =
      req.messages.flatMap fun m => readMessages (renderMessage m) := by
    unfold buildMessages
    rw [readMessages, List.flatMap_append, ← readMessages, hsystem, List.nil_append,
      List.flatMap_assoc]
    rfl
  rw [hbuilt, conversationShown,
    flatMap_eq_flatMap_iff fun m _ => length_renderMessage_le m]
  exact forall₂_congr fun m _ => held_iff m

/-- The Anthropic format has the results of tools in user messages. -/
def resultBody : Value :=
  .object [("model", .string "claude"), ("messages", .array
    [.object [("role", .string "user"), ("content", .string "What time is it?")],
      .object [("role", .string "assistant"), ("content", .array
        [.object [("type", .string "tool_use"), ("id", .string "call_1"),
          ("name", .string "clock"), ("input", .object [])]])],
      .object [("role", .string "user"), ("content", .array
        [.object [("type", .string "tool_result"), ("tool_use_id", .string "call_1"),
          ("content", .string "noon")]])]])]

/-- The result of a tool that an Anthropic client sends is not in the messages. -/
theorem user_result_lost :
    ¬ ∀ (J : SerdeJson) (body : Value) (req : InternalRequest),
      Anthropic.decodeRequest J body = .ok req →
        readMessages (buildMessages req) = conversationShown req.messages := by
  intro h
  obtain ⟨req, hdecoded, hmessages⟩ : ∃ req,
      Anthropic.decodeRequest .ofEmptyObject resultBody = .ok req ∧
        ⟨.user, [.toolResult "call_1" (some "clock") "noon" false]⟩ ∈ req.messages :=
    ⟨_, rfl, by decide⟩
  have hheld := (conversation_shown_iff req).mp (h .ofEmptyObject resultBody req hdecoded) _
    hmessages
  rcases hheld _ (List.mem_singleton_self _) with hcontent | hnothing
  · cases hcontent
  · cases hnothing

end Kinetix.Adapters.OpenAi
