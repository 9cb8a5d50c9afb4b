import Kinetix.Adapters.AnthropicStream
import Kinetix.Adapters.Reasoning
import Kinetix.Foundation.JsonText
import Kinetix.Outbound.Redirects
import Mathlib.Data.List.Forall2

/-!
# OpenAI Responses answers in a stream

`parse_stream_chunk` and `parse_full_response` of `adapters/openai_responses.rs`, how the provider
cuts a response into the events of a stream, and what the two make of it. At the end the same for
the data of both providers.

## Implementation notes

What `serde_json` says about an event that is not JSON is left out of the failure's message. A usage
record of the terminal event is that of the response itself.
-/

namespace Kinetix.Adapters.Responses
open Frontends Json Kinetix.Types Tiling

/-- A failure of the provider, with its message. -/
def failure (message : String) : UpstreamFailure :=
  { kind := .serverError, status := none, retryAfterSecs := none, message := message,
    quotaResetAt := none }

/-! ## The end of a response -/

/-- A count of a usage record, which may be in a record of details. -/
def usageCount (usage : Value) (path : List String) : Option Nat :=
  (pointer usage path).bind (·.asU64)

/-- What a response says was used. -/
def usage (response : Value) : Option TokenUsage :=
  (response.get "usage").map fun usage => {
    input := usageCount usage ["input_tokens"]
    output := usageCount usage ["output_tokens"]
    cached := usageCount usage ["input_tokens_details", "cached_tokens"]
    cacheWrite := usageCount usage ["input_tokens_details", "cache_write_tokens"]
    thinking := usageCount usage ["output_tokens_details", "reasoning_tokens"] }

/-- `finish_reason`: why the response ended. -/
def finishReason (response : Value) (incompleteEvent : Bool) : FinishReason :=
  let incompleteReason := (pointer response ["incomplete_details", "reason"]).bind (·.asStr)
  if incompleteEvent ∨ strField response "status" = some "incomplete" ∨ incompleteReason.isSome then
    match incompleteReason with
    | some "max_output_tokens" => .length
    | some "content_filter" => .contentFilter
    | some reason => .other reason
    | none => .other "incomplete"
  else if (((response.get "output").bind (·.asArray)).getD []).any (kindOf · = "function_call") then
    .toolCalls
  else .stop

/-- What is used and the finish, at the end. -/
def terminalEvents (response : Value) (incompleteEvent : Bool) : List StreamEvent :=
  ((usage response).map .usage).toList ++ [.finish (finishReason response incompleteEvent)]

/-! ## Streams -/

/-- `value.get("output_index")` as a `u32`. -/
def outputIndex (v : Value) : Nat := asU32 (((v.get "output_index").bind (·.asU64)).getD 0)

/-- A delta event has a text; an empty one makes no event. -/
def deltaEvents (f : String → StreamEvent) (v : Value) : List StreamEvent :=
  deltas f (strField v "delta").toList

/-- The item of `response.output_item.added`. -/
def addedEvents (v : Value) : List StreamEvent :=
  match v.get "item" with
  | none => []
  | some item =>
    if kindOf item ≠ "function_call" then []
    else
      match strField item "name", strField item "call_id" with
      | some name, some callId => [.toolCallStart (outputIndex v) (some callId) name none]
      | _, _ => []

/-- The message of an error, without its secrets. -/
def failureMessage (found : Option Value) : String :=
  Outbound.redact ((found.bind (·.asStr)).getD "OpenAI Responses request failed")

/-- The events of data that is JSON. -/
def chunkEvents (v : Value) : Except UpstreamFailure (List StreamEvent) :=
  match kindOf v with
  | "response.output_text.delta" => .ok (deltaEvents .textDelta v)
  | "response.refusal.delta" => .ok (deltaEvents .refusalDelta v)
  | "response.reasoning_summary_text.delta" => .ok (deltaEvents (.thinkingDelta · none) v)
  | "response.output_item.added" => .ok (addedEvents v)
  | "response.function_call_arguments.delta" =>
    .ok (deltaEvents (.toolCallArgsDelta (outputIndex v)) v)
  | "response.completed" => .ok (terminalEvents ((v.get "response").getD v) false)
  | "response.incomplete" => .ok (terminalEvents ((v.get "response").getD v) true)
  | "response.failed" | "error" =>
    .error (failure (failureMessage
      ((pointer v ["response", "error", "message"]).or (pointer v ["error", "message"]))))
  | _ => .ok []

/-- `OpenAiResponsesAdapter::parse_stream_chunk`. -/
def parseStreamChunk (J : SerdeJson) (data : String) : Except UpstreamFailure (List StreamEvent) :=
  if Text.trim data = "[DONE]" then .ok []
  else
    match J.fromStr data with
    | none => .error (failure "invalid OpenAI Responses event")
    | some v => chunkEvents v

/-! ## Whole responses -/

/-- What is heard of a part of a message. -/
def partEvents (part : Value) : List StreamEvent :=
  match kindOf part with
  | "output_text" => deltas .textDelta (strField part "text").toList
  | "refusal" => deltas .refusalDelta (strField part "refusal").toList
  | _ => []

/-- What is heard of a part of a summary. -/
def summaryEvents (part : Value) : List StreamEvent :=
  deltas (.thinkingDelta · none) (strField part "text").toList

/-- The parts of an item. -/
def listField (item : Value) (name : String) : List Value :=
  ((item.get name).bind (·.asArray)).getD []

/-- What is heard of an item of the output. -/
def itemEvents (index : Nat) (item : Value) : List StreamEvent :=
  match kindOf item with
  | "message" => (listField item "content").flatMap partEvents
  | "function_call" =>
    match strField item "name" with
    | none => []
    | some name =>
      .toolCallStart (asU32 index) (strField item "call_id") name none ::
        deltas (.toolCallArgsDelta (asU32 index)) (strField item "arguments").toList
  | "reasoning" => (listField item "summary").flatMap summaryEvents
  | _ => []

/-- `output_events` of the items from an index on. -/
def outputEvents (index : Nat) : List Value → List StreamEvent
  | [] => []
  | item :: items => itemEvents index item ++ outputEvents (index + 1) items

/-- What is heard of a response that did not fail. -/
def responseEvents (response : Value) : List StreamEvent :=
  outputEvents 0 (listField response "output") ++ terminalEvents response false

/-- `OpenAiResponsesAdapter::parse_full_response`. -/
def parseFullResponse (body : Value) : Except UpstreamFailure (List StreamEvent) :=
  let response := (body.get "response").getD body
  if strField response "status" = some "failed" then
    .error (failure (failureMessage (pointer response ["error", "message"])))
  else .ok (responseEvents response)

/-! ## Cutting a response -/

/-- An event that says nothing of the response. -/
def isBookkeeping (v : Value) : Bool :=
  kindOf v ∈ ["response.created", "response.queued", "response.in_progress",
    "response.content_part.added", "response.content_part.done", "response.output_text.done",
    "response.output_text.annotation.added", "response.refusal.done",
    "response.reasoning_summary_part.added", "response.reasoning_summary_part.done",
    "response.reasoning_summary_text.done", "response.reasoning_text.delta",
    "response.reasoning_text.done", "response.function_call_arguments.done",
    "response.output_item.done"]

/-- An event with a piece of a text. -/
structure Piece (kind : String) (v : Value) (piece : String) : Prop where
  event : kindOf v = kind
  delta : strField v "delta" = some piece

/-- An event that is about the item with an index. -/
def AtIndex (index : Nat) (v : Value) : Prop := (v.get "output_index").bind (·.asU64) = some index

/-- An item is announced before its parts. -/
structure Announced (index : Nat) (kind : String) (v shown : Value) : Prop where
  event : kindOf v = "response.output_item.added"
  index : AtIndex index v
  item : v.get "item" = some shown
  kind : kindOf shown = kind

/-- How a part of a message is cut. -/
inductive PartCut : Value → List Value → Prop
  | text {part : Value} {chunks : List Value} {pieces : List String}
    (kind : kindOf part = "output_text")
      (cut : List.Forall₂ (Piece "response.output_text.delta") chunks pieces)
      (whole : strField part "text" = some (String.join pieces)) : PartCut part chunks
  | refusal {part : Value} {chunks : List Value} {pieces : List String}
    (kind : kindOf part = "refusal")
      (cut : List.Forall₂ (Piece "response.refusal.delta") chunks pieces)
      (whole : strField part "refusal" = some (String.join pieces)) : PartCut part chunks

/-- How a part of a summary is cut. -/
inductive SummaryCut : Value → List Value → Prop
  | mk {part : Value} {chunks : List Value} {pieces : List String}
      (cut : List.Forall₂ (Piece "response.reasoning_summary_text.delta") chunks pieces)
      (whole : strField part "text" = some (String.join pieces)) : SummaryCut part chunks

/-- How an item is cut. -/
inductive ItemCut (index : Nat) : Value → List Value → Prop
  | message {item start shown : Value} {parts chunks : List Value} (kind : kindOf item = "message")
      (announced : Announced index "message" start shown)
      (holds : item.get "content" = some (.array parts))
      (cut : Tiled (fun _ => PartCut) 0 parts chunks) : ItemCut index item (start :: chunks)
  | functionCall {item start shown : Value} {chunks : List Value} {pieces : List String}
    {name : String}
      (kind : kindOf item = "function_call")
      (announced : Announced index "function_call" start shown)
      (named : strField item "name" = some name) (name : strField shown "name" = some name)
      (callId : strField shown "call_id" = strField item "call_id")
      (cut : List.Forall₂ (Piece "response.function_call_arguments.delta") chunks pieces)
      (placed : ∀ v ∈ chunks, AtIndex index v)
      (whole : strField item "arguments" = some (String.join pieces)) :
      ItemCut index item (start :: chunks)
  | reasoning {item start shown : Value} {parts chunks : List Value}
    (kind : kindOf item = "reasoning")
      (announced : Announced index "reasoning" start shown)
      (holds : item.get "summary" = some (.array parts))
      (cut : Tiled (fun _ => SummaryCut) 0 parts chunks) : ItemCut index item (start :: chunks)

/-- How a response is cut: its items come one after another, and then the response itself. -/
structure ResponseCut (body response : Value) (chunks content : List Value) (last : Value)
    (items : List Value) : Prop where
  given : (body.get "response").getD body = response
  answered : strField response "status" ≠ some "failed"
  order : chunks.filter (!isBookkeeping ·) = content ++ [last]
  holds : response.get "output" = some (.array items)
  cut : Tiled ItemCut 0 items content
  repeated : last.get "response" = some response
  closes : kindOf last = "response.completed" ∨
    kindOf last = "response.incomplete" ∧ strField response "status" = some "incomplete"

/-- A call has an id that can be told. -/
def Identified (item : Value) : Prop :=
  kindOf item = "function_call" → (strField item "call_id").isSome

/-! ## Items -/

/-- The calls that start. -/
def startsOf (events : List StreamEvent) : List (Nat × Option String × String) :=
  events.filterMap (·.startedAs)

theorem startsOf_append (events more : List StreamEvent) :
    startsOf (events ++ more) = startsOf events ++ startsOf more := List.filterMap_append ..

/-- The events of a stream say the words of other events, and start those calls that have an id. -/
structure Conveys (events whole : List StreamEvent) : Prop where
  words : SameWords events whole
  starts : startsOf events = (startsOf whole).filter (·.2.1.isSome)

theorem Conveys.append {events whole more mores : List StreamEvent} (h : Conveys events whole)
    (hmore : Conveys more mores) : Conveys (events ++ more) (whole ++ mores) where
  words := h.words.append hmore.words
  starts := by
    rw [startsOf_append, startsOf_append, List.filter_append, h.starts, hmore.starts]

theorem Conveys.refl {events : List StreamEvent} (h : startsOf events = []) :
    Conveys events events where
  words := .refl events
  starts := by rw [h, List.filter_nil]

variable {chunks : List Value} {f : String → StreamEvent} {index : Nat}

theorem startsOf_deltas (h : ∀ piece, (f piece).startedAs = none) (pieces : List String) :
    startsOf (deltas f pieces) = [] := by
  rw [startsOf, deltas, List.filterMap_map, List.filterMap_eq_nil_iff]
  exact fun piece _ => h piece

theorem conveys_of_words (h : ∀ piece, (f piece).startedAs = none) {pieces others : List String}
    (hwords : SameWords (deltas f pieces) (deltas f others)) :
    Conveys (deltas f pieces) (deltas f others) where
  words := hwords
  starts := by rw [startsOf_deltas h, startsOf_deltas h, List.filter_nil]

/-- Pieces make one event each, unless they are empty. -/
theorem decodeAll_pieces {kind : String} {pieces : List String}
    (h : List.Forall₂ (Piece kind) chunks pieces)
    (hdecode : ∀ v ∈ chunks, kindOf v = kind → chunkEvents v = .ok (deltaEvents f v)) :
    decodeAll chunkEvents chunks = .ok (deltas f pieces) := by
  induction h with
  | nil => rfl
  | @cons v piece chunks pieces head tail ih =>
    obtain ⟨hv, hchunks⟩ := List.forall_mem_cons.mp hdecode
    have hpiece : chunkEvents v = .ok (deltas f [piece]) := by
      rw [hv head.event, deltaEvents, head.delta]
      rfl
    have hsplit : deltas f (piece :: pieces) = deltas f [piece] ++ deltas f pieces := by
      rw [deltas, deltas, deltas, ← List.map_append, ← List.filter_append, List.singleton_append]
    rw [hsplit]
    exact decodeAll_cons hpiece (ih hchunks)

theorem outputIndex_eq {v : Value} (h : AtIndex index v) : outputIndex v = asU32 index := by
  rw [outputIndex, h]
  rfl

theorem chunkEvents_announced {kind : String} {v shown : Value} (h : Announced index kind v shown)
    (hkind : kind ≠ "function_call") : chunkEvents v = .ok [] := by
  simp [chunkEvents, h.event, addedEvents, h.item, h.kind, hkind]

theorem partCut_conveys {part : Value} (h : PartCut part chunks) :
    ∃ events, decodeAll chunkEvents chunks = .ok events ∧ Conveys events (partEvents part) := by
  cases h with
  | @text pieces kind cut whole =>
    refine ⟨_, decodeAll_pieces (f := .textDelta) cut fun v _ hv => by simp [chunkEvents, hv], ?_⟩
    simp only [partEvents, kind, whole, Option.toList_some]
    exact conveys_of_words (fun _ => rfl) (sameWords_text pieces)
  | @refusal pieces kind cut whole =>
    refine ⟨_, decodeAll_pieces (f := .refusalDelta) cut fun v _ hv => by simp [chunkEvents, hv],
      ?_⟩
    simp only [partEvents, kind, whole, Option.toList_some]
    exact conveys_of_words (fun _ => rfl) (sameWords_refusal pieces)

theorem summaryCut_conveys {part : Value} (h : SummaryCut part chunks) :
    ∃ events, decodeAll chunkEvents chunks = .ok events ∧ Conveys events (summaryEvents part) := by
  obtain @⟨pieces, cut, whole⟩ := h
  refine ⟨_, decodeAll_pieces (f := (.thinkingDelta · none)) cut
    fun v _ hv => by simp [chunkEvents, hv], ?_⟩
  simp only [summaryEvents, whole, Option.toList_some]
  exact conveys_of_words (fun _ => rfl) (sameWords_thinking pieces)

/-- What holds of each part holds of the parts together. -/
theorem parts_convey {cut : ℕ → Value → List Value → Prop} {eventsOf : Value → List StreamEvent}
    (h : ∀ i part chunks, cut i part chunks →
      ∃ events, decodeAll chunkEvents chunks = .ok events ∧ Conveys events (eventsOf part))
    {first : ℕ} {parts chunks : List Value} (htiled : Tiled cut first parts chunks) :
    ∃ events, decodeAll chunkEvents chunks = .ok events ∧
      Conveys events (parts.flatMap eventsOf) := by
  induction htiled with
  | nil first => exact ⟨[], rfl, .refl rfl⟩
  | cons head tail ih =>
    obtain ⟨events, hevents, hconveys⟩ := h _ _ _ head
    obtain ⟨more, hmore, hconveys'⟩ := ih
    exact ⟨events ++ more, decodeAll_append hevents hmore, hconveys.append hconveys'⟩

theorem startsOf_partEvents (part : Value) : startsOf (partEvents part) = [] := by
  unfold partEvents
  split
  · exact startsOf_deltas (fun _ => rfl) _
  · exact startsOf_deltas (fun _ => rfl) _
  · rfl

theorem startsOf_flatMap {eventsOf : Value → List StreamEvent}
    (h : ∀ part, startsOf (eventsOf part) = []) (parts : List Value) :
    startsOf (parts.flatMap eventsOf) = [] := by
  induction parts with
  | nil => rfl
  | cons part parts ih => rw [List.flatMap_cons, startsOf_append, h, ih, List.nil_append]

/-- An item of a stream and the whole item, of which the stream tells the calls with an id. -/
theorem itemCut_conveys {item : Value} (h : ItemCut index item chunks) :
    (∃ events, decodeAll chunkEvents chunks = .ok events ∧ Conveys events (itemEvents index item)) ∧
      ((∀ started ∈ startsOf (itemEvents index item), started.2.1.isSome) ↔ Identified item) := by
  cases h with
  | @message start shown parts chunks kind announced holds cut =>
    obtain ⟨events, hevents, hconveys⟩ := parts_convey (fun _ _ _ h => partCut_conveys h) cut
    have hitem : itemEvents index item = parts.flatMap partEvents := by
      simp [itemEvents, kind, listField, holds, Value.asArray]
    rw [hitem, startsOf_flatMap startsOf_partEvents, Identified, kind]
    refine ⟨⟨events, ?_, hconveys⟩, by simp⟩
    exact decodeAll_cons (chunkEvents_announced announced (by decide)) hevents
  | @functionCall start shown chunks pieces name kind announced named name' callId cut
    placed whole =>
    have hcut : decodeAll chunkEvents chunks =
        .ok (deltas (.toolCallArgsDelta (asU32 index)) pieces) :=
      decodeAll_pieces cut fun v hv hkind => by
        simp [chunkEvents, hkind, outputIndex_eq (placed v hv)]
    have hargs : Conveys (deltas (.toolCallArgsDelta (asU32 index)) pieces)
        (deltas (.toolCallArgsDelta (asU32 index)) [String.join pieces]) :=
      conveys_of_words (fun _ => rfl) (sameWords_args (asU32 index) pieces)
    have hitem : itemEvents index item =
        .toolCallStart (asU32 index) (strField item "call_id") name none ::
          deltas (.toolCallArgsDelta (asU32 index)) [String.join pieces] := by
      simp [itemEvents, kind, named, whole]
    have hstarts : startsOf (itemEvents index item) =
        [(asU32 index, strField item "call_id", name)] := by
      have hnone := startsOf_deltas (f := .toolCallArgsDelta (asU32 index)) (fun _ => rfl)
        [String.join pieces]
      rw [startsOf] at hnone
      rw [hitem, startsOf, List.filterMap_cons, hnone]
      rfl
    refine ⟨?_, by simp [hstarts, Identified, kind]⟩
    cases hid : strField item "call_id" with
    | none =>
      have hstart : chunkEvents start = .ok [] := by
        simp [chunkEvents, announced.event, addedEvents, announced.item, announced.kind, callId,
          hid]
      refine ⟨_, decodeAll_cons hstart hcut, ?_, ?_⟩
      · rw [hitem]
        exact hargs.words.start ..
      · rw [hstarts, hid, List.nil_append, startsOf_deltas fun _ => rfl]
        rfl
    | some id =>
      have hstart : chunkEvents start = .ok [.toolCallStart (asU32 index) (some id) name none] := by
        simp [chunkEvents, announced.event, addedEvents, announced.item, announced.kind, callId,
          hid, name', outputIndex_eq announced.index]
      refine ⟨_, decodeAll_cons hstart hcut, ?_⟩
      rw [hitem, hid]
      have hannounced : Conveys [.toolCallStart (asU32 index) (some id) name none]
          [.toolCallStart (asU32 index) (some id) name none] := ⟨.refl _, rfl⟩
      exact hannounced.append hargs
  | @reasoning start shown parts chunks kind announced holds cut =>
    obtain ⟨events, hevents, hconveys⟩ := parts_convey (fun _ _ _ h => summaryCut_conveys h) cut
    have hitem : itemEvents index item = parts.flatMap summaryEvents := by
      simp [itemEvents, kind, listField, holds, Value.asArray]
    have hnone (part : Value) : startsOf (summaryEvents part) = [] :=
      startsOf_deltas (fun _ => rfl) _
    rw [hitem, startsOf_flatMap hnone, Identified, kind]
    refine ⟨⟨events, ?_, hconveys⟩, by simp⟩
    exact decodeAll_cons (chunkEvents_announced announced (by decide)) hevents

theorem itemsCut_convey {items content : List Value} (h : Tiled ItemCut index items content) :
    (∃ events, decodeAll chunkEvents content = .ok events ∧
        Conveys events (outputEvents index items)) ∧
      ((∀ started ∈ startsOf (outputEvents index items), started.2.1.isSome) ↔
        ∀ item ∈ items, Identified item) := by
  induction h with
  | nil index => exact ⟨⟨[], rfl, .refl rfl⟩, by simp [outputEvents, startsOf]⟩
  | cons head tail ih =>
    obtain ⟨⟨events, hevents, hconveys⟩, hids⟩ := itemCut_conveys head
    obtain ⟨⟨more, hmore, hconveys'⟩, hids'⟩ := ih
    refine ⟨⟨events ++ more, decodeAll_append hevents hmore, hconveys.append hconveys'⟩, ?_⟩
    rw [outputEvents, startsOf_append, List.forall_mem_append, hids, hids', List.forall_mem_cons]

/-! ## The whole answer -/

theorem chunkEvents_bookkeeping {v : Value} (h : isBookkeeping v = true) :
    chunkEvents v = .ok [] := by
  simp only [isBookkeeping, List.mem_cons, List.not_mem_nil, or_false, decide_eq_true_eq] at h
  unfold chunkEvents
  rcases h with h | h | h | h | h | h | h | h | h | h | h | h | h | h | h <;> simp [h]

/-- The last event tells the end of the response as the response itself does. -/
theorem chunkEvents_last {body response last : Value} {chunks content items : List Value}
    (h : ResponseCut body response chunks content last items) :
    chunkEvents last = .ok (terminalEvents response false) := by
  rcases h.closes with hkind | ⟨hkind, hstatus⟩
  · simp [chunkEvents, hkind, h.repeated]
  · have hreason : finishReason response true = finishReason response false := by
      simp [finishReason, hstatus]
    simp [chunkEvents, hkind, h.repeated, terminalEvents, hreason]

theorem startsOf_terminalEvents (response : Value) (incompleteEvent : Bool) :
    startsOf (terminalEvents response incompleteEvent) = [] := by
  unfold terminalEvents
  cases usage response <;> rfl

/-- Events that convey others say the same exactly if the calls of those all have ids. -/
theorem Conveys.answerOf_eq_iff {events whole : List StreamEvent} (h : Conveys events whole) :
    answerOf events = answerOf whole ↔ ∀ started ∈ startsOf whole, started.2.1.isSome := by
  have hargs (index : Nat) : argsOf index events = argsOf index whole := h.words.args index ""
  have hcalls : saidCalls events = saidCalls whole ↔ startsOf events = startsOf whole := by
    simp only [saidCalls, hargs]
    refine ⟨fun heq => ?_, fun heq => by rw [← startsOf, ← startsOf, heq]⟩
    have hlength := congrArg List.length heq
    rw [List.length_map, List.length_map, ← startsOf, ← startsOf, h.starts,
      List.length_filter_eq_length_iff] at hlength
    rw [h.starts, List.filter_eq_self]
    exact hlength
  rw [h.words.answerOf_eq_iff, hcalls, h.starts, List.filter_eq_self]

/-- A stream and the response that it was cut from say the same exactly if the calls have ids. -/
theorem response_alike_iff {body response last : Value} {chunks content items : List Value}
    (h : ResponseCut body response chunks content last items) :
    ∃ events whole, decodeAll chunkEvents chunks = .ok events ∧ parseFullResponse body = .ok whole ∧
      (answerOf events = answerOf whole ↔ ∀ item ∈ items, Identified item) := by
  obtain ⟨⟨events, hevents, hconveys⟩, hids⟩ := itemsCut_convey h.cut
  have hterminal : Conveys (terminalEvents response false) (terminalEvents response false) :=
    .refl (startsOf_terminalEvents response false)
  have hlast : decodeAll chunkEvents [last] = .ok (terminalEvents response false ++ []) :=
    decodeAll_cons (chunkEvents_last h) rfl
  rw [List.append_nil] at hlast
  have hchunks : decodeAll chunkEvents chunks = .ok (events ++ terminalEvents response false) := by
    rw [← decodeAll_filter (!isBookkeeping ·)
      fun v hv => chunkEvents_bookkeeping (by simpa using hv), h.order]
    exact decodeAll_append hevents hlast
  have hfull : parseFullResponse body =
      .ok (outputEvents 0 items ++ terminalEvents response false) := by
    have hitems : listField response "output" = items := by
      rw [listField, h.holds]
      rfl
    rw [parseFullResponse, h.given, if_neg h.answered, responseEvents, hitems]
  refine ⟨_, _, hchunks, hfull, ?_⟩
  rw [(hconveys.append hterminal).answerOf_eq_iff, startsOf_append, startsOf_terminalEvents,
    List.append_nil, hids]

end Kinetix.Adapters.Responses

namespace Kinetix.Adapters
open Frontends Json

/-! ## Both providers -/

/-- The data of a stream and what they are read as. -/
def ReadAs (J : SerdeJson) : List String → List Value → Prop :=
  List.Forall₂ fun data v => J.fromStr data = some v

/-- Data that end a stream and are not JSON. -/
def isDone (data : String) : Bool := Text.trim data = "[DONE]"

theorem decodeAll_anthropic {J : SerdeJson} {datas : List String} {chunks : List Value}
    (h : ReadAs J datas chunks) :
    decodeAll (Anthropic.parseStreamChunk J) datas =
      .ok (chunks.flatMap Anthropic.chunkEvents) := by
  induction h with
  | nil => rfl
  | cons head tail ih => exact decodeAll_cons (by rw [Anthropic.parseStreamChunk, head]) ih

/-- An Anthropic stream and the message that it was cut from say the same, where the arguments of
calls are compared as JSON, exactly if the last usage record with an input count is complete or its
sum is too large to be told. A Responses stream and the response that it was cut from say the same
exactly if every call has an id. -/
theorem decoders_alike_iff (J : SerdeJson) :
    (∀ (datas : List String) (body start usage : Value)
      (chunks content closing blocks : List Value),
      ReadAs J datas chunks →
      Anthropic.MessageCut J body chunks content closing start blocks usage →
      (∀ b ∈ blocks, ∀ input, b.get "input" = some input →
        argumentsOf J (J.toString input) = some input) →
      ∃ events, decodeAll (Anthropic.parseStreamChunk J) datas = .ok events ∧
        (Alike J (answerOf events) (answerOf (Anthropic.parseFullResponse J body)) ↔
          Anthropic.Complete (Anthropic.streamRecords chunks) ∨
            Words.u64Max ≤ Anthropic.lastSum (Anthropic.streamRecords chunks))) ∧
    (∀ (datas : List String) (body response last : Value) (chunks content items : List Value),
      ReadAs J (datas.filter (!isDone ·)) chunks →
      Responses.ResponseCut body response chunks content last items →
      ∃ events whole, decodeAll (Responses.parseStreamChunk J) datas = .ok events ∧
        Responses.parseFullResponse body = .ok whole ∧
        (answerOf events = answerOf whole ↔ ∀ item ∈ items, Responses.Identified item)) := by
  constructor
  · intro datas body start usage chunks content closing blocks hread hcut hinputs
    exact ⟨_, decodeAll_anthropic hread, Anthropic.message_alike_iff hcut hinputs⟩
  · intro datas body response last chunks content items hread hcut
    obtain ⟨events, whole, hevents, hwhole, hiff⟩ := Responses.response_alike_iff hcut
    refine ⟨events, whole, ?_, hwhole, hiff⟩
    have hdone (data : String) (h : (!isDone data) = false) :
        Responses.parseStreamChunk J data = .ok [] := by
      rw [Responses.parseStreamChunk, if_pos (by simpa [isDone] using h)]
    have hread' := (List.forall₂_and_left _ _).mpr
      ⟨fun data (hdata : data ∈ datas.filter (!isDone ·)) => (List.mem_filter.mp hdata).2, hread⟩
    rw [← decodeAll_filter _ hdone, ← hevents]
    refine decodeAll_read (fun data v ⟨hdata, hv⟩ => ?_) hread'
    rw [Responses.parseStreamChunk, if_neg (by simpa [isDone] using hdata), hv]

/-! ## A greeting and a call -/

namespace Greeting

def counts (fields : List (String × Int)) : Value :=
  .object (fields.map fun field => (field.1, .number (.int field.2)))

def messageStart : Value :=
  .object [("type", .string "message_start"), ("message", .object
    [("usage", counts [("input_tokens", 10), ("cache_read_input_tokens", 100)])])]

def blockStart (index : Int) (block : Value) : Value :=
  .object [("type", .string "content_block_start"), ("index", .number (.int index)),
    ("content_block", block)]

def textDelta (text : String) : Value :=
  .object [("type", .string "content_block_delta"), ("index", .number (.int 0)),
    ("delta", .object [("type", .string "text_delta"), ("text", .string text)])]

def textBlock (text : String) : Value :=
  .object [("type", .string "text"), ("text", .string text)]

def toolUse : Value :=
  .object [("type", .string "tool_use"), ("id", .string "toolu_1"), ("name", .string "now"),
    ("input", .object [])]

/-- A greeting in two pieces and a call without arguments. -/
def content : List Value :=
  [blockStart 0 (textBlock ""), textDelta "Hel", textDelta "lo"] ++ [blockStart 1 toolUse]

def messageDelta (usage : Value) : Value :=
  .object [("type", .string "message_delta"),
    ("delta", .object [("stop_reason", .string "tool_use")]), ("usage", usage)]

def chunks (usage : Value) : List Value := messageStart :: (content ++ [messageDelta usage])

def usage : Value :=
  counts [("input_tokens", 10), ("cache_read_input_tokens", 100), ("output_tokens", 5)]

def body : Value :=
  .object [("content", .array [textBlock "Hello", toolUse]), ("stop_reason", .string "tool_use"),
    ("usage", usage)]

/-- A reader of the data. -/
def reader (record : Value) : SerdeJson := .ofValues (.object [] :: chunks record)

def datas (record : Value) : List String := (chunks record).map (reader record).toString

/-- The last record has the output only. -/
def outputOnly : Value := counts [("output_tokens", 5)]

/-- The last record repeats one of the input counts. -/
def oneInput : Value := counts [("input_tokens", 10), ("output_tokens", 5)]

theorem cut (record : Value)
    (h : ∀ name ∈ Anthropic.usageNames, Anthropic.usageCount usage name =
      Anthropic.lastReport name (Anthropic.streamRecords (chunks record)))
    (hempty : (reader record).fromStr "{}" = some (.object [])) :
    Anthropic.MessageCut (reader record) body (chunks record) content
      [messageDelta record] messageStart
      [textBlock "Hello", toolUse] usage where
  order := by
    simp [chunks, content, messageStart, blockStart, textDelta, messageDelta,
      Anthropic.isBookkeeping, kindOf, strField, Value.get, Value.asStr]
  starts := rfl
  holds := rfl
  cut := by
    refine .cons ?_ (.singleton ?_)
    · exact .text rfl ⟨rfl, rfl, rfl, rfl⟩
        (.cons ⟨rfl, rfl, _, rfl, rfl, rfl⟩ (.cons ⟨rfl, rfl, _, rfl, rfl, rfl⟩ .nil)) rfl
    · exact .toolUse rfl ⟨rfl, rfl, rfl, rfl⟩ rfl rfl .nil rfl hempty
  closes v hv := by
    rw [List.mem_singleton.mp hv]
    rfl
  reason := rfl
  recorded := rfl
  counts := h

theorem inputs (record : Value) (hempty : (reader record).fromStr "\x7b\x7d" = some (.object [])) :
    ∀ b ∈ [textBlock "Hello", toolUse], ∀ input, b.get "input" = some input →
      argumentsOf (reader record) ((reader record).toString input) = some input := by
  intro b hb input hinput
  rcases List.mem_cons.mp hb with rfl | hb
  · exact nomatch hinput
  · rw [List.mem_singleton.mp hb] at hinput
    cases hinput
    exact hempty

theorem reads (record : Value)
    (h : ((.object [] :: chunks record).map (reader record).toString).Nodup) :
    ReadAs (reader record) (datas record) (chunks record) :=
  List.forall₂_map_left_iff.mpr <| List.forall₂_same.mpr fun _ hv =>
    SerdeJson.ofValues_toString _ h (List.mem_cons_of_mem _ hv)

end Greeting

namespace Answered

def added (index : Int) (item : Value) : Value :=
  .object [("type", .string "response.output_item.added"), ("output_index", .number (.int index)),
    ("item", item)]

def delta (kind : String) (index : Int) (text : String) : Value :=
  .object [("type", .string kind), ("output_index", .number (.int index)), ("delta", .string text)]

def message (parts : List Value) : Value :=
  .object [("type", .string "message"), ("content", .array parts)]

def part : Value := .object [("type", .string "output_text"), ("text", .string "Hello")]

def call (arguments : String) : Value :=
  .object [("type", .string "function_call"), ("call_id", .string "call_1"),
    ("name", .string "now"), ("arguments", .string arguments)]

def response : Value :=
  .object [("status", .string "completed"),
    ("output", .array [message [part], call "\x7b\x7d"])]

def completed : Value :=
  .object [("type", .string "response.completed"), ("response", response)]

/-- A greeting in two pieces and a call whose arguments come in two pieces. -/
def content : List Value :=
  [added 0 (message []), delta "response.output_text.delta" 0 "Hel",
    delta "response.output_text.delta" 0 "lo"] ++
  [added 1 (call ""), delta "response.function_call_arguments.delta" 1 "\x7b",
    delta "response.function_call_arguments.delta" 1 "\x7d"]

def chunks : List Value := content ++ [completed]

def reader : SerdeJson := .ofValues chunks

def datas : List String := chunks.map reader.toString ++ ["[DONE]"]

theorem cut :
    Responses.ResponseCut response response chunks content completed
      [message [part], call "\x7b\x7d"] where
  given := rfl
  answered := by decide +kernel
  order := by
    simp [chunks, content, added, delta, completed, Responses.isBookkeeping, kindOf, strField,
      Value.get, Value.asStr]
  holds := rfl
  cut := by
    refine .cons ?_ (.singleton ?_)
    · exact .message rfl ⟨rfl, rfl, rfl, rfl⟩ rfl (.singleton (.text rfl
        (.cons ⟨rfl, rfl⟩ (.cons ⟨rfl, rfl⟩ .nil)) rfl))
    · exact .functionCall rfl ⟨rfl, rfl, rfl, rfl⟩ rfl rfl rfl
        (.cons ⟨rfl, rfl⟩ (.cons ⟨rfl, rfl⟩ .nil))
        (List.forall_mem_cons.mpr ⟨rfl, List.forall_mem_singleton.mpr rfl⟩) rfl
  repeated := rfl
  closes := .inl rfl

/-- The text of an object does not end the stream. -/
theorem not_isDone_object (fields : List (String × Value)) :
    isDone (reader.toString (.object fields)) = false := by
  have hbrace : '\x7b' ∈ (reader.toString (.object fields)).toList := by
    simp [reader, SerdeJson.ofValues, Value.toText]
  rw [isDone, decide_eq_false_iff_not]
  intro hdone
  have htrimmed := Text.mem_trim (by decide) hbrace
  rw [hdone] at htrimmed
  exact absurd htrimmed (by decide)

theorem reads : ReadAs reader (datas.filter (!isDone ·)) chunks := by
  have hobjects : ∀ v ∈ chunks, ∃ fields, v = .object fields := by
    simp [chunks, content, added, delta, completed]
  have hdatas : datas.filter (!isDone ·) = chunks.map reader.toString := by
    have hdone : isDone "[DONE]" = true := by decide +kernel
    have hkept : ∀ data ∈ chunks.map reader.toString, (!isDone data) = true := by
      intro data hdata
      obtain ⟨v, hv, rfl⟩ := List.mem_map.mp hdata
      obtain ⟨fields, rfl⟩ := hobjects v hv
      rw [not_isDone_object, Bool.not_false]
    rw [datas, List.filter_append, List.filter_eq_self.mpr hkept,
      List.filter_cons_of_neg (by simp [hdone]),
      List.filter_nil, List.append_nil]
  have hdistinct : (chunks.map reader.toString).Nodup := by decide +kernel
  rw [hdatas]
  exact List.forall₂_map_left_iff.mpr <| List.forall₂_same.mpr fun _ hv =>
    SerdeJson.ofValues_toString _ hdistinct hv

end Answered

/-- The last usage record leaves the input alone, and the call has an id. -/
theorem greeting_alike :
    (∃ events, decodeAll (Anthropic.parseStreamChunk (Greeting.reader Greeting.outputOnly))
        (Greeting.datas Greeting.outputOnly) = .ok events ∧
      Alike (Greeting.reader Greeting.outputOnly) (answerOf events)
        (answerOf
          (Anthropic.parseFullResponse (Greeting.reader Greeting.outputOnly) Greeting.body))) ∧
    ∃ events whole, decodeAll (Responses.parseStreamChunk Answered.reader) Answered.datas =
        .ok events ∧
      Responses.parseFullResponse Answered.response = .ok whole ∧
        answerOf events = answerOf whole := by
  constructor
  · have hempty := SerdeJson.ofValues_toString (.object [] :: Greeting.chunks Greeting.outputOnly)
      (by decide +kernel) List.mem_cons_self
    obtain ⟨events, hevents, hiff⟩ := (decoders_alike_iff (Greeting.reader Greeting.outputOnly)).1
      (Greeting.datas Greeting.outputOnly) Greeting.body Greeting.messageStart Greeting.usage
      (Greeting.chunks Greeting.outputOnly) Greeting.content
      [Greeting.messageDelta Greeting.outputOnly] [Greeting.textBlock "Hello", Greeting.toolUse]
      (Greeting.reads _ (by decide +kernel)) (Greeting.cut _ (by decide +kernel) hempty)
      (Greeting.inputs _ hempty)
    exact ⟨events, hevents, hiff.mpr (.inl (by unfold Anthropic.Complete; decide +kernel))⟩
  · obtain ⟨events, whole, hevents, hwhole, hiff⟩ := (decoders_alike_iff Answered.reader).2
      Answered.datas Answered.response Answered.response Answered.completed Answered.chunks
      Answered.content [Answered.message [Answered.part], Answered.call "\x7b\x7d"] Answered.reads
      Answered.cut
    refine ⟨events, whole, hevents, hwhole, hiff.mpr fun item hitem hkind => ?_⟩
    rcases List.mem_cons.mp hitem with rfl | hitem
    · exact absurd hkind (by decide +kernel)
    · rw [List.mem_singleton.mp hitem]
      rfl

/-- The stream forgets what an earlier record read from the cache. -/
theorem one_input_not_alike :
    Anthropic.MessageCut (Greeting.reader Greeting.oneInput) Greeting.body
        (Greeting.chunks Greeting.oneInput) Greeting.content
        [Greeting.messageDelta Greeting.oneInput] Greeting.messageStart
        [Greeting.textBlock "Hello", Greeting.toolUse] Greeting.usage ∧
      ∃ events, decodeAll (Anthropic.parseStreamChunk (Greeting.reader Greeting.oneInput))
          (Greeting.datas Greeting.oneInput) = .ok events ∧
        ¬ Alike (Greeting.reader Greeting.oneInput) (answerOf events)
          (answerOf (Anthropic.parseFullResponse (Greeting.reader Greeting.oneInput)
            Greeting.body)) := by
  have hempty := SerdeJson.ofValues_toString (.object [] :: Greeting.chunks Greeting.oneInput)
    (by decide +kernel) List.mem_cons_self
  have hcut := Greeting.cut Greeting.oneInput (by decide +kernel) hempty
  refine ⟨hcut, _, decodeAll_anthropic (Greeting.reads _ (by decide +kernel)), fun h => ?_⟩
  exact absurd ((Anthropic.message_alike_iff hcut (Greeting.inputs _ hempty)).mp h)
    (by unfold Anthropic.Complete; decide +kernel)

end Kinetix.Adapters
