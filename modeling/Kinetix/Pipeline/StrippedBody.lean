import Kinetix.Foundation.JsonText
import Kinetix.Frontends.Decoding
import Kinetix.Pipeline.Portability

/-!
# A stripped request

`strip_nonportable_state` takes the thinking and the signatures out of the internal messages and out
of the raw body. A decoder finds neither in the stripped body, and finds the other parts as they
were.

## Implementation notes

The body is one that the decoder of its format accepted.
-/

namespace Kinetix.Pipeline
open Frontends Json Kinetix.Types

/-! ## Parts with their roles -/

/-- The parts of messages in order, each with the role of its message. -/
def saidParts (messages : List Message) : List (Role × Part) :=
  messages.flatMap fun m => m.parts.map (m.role, ·)

theorem saidParts_cons (m : Message) (messages : List Message) :
    saidParts (m :: messages) = m.parts.map (m.role, ·) ++ saidParts messages :=
  List.flatMap_cons

def withoutThinking (m : Message) : Message := { m with parts := m.parts.filter (!·.isThinking) }

/-- The part without its signature. -/
def unsigned : Part → Part
  | .toolCall id name arguments _ => .toolCall id name arguments none
  | part => part

/-- The state is taken out of a request: its messages have no thinking, the calls have the
signatures that they may have, and the system texts and the other parts are as they were and in
order. -/
structure StateStripped (signature : Option String → Option String)
    (before after : InternalRequest) : Prop where
  thinking : ∀ said ∈ saidParts after.messages, said.2.isThinking = false
  signatures : ∀ role id name arguments given,
    (role, .toolCall id name arguments given) ∈ saidParts after.messages → given = signature id
  unchanged : (saidParts after.messages).map (Prod.map id unsigned) =
    ((saidParts before.messages).filter (!·.2.isThinking)).map (Prod.map id unsigned)
  system : after.system = before.system

/-! ## The internal messages -/

/-- The signature that a call may have. -/
def OpaqueHydrationReport.signature (report : OpaqueHydrationReport) (placeholder : Option String)
    (id : Option String) : Option String :=
  if report.isIncompatible id then placeholder else none

section Messages
variable {report : OpaqueHydrationReport} {placeholder : Option String}

theorem isThinking_stripPart (p : Part) :
    (stripPart report placeholder p).isThinking = p.isThinking := by
  cases p <;> rfl

theorem unsigned_stripPart (p : Part) : unsigned (stripPart report placeholder p) = unsigned p := by
  cases p <;> rfl

theorem stripNonportableState_stripped (J : SerdeJson) (req : InternalRequest)
    (report : OpaqueHydrationReport) (placeholder : Option String) :
    StateStripped (report.signature placeholder) req
      (stripNonportableState J req report placeholder).1 := by
  have hsaid : saidParts (stripNonportableState J req report placeholder).1.messages =
      ((saidParts req.messages).filter (!·.2.isThinking)).map
        (Prod.map id (stripPart report placeholder)) := by
    simp only [stripNonportableState, mapParts]
    induction req.messages with
    | nil => rfl
    | cons m messages ih =>
      rw [List.map_cons, saidParts_cons, saidParts_cons, ih, List.filter_append, List.map_append,
        List.filter_map, List.map_map, List.map_map]
      rfl
  refine ⟨fun said h => ?_, fun role id name arguments given h => ?_, ?_, rfl⟩
  · rw [hsaid] at h
    obtain ⟨⟨role, part⟩, hpart, rfl⟩ := List.mem_map.mp h
    rw [Prod.map_snd, isThinking_stripPart]
    simpa using (List.mem_filter.mp hpart).2
  · rw [hsaid] at h
    obtain ⟨⟨role', part⟩, hpart, heq⟩ := List.mem_map.mp h
    cases part with
    | toolCall id' name' arguments' signature =>
      cases heq
      rfl
    | _ => cases heq
  · rw [hsaid, List.map_map]
    refine List.map_congr_left fun said _ => ?_
    rw [Function.comp_apply, Prod.map_map]
    exact Prod.ext rfl (unsigned_stripPart said.2)

end Messages

/-! ## Results keep their names -/

variable (names : String → Option String) {b : Value} {key : String} {m : Value}

theorem recordCalls_withoutThinking (parts : List Part) :
    recordCalls names (parts.filter (!·.isThinking)) = recordCalls names parts := by
  unfold recordCalls
  induction parts generalizing names with
  | nil => rfl
  | cons p parts ih =>
    cases p with
    | thinking text signature => exact ih names
    | text _ | image _ | toolCall _ _ _ _ | toolResult _ _ _ _ => exact ih _

theorem isThinking_resolvePart (i : Nat) (p : Part) :
    (resolvePart names i p).1.isThinking = p.isThinking :=
  (nameFilled_resolvePart names i p).isThinking.symm

/-- The position of a message does not matter to its parts. -/
theorem resolvePart_index (i j : Nat) (p : Part) :
    (resolvePart names i p).1 = (resolvePart names j p).1 := by
  cases p with
  | toolResult id name content isError =>
    cases name with
    | some name => rfl
    | none =>
      simp only [resolvePart]
      cases names id <;> rfl
  | _ => rfl

theorem resolveFrom_cons (i : Nat) (m : Message) (messages : List Message) :
    (resolveFrom names i (m :: messages)).1 =
      { m with parts := m.parts.map fun p => (resolvePart (recordCalls names m.parts) i p).1 } ::
        (resolveFrom (recordCalls names m.parts) (i + 1) messages).1 := by
  rw [resolveFrom, List.map_map]
  rfl

/-- Without thinking, and without messages that are empty then, the results get the same names. -/
theorem saidParts_resolveFrom (keep : Message → Bool) (hkeep : ∀ m, keep m = false → m.parts = [])
    (names : String → Option String) (i j : Nat) (messages : List Message) :
    saidParts (resolveFrom names i ((messages.map withoutThinking).filter keep)).1 =
      (saidParts (resolveFrom names j messages).1).filter (!·.2.isThinking) := by
  induction messages generalizing names i j with
  | nil => rfl
  | cons m messages ih =>
    have hhead (known : String → Option String) :
        ((m.parts.map fun p => (resolvePart known j p).1).map (m.role, ·)).filter
            (!·.2.isThinking) =
          ((withoutThinking m).parts.map fun p => (resolvePart known i p).1).map (m.role, ·) := by
      rw [List.map_map, List.map_map, List.filter_map, withoutThinking]
      refine congrArg₂ List.map (funext fun p => ?_) (List.filter_congr fun p _ => ?_)
      · exact congrArg (m.role, ·) (resolvePart_index known j i p)
      · exact congrArg (!·) (isThinking_resolvePart known j p)
    have hrecord := recordCalls_withoutThinking names m.parts
    rw [List.map_cons, resolveFrom_cons names j, saidParts_cons, List.filter_append, hhead]
    cases hm : keep (withoutThinking m) with
    | false =>
      have hempty := hkeep _ hm
      rw [List.filter_cons_of_neg (by simp [hm]), hempty, ih names i (j + 1), ← hrecord]
      have hnames : recordCalls names (withoutThinking m).parts = names := by
        rw [hempty]
        rfl
      rw [withoutThinking] at hnames
      rw [hnames]
      rfl
    | true =>
      rw [List.filter_cons_of_pos hm, resolveFrom_cons, saidParts_cons, ih _ (i + 1) (j + 1)]
      have hnames : recordCalls names (withoutThinking m).parts = recordCalls names m.parts :=
        hrecord
      rw [hnames]
      rfl

/-! ## The fields that are left -/

/-- An entry of a content without its signature. -/
def stripBlock : Value → Value
  | .object fields => .object (removeField "thoughtSignature" (removeField "signature" fields))
  | block => block

def isThinkingBlock (b : Value) : Bool := strField b "type" = some "thinking"

theorem stripContent_array (blocks : List Value) : stripContent (.array blocks) =
    .array ((blocks.filter (!isThinkingBlock ·)).map stripBlock) := by
  have hkeep : (fun part : Value => (part.get "type").bind Value.asStr != some "thinking") =
      (!isThinkingBlock ·) := by
    funext b
    rw [isThinkingBlock, bne, beq_eq_decide]
    rfl
  rw [stripContent, hkeep]
  refine congrArg Value.array (List.map_congr_left fun b _ => ?_)
  cases b <;> rfl

theorem get_stripBlock (h : b.Proper) (hsignature : key ≠ "signature")
    (hthought : key ≠ "thoughtSignature") : (stripBlock b).get key = b.get key := by
  cases b with
  | object fields =>
    rw [stripBlock, Value.get, (h.distinct.removeField "signature").lookup_removeField,
      if_neg hthought, h.distinct.lookup_removeField, if_neg hsignature]
    rfl
  | _ => rfl

/-- The fields of a message that hold thinking. -/
def opaqueKeys : List String := ["reasoning_content", "reasoning_signature", "reasoning"]

theorem lookup_stripRawMessage {fields : List (String × Value)} (h : Distinct fields)
    (hkey : key ∉ opaqueKeys) : (stripRawMessage (.object fields)).get key =
      if key = "content" then (fields.lookup key).map stripContent else fields.lookup key := by
  simp only [opaqueKeys, List.mem_cons, List.not_mem_nil, or_false, not_or] at hkey
  obtain ⟨hcontent, hsignature, hreasoning⟩ := hkey
  have hfirst := h.removeField "reasoning_content"
  have hsecond := hfirst.removeField "reasoning_signature"
  have hlookup : (removeField "reasoning_signature" (removeField "reasoning_content" fields)).lookup
      key = fields.lookup key := by
    rw [hfirst.lookup_removeField, if_neg hsignature, h.lookup_removeField, if_neg hcontent]
  have hlast : (if ((removeField "reasoning_signature" (removeField "reasoning_content"
      fields)).lookup "reasoning").any Value.isString then removeField "reasoning"
        (removeField "reasoning_signature" (removeField "reasoning_content" fields))
      else removeField "reasoning_signature" (removeField "reasoning_content" fields)).lookup key =
        fields.lookup key := by
    split
    · rw [hsecond.lookup_removeField, if_neg hreasoning, hlookup]
    · exact hlookup
  rw [stripRawMessage, Value.get, lookup_mapField, hlast]

theorem get_stripRawMessage (h : m.Proper) (hkey : key ∉ opaqueKeys) (hcontent : key ≠ "content") :
    (stripRawMessage m).get key = m.get key := by
  cases m with
  | object fields => rw [lookup_stripRawMessage h.distinct hkey, if_neg hcontent]; rfl
  | _ => rfl

theorem content_stripRawMessage (h : m.Proper) :
    (stripRawMessage m).get "content" = (m.get "content").map stripContent := by
  cases m with
  | object fields => rw [lookup_stripRawMessage h.distinct (by decide), if_pos rfl]; rfl
  | _ => rfl

/-- No reasoning is left in a message. -/
theorem reasoning_stripRawMessage (h : m.Proper) :
    (((stripRawMessage m).get "reasoning_content").or ((stripRawMessage m).get "reasoning")).bind
      (·.asStr) = none := by
  cases m with
  | object fields =>
    have hfirst := h.distinct.removeField "reasoning_content"
    have hsecond := hfirst.removeField "reasoning_signature"
    have hgone : (removeField "reasoning_signature"
        (removeField "reasoning_content" fields)).lookup "reasoning_content" = none := by
      rw [hfirst.lookup_removeField, if_neg (by decide), h.distinct.lookup_removeField, if_pos rfl]
    have hreasoning : "reasoning" ≠ "content" := by decide
    have hcontent : "reasoning_content" ≠ "content" := by decide
    rw [stripRawMessage, Value.get, Value.get, lookup_mapField, lookup_mapField,
      if_neg hcontent, if_neg hreasoning]
    split
    next hstring =>
      rw [hsecond.lookup_removeField, hsecond.lookup_removeField, if_neg (by decide), hgone,
        if_pos rfl]
      rfl
    next hstring =>
      rw [hgone, Option.none_or]
      cases hvalue : (removeField "reasoning_signature"
          (removeField "reasoning_content" fields)).lookup "reasoning" with
      | none => rfl
      | some value =>
        rw [hvalue] at hstring
        cases value with
        | string s => exact absurd rfl hstring
        | _ => rfl
  | _ => rfl

/-! ## What is decoded -/

theorem strField_stripBlock (h : b.Proper) (hsignature : key ≠ "signature")
    (hthought : key ≠ "thoughtSignature") : strField (stripBlock b) key = strField b key := by
  rw [strField, get_stripBlock h hsignature hthought, strField]

theorem kindOf_stripBlock (h : b.Proper) : kindOf (stripBlock b) = kindOf b := by
  rw [kindOf, strField_stripBlock h (by decide) (by decide), kindOf]

theorem filterMap_stripBlock {α : Type*} {d : Value → Option α} {blocks : List Value}
    (h : ∀ b ∈ blocks, isThinkingBlock b = false → d (stripBlock b) = d b) :
    ((blocks.filter (!isThinkingBlock ·)).map stripBlock).filterMap d =
      (blocks.filter (!isThinkingBlock ·)).filterMap d := by
  rw [List.filterMap_map]
  refine List.filterMap_congr fun b hb => ?_
  obtain ⟨hmem, hkept⟩ := List.mem_filter.mp hb
  exact h b hmem (by simpa using hkept)

/-- A reader that does not read thinking reads the same of a stripped content. -/
theorem filterMap_stripped {α : Type*} {d : Value → Option α} {blocks : List Value}
    (h : ∀ b ∈ blocks, isThinkingBlock b = false → d (stripBlock b) = d b)
    (hthinking : ∀ b, isThinkingBlock b → d b = none) :
    ((blocks.filter (!isThinkingBlock ·)).map stripBlock).filterMap d = blocks.filterMap d := by
  rw [filterMap_stripBlock h, List.filterMap_filter]
  refine List.filterMap_congr fun b _ => ?_
  cases hb : isThinkingBlock b with
  | true => simp [hthinking b hb]
  | false => rfl

theorem kindOf_isThinkingBlock (h : isThinkingBlock b) : kindOf b = "thinking" := by
  have htype : strField b "type" = some "thinking" := of_decide_eq_true h
  rw [kindOf, htype]
  rfl

theorem isThinkingBlock_iff : isThinkingBlock b ↔ kindOf b = "thinking" := by
  refine ⟨kindOf_isThinkingBlock, fun h => ?_⟩
  rw [isThinkingBlock, decide_eq_true_eq]
  rw [kindOf] at h
  cases htype : strField b "type" with
  | none =>
    rw [htype] at h
    exact absurd h (by decide)
  | some kind =>
    rw [htype] at h
    exact congrArg some h

theorem decodeBlock_stripBlock (h : b.Proper) : decodeBlock (stripBlock b) = decodeBlock b := by
  have himage : imageUrl (stripBlock b) = imageUrl b := by
    rw [imageUrl, get_stripBlock h (by decide) (by decide),
      strField_stripBlock h (by decide) (by decide), strField_stripBlock h (by decide) (by decide),
      imageUrl]
  rw [decodeBlock, kindOf_stripBlock h, strField_stripBlock h (by decide) (by decide), himage,
    decodeBlock]

theorem decodeContentParts_stripContent {content : Option Value} (h : ∀ v ∈ content, v.Proper) :
    decodeContentParts (content.map stripContent) = decodeContentParts content := by
  cases content with
  | none => rfl
  | some value =>
    cases value with
    | array blocks =>
      have hproper := (h _ rfl).items
      rw [Option.map_some, stripContent_array, decodeContentParts, decodeContentParts]
      refine filterMap_stripped (fun b hb _ => decodeBlock_stripBlock (hproper b hb))
        fun b hb => ?_
      rw [decodeBlock, kindOf_isThinkingBlock hb]
      rfl
    | _ => rfl

theorem isOpaque_decodeBlock {p : Part} (h : decodeBlock b = some p) : Part.isOpaque p = false := by
  unfold decodeBlock at h
  split at h
  · obtain ⟨text, -, rfl⟩ := Option.map_eq_some_iff.mp h
    rfl
  · split at h
    · obtain ⟨url, -, rfl⟩ := Option.map_eq_some_iff.mp h
      unfold decodeImageUrl
      split <;> rfl
    · cases h

theorem isOpaque_decodeContentParts (content : Option Value) :
    ∀ p ∈ decodeContentParts content, Part.isOpaque p = false := by
  intro p hp
  unfold decodeContentParts at hp
  split at hp
  · split at hp
    · cases hp
    · rw [List.mem_singleton.mp hp]
      rfl
  · obtain ⟨b, -, hb⟩ := List.mem_filterMap.mp hp
    exact isOpaque_decodeBlock hb
  · cases hp

theorem isOpaque_decodeToolCalls (J : SerdeJson) (m : Value) :
    ∀ p ∈ decodeToolCalls J m, Part.isOpaque p = false := by
  intro p hp
  unfold decodeToolCalls at hp
  split at hp
  · obtain ⟨call, -, hcall⟩ := List.mem_filterMap.mp hp
    unfold decodeToolCall at hcall
    dsimp only at hcall
    split at hcall
    · cases hcall
    · cases hcall
      rfl
  · cases hp

/-! ### The Chat Completions format -/

section OpenAi
variable {J : SerdeJson} {m : Value}

theorem contentAsText_stripContent {content : Option Value} (h : ∀ v ∈ content, v.Proper) :
    OpenAi.contentAsText (content.map stripContent) = OpenAi.contentAsText content := by
  cases content with
  | none => rfl
  | some value =>
    cases value with
    | array blocks =>
      have hproper := (h _ rfl).items
      rw [Option.map_some, stripContent_array, OpenAi.contentAsText, OpenAi.contentAsText]
      refine congrArg (some ∘ String.join) (filterMap_stripped (fun b hb _ => ?_) fun b hb => ?_)
      · rw [strField_stripBlock (hproper b hb) (by decide) (by decide),
          strField_stripBlock (hproper b hb) (by decide) (by decide)]
      · have htype : strField b "type" = some "thinking" := of_decide_eq_true hb
        rw [htype]
        rfl
    | _ => rfl

theorem openAi_decodeMessage_stripRawMessage (h : m.Proper) :
    OpenAi.decodeMessage J (stripRawMessage m) =
      (OpenAi.decodeMessage J m).map (Sum.map id withoutThinking) := by
  have hget {key : String} (hkey : key ∉ opaqueKeys) (hcontent : key ≠ "content") :
      strField (stripRawMessage m) key = strField m key := by
    rw [strField, get_stripRawMessage h hkey hcontent, strField]
  have hproper : ∀ v ∈ m.get "content", v.Proper := fun v hv => h.get hv
  have hrole : OpenAi.roleOf (stripRawMessage m) = OpenAi.roleOf m := by
    rw [OpenAi.roleOf, hget (by decide) (by decide), OpenAi.roleOf]
  have hcalls : decodeToolCalls J (stripRawMessage m) = decodeToolCalls J m := by
    rw [decodeToolCalls, get_stripRawMessage h (by decide) (by decide), decodeToolCalls]
  have hreasoning : OpenAi.decodeReasoning (stripRawMessage m) = [] := by
    rw [OpenAi.decodeReasoning, reasoning_stripRawMessage h]
  unfold OpenAi.decodeMessage
  rw [hrole, content_stripRawMessage h, contentAsText_stripContent hproper,
    decodeContentParts_stripContent hproper, hcalls, hreasoning, hget (by decide) (by decide),
    hget (by decide) (by decide)]
  dsimp only
  split_ifs with hsystem huser hassistant htool
  · cases (OpenAi.contentAsText (m.get "content")).filter (· ≠ "") <;> rfl
  · simp [withoutThinking, filter_decodeContentParts]
  · simp [withoutThinking, filter_decodeContentParts, OpenAi.filter_decodeReasoning,
      filter_decodeToolCalls]
  · rfl
  · rfl

/-- The parts of a stripped message hold no state. -/
theorem openAi_isOpaque {message : Message} (h : m.Proper)
    (hm : OpenAi.decodeMessage J (stripRawMessage m) = some (.inr message)) :
    ∀ p ∈ message.parts, Part.isOpaque p = false := by
  rw [openAi_decodeMessage_stripRawMessage h] at hm
  unfold OpenAi.decodeMessage at hm
  dsimp only at hm
  split_ifs at hm with hsystem huser hassistant htool
  · cases htext : (OpenAi.contentAsText (m.get "content")).filter (· ≠ "") with
    | none | some text =>
      rw [htext] at hm
      cases hm
  · cases hm
    rw [withoutThinking, filter_decodeContentParts]
    exact isOpaque_decodeContentParts _
  · cases hm
    rw [withoutThinking, List.filter_append, List.filter_append, filter_decodeContentParts,
      OpenAi.filter_decodeReasoning, filter_decodeToolCalls, List.append_nil]
    exact List.forall_mem_append.mpr
      ⟨isOpaque_decodeContentParts _, isOpaque_decodeToolCalls J m⟩
  · cases hm
    intro p hp
    rw [List.mem_singleton.mp (List.mem_filter.mp hp).1]
    rfl
  · cases hm

end OpenAi

/-! ### The Anthropic format -/

section Anthropic
variable {J : SerdeJson} {b m : Value}

theorem anthropic_decodeContentBlock_stripBlock (h : b.Proper) (hb : isThinkingBlock b = false) :
    Anthropic.decodeContentBlock J (stripBlock b) = Anthropic.decodeContentBlock J b := by
  have hkind : kindOf b ≠ "thinking" := fun hkind => by
    rw [isThinkingBlock_iff.mpr hkind] at hb
    cases hb
  have hget {key : String} (hsignature : key ≠ "signature") (hthought : key ≠ "thoughtSignature") :
      (stripBlock b).get key = b.get key := get_stripBlock h hsignature hthought
  have huse : Anthropic.decodeToolUse J (stripBlock b) = Anthropic.decodeToolUse J b := by
    rw [Anthropic.decodeToolUse, strField_stripBlock h (by decide) (by decide),
      strField_stripBlock h (by decide) (by decide), hget (by decide) (by decide),
      Anthropic.decodeToolUse]
  have hresult : Anthropic.decodeToolResult (stripBlock b) = Anthropic.decodeToolResult b := by
    rw [Anthropic.decodeToolResult, strField_stripBlock h (by decide) (by decide),
      hget (by decide) (by decide), hget (by decide) (by decide), Anthropic.decodeToolResult]
  unfold Anthropic.decodeContentBlock
  rw [kindOf_stripBlock h, strField_stripBlock h (by decide) (by decide),
    hget (by decide) (by decide), huse, hresult]
  split
  · rfl
  · rfl
  · rfl
  · rfl
  next hthinking => exact absurd hthinking hkind
  · rfl

/-- A block is decoded to thinking if it is thinking, and to nothing with state otherwise. -/
theorem anthropic_decodeContentBlock_isThinking {p : Part}
    (h : Anthropic.decodeContentBlock J b = some p) :
    p.isThinking = isThinkingBlock b ∧ Part.isOpaque p = isThinkingBlock b := by
  have hblock : isThinkingBlock b = decide (kindOf b = "thinking") := by
    rw [Bool.eq_iff_iff, isThinkingBlock_iff, decide_eq_true_eq]
  unfold Anthropic.decodeContentBlock at h
  split at h
  next hkind =>
    obtain ⟨text, -, rfl⟩ := Option.map_eq_some_iff.mp h
    rw [hblock, hkind]
    exact ⟨rfl, rfl⟩
  next hkind =>
    rw [hblock, hkind]
    unfold Anthropic.decodeImage at h
    dsimp only at h
    split_ifs at h with hbase hurl
    · cases h
      exact ⟨rfl, rfl⟩
    · obtain ⟨url, -, rfl⟩ := Option.map_eq_some_iff.mp h
      exact ⟨rfl, rfl⟩
  next hkind =>
    rw [hblock, hkind]
    unfold Anthropic.decodeToolUse at h
    dsimp only at h
    split_ifs at h
    cases h
    exact ⟨rfl, rfl⟩
  next hkind =>
    cases h
    rw [hblock, hkind]
    exact ⟨rfl, rfl⟩
  next hkind =>
    cases h
    rw [hblock, hkind]
    exact ⟨rfl, rfl⟩
  · cases h

/-- The parts of a stripped content are the parts that are no thinking. -/
theorem anthropic_decodeContent_stripContent {content : Option Value}
    (h : ∀ v ∈ content, v.Proper) :
    Anthropic.decodeContent J (content.map stripContent) =
      (Anthropic.decodeContent J content).filter (!·.isThinking) := by
  cases content with
  | none => rfl
  | some value =>
    cases value with
    | array blocks =>
      have hproper := (h _ rfl).items
      rw [Option.map_some, stripContent_array, Anthropic.decodeContent, Anthropic.decodeContent,
        filterMap_stripBlock fun b hb hkept =>
          anthropic_decodeContentBlock_stripBlock (hproper b hb) hkept,
        List.filterMap_filter, List.filter_filterMap]
      refine List.filterMap_congr fun b _ => ?_
      cases hdecode : Anthropic.decodeContentBlock J b with
      | none => simp
      | some p =>
        obtain ⟨hthinking, -⟩ := anthropic_decodeContentBlock_isThinking hdecode
        simp [Option.filter, hthinking]
    | _ => rfl

theorem anthropic_isOpaque (J : SerdeJson) (content : Option Value) :
    ∀ p ∈ Anthropic.decodeContent J content, Part.isOpaque p = p.isThinking := by
  intro p hp
  unfold Anthropic.decodeContent at hp
  split at hp
  · rw [List.mem_singleton.mp hp]
    rfl
  · obtain ⟨b, -, hb⟩ := List.mem_filterMap.mp hp
    obtain ⟨hthinking, hopaque⟩ := anthropic_decodeContentBlock_isThinking hb
    rw [hthinking, hopaque]
  · cases hp

def hasParts (m : Message) : Bool := m.parts ≠ []

/-- A stripped message is left out if nothing else was in it. -/
theorem anthropic_decodeMessage_stripRawMessage (h : m.Proper) :
    Anthropic.decodeMessage J (stripRawMessage m) =
      ((Anthropic.decodeMessage J m).map withoutThinking).filter hasParts := by
  have hrole : strField (stripRawMessage m) "role" = strField m "role" := by
    rw [strField, get_stripRawMessage h (by decide) (by decide), strField]
  unfold Anthropic.decodeMessage
  rw [hrole, content_stripRawMessage h,
    anthropic_decodeContent_stripContent fun v hv => h.get hv]
  dsimp only
  by_cases hparts : Anthropic.decodeContent J (m.get "content") = []
  · simp [hparts]
  · by_cases hkept : (Anthropic.decodeContent J (m.get "content")).filter (!·.isThinking) = []
    · simp [hparts, hkept, withoutThinking, hasParts, Option.filter]
    · simp [hparts, hkept, withoutThinking, hasParts, Option.filter]

end Anthropic

/-! ### The Responses format -/

section Responses
variable {J : SerdeJson} {item : Value}

theorem responses_isOpaque_decodeInputItem {message : Message}
    (h : Responses.decodeInputItem J item = .ok (some (.inr message))) :
    ∀ p ∈ message.parts, Part.isOpaque p = false := by
  unfold Responses.decodeInputItem at h
  split_ifs at h with hcall houtput
  · obtain ⟨called, hcalled, hmessage⟩ := Fallible.map_eq_ok_iff.mp h
    cases hmessage
    unfold Responses.decodeFunctionCall at hcalled
    split at hcalled
    · cases hcalled
    · cases hcalled
    · cases hcalled
      exact List.forall_mem_singleton.mpr rfl
  · obtain ⟨called, hcalled, hmessage⟩ := Fallible.map_eq_ok_iff.mp h
    cases hmessage
    unfold Responses.decodeFunctionCallOutput at hcalled
    split at hcalled
    · cases hcalled
    · cases hcalled
      exact List.forall_mem_singleton.mpr rfl
  · have hmessage := Except.ok.inj h
    unfold Responses.decodeMessageItem at hmessage
    dsimp only at hmessage
    split_ifs at hmessage with hsystem huser hassistant htool
    · obtain ⟨text, -, htext⟩ := Option.map_eq_some_iff.mp hmessage
      cases htext
    · cases hmessage
      exact isOpaque_decodeContentParts _
    · cases hmessage
      exact List.forall_mem_append.mpr
        ⟨isOpaque_decodeContentParts _, isOpaque_decodeToolCalls J item⟩
    · cases hmessage
      exact List.forall_mem_singleton.mpr rfl

theorem responses_isOpaque_decodeInput {input : Option Value} {decoded : List (String ⊕ Message)}
    (h : Responses.decodeInput J input = .ok decoded) :
    ∀ m ∈ decoded.filterMap Sum.getRight?, ∀ p ∈ m.parts, Part.isOpaque p = false := by
  intro m hm
  obtain ⟨entry, hentry, hright⟩ := List.mem_filterMap.mp hm
  obtain rfl := Sum.getRight?_eq_some_iff.mp hright
  unfold Responses.decodeInput at h
  split at h
  · cases h
    cases hentry
  · cases h
    split at hentry
    · cases hentry
    · cases List.mem_singleton.mp hentry
      exact List.forall_mem_singleton.mpr rfl
  next items =>
    obtain ⟨results, hresults, hfiltered⟩ := Fallible.map_eq_ok_iff.mp h
    rw [← hfiltered] at hentry
    obtain ⟨result, hresult, hsome⟩ := List.mem_filterMap.mp hentry
    obtain ⟨source, -, hsource⟩ := Fallible.exists_of_mem hresults hresult
    obtain rfl : result = some (.inr m) := hsome
    exact responses_isOpaque_decodeInputItem hsource
  · cases h

end Responses

/-! ## The stripped body -/

/-- What `strip_opaque_raw_body` makes of a body that it can read. -/
def stripBody : Value → Value
  | .object fields =>
    match fields.lookup "messages" with
    | some (.array messages) =>
      .object (mapField "messages" (fun _ => .array (messages.map stripRawMessage)) fields)
    | _ => .object fields
  | body => body

section Body
variable {J : SerdeJson} {body : Value} {decoded : InternalRequest}

variable {fields : List (String × Value)}

theorem stripBody_of_messages {messages : List Value}
    (h : fields.lookup "messages" = some (.array messages)) : stripBody (.object fields) =
      .object (mapField "messages" (fun _ => .array (messages.map stripRawMessage)) fields) := by
  simp only [stripBody, h]

theorem stripBody_of_other (h : ∀ messages, fields.lookup "messages" ≠ some (.array messages)) :
    stripBody (.object fields) = .object fields := by
  rw [stripBody]
  split
  next messages hmessages => exact absurd hmessages (h messages)
  · rfl

/-- The stripped raw body is read as the stripped body. -/
theorem stripOpaqueRawBody_reads {raw : String} (hraw : J.fromStr raw = some body)
    (hreads : J.fromStr (J.toString (stripBody body)) = some (stripBody body)) :
    ∃ text, stripOpaqueRawBody J (some raw) = some text ∧
      J.fromStr text = some (stripBody body) := by
  rw [stripOpaqueRawBody, Option.bind_some, hraw]
  cases body with
  | object fields =>
    dsimp only
    split
    next messages hmessages =>
      rw [stripBody_of_messages hmessages] at hreads ⊢
      exact ⟨_, rfl, hreads⟩
    next hother =>
      rw [stripBody_of_other hother]
      exact ⟨raw, rfl, hraw⟩
  | _ => exact ⟨raw, rfl, hraw⟩

theorem lookup_stripped (fields : List (String × Value)) (messages : List Value) {key : String}
    (hkey : key ≠ "messages") : (mapField "messages"
      (fun _ => .array (messages.map stripRawMessage)) fields).lookup key = fields.lookup key := by
  rw [lookup_mapField, if_neg hkey]

/-- Filling in names adds no state. -/
theorem requestHasOpaqueState_of_resolved {req : InternalRequest} {messages : List Message}
    (hreq : req.messages = (resolveToolResultNames messages).1)
    (h : ∀ m ∈ messages, ∀ p ∈ m.parts, Part.isOpaque p = false) :
    requestHasOpaqueState req = false := by
  have hsame (p q : Part) (hpq : NameFilled p q) : Part.isOpaque q = Part.isOpaque p := by
    cases hpq <;> rfl
  have hfilled := nameFilled_resolveFrom (fun _ => none) 0 messages
  rw [requestHasOpaqueState, hreq, resolveToolResultNames, ← Bool.not_eq_true, List.any_eq_true]
  rintro ⟨m, hm, hopaque⟩
  obtain ⟨q, hq, hq'⟩ := List.any_eq_true.mp hopaque
  have hmem : q ∈ (resolveFrom (fun _ => none) 0 messages).1.flatMap (·.parts) :=
    List.mem_flatMap.mpr ⟨m, hm, hq⟩
  obtain ⟨i, hi, rfl⟩ := List.getElem_of_mem hmem
  have hp := hfilled.get (hfilled.length_eq ▸ hi) hi
  obtain ⟨m', hm', hpart⟩ := List.mem_flatMap.mp
    (List.getElem_mem (l := messages.flatMap (·.parts)) (hfilled.length_eq ▸ hi))
  have hnot := h m' hm' _ hpart
  rw [List.get_eq_getElem, List.get_eq_getElem] at hp
  rw [hsame _ _ hp, hnot] at hq'
  cases hq'

/-- What is left of a decoded body: nothing with state, and the system texts and the other parts in
order. -/
structure DecodedStripped (before after : InternalRequest) : Prop where
  stateless : requestHasOpaqueState after = false
  unchanged : saidParts after.messages = (saidParts before.messages).filter (!·.2.isThinking)
  system : after.system = before.system

theorem filterMap_getLeft?_map {α β γ : Type*} (g : β → γ) (entries : List (α ⊕ β)) :
    (entries.map (Sum.map id g)).filterMap Sum.getLeft? = entries.filterMap Sum.getLeft? := by
  rw [List.filterMap_map]
  refine List.filterMap_congr fun entry _ => ?_
  cases entry <;> rfl

theorem filterMap_getRight?_map {α β γ : Type*} (g : β → γ) (entries : List (α ⊕ β)) :
    (entries.map (Sum.map id g)).filterMap Sum.getRight? =
      (entries.filterMap Sum.getRight?).map g := by
  rw [List.filterMap_map, List.map_filterMap]
  refine List.filterMap_congr fun entry _ => ?_
  cases entry <;> rfl

theorem openAi_decodeRequest_isOk_iff : (∃ req, OpenAi.decodeRequest J (.object fields) = .ok req) ↔
      ((fields.lookup "model").bind (·.asStr)).isSome ∧
        ((fields.lookup "messages").bind (·.asArray)).isSome := by
  simp only [OpenAi.decodeRequest, Value.asObject]
  cases (fields.lookup "model").bind (·.asStr) with
  | none => simp
  | some model =>
    cases (fields.lookup "messages").bind (·.asArray) with
    | none => simp
    | some messages => exact iff_of_true ⟨_, rfl⟩ ⟨rfl, rfl⟩

theorem openAi_stripBody (hproper : body.Proper) (h : OpenAi.decodeRequest J body = .ok decoded) :
    ∃ after, OpenAi.decodeRequest J (stripBody body) = .ok after ∧
      DecodedStripped decoded after := by
  obtain ⟨fields, messages, rfl, hmessages, hsystem, hresolved, -⟩ := OpenAi.decodeRequest_eq_ok h
  obtain ⟨value, hvalue, harray⟩ := Option.bind_eq_some_iff.mp hmessages
  obtain rfl : value = .array messages := by
    cases value with
    | array items => exact congrArg Value.array (Option.some.inj harray)
    | _ => cases harray
  have hitems := (hproper.get hvalue).items
  have hdecoded : (messages.map stripRawMessage).filterMap (OpenAi.decodeMessage J) =
      (messages.filterMap (OpenAi.decodeMessage J)).map (Sum.map id withoutThinking) := by
    rw [List.filterMap_map, List.map_filterMap]
    exact List.filterMap_congr fun m hm => openAi_decodeMessage_stripRawMessage (hitems m hm)
  have hmodel := (openAi_decodeRequest_isOk_iff.mp ⟨decoded, h⟩).1
  rw [stripBody_of_messages hvalue]
  obtain ⟨after, hafter⟩ := openAi_decodeRequest_isOk_iff (J := J).mpr
    ⟨(congrArg (fun value => (value.bind (·.asStr)).isSome) (lookup_stripped fields messages
      (by decide))).trans hmodel, by rw [lookup_mapField, if_pos rfl, hvalue]; rfl⟩
  obtain ⟨fields', messages', hfields', hmessages', hsystem', hresolved', -⟩ :=
    OpenAi.decodeRequest_eq_ok hafter
  cases hfields'
  obtain rfl : messages.map stripRawMessage = messages' := by
    rw [lookup_mapField, if_pos rfl, hvalue] at hmessages'
    exact Option.some.inj hmessages'
  refine ⟨after, hafter, ?_, ?_, ?_⟩
  · refine requestHasOpaqueState_of_resolved hresolved' fun message hmessage => ?_
    obtain ⟨entry, hentry, hright⟩ := List.mem_filterMap.mp hmessage
    obtain rfl := Sum.getRight?_eq_some_iff.mp hright
    obtain ⟨stripped, hstripped, hm⟩ := List.mem_filterMap.mp hentry
    obtain ⟨m, hmem, rfl⟩ := List.mem_map.mp hstripped
    exact openAi_isOpaque (hitems m hmem) hm
  · rw [hresolved', hresolved, hdecoded, filterMap_getRight?_map, resolveToolResultNames,
      resolveToolResultNames, ← saidParts_resolveFrom (fun _ => true) (by simp) _ 0 0,
      List.filter_true]
  · rw [hsystem', hsystem, hdecoded, filterMap_getLeft?_map]

theorem anthropic_decodeRequest_isOk_iff :
    (∃ req, Anthropic.decodeRequest J (.object fields) = .ok req) ↔
      ((fields.lookup "model").bind (·.asStr)).isSome ∧
        ((fields.lookup "messages").bind (·.asArray)).isSome ∧
          ∃ effort, Anthropic.decodeEffort fields = .ok effort := by
  simp only [Anthropic.decodeRequest, Value.asObject]
  cases (fields.lookup "model").bind (·.asStr) with
  | none => simp
  | some model =>
    cases (fields.lookup "messages").bind (·.asArray) with
    | none => simp
    | some messages =>
      cases Anthropic.decodeEffort fields with
      | error error => simp
      | ok effort => exact iff_of_true ⟨_, rfl⟩ ⟨rfl, rfl, effort, rfl⟩

theorem anthropic_stripBody (hproper : body.Proper)
    (h : Anthropic.decodeRequest J body = .ok decoded) :
    ∃ after, Anthropic.decodeRequest J (stripBody body) = .ok after ∧
      DecodedStripped decoded after := by
  cases body with
  | object fields =>
    obtain ⟨messages, hmessages, hsystem, hresolved, -⟩ := Anthropic.decodeRequest_eq_ok h
    obtain ⟨value, hvalue, harray⟩ := Option.bind_eq_some_iff.mp hmessages
    obtain rfl : value = .array messages := by
      cases value with
      | array items => exact congrArg Value.array (Option.some.inj harray)
      | _ => cases harray
    have hitems := (hproper.get hvalue).items
    have hdecoded : Anthropic.decodeMessages J (messages.map stripRawMessage) =
        ((Anthropic.decodeMessages J messages).map withoutThinking).filter hasParts := by
      rw [Anthropic.decodeMessages, Anthropic.decodeMessages, List.filterMap_map,
        List.map_filterMap, List.filter_filterMap]
      exact List.filterMap_congr fun m hm => anthropic_decodeMessage_stripRawMessage (hitems m hm)
    obtain ⟨hmodel, -, effort, heffort⟩ := anthropic_decodeRequest_isOk_iff.mp ⟨decoded, h⟩
    rw [stripBody_of_messages hvalue]
    have heffort' : Anthropic.decodeEffort (mapField "messages"
        (fun _ => .array (messages.map stripRawMessage)) fields) = .ok effort := by
      rw [Anthropic.decodeEffort, lookup_stripped _ _ (by decide),
        ← Anthropic.decodeEffort]
      exact heffort
    obtain ⟨after, hafter⟩ := anthropic_decodeRequest_isOk_iff (J := J).mpr
      ⟨(congrArg (fun value => (value.bind (·.asStr)).isSome) (lookup_stripped fields messages
        (by decide))).trans hmodel,
        by rw [lookup_mapField, if_pos rfl, hvalue]; rfl, effort, heffort'⟩
    obtain ⟨messages', hmessages', hsystem', hresolved', -⟩ := Anthropic.decodeRequest_eq_ok hafter
    obtain rfl : messages.map stripRawMessage = messages' := by
      rw [lookup_mapField, if_pos rfl, hvalue] at hmessages'
      exact Option.some.inj hmessages'
    refine ⟨after, hafter, ?_, ?_, ?_⟩
    · refine requestHasOpaqueState_of_resolved hresolved' fun message hmessage p hp => ?_
      rw [hdecoded] at hmessage
      obtain ⟨m, hm, rfl⟩ := List.mem_map.mp (List.mem_filter.mp hmessage).1
      obtain ⟨source, -, hsource⟩ := List.mem_filterMap.mp hm
      unfold Anthropic.decodeMessage at hsource
      dsimp only at hsource
      split at hsource
      · cases hsource
      · cases hsource
        obtain ⟨hpart, hkept⟩ := List.mem_filter.mp hp
        rw [anthropic_isOpaque J _ p hpart]
        simpa using hkept
    · rw [hresolved', hresolved, hdecoded, resolveToolResultNames, resolveToolResultNames]
      exact saidParts_resolveFrom hasParts (fun m hm => by simpa [hasParts] using hm) _ 0 0 _
    · rw [hsystem', hsystem, lookup_stripped _ _ (by decide)]
  | _ => cases h

/-- A body of the Responses format has no messages. -/
theorem responses_messages_eq_none (h : Responses.decodeRequest J (.object fields) = .ok decoded)
    (value : Value) : fields.lookup "messages" ≠ some value := by
  intro hvalue
  simp only [Responses.decodeRequest, Value.asObject] at h
  cases herrors : Responses.subsetErrors fields with
  | cons error errors =>
    rw [herrors] at h
    cases h
  | nil =>
    have hmem : ProxyError.unsupported
        "Responses API field 'messages' is not supported by Kinetix's translated subset" ∈
          Responses.unsupportedFields fields :=
      List.mem_flatMap.mpr ⟨("messages", value), mem_of_lookup hvalue, List.mem_singleton.mpr rfl⟩
    unfold Responses.subsetErrors at herrors
    simp only [List.append_assoc] at herrors
    rw [(List.append_eq_nil_iff.mp herrors).1] at hmem
    cases hmem

theorem responses_stripBody (h : Responses.decodeRequest J body = .ok decoded) :
    stripBody body = body ∧ DecodedStripped decoded decoded := by
  obtain ⟨fields, entries, rfl, -, hinput, -, hresolved⟩ := Responses.decodeRequest_eq_ok h
  have hstateless : requestHasOpaqueState decoded = false :=
    requestHasOpaqueState_of_resolved hresolved (responses_isOpaque_decodeInput hinput)
  refine ⟨stripBody_of_other fun messages => responses_messages_eq_none h _, hstateless, ?_, rfl⟩
  refine (List.filter_eq_self.mpr fun said hsaid => ?_).symm
  obtain ⟨m, hm, hpart⟩ := List.mem_flatMap.mp hsaid
  obtain ⟨p, hp, rfl⟩ := List.mem_map.mp hpart
  have hnone := List.any_eq_false.mp hstateless m hm
  rw [Bool.not_eq_true, List.any_eq_false] at hnone
  have hopaque := hnone p hp
  cases p with
  | thinking text signature => exact absurd rfl hopaque
  | text _ | image _ | toolCall _ _ _ _ | toolResult _ _ _ _ => rfl

/-- In each format, what is decoded of a stripped body is what was decoded of the body without the
state. -/
theorem decodeRequest_stripBody {format : FrontendFormat} (hproper : body.Proper)
    (h : decodeRequest format J body = .ok decoded) :
    ∃ after, decodeRequest format J (stripBody body) = .ok after ∧
      DecodedStripped decoded after := by
  cases format with
  | openAi => exact openAi_stripBody hproper h
  | anthropic => exact anthropic_stripBody hproper h
  | openAiResponses =>
    have hstripped := @responses_stripBody J body decoded h
    refine ⟨decoded, ?_, hstripped.2⟩
    rw [hstripped.1]
    exact h

end Body

/-- What is stripped of a request has no state of another provider: its messages keep no thinking,
and of the signatures only the placeholder of the incompatible calls; and the stripped raw body,
read and decoded in the format from which it came, holds no thinking and no signature. The system
texts and the other parts of both are as they were and in order. -/
theorem strip_nonportable_state_complete (J : SerdeJson) (format : FrontendFormat)
    (req : InternalRequest) (report : OpaqueHydrationReport) (placeholder : Option String) :
    StateStripped (report.signature placeholder) req
      (stripNonportableState J req report placeholder).1 ∧
    ∀ raw body decoded, req.rawBody = some raw → J.fromStr raw = some body → body.Proper →
      decodeRequest format J body = .ok decoded →
      J.fromStr (J.toString (stripBody body)) = some (stripBody body) →
        ∃ text body' after, (stripNonportableState J req report placeholder).1.rawBody = some text ∧
          J.fromStr text = some body' ∧ decodeRequest format J body' = .ok after ∧
          DecodedStripped decoded after := by
  refine ⟨stripNonportableState_stripped J req report placeholder, ?_⟩
  intro raw body decoded hraw hbody hproper hdecode hreads
  obtain ⟨text, htext, hread⟩ := stripOpaqueRawBody_reads hbody hreads
  obtain ⟨after, hafter, hstripped⟩ := decodeRequest_stripBody hproper hdecode
  refine ⟨text, stripBody body, after, ?_, hread, hafter, hstripped⟩
  rw [stripNonportableState, hraw]
  exact htext

/-- A Chat body with a system text that returns the reasoning of a turn. -/
def reasonedBody : Value :=
  .object [("model", .string "m"), ("messages", .array [
    .object [("role", .string "system"), ("content", .string "Be brief.")],
    .object [("role", .string "assistant"), ("content", .string "Hi."),
      ("reasoning_content", .string "Hm.")]])]

/-- A reader of that body, and of what is left of it. -/
def reasonedReader : SerdeJson where
  fromStr text := [reasonedBody, stripBody reasonedBody].find? (·.toText (fun _ => "") = text)
  toString := Value.toText fun _ => ""

/-- What is left of the body has the system text, and no reasoning. -/
theorem reasoned_body_stripped :
    ∃ text body' decoded after, decoded.system = ["Be brief."] ∧
      (stripNonportableState reasonedReader
        { examplePortability.request with rawBody := some (reasonedReader.toString reasonedBody) }
        ⟨[], []⟩ none).1.rawBody = some text ∧
      reasonedReader.fromStr text = some body' ∧
      decodeRequest .openAi reasonedReader body' = .ok after ∧ DecodedStripped decoded after := by
  have hmessage : (Value.object [("role", .string "assistant"), ("content", .string "Hi."),
      ("reasoning_content", .string "Hm.")]).Proper :=
    .object (by decide) (List.forall_mem_cons.mpr ⟨.string _, List.forall_mem_cons.mpr
      ⟨.string _, List.forall_mem_singleton.mpr (.string _)⟩⟩)
  have hsystem :
      (Value.object [("role", .string "system"), ("content", .string "Be brief.")]).Proper :=
    .object (by decide) (List.forall_mem_cons.mpr ⟨.string _, List.forall_mem_singleton.mpr
      (.string _)⟩)
  have hproper : reasonedBody.Proper :=
    .object (by decide) (List.forall_mem_cons.mpr ⟨.string _, List.forall_mem_singleton.mpr
      (.array (List.forall_mem_cons.mpr ⟨hsystem, List.forall_mem_singleton.mpr hmessage⟩))⟩)
  obtain ⟨decoded, hdecoded, hbrief⟩ :
      ∃ decoded, decodeRequest .openAi reasonedReader reasonedBody = .ok decoded ∧
        decoded.system = ["Be brief."] := ⟨_, rfl, by decide +kernel⟩
  obtain ⟨text, body', after, hstripped⟩ := (strip_nonportable_state_complete reasonedReader .openAi
    { examplePortability.request with rawBody := some (reasonedReader.toString reasonedBody) }
    ⟨[], []⟩ none).2 _ reasonedBody decoded rfl rfl hproper hdecoded rfl
  exact ⟨text, body', decoded, after, hbrief, hstripped⟩

end Kinetix.Pipeline
