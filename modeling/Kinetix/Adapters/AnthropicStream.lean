import Kinetix.Adapters.AnthropicUsage
import Kinetix.Frontends.Answer
import Kinetix.Library.Piecewise

/-!
# Anthropic answers in a stream

How the provider cuts a message into the events of a stream, and what `parse_stream_chunk` and
`parse_full_response` make of both.

## Implementation notes

The input of a call is cut as the text that says it, which may be empty for an empty object. An
index is the one that the decoder reads.
-/

namespace Kinetix.Adapters.Anthropic
open Frontends Json Kinetix.Words Tiling

/-! ## Cutting a message -/

/-- An event that says nothing of the message. -/
def isBookkeeping (v : Value) : Bool :=
  kindOf v ∈ ["ping", "content_block_stop", "message_stop"]

/-- An event with a piece of a block. -/
structure Piece (index : Nat) (kind name : String) (v : Value) (piece : String) : Prop where
  event : kindOf v = "content_block_delta"
  index : blockIndex v = index
  delta : ∃ delta, v.get "delta" = some delta ∧ kindOf delta = kind ∧
    strField delta name = some piece

/-- The start of a block that is shown empty. -/
structure Opening (index : Nat) (kind : String) (v block : Value) : Prop where
  event : kindOf v = "content_block_start"
  index : blockIndex v = index
  shown : v.get "content_block" = some block
  named : strField block "type" = some kind

/-- How a block is cut. -/
inductive BlockCut (J : SerdeJson) (index : Nat) : Value → List Value → Prop
  | text {b block start : Value} {chunks : List Value} {pieces : List String}
      (kind : kindOf b = "text") (opening : Opening index "text" start block)
      (cut : List.Forall₂ (Piece index "text_delta" "text") chunks pieces)
      (whole : strField b "text" = some (String.join pieces)) : BlockCut J index b (start :: chunks)
  | thinking {b block start : Value} {chunks signed : List Value} {pieces signatures : List String}
      (kind : kindOf b = "thinking") (opening : Opening index "thinking" start block)
      (cut : List.Forall₂ (Piece index "thinking_delta" "thinking") chunks pieces)
      (signature : List.Forall₂ (Piece index "signature_delta" "signature") signed signatures)
      (whole : strField b "thinking" = some (String.join pieces)) :
      BlockCut J index b (start :: chunks ++ signed)
  | toolUse {b block start input : Value} {chunks : List Value} {pieces : List String}
      (kind : kindOf b = "tool_use") (opening : Opening index "tool_use" start block)
      (id : strField block "id" = strField b "id")
      (name : strField block "name" = strField b "name")
      (cut : List.Forall₂ (Piece index "input_json_delta" "partial_json") chunks pieces)
      (given : b.get "input" = some input)
      (whole : argumentsOf J (String.join pieces) = some input) :
        BlockCut J index b (start :: chunks)

/-- The last stop reason. -/
def lastReason (closing : List Value) : Option String :=
  closing.foldl (fun last v => ((v.get "delta").bind (strField · "stop_reason")).or last) none

/-- The counts of a usage record. -/
def usageNames : List String :=
  ["input_tokens", "cache_read_input_tokens", "cache_creation_input_tokens", "output_tokens"]

/-- How a message is cut: after its start come its blocks, and then the stop reason and what was
used meanwhile. A count of the message is the last that was reported. -/
structure MessageCut (J : SerdeJson) (body : Value) (chunks content closing : List Value)
    (start : Value)
    (blocks : List Value) (usage : Value) : Prop where
  order : chunks.filter (!isBookkeeping ·) = start :: (content ++ closing)
  starts : kindOf start = "message_start"
  holds : body.get "content" = some (.array blocks)
  cut : Tiled (BlockCut J) 0 blocks content
  closes : ∀ v ∈ closing, kindOf v = "message_delta"
  reason : lastReason closing = strField body "stop_reason"
  recorded : body.get "usage" = some usage
  counts : ∀ name ∈ usageNames, usageCount usage name = lastReport name (streamRecords chunks)

/-! ## Blocks -/

theorem chunkEvents_bookkeeping {v : Value} (h : isBookkeeping v = true) : chunkEvents v = [] := by
  simp only [isBookkeeping, List.mem_cons, List.not_mem_nil, or_false, decide_eq_true_eq] at h
  unfold chunkEvents
  rcases h with h | h | h <;> simp [h]

/-- Bookkeeping does not change the events. -/
theorem flatMap_filter_bookkeeping (chunks : List Value) :
    (chunks.filter (!isBookkeeping ·)).flatMap chunkEvents = chunks.flatMap chunkEvents := by
  induction chunks with
  | nil => rfl
  | cons v chunks ih =>
    by_cases h : isBookkeeping v = true
    · rw [List.filter_cons_of_neg (by simp [h]), ih, List.flatMap_cons, chunkEvents_bookkeeping h,
        List.nil_append]
    · rw [List.filter_cons_of_pos (by simp [h]), List.flatMap_cons, ih, List.flatMap_cons]

/-- The events of pieces are one for each. -/
theorem flatMap_pieces {index : Nat} {kind name : String} {f : String → StreamEvent}
    (hf : ∀ v piece, Piece index kind name v piece → chunkEvents v = [f piece])
    {chunks : List Value}
    {pieces : List String} (h : List.Forall₂ (Piece index kind name) chunks pieces) :
    chunks.flatMap chunkEvents = pieces.map f := by
  induction h with
  | nil => rfl
  | cons head tail ih =>
    rw [List.flatMap_cons, hf _ _ head, ih, List.map_cons, List.singleton_append]

section Pieces
variable {index : Nat} {v : Value} {piece : String}

theorem chunkEvents_text (h : Piece index "text_delta" "text" v piece) :
    chunkEvents v = [.textDelta piece] := by
  obtain ⟨hevent, -, delta, hdelta, hkind, hpiece⟩ := h
  simp [chunkEvents, hevent, deltaEvents, hdelta, hkind, hpiece]

theorem chunkEvents_thinking (h : Piece index "thinking_delta" "thinking" v piece) :
    chunkEvents v = [.thinkingDelta piece none] := by
  obtain ⟨hevent, -, delta, hdelta, hkind, hpiece⟩ := h
  simp [chunkEvents, hevent, deltaEvents, hdelta, hkind, hpiece]

theorem chunkEvents_signature (h : Piece index "signature_delta" "signature" v piece) :
    chunkEvents v = [.thinkingDelta "" (some piece)] := by
  obtain ⟨hevent, -, delta, hdelta, hkind, hpiece⟩ := h
  simp [chunkEvents, hevent, deltaEvents, hdelta, hkind, hpiece]

theorem chunkEvents_json (h : Piece index "input_json_delta" "partial_json" v piece) :
    chunkEvents v = [.toolCallArgsDelta index piece] := by
  obtain ⟨hevent, hindex, delta, hdelta, hkind, hpiece⟩ := h
  simp [chunkEvents, hevent, deltaEvents, hdelta, hkind, hpiece, hindex]

theorem chunkEvents_opening {kind : String} {block : Value} (h : Opening index kind v block)
    (hkind : kind ≠ "tool_use") : chunkEvents v = [] := by
  simp [chunkEvents, h.event, blockStartEvents, h.shown, h.named, hkind]

theorem chunkEvents_call {block : Value} (h : Opening index "tool_use" v block) :
    chunkEvents v = [.toolCallStart index (strField block "id")
      ((strField block "name").getD "tool") none] := by
  simp [chunkEvents, h.event, blockStartEvents, h.shown, h.named, h.index]

end Pieces

/-- The events of a block of a stream and of the whole block say the same. -/
theorem says_block {J : SerdeJson} {index : Nat} {b : Value} {chunks : List Value}
    (h : BlockCut J index b chunks)
    (hreads : ∀ input, b.get "input" = some input → argumentsOf J (J.toString input) = some input) :
    ∃ text thinking calls whole, List.Forall₂ (SameCall J) calls whole ∧
      SaysOnly text "" thinking calls index (index + 1) (chunks.flatMap chunkEvents) ∧
      ∀ count, SaysOnly text "" thinking whole count (blockEvents J count b).2
        (blockEvents J count b).1 := by
  cases h with
  | @text block start chunks pieces kind opening cut whole =>
    refine ⟨String.join pieces, "", [], [], .nil, ?_, fun count => ?_⟩
    · rw [List.flatMap_cons, chunkEvents_opening opening (by decide), List.nil_append,
        flatMap_pieces (fun _ _ => chunkEvents_text) cut]
      exact (says_text index pieces).widen (Nat.le_succ index)
    · have hsays := says_text count [String.join pieces]
      simpa [blockEvents, kind, whole, String.join] using hsays
  | @thinking block start chunks signed pieces signatures kind opening cut signature whole =>
    refine ⟨"", String.join pieces, [], [], .nil, ?_, fun count => ?_⟩
    · rw [List.cons_append, List.flatMap_cons, chunkEvents_opening opening (by decide),
        List.nil_append, List.flatMap_append, flatMap_pieces (fun _ _ => chunkEvents_thinking) cut,
        flatMap_pieces (fun _ _ => chunkEvents_signature) signature]
      have hsays := (says_thinking index none pieces).append (says_signatures index signatures)
      simp only [String.append_empty, List.append_nil] at hsays
      exact hsays.widen (Nat.le_succ index)
    · have hsays := says_thinking count (strField b "signature") [String.join pieces]
      simpa [blockEvents, kind, whole, String.join] using hsays
  | @toolUse block start input chunks pieces kind opening id name cut given whole =>
    refine ⟨"", "",
      [⟨strField block "id", (strField block "name").getD "tool", String.join pieces⟩],
      [⟨strField b "id", (strField b "name").getD "tool", J.toString input⟩], ?_, ?_,
      fun count => ?_⟩
    · refine .cons ⟨id, ?_, ?_⟩ .nil
      · rw [name]
      · rw [whole, hreads input given]
    · rw [List.flatMap_cons, chunkEvents_call opening,
        flatMap_pieces (fun _ _ => chunkEvents_json) cut]
      exact says_call index _ _ none pieces
    · have hsays := says_call count (strField b "id") ((strField b "name").getD "tool") none
        [J.toString input]
      simpa [blockEvents, kind, given, String.join] using hsays

/-- The events of the blocks of a stream and of the whole blocks say the same. -/
theorem says_content {J : SerdeJson} {index : Nat} {blocks content : List Value}
    (h : Tiled (BlockCut J) index blocks content)
    (hreads : ∀ b ∈ blocks, ∀ input, b.get "input" = some input →
      argumentsOf J (J.toString input) = some input) :
    ∃ text thinking calls whole, List.Forall₂ (SameCall J) calls whole ∧
      (∃ last, SaysOnly text "" thinking calls index last (content.flatMap chunkEvents)) ∧
      ∀ count, ∃ last,
        SaysOnly text "" thinking whole count last (contentEvents J count blocks) := by
  induction h with
  | nil index => exact ⟨"", "", [], [], .nil, ⟨index, .nil index⟩, fun count => ⟨count, .nil count⟩⟩
  | cons head tail ih =>
    obtain ⟨hhead, htail⟩ := List.forall_mem_cons.mp hreads
    obtain ⟨text, thinking, calls, whole, hsame, hstream, hfull⟩ := says_block head hhead
    obtain ⟨text', thinking', calls', whole', hsame', ⟨last, hstream'⟩, hfull'⟩ := ih htail
    refine ⟨text ++ text', thinking ++ thinking', calls ++ calls', whole ++ whole',
      List.rel_append hsame hsame', ⟨last, ?_⟩, fun count => ?_⟩
    · rw [List.flatMap_append]
      exact hstream.append hstream'
    · obtain ⟨last', hrest⟩ := hfull' (blockEvents J count _).2
      exact ⟨last', (hfull count).append hrest⟩

/-! ## The whole answer -/

/-- What follows the blocks of a message. -/
theorem finishOf_closing {closing : List Value} (h : ∀ v ∈ closing, kindOf v = "message_delta") :
    finishOf (closing.flatMap chunkEvents) =
      (lastReason closing).map mapAnthropicStopReason := by
  induction closing using List.reverseRecOn with
  | nil => rfl
  | append_singleton closing v ih =>
    have hv : kindOf v = "message_delta" := h v (List.mem_append_right _ List.mem_cons_self)
    have hrest := ih fun w hw => h w (List.mem_append_left _ hw)
    have hlast : lastReason (closing ++ [v]) =
        ((v.get "delta").bind (strField · "stop_reason")).or (lastReason closing) := foldl_snoc ..
    rw [List.flatMap_append, List.flatMap_singleton, finishOf_append, hrest, hlast]
    simp only [chunkEvents, hv, finishOf_append]
    cases v.get "usage" <;> cases (v.get "delta").bind (strField · "stop_reason") <;> rfl

/-! ## Usage -/

theorem mergedRecords_output (records : List Value) :
    (mergedRecords records).output = lastReport "output_tokens" records ∧
      (mergedRecords records).thinking = none := by
  induction records using List.reverseRecOn with
  | nil => exact ⟨rfl, rfl⟩
  | append_singleton records r ih =>
    obtain ⟨houtput, hthinking⟩ := ih
    rw [mergedRecords_snoc, lastReport_snoc, ← houtput]
    exact ⟨rfl, hthinking⟩

theorem mergedRecords_input (records : List Value) : (mergedRecords records).input =
    if records.any reportsInput then some (min (lastSum records) u64Max) else none := by
  induction records using List.reverseRecOn with
  | nil => rfl
  | append_singleton records r ih =>
    rw [mergedRecords_snoc, TokenUsage.merge, parsed_input, ih, List.any_append, List.any_cons,
      List.any_nil, lastSum_snoc]
    by_cases h : reportsInput r
    · simp [h]
    · simp [h]

theorem lastReport_isSome (name : String) (records : List Value) :
    (lastReport name records).isSome = records.any fun r => (usageCount r name).isSome := by
  induction records using List.reverseRecOn with
  | nil => rfl
  | append_singleton records r ih =>
    rw [lastReport_snoc, List.any_append, List.any_cons, List.any_nil, Option.isSome_or, ih,
      Bool.or_false, Bool.or_comm]

/-- The usage of a stream is that of a record with the last counts exactly if the last record with
an input count is complete or its sum is too large to be told. -/
theorem mergedRecords_eq_iff {records : List Value} {usage : Value}
    (h : ∀ name ∈ usageNames, usageCount usage name = lastReport name records) :
    mergedRecords records = parseAnthropicUsage usage ↔
      Complete records ∨ u64Max ≤ lastSum records := by
  have hinput := h "input_tokens" (by decide)
  have hread := h "cache_read_input_tokens" (by decide)
  have hwrite := h "cache_creation_input_tokens" (by decide)
  have houtput := h "output_tokens" (by decide)
  have hreports : reportsInput usage = records.any reportsInput := by
    unfold reportsInput
    rw [hinput, hread, hwrite, lastReport_isSome, lastReport_isSome, lastReport_isSome]
    clear h hinput hread hwrite houtput
    induction records with
    | nil => rfl
    | cons r records ih =>
      simp only [List.any_cons, ← ih]
      cases (usageCount r "input_tokens").isSome <;>
        cases (usageCount r "cache_read_input_tokens").isSome <;>
        cases (usageCount r "cache_creation_input_tokens").isSome <;> simp
  have hsum : inputSum usage = lastCount "input_tokens" records +
      lastCount "cache_read_input_tokens" records +
        lastCount "cache_creation_input_tokens" records := by
    rw [inputSum, hinput, hread, hwrite]
    rfl
  have hle := lastSum_le records
  obtain ⟨-, hcached, hwritten⟩ := mergedRecords_counts records
  obtain ⟨hout, hthinking⟩ := mergedRecords_output records
  have hiff : mergedRecords records = parseAnthropicUsage usage ↔
      (mergedRecords records).input = (parseAnthropicUsage usage).input := by
    refine ⟨fun heq => by rw [heq], fun heq => ?_⟩
    apply TokenUsage.ext
    · exact heq
    · exact hout.trans houtput.symm
    · exact hcached.trans hread.symm
    · exact hwritten.trans hwrite.symm
    · exact hthinking
  rw [hiff, mergedRecords_input, parsed_input, hreports, hsum, Complete]
  cases hany : records.any reportsInput with
  | true =>
    simp only [if_true, Option.some.injEq]
    omega
  | false =>
    have hnone : lastCount "input_tokens" records + lastCount "cache_read_input_tokens" records +
        lastCount "cache_creation_input_tokens" records = 0 := by
      rw [← hsum]
      rw [hany] at hreports
      simp only [reportsInput, Bool.or_eq_false_iff, Option.isSome_eq_false_iff,
        Option.isNone_iff_eq_none] at hreports
      simp [inputSum, hreports]
    simp only [Bool.false_eq_true, if_false, true_iff]
    left
    omega

theorem usage_or_finish {usage : Option Value} {reason : Option String} {event : StreamEvent}
    (h : event ∈ usageEvents usage ++ finishEvents reason) :
    event.isFinish = true ∨ ∃ u, event = .usage u := by
  rcases List.mem_append.mp h with h | h
  · cases usage with
    | none => cases h
    | some usage => exact .inr ⟨_, List.mem_singleton.mp h⟩
  · cases reason with
    | none => cases h
    | some reason =>
      rw [List.mem_singleton.mp h]
      exact .inl rfl

/-- A stream and the message that it was cut from say the same exactly if the last record with an
input count is complete, or its sum is too large to be told. -/
theorem message_alike_iff {J : SerdeJson} {body start usage : Value}
    {chunks content closing blocks : List Value}
    (h : MessageCut J body chunks content closing start blocks usage)
    (hreads : ∀ b ∈ blocks, ∀ input, b.get "input" = some input →
      argumentsOf J (J.toString input) = some input) :
    Alike J (answerOf (chunks.flatMap chunkEvents)) (answerOf (parseFullResponse J body)) ↔
      Complete (streamRecords chunks) ∨ u64Max ≤ lastSum (streamRecords chunks) := by
  obtain ⟨text, thinking, calls, whole, hsame, ⟨last, hstream⟩, hfull⟩ := says_content h.cut hreads
  obtain ⟨last', hwhole⟩ := hfull 0
  have hparts :
      chunks.flatMap chunkEvents = usageEvents ((start.get "message").bind (·.get "usage")) ++
      (content.flatMap chunkEvents ++ closing.flatMap chunkEvents) := by
    rw [← flatMap_filter_bookkeeping, h.order, List.flatMap_cons, List.flatMap_append]
    simp only [chunkEvents, h.starts]
  have hbody : parseFullResponse J body = contentEvents J 0 blocks ++
      (usageEvents (some usage) ++ finishEvents (strField body "stop_reason")) := by
    rw [parseFullResponse, h.holds, h.recorded, List.append_assoc]
    rfl
  have hmute : ∀ event ∈ closing.flatMap chunkEvents,
      event.isFinish = true ∨ ∃ u, event = .usage u := by
    intro event hevent
    obtain ⟨v, hv, hevent⟩ := List.mem_flatMap.mp hevent
    simp only [chunkEvents, h.closes v hv] at hevent
    exact usage_or_finish hevent
  have hsays : Says text "" thinking calls 0 last (chunks.flatMap chunkEvents) := by
    have hstart : Says "" "" "" [] 0 0 (usageEvents ((start.get "message").bind (·.get "usage"))) :=
      says_nothing 0 fun event hevent =>
        usage_or_finish (List.mem_append_left (finishEvents none) hevent)
    have hwhole := hstart.append (hstream.toSays.append (says_nothing last hmute))
    rw [hparts]
    simpa using hwhole
  have hsays' : Says text "" thinking whole 0 last' (parseFullResponse J body) := by
    have hend := hwhole.toSays.append (says_nothing last' fun event =>
      @usage_or_finish (some usage) (strField body "stop_reason") event)
    rw [hbody]
    simpa using hend
  have hfinish : finishOf (chunks.flatMap chunkEvents) = finishOf (parseFullResponse J body) := by
    rw [hparts, hbody, finishOf_append, finishOf_append, finishOf_append, finishOf_append,
      hstream.quiet.finishOf, hwhole.quiet.finishOf, finishOf_closing h.closes, h.reason]
    cases (start.get "message").bind (·.get "usage") <;> cases strField body "stop_reason" <;> rfl
  have husage : mergedUsage (parseFullResponse J body) = parseAnthropicUsage usage := by
    rw [hbody, hwhole.quiet.mergedUsage, mergedUsage, List.foldl_append, foldl_finishEvents,
      foldl_usageEvents]
    exact TokenUsage.empty_merge (parseAnthropicUsage usage)
  rw [← mergedRecords_eq_iff h.counts]
  constructor
  · intro halike
    have heq := halike.usage
    rw [answerOf, answerOf, mergedUsage_stream, husage] at heq
    exact heq
  · intro heq
    refine ⟨?_, ?_, ?_, ?_, hfinish, ?_⟩
    · exact hsays.text.trans hsays'.text.symm
    · exact hsays.refusal.trans hsays'.refusal.symm
    · exact hsays.thinking.trans hsays'.thinking.symm
    · rw [answerOf, answerOf, hsays.calls, hsays'.calls]
      exact hsame
    · exact (mergedUsage_stream chunks).trans (heq.trans husage.symm)

end Kinetix.Adapters.Anthropic
