import Kinetix.Admission.Pricing
import Kinetix.Foundation.Words
import Kinetix.Frontends.Anthropic.Encoder
import Kinetix.Frontends.Request

/-!
# The events and the usage of an Anthropic answer

`parse_stream_chunk` and `parse_full_response` of `adapters/anthropic.rs`. Each usage record of a
stream gives a total input, to which its cache counts belong. Merging keeps the last total and the
last cache counts, which need not be of one record. When the input of the merged usage that is
neither read from a cache nor written to one is what the upstream last reported.

## Implementation notes

What `serde_json` says about a chunk that is not JSON is left out of the failure's message. The
counters of blocks are `u32`.
-/

namespace Kinetix.Adapters.Anthropic
open Frontends Json Kinetix.Types Kinetix.Words

def mapAnthropicStopReason (reason : String) : FinishReason :=
  if reason = "end_turn" ∨ reason = "stop_sequence" then .stop
  else if reason = "max_tokens" ∨ reason = "model_context_window_exceeded" then .length
  else if reason = "tool_use" then .toolCalls
  else .other reason

/-- A count of a usage record, if it is there. -/
def usageCount (usage : Value) (name : String) : Option Nat := (usage.get name).bind (·.asU64)

/-- The total input is the sum of the three counts, of which each may be missing. -/
def parseAnthropicUsage (usage : Value) : TokenUsage :=
  let ordinary := usageCount usage "input_tokens"
  let cached := usageCount usage "cache_read_input_tokens"
  let cacheWrite := usageCount usage "cache_creation_input_tokens"
  { input :=
      if ordinary.isSome ∨ cached.isSome ∨ cacheWrite.isSome then
        some (saturatingAdd (saturatingAdd (ordinary.getD 0) (cached.getD 0)) (cacheWrite.getD 0))
      else none
    output := usageCount usage "output_tokens"
    cached := cached
    cacheWrite := cacheWrite
    thinking := none }

/-! ## Streams -/

/-- `v.get("index")` as a `u32`. -/
def blockIndex (v : Value) : Nat := asU32 (((v.get "index").bind (·.asU64)).getD 0)

def deltaEvents (v : Value) : List StreamEvent :=
  let delta := (v.get "delta").getD .null
  match kindOf delta with
  | "text_delta" => ((strField delta "text").map .textDelta).toList
  | "thinking_delta" => ((strField delta "thinking").map (.thinkingDelta · none)).toList
  | "signature_delta" => ((strField delta "signature").map (.thinkingDelta "" <| some ·)).toList
  | "input_json_delta" =>
    ((strField delta "partial_json").map (.toolCallArgsDelta (blockIndex v))).toList
  | _ => []

def blockStartEvents (v : Value) : List StreamEvent :=
  match v.get "content_block" with
  | none => []
  | some block =>
    if strField block "type" = some "tool_use" then
      [.toolCallStart (blockIndex v) (strField block "id") ((strField block "name").getD "tool")
        none]
    else []

def usageEvents (usage : Option Value) : List StreamEvent :=
  (usage.map fun usage => .usage (parseAnthropicUsage usage)).toList

def finishEvents (reason : Option String) : List StreamEvent :=
  (reason.map fun reason => .finish (mapAnthropicStopReason reason)).toList

/-- The events of a chunk that is JSON. -/
def chunkEvents (v : Value) : List StreamEvent :=
  match kindOf v with
  | "content_block_delta" => deltaEvents v
  | "content_block_start" => blockStartEvents v
  | "message_delta" =>
    usageEvents (v.get "usage") ++
      finishEvents ((v.get "delta").bind (strField · "stop_reason"))
  | "message_start" => usageEvents ((v.get "message").bind (·.get "usage"))
  | _ => []

/-- `AnthropicAdapter::parse_stream_chunk`. -/
def parseStreamChunk (J : SerdeJson) (data : String) : Except UpstreamFailure (List StreamEvent) :=
  match J.fromStr data with
  | none =>
    .error { kind := .serverError, status := none, retryAfterSecs := none,
             message := "invalid upstream chunk", quotaResetAt := none }
  | some v => .ok (chunkEvents v)

/-! ## Whole answers -/

/-- The events of a block, and the index for the next call. -/
def blockEvents (J : SerdeJson) (index : Nat) (b : Value) : List StreamEvent × Nat :=
  match kindOf b with
  | "text" => (((strField b "text").map .textDelta).toList, index)
  | "thinking" =>
    (((strField b "thinking").map (.thinkingDelta · (strField b "signature"))).toList, index)
  | "tool_use" =>
    ([.toolCallStart index (strField b "id") ((strField b "name").getD "tool") none,
      .toolCallArgsDelta index (J.toString ((b.get "input").getD (.object [])))], index + 1)
  | _ => ([], index)

def contentEvents (J : SerdeJson) (index : Nat) : List Value → List StreamEvent
  | [] => []
  | b :: blocks =>
    let (events, next) := blockEvents J index b
    events ++ contentEvents J next blocks

/-- `AnthropicAdapter::parse_full_response`. -/
def parseFullResponse (J : SerdeJson) (body : Value) : List StreamEvent :=
  contentEvents J 0 (((body.get "content").bind (·.asArray)).getD []) ++
    usageEvents (body.get "usage") ++ finishEvents (strField body "stop_reason")

open Admission Binary64
open Frontends.Anthropic (anthropicUsage)

/-- The usage record of a chunk. -/
def chunkRecord (v : Value) : Option Value :=
  match kindOf v with
  | "message_delta" => v.get "usage"
  | "message_start" => (v.get "message").bind (·.get "usage")
  | _ => none

/-- The usage records of a stream. -/
def streamRecords (chunks : List Value) : List Value := chunks.filterMap chunkRecord

/-- The usage after all records. -/
def mergedRecords (records : List Value) : TokenUsage :=
  (records.map parseAnthropicUsage).foldl TokenUsage.merge {}

variable (records : List Value) (r : Value) (v : Value) (u : TokenUsage)

theorem mergedRecords_snoc :
    mergedRecords (records ++ [r]) = (mergedRecords records).merge (parseAnthropicUsage r) := by
  rw [mergedRecords, List.map_append, List.map_singleton, foldl_snoc, mergedRecords]

theorem foldl_usageStep_eq_self {events : List StreamEvent} (h : ∀ u, .usage u ∉ events)
    (u : TokenUsage) : events.foldl usageStep u = u := by
  induction events generalizing u with
  | nil => rfl
  | cons event events ih =>
    simp only [List.mem_cons, not_or] at h
    have hstep : usageStep u event = u := by
      cases event with
      | usage other => exact ((h other).1 rfl).elim
      | _ => rfl
    rw [List.foldl_cons, hstep]
    exact ih (fun other => (h other).2) u

theorem usage_notMem_deltaEvents : .usage u ∉ deltaEvents v := by
  simp only [deltaEvents]
  split <;> simp

theorem usage_notMem_blockStartEvents : .usage u ∉ blockStartEvents v := by
  unfold blockStartEvents
  split
  · exact List.not_mem_nil
  · split <;> simp

theorem foldl_finishEvents (reason : Option String) (u : TokenUsage) :
    (finishEvents reason).foldl usageStep u = u := by
  cases reason <;> rfl

theorem foldl_usageEvents (usage : Option Value) (u : TokenUsage) :
    (usageEvents usage).foldl usageStep u =
      (usage.map fun r => u.merge (parseAnthropicUsage r)).getD u := by
  cases usage <;> rfl

/-- The events of a chunk merge its record, if it has one, and nothing else. -/
theorem usage_chunkEvents : (chunkEvents v).foldl usageStep u =
      ((chunkRecord v).map fun r => u.merge (parseAnthropicUsage r)).getD u := by
  unfold chunkEvents chunkRecord
  split
  next hkind =>
    rw [hkind]
    exact foldl_usageStep_eq_self (usage_notMem_deltaEvents v) u
  next hkind =>
    rw [hkind]
    exact foldl_usageStep_eq_self (usage_notMem_blockStartEvents v) u
  next hkind =>
    rw [hkind, List.foldl_append, foldl_finishEvents]
    exact foldl_usageEvents _ u
  next hkind =>
    rw [hkind]
    exact foldl_usageEvents _ u
  next hdelta hstart =>
    split
    next hkind => exact (hdelta hkind).elim
    next hkind => exact (hstart hkind).elim
    next => rfl

/-- The usage of a stream is that of its records. -/
theorem mergedUsage_stream (chunks : List Value) :
    mergedUsage (chunks.flatMap chunkEvents) = mergedRecords (streamRecords chunks) := by
  induction chunks using List.reverseRecOn with
  | nil => rfl
  | append_singleton chunks v ih =>
    rw [List.flatMap_append, List.flatMap_singleton, mergedUsage, List.foldl_append, ← mergedUsage,
      ih, usage_chunkEvents, streamRecords, streamRecords, List.filterMap_append]
    cases hrecord : chunkRecord v with
    | none => simp [hrecord]
    | some r =>
      rw [List.filterMap_cons_some hrecord, List.filterMap_nil, mergedRecords_snoc]
      rfl

/-! ## What was reported -/

/-- The last report of a count. -/
def lastReport (name : String) (records : List Value) : Option Nat :=
  records.foldl (fun last r => (usageCount r name).or last) none

/-- The last report of a count; a count that was never reported is zero. -/
def lastCount (name : String) (records : List Value) : Nat := (lastReport name records).getD 0

/-- The sum of the input counts of a record. -/
def inputSum (r : Value) : Nat :=
  (usageCount r "input_tokens").getD 0 + (usageCount r "cache_read_input_tokens").getD 0 +
    (usageCount r "cache_creation_input_tokens").getD 0

def reportsInput (r : Value) : Bool :=
  (usageCount r "input_tokens").isSome || (usageCount r "cache_read_input_tokens").isSome ||
    (usageCount r "cache_creation_input_tokens").isSome

/-- The sum of the input counts of the last record that has one. -/
def lastSum (records : List Value) : Nat :=
  records.foldl (fun last r => if reportsInput r then inputSum r else last) 0

theorem lastReport_snoc (name : String) (records : List Value) (r : Value) :
    lastReport name (records ++ [r]) = (usageCount r name).or (lastReport name records) :=
  foldl_snoc ..

theorem lastSum_snoc :
    lastSum (records ++ [r]) = if reportsInput r then inputSum r else lastSum records :=
  foldl_snoc ..

/-- The last sum has no count that is not the last of its kind. -/
theorem lastSum_le : lastSum records ≤ lastCount "input_tokens" records +
      lastCount "cache_read_input_tokens" records +
      lastCount "cache_creation_input_tokens" records := by
  induction records using List.reverseRecOn with
  | nil => exact Nat.zero_le _
  | append_singleton records r ih =>
    rw [lastSum_snoc]
    by_cases h : reportsInput r
    · have hle (name : String) : (usageCount r name).getD 0 ≤ lastCount name (records ++ [r]) := by
        rw [lastCount, lastReport_snoc]
        cases usageCount r name with
        | none => exact Nat.zero_le _
        | some n => exact Nat.le_refl n
      rw [if_pos h, inputSum]
      exact Nat.add_le_add (Nat.add_le_add (hle _) (hle _)) (hle _)
    · have hkept {name : String} (hnone : usageCount r name = none) :
          lastCount name (records ++ [r]) = lastCount name records := by
        rw [lastCount, lastReport_snoc, hnone]
        rfl
      simp only [reportsInput, Bool.or_eq_true, not_or, Option.not_isSome_iff_eq_none] at h
      rw [if_neg (by simp [reportsInput, h]), hkept h.1.1, hkept h.1.2, hkept h.2]
      exact ih

theorem saturatingAdd_saturatingAdd (a b c : Nat) :
    saturatingAdd (saturatingAdd a b) c = min (a + b + c) u64Max := by
  unfold saturatingAdd
  omega

theorem parsed_input : (parseAnthropicUsage r).input =
      if reportsInput r then some (min (inputSum r) u64Max) else none := by
  simp [parseAnthropicUsage, saturatingAdd_saturatingAdd, reportsInput, inputSum, or_assoc]

/-- The counts of the merged usage. -/
theorem mergedRecords_counts : (mergedRecords records).input.getD 0 = min (lastSum records) u64Max ∧
      (mergedRecords records).cached = lastReport "cache_read_input_tokens" records ∧
      (mergedRecords records).cacheWrite = lastReport "cache_creation_input_tokens" records := by
  induction records using List.reverseRecOn with
  | nil => exact ⟨rfl, rfl, rfl⟩
  | append_singleton records r ih =>
    obtain ⟨hinput, hcached, hwrite⟩ := ih
    rw [mergedRecords_snoc, lastReport_snoc, lastReport_snoc, lastSum_snoc, ← hcached, ← hwrite]
    refine ⟨?_, rfl, rfl⟩
    rw [TokenUsage.merge, parsed_input]
    split
    · rfl
    · exact hinput

/-! ## The ordinary input -/

/-- The input that was neither read from a cache nor written to one, as a client is told. -/
def ordinaryInput (u : TokenUsage) : Nat := (anthropicUsage u).inputTokens

theorem cast_sub_min (a b : ℕ) : (a : ℚ) - min (b : ℚ) a = ((a - b : ℕ) : ℚ) := by
  have h : a - b = a - min b a := by omega
  rw [h, Nat.cast_sub (Nat.min_le_right b a), Nat.cast_min]

/-- Without rounding the cost has the same ordinary input as a client is told. -/
theorem regular_inputParts (u : TokenUsage) : (inputParts id u).regular = ordinaryInput u := by
  simp only [inputParts, id_eq, cast_sub_min]
  rfl

/-- A usage is consistent, and its ordinary input is what the records last reported. -/
structure Consistent (u : TokenUsage) (records : List Value) : Prop where
  total : saturatingAdd (u.cached.getD 0) (u.cacheWrite.getD 0) ≤ u.input.getD 0
  client : (anthropicUsage u).inputTokens = lastCount "input_tokens" records
  /-- The cost has the same figure as long as a float can hold the total. -/
  cost : u.input.getD 0 < 2 ^ 53 →
    (inputParts roundF64 u).regular = lastCount "input_tokens" records
  /-- The figure of a larger total is off by its rounding only. -/
  costNear : |(inputParts roundF64 u).regular - lastCount "input_tokens" records| ≤
    (u.input.getD 0 : ℕ) / 2 ^ 50

/-- The last record with an input count has no count missing that was reported as other
than zero. -/
def Complete (records : List Value) : Prop :=
  lastSum records = lastCount "input_tokens" records +
    lastCount "cache_read_input_tokens" records + lastCount "cache_creation_input_tokens" records

theorem consistent_mergedRecords_iff : Consistent (mergedRecords records) records ↔
      Complete records ∧ lastSum records ≤ u64Max ∨
        lastCount "input_tokens" records = 0 ∧ u64Max ≤ lastSum records := by
  obtain ⟨hinput, hcached, hwrite⟩ := mergedRecords_counts records
  have hle := lastSum_le records
  have hclient : (anthropicUsage (mergedRecords records)).inputTokens =
      min (lastSum records) u64Max - lastCount "cache_read_input_tokens" records -
        lastCount "cache_creation_input_tokens" records := by
    rw [anthropicUsage, hinput, hcached, hwrite]
    rfl
  have htotal : saturatingAdd ((mergedRecords records).cached.getD 0)
        ((mergedRecords records).cacheWrite.getD 0) ≤ (mergedRecords records).input.getD 0 ↔
      min (lastCount "cache_read_input_tokens" records +
        lastCount "cache_creation_input_tokens" records) u64Max ≤
          min (lastSum records) u64Max := by
    rw [hinput, hcached, hwrite]
    rfl
  unfold Complete
  constructor
  · rintro ⟨total, client, -, -⟩
    rw [htotal] at total
    rw [hclient] at client
    omega
  · intro h
    have client : (anthropicUsage (mergedRecords records)).inputTokens =
        lastCount "input_tokens" records := by
      rw [hclient]
      omega
    have hregular : (inputParts id (mergedRecords records)).regular =
        lastCount "input_tokens" records := by
      rw [regular_inputParts, ordinaryInput, client]
    have hexact : (mergedRecords records).input.getD 0 < 2 ^ 53 →
        (inputParts roundF64 (mergedRecords records)).regular =
          lastCount "input_tokens" records := by
      intro hfit
      refine (regular_inputParts_of_lt hfit ?_).trans hregular
      rw [hinput] at hfit ⊢
      rw [hcached, hwrite]
      unfold lastCount u64Max at *
      omega
    refine ⟨htotal.mpr (by omega), client, hexact, ?_⟩
    obtain hzero | hpos := Nat.eq_zero_or_pos ((mergedRecords records).input.getD 0)
    · rw [hexact (by omega), sub_self, abs_zero]
      positivity
    · rw [← hregular]
      exact abs_regular_inputParts_sub_le hpos

/-- The usage of a stream is consistent exactly if the last record with an input count is complete
and its sum fits, or nothing of the input is ordinary and the sum is too large to be told. -/
theorem merged_usage_consistent_iff (chunks : List Value) :
    Consistent (mergedUsage (chunks.flatMap chunkEvents)) (streamRecords chunks) ↔
      Complete (streamRecords chunks) ∧ lastSum (streamRecords chunks) ≤ u64Max ∨
        lastCount "input_tokens" (streamRecords chunks) = 0 ∧
          u64Max ≤ lastSum (streamRecords chunks) := by
  rw [mergedUsage_stream]
  exact consistent_mergedRecords_iff (streamRecords chunks)

/-- A stream whose last record repeats the ordinary input only. -/
def repeatedInput : List Value :=
  [.object [("type", .string "message_start"), ("message", .object [("usage", .object
      [("input_tokens", .number (.int 10)), ("cache_read_input_tokens", .number (.int 100))])])],
    .object [("type", .string "message_delta"), ("usage", .object
      [("input_tokens", .number (.int 10)), ("output_tokens", .number (.int 5))])]]

/-- The total of the last record does not hold what an earlier one read from the cache. -/
theorem repeated_input_inconsistent :
    ¬ Consistent (mergedUsage (repeatedInput.flatMap chunkEvents)) (streamRecords repeatedInput) :=
  fun h => absurd h.total (by decide)

end Kinetix.Adapters.Anthropic
