import Kinetix.Foundation.JsonText
import Kinetix.Frontends.Events
import Kinetix.Frontends.Request
import Kinetix.Library.Fallible
import Kinetix.Outbound.Redirects

/-!
# The response contract of plugins

`events_to_json` and `json_to_events` of `plugins/response_contract.rs`: the envelope that holds the
events of a response, and its reading.

## Implementation notes

The text of a value and its reading are `serde_json`'s, and the reading of an instant is `chrono`'s.
What `serde_json` says about a text that is not JSON is left out of the failure's message.
-/

namespace Kinetix.Plugins.ResponseContract
open Frontends Json Kinetix.Types Fallible
open Outbound (redact)

def responseSchema : String := "kinetix.plugin.response"

def responseSchemaVersion : Nat := 1

/-- `contract_failure`. -/
def contractFailure (message : String) : UpstreamFailure where
  kind := .serverError
  status := none
  retryAfterSecs := none
  message := "plugin response contract: " ++ message
  quotaResetAt := none

/-! ## Fields -/

/-- `required_str`. -/
def requiredStr (value : Value) (field : String) : Except UpstreamFailure String :=
  match strField value field with
  | some text => .ok text
  | none => .error (contractFailure s!"'{field}' must be a string")

/-- `optional_str`: absent and `null` are the same. -/
def optionalStr (value : Value) (field : String) : Except UpstreamFailure (Option String) :=
  match value.get field with
  | none | some .null => .ok none
  | some (.string text) => .ok (some text)
  | some _ => .error (contractFailure s!"'{field}' must be a string or null")

/-- A count, or the failure with a message. -/
def u64OrElse (value : Option Value) (message : String) : Except UpstreamFailure Nat :=
  match value.bind (·.asU64) with
  | some number => .ok number
  | none => .error (contractFailure message)

def requiredU64 (value : Value) (field : String) : Except UpstreamFailure Nat :=
  u64OrElse (value.get field) s!"'{field}' must be a non-negative integer"

def optionalU64 (value : Value) (field : String) : Except UpstreamFailure (Option Nat) :=
  match value.get field with
  | none | some .null => .ok none
  | number => (u64OrElse number s!"'{field}' must be a non-negative integer or null").map some

def requiredU32 (value : Value) (field : String) : Except UpstreamFailure Nat := do
  let number ← requiredU64 value field
  if number < 2 ^ 32 then .ok number
  else .error (contractFailure s!"'{field}' exceeds u32 range")

def optionalU16 (value : Value) (field : String) : Except UpstreamFailure (Option Nat) := do
  match ← optionalU64 value field with
  | some number =>
    if number < 2 ^ 16 then .ok (some number)
    else .error (contractFailure s!"'{field}' exceeds u16 range")
  | none => .ok none

/-! ## Reading -/

/-- A reason that is not listed is kept as it is. -/
def finishReason (reason : String) : FinishReason :=
  if reason = "stop" then .stop
  else if reason = "length" then .length
  else if reason = "tool_calls" then .toolCalls
  else if reason = "content_filter" then .contentFilter
  else .other reason

/-- The `finish` event of `value_to_event`. -/
def valueToFinish (value : Value) : Except UpstreamFailure StreamEvent := do
  let reason ← requiredStr value "reason"
  if reason = "" then .error (contractFailure "finish.reason must not be empty")
  else .ok (.finish (finishReason reason))

/-- The `usage` event: every count may be absent. -/
def valueToUsage (value : Value) : Except UpstreamFailure StreamEvent := do
  let input ← optionalU64 value "input"
  let output ← optionalU64 value "output"
  let cached ← optionalU64 value "cached"
  let cacheWrite ← optionalU64 value "cache_write"
  let thinking ← optionalU64 value "thinking"
  .ok (.usage { input, output, cached, cacheWrite, thinking })

/-- The `tool_call_start` event. -/
def valueToToolCallStart (value : Value) : Except UpstreamFailure StreamEvent := do
  let index ← requiredU32 value "index"
  let id ← optionalStr value "id"
  let name ← requiredStr value "name"
  let signature ← optionalStr value "signature"
  .ok (.toolCallStart index id name signature)

/-- The `tool_call_args_delta` event. -/
def valueToToolCallArgsDelta (value : Value) : Except UpstreamFailure StreamEvent := do
  let index ← requiredU32 value "index"
  let args ← requiredStr value "args"
  .ok (.toolCallArgsDelta index args)

/-- The `thinking_delta` event. -/
def valueToThinkingDelta (value : Value) : Except UpstreamFailure StreamEvent := do
  let text ← requiredStr value "text"
  let signature ← optionalStr value "signature"
  .ok (.thinkingDelta text signature)

def eventOfType (value : Value) (eventType : String) : Except UpstreamFailure StreamEvent :=
  match eventType with
  | "start" => (optionalStr value "upstream_request_id").map .start
  | "thinking_delta" => valueToThinkingDelta value
  | "text_delta" => (requiredStr value "text").map .textDelta
  | "tool_call_start" => valueToToolCallStart value
  | "tool_call_args_delta" => valueToToolCallArgsDelta value
  | "usage" => valueToUsage value
  | "finish" => valueToFinish value
  | other => .error (contractFailure s!"unknown event type '{other}'")

/-- `value_to_event`. -/
def valueToEvent (value : Value) : Except UpstreamFailure StreamEvent := do
  eventOfType value (← requiredStr value "type")

/-- `validate_warning`: a warning gives no event. -/
def validateWarning (value : Value) : Except UpstreamFailure Unit := do
  let code ← requiredStr value "code"
  let message ← requiredStr value "message"
  if code = "" then .error (contractFailure "warning.code must not be empty")
  else if message = "" then .error (contractFailure "warning.message must not be empty")
  else .ok ()

/-- The kinds of failure that a plugin may report. -/
def failureKind (kindName : String) : Except UpstreamFailure FailureKind :=
  match kindName with
  | "rate_limit" => .ok .rateLimit
  | "quota_exhausted" => .ok .quotaExhausted
  | "auth_error" => .ok .authError
  | "target_error" => .ok .targetError
  | "server_error" => .ok .serverError
  | "connection_error" => .ok .connectionError
  | "timeout" => .ok .timeout
  | "bad_request" => .ok .badRequest
  | other => .error (contractFailure s!"unknown error.kind '{other}'")

/-- What reads the texts of the contract. -/
structure Readers where
  json : SerdeJson
  /-- `DateTime::parse_from_rfc3339`. -/
  parseFromRfc3339 : String → Option Int

section Decoding
variable (R : Readers)

/-- The instant of a reset, which has to be a date if it is there. -/
def quotaReset (raw : Option String) : Except UpstreamFailure (Option Int) :=
  match raw with
  | none => .ok none
  | some raw =>
    match R.parseFromRfc3339 raw with
    | some instant => .ok (some instant)
    | none => .error (contractFailure "error.quota_reset_at must be RFC3339")

/-- `error_event_to_failure`. -/
def errorEventToFailure (value : Value) : Except UpstreamFailure UpstreamFailure := do
  let kind ← failureKind (← requiredStr value "kind")
  let message ← requiredStr value "message"
  if message = "" then .error (contractFailure "error.message must not be empty")
  else
    let quotaResetAt ← quotaReset R (← optionalStr value "quota_reset_at")
    let status ← optionalU16 value "status"
    let retryAfterSecs ← optionalU64 value "retry_after_secs"
    .ok { kind, status, retryAfterSecs, message := redact message, quotaResetAt }

/-- The event of an element of an envelope, of which there are so many; a warning has none. -/
def decodeEvent (count : Nat) (event : Value) : Except UpstreamFailure (Option StreamEvent) := do
  if event.asObject.isNone then .error (contractFailure "event must be an object")
  else
    match ← requiredStr event "type" with
    | "warning" => (validateWarning event).map fun _ => none
    | "error" =>
      if count ≠ 1 then
        .error (contractFailure
          "terminal error event must be the only event in its response envelope")
      else .error (← errorEventToFailure R event)
    | _ => (valueToEvent event).map some

/-- The events of a list; the first one refused refuses all. -/
def decodeEvents (events : List Value) : Except UpstreamFailure (List StreamEvent) :=
  (events.mapM (decodeEvent R events.length)).map (·.filterMap id)

/-- The events of an envelope with a schema and a version. -/
def decodeEnvelope (object : List (String × Value)) : Except UpstreamFailure (List StreamEvent) :=
  match (object.lookup "schema").bind (·.asStr) with
  | none => .error (contractFailure "missing or non-string 'schema'")
  | some schema =>
    if schema ≠ responseSchema then
      .error (contractFailure s!"unsupported schema '{schema}', expected '{responseSchema}'")
    else
      match (object.lookup "schema_version").bind (·.asU64) with
      | none => .error (contractFailure "missing or non-integer 'schema_version'")
      | some version =>
        if version ≠ responseSchemaVersion then
          .error (contractFailure
            s!"unsupported schema_version {version}; expected {responseSchemaVersion}")
        else
          match (object.lookup "events").bind (·.asArray) with
          | none => .error (contractFailure "missing or non-array 'events'")
          | some events => decodeEvents R events

/-- `json_to_events`: a bare list of events, or an envelope. -/
def jsonToEvents (s : String) : Except UpstreamFailure (List StreamEvent) :=
  match R.json.fromStr s with
  | none => .error (contractFailure "invalid JSON")
  | some (.array events) => decodeEvents R events
  | some (.object object) => decodeEnvelope R object
  | some _ => .error (contractFailure "response payload must be an object")

end Decoding

/-! ## Writing -/

def optStr (s : Option String) : Value := (s.map .string).getD .null

def natValue (n : Nat) : Value := .number (.int n)

def optNat (n : Option Nat) : Value := (n.map natValue).getD .null

/-- `FinishReason::as_str`. -/
def reasonStr : FinishReason → String
  | .stop => "stop"
  | .length => "length"
  | .toolCalls => "tool_calls"
  | .contentFilter => "content_filter"
  | .other reason => reason

/-- `event_to_value`. -/
def eventToValue : StreamEvent → Value
  | .start upstreamRequestId =>
    .object [("type", .string "start"), ("upstream_request_id", optStr upstreamRequestId)]
  | .thinkingDelta text signature =>
    .object [("type", .string "thinking_delta"), ("text", .string text),
      ("signature", optStr signature)]
  | .textDelta text | .refusalDelta text =>
    .object [("type", .string "text_delta"), ("text", .string text)]
  | .toolCallStart index id name signature =>
    .object [("type", .string "tool_call_start"), ("index", natValue index), ("id", optStr id),
      ("name", .string name), ("signature", optStr signature)]
  | .toolCallArgsDelta index args =>
    .object [("type", .string "tool_call_args_delta"), ("index", natValue index),
      ("args", .string args)]
  | .usage u =>
    .object [("type", .string "usage"), ("input", optNat u.input), ("output", optNat u.output),
      ("cached", optNat u.cached), ("cache_write", optNat u.cacheWrite),
      ("thinking", optNat u.thinking)]
  | .finish reason =>
    .object [("type", .string "finish"), ("reason", .string (reasonStr reason))]

def envelope (events : List StreamEvent) : Value :=
  .object [("schema", .string responseSchema), ("schema_version", natValue responseSchemaVersion),
    ("events", .array (events.map eventToValue))]

/-- `events_to_json`. -/
def eventsToJson (J : SerdeJson) (events : List StreamEvent) : String :=
  J.toString (envelope events)

/-! ## What is read back -/

/-- The counts of a record are `u64`s. -/
def UsageFits (u : TokenUsage) : Prop :=
  ∀ count ∈ [u.input, u.output, u.cached, u.cacheWrite, u.thinking], ∀ n ∈ count, n < 2 ^ 64

/-- The numbers of an event are in the ranges of their types. -/
def Fits : StreamEvent → Prop
  | .toolCallStart index _ _ _ | .toolCallArgsDelta index _ => index < 2 ^ 32
  | .usage u => UsageFits u
  | _ => True

/-- A finish that is none of the reserved ones has a name of its own. -/
def OwnName : StreamEvent → Prop
  | .finish (.other reason) =>
    reason ≠ "" ∧ reason ∉ ["stop", "length", "tool_calls", "content_filter"]
  | _ => True

/-- The contract has no event for a refusal, which is written as a text. -/
def asText : StreamEvent → StreamEvent
  | .refusalDelta text => .textDelta text
  | event => event

section Fields
variable {value : Value} {field : String}

theorem optionalStr_optStr {s : Option String} (h : value.get field = some (optStr s)) :
    optionalStr value field = .ok s := by
  rw [optionalStr, h]
  cases s <;> rfl

variable {n : Nat}

theorem asU64_natValue (h : n < 2 ^ 64) : (natValue n).asU64 = some n := by
  have hrange : (0 : Int) ≤ n ∧ (n : Int) < 2 ^ 64 := by omega
  simp only [natValue, Value.asU64, hrange, and_self, if_true, Int.toNat_natCast]

theorem u64OrElse_natValue (h : n < 2 ^ 64) (message : String) :
    u64OrElse (some (natValue n)) message = .ok n := by
  rw [u64OrElse, Option.bind_some, asU64_natValue h]

theorem optionalU64_optNat {n : Option Nat} (h : value.get field = some (optNat n))
    (hfits : ∀ m ∈ n, m < 2 ^ 64) : optionalU64 value field = .ok n := by
  rw [optionalU64, h]
  cases n with
  | none => rfl
  | some n => exact congrArg (Except.map some) (u64OrElse_natValue (hfits n rfl) _)

theorem requiredU32_natValue (h : value.get field = some (natValue n)) (hfits : n < 2 ^ 32) :
    requiredU32 value field = .ok n := by
  have hread : requiredU64 value field = .ok n := by
    rw [requiredU64, h, u64OrElse_natValue (by omega)]
  rw [requiredU32, hread]
  exact if_pos hfits

theorem u64OrElse_fits {v : Option Value} {message : String} (h : u64OrElse v message = .ok n) :
    n < 2 ^ 64 := by
  rw [u64OrElse] at h
  split at h
  next number hnumber =>
    cases h
    obtain ⟨w, -, hw⟩ := Option.bind_eq_some_iff.mp hnumber
    unfold Value.asU64 at hw
    split at hw
    · split at hw
      · cases hw
        omega
      · cases hw
    · cases hw
  · cases h

theorem optionalU64_fits {n : Option Nat} (h : optionalU64 value field = .ok n) :
    ∀ m ∈ n, m < 2 ^ 64 := by
  rw [optionalU64] at h
  split at h
  · cases h
    exact fun m hm => by cases hm
  · cases h
    exact fun m hm => by cases hm
  · obtain ⟨number, hnumber, rfl⟩ := map_eq_ok_iff.mp h
    intro m hm
    cases hm
    exact u64OrElse_fits hnumber

theorem requiredU32_fits (h : requiredU32 value field = .ok n) : n < 2 ^ 32 := by
  obtain ⟨number, -, hnumber⟩ := bind_eq_ok_iff.mp h
  split at hnumber
  · cases hnumber
    assumption
  · cases hnumber

end Fields

theorem finishReason_reasonStr {reason : FinishReason} (h : OwnName (.finish reason)) :
    finishReason (reasonStr reason) = reason := by
  cases reason with
  | other reason =>
    simp only [OwnName, List.mem_cons, List.not_mem_nil, or_false, not_or] at h
    simp [finishReason, reasonStr, h]
  | _ => rfl

theorem reasonStr_ne {reason : FinishReason} (h : OwnName (.finish reason)) :
    reasonStr reason ≠ "" := by
  cases reason with
  | other reason => exact h.1
  | _ => exact by decide

variable {event : StreamEvent} {R : Readers} {events : List StreamEvent} {value : Value}

theorem valueToEvent_of_type {kind : String} (h : strField value "type" = some kind) :
    valueToEvent value = eventOfType value kind := by
  rw [valueToEvent, requiredStr, h]
  rfl

/-- An event is read as it was written, but for a refusal. -/
theorem valueToEvent_eventToValue (hfits : Fits event) (hname : OwnName event) :
    valueToEvent (eventToValue event) = .ok (asText event) := by
  cases event with
  | start upstreamRequestId =>
    rw [valueToEvent_of_type (by rfl), eventOfType, optionalStr_optStr (by rfl)]
    rfl
  | thinkingDelta text signature =>
    rw [valueToEvent_of_type (by rfl), eventOfType, valueToThinkingDelta,
      optionalStr_optStr (by rfl)]
    rfl
  | textDelta text | refusalDelta text => rfl
  | toolCallStart index id name signature =>
    rw [valueToEvent_of_type (by rfl), eventOfType, valueToToolCallStart,
      requiredU32_natValue (by rfl) hfits, optionalStr_optStr (by rfl),
      optionalStr_optStr (by rfl)]
    rfl
  | toolCallArgsDelta index args =>
    rw [valueToEvent_of_type (by rfl), eventOfType, valueToToolCallArgsDelta,
      requiredU32_natValue (by rfl) hfits]
    rfl
  | usage u =>
    have hcount (count : Option Nat)
        (hmem : count ∈ [u.input, u.output, u.cached, u.cacheWrite, u.thinking]) :
        ∀ n ∈ count, n < 2 ^ 64 := hfits count hmem
    rw [valueToEvent_of_type (by rfl), eventOfType, valueToUsage,
      optionalU64_optNat (by rfl) (hcount u.input (by simp)),
      optionalU64_optNat (by rfl) (hcount u.output (by simp)),
      optionalU64_optNat (by rfl) (hcount u.cached (by simp)),
      optionalU64_optNat (by rfl) (hcount u.cacheWrite (by simp)),
      optionalU64_optNat (by rfl) (hcount u.thinking (by simp))]
    rfl
  | finish reason =>
    change (if reasonStr reason = "" then _ else Except.ok (StreamEvent.finish
      (finishReason (reasonStr reason)))) = _
    rw [if_neg (reasonStr_ne hname), finishReason_reasonStr hname]
    rfl

/-- What is read is in range, has a name of its own, and is no refusal. -/
structure Read (event : StreamEvent) : Prop where
  fits : Fits event
  name : OwnName event
  text : asText event = event

theorem ownName_finishReason {reason : String} (h : reason ≠ "") :
    OwnName (.finish (finishReason reason)) := by
  unfold finishReason
  split
  · trivial
  split
  · trivial
  split
  · trivial
  split
  · trivial
  · exact ⟨h, by simp [*]⟩

theorem eventOfType_read {kind : String} (h : eventOfType value kind = .ok event) : Read event := by
  unfold eventOfType at h
  split at h
  next =>
    obtain ⟨id, -, rfl⟩ := map_eq_ok_iff.mp h
    exact ⟨trivial, trivial, rfl⟩
  next =>
    obtain ⟨text, -, h⟩ := bind_eq_ok_iff.mp h
    obtain ⟨signature, -, h⟩ := bind_eq_ok_iff.mp h
    cases h
    exact ⟨trivial, trivial, rfl⟩
  next =>
    obtain ⟨text, -, rfl⟩ := map_eq_ok_iff.mp h
    exact ⟨trivial, trivial, rfl⟩
  next =>
    obtain ⟨index, hindex, h⟩ := bind_eq_ok_iff.mp h
    obtain ⟨id, -, h⟩ := bind_eq_ok_iff.mp h
    obtain ⟨name, -, h⟩ := bind_eq_ok_iff.mp h
    obtain ⟨signature, -, h⟩ := bind_eq_ok_iff.mp h
    cases h
    exact ⟨requiredU32_fits hindex, trivial, rfl⟩
  next =>
    obtain ⟨index, hindex, h⟩ := bind_eq_ok_iff.mp h
    obtain ⟨args, -, h⟩ := bind_eq_ok_iff.mp h
    cases h
    exact ⟨requiredU32_fits hindex, trivial, rfl⟩
  next =>
    obtain ⟨input, hinput, h⟩ := bind_eq_ok_iff.mp h
    obtain ⟨output, houtput, h⟩ := bind_eq_ok_iff.mp h
    obtain ⟨cached, hcached, h⟩ := bind_eq_ok_iff.mp h
    obtain ⟨cacheWrite, hwrite, h⟩ := bind_eq_ok_iff.mp h
    obtain ⟨thinking, hthinking, h⟩ := bind_eq_ok_iff.mp h
    cases h
    refine ⟨?_, trivial, rfl⟩
    simp only [Fits, UsageFits, List.forall_mem_cons]
    exact ⟨optionalU64_fits hinput, optionalU64_fits houtput, optionalU64_fits hcached,
      optionalU64_fits hwrite, optionalU64_fits hthinking, fun count hcount => by cases hcount⟩
  next =>
    obtain ⟨reason, -, h⟩ := bind_eq_ok_iff.mp h
    split at h
    next => cases h
    next hreason =>
      cases h
      exact ⟨trivial, ownName_finishReason hreason, rfl⟩
  next => cases h

theorem decodeEvent_read {count : Nat} (h : decodeEvent R count value = .ok (some event)) :
    Read event := by
  rw [decodeEvent] at h
  split at h
  next => cases h
  next =>
    obtain ⟨kind, -, h⟩ := bind_eq_ok_iff.mp h
    split at h
    next =>
      obtain ⟨_, -, h⟩ := map_eq_ok_iff.mp h
      cases h
    next =>
      split at h
      next => cases h
      next =>
        obtain ⟨failure, -, h⟩ := bind_eq_ok_iff.mp h
        cases h
    next =>
      obtain ⟨event', hevent, h⟩ := map_eq_ok_iff.mp h
      cases h
      obtain ⟨kind', -, hkind⟩ := bind_eq_ok_iff.mp hevent
      exact eventOfType_read hkind

/-- Every event that is read from a list is in range, has a name of its own, and is no refusal. -/
theorem decodeEvents_read {values : List Value} (h : decodeEvents R values = .ok events) :
    ∀ event ∈ events, Read event := by
  obtain ⟨results, hresults, rfl⟩ := map_eq_ok_iff.mp h
  intro event hevent
  obtain ⟨result, hresult, hsome⟩ := List.mem_filterMap.mp hevent
  obtain ⟨value, -, hvalue⟩ := exists_of_mem hresults hresult
  obtain rfl : result = some event := hsome
  exact decodeEvent_read hvalue

theorem jsonToEvents_read {text : String} (h : jsonToEvents R text = .ok events) :
    ∀ event ∈ events, Read event := by
  unfold jsonToEvents at h
  split at h
  next => cases h
  next => exact decodeEvents_read h
  next =>
    unfold decodeEnvelope at h
    split at h
    next => cases h
    next =>
      split at h
      next => cases h
      next =>
        split at h
        next => cases h
        next =>
          split at h
          next => cases h
          next =>
            split at h
            next => cases h
            next => exact decodeEvents_read h
  next => cases h

/-! ## Round trips -/

theorem kind_eventToValue (event : StreamEvent) :
    ∃ kind, strField (eventToValue event) "type" = some kind ∧ kind ≠ "warning" ∧
      kind ≠ "error" := by
  cases event <;> exact ⟨_, rfl, by decide, by decide⟩

theorem decodeEvent_eventToValue (hfits : Fits event) (hname : OwnName event) (count : Nat) :
    decodeEvent R count (eventToValue event) = .ok (some (asText event)) := by
  obtain ⟨kind, hkind, hwarning, herror⟩ := kind_eventToValue event
  have hobject : ¬ (eventToValue event).asObject.isNone := by
    cases event <;> exact Bool.false_ne_true
  rw [decodeEvent, if_neg hobject, requiredStr, hkind]
  simp only [bind, Except.bind]
  rw [valueToEvent_eventToValue hfits hname]
  rfl

/-- A reader reads back a text that was written. -/
def ReadsBack (J : SerdeJson) (value : Value) : Prop := J.fromStr (J.toString value) = some value

/-- Events that are written come back, refusals as texts. -/
theorem jsonToEvents_eventsToJson (hfits : ∀ event ∈ events, Fits event)
    (hname : ∀ event ∈ events, OwnName event) (hreads : ReadsBack R.json (envelope events)) :
    jsonToEvents R (eventsToJson R.json events) = .ok (events.map asText) := by
  rw [jsonToEvents, eventsToJson, hreads]
  change decodeEvents R (events.map eventToValue) = _
  have hall : (events.map eventToValue).mapM
      (decodeEvent R (events.map eventToValue).length) = .ok (events.map (some ∘ asText)) := by
    rw [List.mapM_map]
    exact mapM_eq_ok_of_forall fun event hevent =>
      decodeEvent_eventToValue (hfits event hevent) (hname event hevent) _
  rw [decodeEvents, hall, Except.map, List.filterMap_map]
  exact congrArg Except.ok (congrFun List.filterMap_eq_map events)

/-- Events in range come back as they were, refusals as texts; and what is read of any text, written
again, is read again. -/
theorem response_contract_round_trip (R : Readers) :
    (∀ events : List StreamEvent, (∀ event ∈ events, Fits event) →
      (∀ event ∈ events, OwnName event) → ReadsBack R.json (envelope events) →
        jsonToEvents R (eventsToJson R.json events) = .ok (events.map asText)) ∧
    (∀ (text : String) (events : List StreamEvent), jsonToEvents R text = .ok events →
      ReadsBack R.json (envelope events) →
        jsonToEvents R (eventsToJson R.json events) = .ok events) := by
  refine ⟨fun events hfits hname hreads => jsonToEvents_eventsToJson hfits hname hreads,
    fun text events hevents hreads => ?_⟩
  have hread := jsonToEvents_read hevents
  have hsame : events.map asText = events :=
    (List.map_congr_left fun event hevent => (hread event hevent).text).trans (List.map_id events)
  rw [jsonToEvents_eventsToJson (fun event hevent => (hread event hevent).fits)
    (fun event hevent => (hread event hevent).name) hreads, hsame]

/-- Readers that know the text of one envelope. -/
def readersOf (events : List StreamEvent) : Readers where
  json :=
    { fromStr := fun text =>
        if text = (envelope events).toText (fun _ => "") then some (envelope events) else none
      toString := Value.toText fun _ => "" }
  parseFromRfc3339 _ := none

theorem readsBack_readersOf (events : List StreamEvent) :
    ReadsBack (readersOf events).json (envelope events) := by
  simp only [ReadsBack, readersOf, if_true]

/-- An answer with a call and an ending of its own. -/
def exampleAnswer : List StreamEvent :=
  [.start (some "r1"), .thinkingDelta "hm" (some "sig"), .textDelta "Hi",
    .toolCallStart 0 (some "c1") "read" none, .toolCallArgsDelta 0 "1",
    .usage { input := some 10, output := some 20 }, .finish (.other "pause")]

/-- The answer comes back as it was, and what was read of it is read again. -/
theorem response_contract_round_trip_answer :
    let J := (readersOf exampleAnswer).json
    jsonToEvents (readersOf exampleAnswer) (eventsToJson J exampleAnswer) = .ok exampleAnswer ∧
      ∀ events, jsonToEvents (readersOf exampleAnswer) (eventsToJson J exampleAnswer) = .ok events →
        jsonToEvents (readersOf exampleAnswer) (eventsToJson J events) = .ok events := by
  have hfits : ∀ event ∈ exampleAnswer, Fits event := by simp [exampleAnswer, Fits, UsageFits]
  have hname : ∀ event ∈ exampleAnswer, OwnName event := by simp [exampleAnswer, OwnName]
  have htrip := response_contract_round_trip (readersOf exampleAnswer)
  have hanswer := htrip.1 exampleAnswer hfits hname (readsBack_readersOf exampleAnswer)
  refine ⟨hanswer, fun events hevents => ?_⟩
  obtain rfl : exampleAnswer = events := Except.ok.inj (hanswer.symm.trans hevents)
  exact htrip.2 _ exampleAnswer hevents (readsBack_readersOf exampleAnswer)

/-- A refusal comes back as a text. -/
theorem refusal_becomes_text :
    ¬ ∀ (R : Readers) (events : List StreamEvent), (∀ event ∈ events, Fits event) →
      (∀ event ∈ events, OwnName event) → ReadsBack R.json (envelope events) →
        jsonToEvents R (eventsToJson R.json events) = .ok events := by
  intro h
  have hreads := readsBack_readersOf [.refusalDelta "No."]
  have hfits : ∀ event ∈ [StreamEvent.refusalDelta "No."], Fits event := by simp [Fits]
  have hname : ∀ event ∈ [StreamEvent.refusalDelta "No."], OwnName event := by simp [OwnName]
  have hsame := h (readersOf [.refusalDelta "No."]) _ hfits hname hreads
  rw [jsonToEvents_eventsToJson hfits hname hreads] at hsame
  exact absurd (Except.ok.inj hsame) (by decide)

end Kinetix.Plugins.ResponseContract
