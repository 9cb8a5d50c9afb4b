import Kinetix.Pipeline.Verdict

/-!
# Error members

The drivers and the check before them take every payload with an `error` member for a failure, also
where the member is null.
-/

namespace Kinetix.Pipeline
open Frontends Json Sse

/-! ## Payloads -/

/-- The `error` member of a payload. -/
def errorMember (J : SerdeJson) (payload : String) : Option Value :=
  (J.fromStr payload).bind (·.get "error")

/-- A payload that says nothing of an error: it is not of type `error`, and its `error` member is
absent or null. -/
structure Harmless (J : SerdeJson) (payload : String) : Prop where
  type : ((J.fromStr payload).bind (·.get "type")).bind Value.asStr ≠ some "error"
  member : ∀ value, errorMember J payload = some value → value = .null

/-- A payload with an error. -/
def HasError (J : SerdeJson) (payload : String) : Prop :=
  ∃ value, errorMember J payload = some value ∧ value ≠ .null

section
variable {J : SerdeJson} {A : StreamAdapter} {payload : String}

theorem payloadErrorFailure_eq_none (A : StreamAdapter) :
    payloadErrorFailure J A payload = none ↔ errorMember J payload = none ∧
      ((J.fromStr payload).bind (·.get "type")).bind Value.asStr ≠ some "error" := by
  rw [payloadErrorFailure, errorMember]
  cases J.fromStr payload with
  | none => simp
  | some value =>
    rw [Option.bind_some, Option.bind_some]
    cases herror : value.get "error" <;> simp [herror]

/-- A payload that says nothing of an error is taken for one exactly if it has an `error` member. -/
theorem harmless_passes_iff (h : Harmless J payload) :
    payloadErrorFailure J A payload = none ↔ errorMember J payload = none := by
  rw [payloadErrorFailure_eq_none]
  exact and_iff_left h.type

theorem isSome_of_hasError (h : HasError J payload) : (payloadErrorFailure J A payload).isSome := by
  obtain ⟨value, hvalue, -⟩ := h
  rw [Option.isSome_iff_ne_none]
  intro hnone
  rw [((payloadErrorFailure_eq_none A).mp hnone).1] at hvalue
  cases hvalue

end

/-! ## All of them -/

section
variable {ε φ : Type} (P : StreamEncoder ε φ) (J : SerdeJson) (A : ResponseAdapter)
  (format : FrontendFormat) (includeUsage : Bool) (ctx : EncoderCtx)

/-- The passthrough driver of the adapter. -/
def passthroughOf : Passthrough := ⟨J, A.toStreamAdapter, format, includeUsage, ctx⟩

/-- No payload of a stream is taken for an error: whatever else happens, the drivers and the check
before them end as if payloads were not tested. -/
structure NotTaken (chunks : List (List UInt8)) : Prop where
  prepare : ∀ failure, (passthroughOf J A format includeUsage ctx).prepareStream {} failure chunks =
    seek noTest A.toStreamAdapter {} failure chunks
  drive : ∀ requestId pulses ending, pulses.filterMap Pulse.chunk? = chunks →
    (driveStreamStatus P J A.toStreamAdapter requestId pulses ending).error? =
      verdict noTest J A.toStreamAdapter {} false ending chunks
  passthrough : ∀ takes pulses ending, chunksOf pulses = chunks → (∀ log, takes log = true) →
    Wake.notified true ∉ pulses →
      ((passthroughOf J A format includeUsage ctx).driveStreamPassthrough takes pulses
        ending).status =
          (verdict noTest J A.toStreamAdapter {} false ending chunks).map .streamError
  aggregate : ∀ requestId ending,
    (driveAggregate J A.toStreamAdapter requestId chunks ending).error? =
      verdict noTest J A.toStreamAdapter {} false ending chunks

/-- No driver ends a stream well. -/
structure Fails (chunks : List (List UInt8)) : Prop where
  drive : ∀ requestId pulses ending, pulses.filterMap Pulse.chunk? = chunks →
    driveStreamStatus P J A.toStreamAdapter requestId pulses ending ≠ .success
  passthrough : ∀ takes pulses ending, chunksOf pulses = chunks →
    ((passthroughOf J A format includeUsage ctx).driveStreamPassthrough takes pulses
      ending).status ≠ none
  aggregate : ∀ requestId ending events usage,
    driveAggregate J A.toStreamAdapter requestId chunks ending ≠ .answer events usage

/-- Responses are taken for errors where they are: no harmless payload, and each with an error. -/
structure ErrorsRight (passes : String → Prop) : Prop where
  notTaken : ∀ chunks, (∀ payload ∈ payloadsOf chunks, Harmless J payload ∧ passes payload) →
    NotTaken P J A format includeUsage ctx chunks
  notTakenFull : ∀ response, (∀ body, response.bytes = .ok body →
      Harmless J (fromUtf8Lossy body) ∧ passes (fromUtf8Lossy body)) →
    prepareJson J A response = prepareTested noTest J A response
  fails : ∀ chunks, (∃ payload ∈ payloadsOf chunks, HasError J payload) →
    Fails P J A format includeUsage ctx chunks
  failsFull : ∀ response body, response.bytes = .ok body → HasError J (fromUtf8Lossy body) →
    ∃ failure, prepareJson J A response = .error failure

theorem notTaken_of_untested {chunks : List (List UInt8)}
    (h : ∀ payload ∈ payloadsOf chunks, payloadErrorFailure J A.toStreamAdapter payload = none) :
    NotTaken P J A format includeUsage ctx chunks := by
  have hverdict (ending : UpstreamEnd) :
      verdict (payloadErrorFailure J A.toStreamAdapter) J A.toStreamAdapter {} false ending chunks =
        verdict noTest J A.toStreamAdapter {} false ending chunks := verdict_congr scanned_start h
  constructor
  · intro failure
    rw [prepareStream_eq]
    exact seek_congr scanned_start h
  · rintro requestId pulses ending rfl
    rw [driveStreamStatus_eq, hverdict]
  · rintro takes pulses ending rfl htakes hstays
    rw [Passthrough.status_of_stays htakes hstays, ← hverdict]
    rfl
  · intro requestId ending
    rw [driveAggregate_eq, hverdict]

theorem fails_of_hasError
    (hdone : ∀ payload, Text.trim payload = "[DONE]" → J.fromStr payload = none)
    {chunks : List (List UInt8)} {payload : String} (hpayload : payload ∈ payloadsOf chunks)
    (herror : HasError J payload) : Fails P J A format includeUsage ctx chunks := by
  have hverdict (ending : UpstreamEnd) :
      verdict (payloadErrorFailure J A.toStreamAdapter) J A.toStreamAdapter {} false ending chunks ≠
        none := by
    intro hnone
    rcases test_of_verdict scanned_start rfl hnone payload hpayload with hend | htest
    · obtain ⟨value, hvalue, -⟩ := herror
      rw [errorMember, hdone payload hend] at hvalue
      cases hvalue
    · exact Option.isSome_iff_ne_none.mp (isSome_of_hasError (A := A.toStreamAdapter) herror) htest
  constructor
  · rintro requestId pulses ending rfl hsuccess
    apply hverdict ending
    rw [← driveStreamStatus_eq P requestId, hsuccess]
    rfl
  · rintro takes pulses ending rfl hstatus
    exact hverdict ending (Passthrough.verdict_of_status hstatus)
  · intro requestId ending events usage hanswer
    apply hverdict ending
    rw [← driveAggregate_eq requestId, hanswer]
    rfl

/-- A harmless payload is taken for an error exactly if it has an `error` member. In every run in
which no harmless payload has one, responses are taken for errors where they are. -/
theorem errors_right (hdone : ∀ payload, Text.trim payload = "[DONE]" → J.fromStr payload = none) :
    (∀ payload, Harmless J payload →
      (payloadErrorFailure J A.toStreamAdapter payload = none ↔ errorMember J payload = none)) ∧
    ErrorsRight P J A format includeUsage ctx fun payload => errorMember J payload = none := by
  refine ⟨fun payload => harmless_passes_iff, ?_, ?_, ?_, ?_⟩
  · intro chunks h
    refine notTaken_of_untested P J A format includeUsage ctx fun payload hpayload => ?_
    obtain ⟨hharmless, hnone⟩ := h payload hpayload
    exact (harmless_passes_iff hharmless).mpr hnone
  · intro response h
    refine prepareTested_congr fun body hbody => ?_
    obtain ⟨hharmless, hnone⟩ := h body hbody
    exact (harmless_passes_iff hharmless).mpr hnone
  · rintro chunks ⟨payload, hpayload, herror⟩
    exact fails_of_hasError P J A format includeUsage ctx hdone hpayload herror
  · intro response body hbody herror
    exact prepareTested_of_some hbody (isSome_of_hasError herror)

end

/-! ## A null member -/

/-- A reader that knows an object with a null `error` member, one with an error, and one without. -/
def nullErrorJson : SerdeJson where
  fromStr text :=
    if text = "\x7b\"error\":null\x7d" then some (.object [("error", .null)])
    else if text = "\x7b\"error\":\"overloaded\"\x7d" then
      some (.object [("error", .string "overloaded")])
    else if text = "\x7b\"text\":\"hello\"\x7d" then some (.object [("text", .string "hello")])
    else none
  toString _ := "null"

/-- An adapter that takes every payload for a text. -/
def echoAdapter : ResponseAdapter where
  parseStreamChunk payload := .ok [.textDelta payload]
  classifyError status payload := ⟨.serverError, some status, none, payload, none⟩
  parseFullResponse _ := .ok [.textDelta "hello"]

/-- An answer with a null `error` member, and its end. -/
def nullErrorChunk : List UInt8 :=
  "data: \x7b\"error\":null\x7d\n\ndata: [DONE]\n\n".toUTF8.toList

/-- An answer without an `error` member, and one with an error. -/
def textChunk : List UInt8 :=
  "data: \x7b\"text\":\"hello\"\x7d\n\ndata: [DONE]\n\n".toUTF8.toList

def errorChunk : List UInt8 := "data: \x7b\"error\":\"overloaded\"\x7d\n\n".toUTF8.toList

theorem fromStr_done {payload : String} (h : Text.trim payload = "[DONE]") :
    nullErrorJson.fromStr payload = none := by
  have hne : ∀ text, Text.trim text ≠ "[DONE]" → payload ≠ text := by
    rintro text htext rfl
    exact htext h
  dsimp only [nullErrorJson]
  rw [if_neg (hne _ (by decide +kernel)), if_neg (hne _ (by decide +kernel)),
    if_neg (hne _ (by decide +kernel))]

/-- The answer without an `error` member is not taken for an error, and that with one fails. -/
theorem errors_right_null :
    NotTaken (openAiEncoder ⟨"model", "req", 0, {}⟩ false) nullErrorJson echoAdapter .openAi false
        ⟨"model", "req", 0, {}⟩ [textChunk] ∧
      Fails (openAiEncoder ⟨"model", "req", 0, {}⟩ false) nullErrorJson echoAdapter .openAi false
        ⟨"model", "req", 0, {}⟩ [errorChunk] := by
  have hright :=
    (errors_right (openAiEncoder ⟨"model", "req", 0, {}⟩ false) nullErrorJson echoAdapter
    .openAi false ⟨"model", "req", 0, {}⟩ fun _ => fromStr_done).2
  refine ⟨hright.notTaken _ fun payload hpayload => ?_, hright.fails _ ?_⟩
  · have hfacts : ∀ payload ∈ payloadsOf [textChunk],
        ((nullErrorJson.fromStr payload).bind (·.get "type")).bind Value.asStr ≠ some "error" ∧
          (errorMember nullErrorJson payload).isNone := by decide +kernel
    have hnone := Option.isNone_iff_eq_none.mp (hfacts payload hpayload).2
    refine ⟨⟨(hfacts payload hpayload).1, fun value hvalue => ?_⟩, hnone⟩
    rw [hnone] at hvalue
    cases hvalue
  · have hpayloads : payloadsOf [errorChunk] = ["\x7b\"error\":\"overloaded\"\x7d"] := by
      decide +kernel
    rw [hpayloads]
    exact ⟨_, List.mem_singleton_self _, .string "overloaded", rfl, Value.noConfusion⟩

/-- An answer that has a null `error` member is not delivered. -/
theorem null_error_taken :
    ¬ ∀ (P : StreamEncoder OpenAi.OpenAiEncoder OpenAi.Frame) (J : SerdeJson) (A : ResponseAdapter)
      (format : FrontendFormat) (includeUsage : Bool) (ctx : EncoderCtx),
      (∀ payload, Text.trim payload = "[DONE]" → J.fromStr payload = none) →
        ErrorsRight P J A format includeUsage ctx fun _ => True := by
  intro h
  have hright :=
    h (openAiEncoder ⟨"model", "req", 0, {}⟩ false) nullErrorJson echoAdapter .openAi false
    ⟨"model", "req", 0, {}⟩ fun _ => fromStr_done
  have hpayloads : payloadsOf [nullErrorChunk] = ["\x7b\"error\":null\x7d", "[DONE]"] := by
    decide +kernel
  have hharmless : ∀ payload ∈ payloadsOf [nullErrorChunk],
      Harmless nullErrorJson payload ∧ True := by
    rw [hpayloads, List.forall_mem_cons, List.forall_mem_singleton]
    have hread : nullErrorJson.fromStr "\x7b\"error\":null\x7d" =
        some (.object [("error", .null)]) := by
      rfl
    have hdone : nullErrorJson.fromStr "[DONE]" = none := fromStr_done (by decide +kernel)
    refine ⟨⟨⟨?_, ?_⟩, trivial⟩, ⟨⟨?_, ?_⟩, trivial⟩⟩
    · rw [hread]
      exact Option.some_ne_none _ ∘ Eq.symm
    · intro value hvalue
      rw [errorMember, hread] at hvalue
      cases hvalue
      rfl
    · rw [hdone]
      exact Option.some_ne_none _ ∘ Eq.symm
    · intro value hvalue
      rw [errorMember, hdone] at hvalue
      cases hvalue
  have haggregate := (hright.notTaken [nullErrorChunk] hharmless).aggregate "req" .eof
  revert haggregate
  decide +kernel

end Kinetix.Pipeline
