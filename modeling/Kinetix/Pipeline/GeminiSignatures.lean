import Kinetix.OpaqueState.Operations
import Kinetix.Pipeline.GeminiCalls

/-!
# The signatures of Gemini calls

`capture_opaque_state` hands the signature with which a call is sent to the store, under the id that
the client sees. A signature belongs to a call if it stands at the call itself, or else if the part
directly before it has no text and carries that signature, thought or not.

## Implementation notes

The session and the target of an answer are those of its whole run.
-/

namespace Kinetix.Pipeline
open Frontends Json OpaqueState StateMachine

/-! ## Captures -/

structure OpaqueCaptureContext where
  scope : OpaqueClientScope
  session : Option String
  target : OpaqueStateTarget

/-- The capture of an event. -/
def OpaqueCaptureContext.capture (ctx : OpaqueCaptureContext) : StreamEvent → Option Capture
  | .toolCallStart _ (some id) name (some signature) =>
    some ⟨ctx.scope, ctx.target, ctx.session, id, name, signature⟩
  | _ => none

/-- `capture_opaque_state`. -/
def captureOpaqueState (ctx : OpaqueCaptureContext) (events : List StreamEvent) : List Capture :=
  events.filterMap ctx.capture

/-- A signature was captured for an id. -/
def Captured (captures : List Capture) (id signature : String) : Prop :=
  ∃ c ∈ captures, c.Effective ∧ c.toolCallId = id ∧ c.signature = signature

/-- The id under which an event starts a call. -/
def StreamEvent.callId : StreamEvent → Option String
  | .toolCallStart _ id _ _ => id
  | _ => none

/-- For the id of each call exactly the signature is captured that belongs to it. -/
def SignaturesReach (J : SerdeJson) (ctx : OpaqueCaptureContext) (requestId : String)
    (chunks : List Value) : Prop :=
  let sent := geminiSent J requestId chunks
  let ids := sent.filterMap StreamEvent.callId
  ids.length = (geminiCalls J requestId chunks).length ∧
    ∀ p ∈ ids.zip (geminiCalls J requestId chunks), ∀ signature,
      Captured (captureOpaqueState ctx sent) p.1 signature ↔
        signature ≠ "" ∧ p.2.expected = some signature

/-- Each call with a signature carries its own, calls of one id have one signature, and one of them
carries it. -/
structure SignaturesRouted (calls : List GeminiCall) : Prop where
  own : ∀ c ∈ calls, ∀ g ≠ "", c.carried = some g → c.expected = some g
  shared : ∀ c ∈ calls, ∀ c' ∈ calls, c.id = c'.id → ∀ g ≠ "", c.expected = some g →
    c'.expected = some g
  reached : ∀ c ∈ calls, ∀ g ≠ "", c.expected = some g →
    ∃ c' ∈ calls, c'.id = c.id ∧ c'.carried = some g

/-! ## What is captured -/

theorem clientId_ne_empty (requestId : String) (seen : List String) (id : Option String) :
    clientId requestId seen id ≠ "" := by
  unfold clientId
  cases hid : id.filter (· ≠ "") with
  | none => exact generatedAt_ne_empty _ _
  | some call => exact of_decide_eq_true (Option.filter_eq_some_iff.mp hid).2

theorem gemini_ids_ne_empty (J : SerdeJson) (requestId : String) (chunks : List Value) :
    ∀ c ∈ geminiCalls J requestId chunks, c.id ≠ "" := by
  apply Transducer.forall_mem_feed
  intro h token c hc
  cases token with
  | finish reason => exact absurd hc List.not_mem_nil
  | part p =>
    simp only [geminiListener, Hearing.step] at hc
    split at hc
    · obtain rfl := List.mem_singleton.mp hc
      exact clientId_ne_empty _ _ _
    · exact absurd hc List.not_mem_nil

/-- What is read from the starts of calls is read from their events. -/
theorem filterMap_toolEvents {α : Type*} (f : StreamEvent → Option α)
    (h : ∀ event, isTool event = false → f event = none) (events : List StreamEvent) :
    (toolEvents events).filterMap f = events.filterMap f := by
  rw [toolEvents, List.filterMap_filter]
  refine congrArg (List.filterMap · events) (funext fun event => ?_)
  cases htool : isTool event with
  | false => exact (h event htool).symm
  | true => rfl

theorem filterMap_sentCalls {α : Type*} (f : StreamEvent → Option α) (g : GeminiCall → Option α)
    (h : ∀ index c, (sentCall index c).filterMap f = (g c).toList) {indexes : List Nat}
    {calls : List GeminiCall} (hlength : indexes.length = calls.length) :
    (sentCalls indexes calls).filterMap f = calls.filterMap g := by
  induction calls generalizing indexes with
  | nil =>
    obtain rfl := List.length_eq_zero_iff.mp hlength
    rfl
  | cons c calls ih =>
    obtain ⟨index, indexes, rfl⟩ := List.exists_cons_of_length_eq_add_one hlength
    rw [sentCalls, List.zip_cons_cons, List.flatMap_cons, List.filterMap_append, h, ← sentCalls,
      ih (Nat.succ.inj hlength), List.filterMap_cons]
    cases g c with
    | none | some a => rfl

section Sent
variable (J : SerdeJson) (ctx : OpaqueCaptureContext) (requestId : String) (chunks : List Value)

/-- Calls are started under their ids. -/
theorem sent_callIds : (geminiSent J requestId chunks).filterMap StreamEvent.callId =
    (geminiCalls J requestId chunks).map (·.id) := by
  obtain ⟨indexes, hlength, htools, -⟩ := gemini_sends J requestId chunks
  rw [← filterMap_toolEvents StreamEvent.callId _ (geminiSent J requestId chunks), htools,
    filterMap_sentCalls _ (fun c => some c.id) (fun _ _ => rfl) hlength]
  · exact congrFun List.filterMap_eq_map _
  · intro event htool
    cases event with
    | toolCallStart _ _ _ _ => cases htool
    | _ => rfl

/-- The signatures of calls are captured as they are carried. -/
theorem sent_captures : captureOpaqueState ctx (geminiSent J requestId chunks) =
    (geminiCalls J requestId chunks).filterMap fun c =>
      c.carried.map (⟨ctx.scope, ctx.target, ctx.session, c.id, c.name, ·⟩) := by
  obtain ⟨indexes, hlength, htools, -⟩ := gemini_sends J requestId chunks
  rw [captureOpaqueState, ← filterMap_toolEvents ctx.capture _ (geminiSent J requestId chunks),
    htools]
  · refine filterMap_sentCalls _ _ (fun index c => ?_) hlength
    rw [sentCall, List.filterMap_cons]
    cases hcarried : c.carried with
    | none | some signature => rfl
  · intro event htool
    cases event with
    | toolCallStart _ _ _ _ => cases htool
    | _ => rfl

theorem captured_sent_iff (id signature : String) :
    Captured (captureOpaqueState ctx (geminiSent J requestId chunks)) id signature ↔
      signature ≠ "" ∧ ∃ c ∈ geminiCalls J requestId chunks, c.id = id ∧
        c.carried = some signature := by
  rw [sent_captures]
  constructor
  · rintro ⟨k, hk, hne, rfl, rfl⟩
    obtain ⟨c, hc, hcarried⟩ := List.mem_filterMap.mp hk
    obtain ⟨signature, hsignature, rfl⟩ := Option.map_eq_some_iff.mp hcarried
    exact ⟨hne.1, c, hc, rfl, hsignature⟩
  · rintro ⟨hne, c, hc, rfl, hcarried⟩
    refine ⟨⟨ctx.scope, ctx.target, ctx.session, c.id, c.name, signature⟩, ?_,
      ⟨hne, gemini_ids_ne_empty J requestId chunks c hc⟩, rfl, rfl⟩
    exact List.mem_filterMap.mpr ⟨c, hc, by rw [hcarried]; rfl⟩

/-- The signatures of a Gemini stream reach their calls if and only if they are routed: what waits
for a call is what belongs to it, and calls share an id only with their signature. -/
theorem gemini_signatures_reach_iff :
    SignaturesReach J ctx requestId chunks ↔ SignaturesRouted (geminiCalls J requestId chunks) := by
  have hlength : ((geminiCalls J requestId chunks).map (·.id)).length =
      (geminiCalls J requestId chunks).length := List.length_map ..
  have hzip : ((geminiCalls J requestId chunks).map (·.id)).zip (geminiCalls J requestId chunks) =
      (geminiCalls J requestId chunks).map fun c => (c.id, c) := by
    have hboth := List.zip_map' (f := (·.id)) (g := id) (l := geminiCalls J requestId chunks)
    rwa [List.map_id] at hboth
  simp only [SignaturesReach, sent_callIds, hlength, true_and, hzip, List.forall_mem_map,
    captured_sent_iff]
  constructor
  · intro h
    refine ⟨fun c hc g hg hcarried => ?_, fun c hc c' hc' hid g hg hexpected => ?_,
      fun c hc g hg hexpected => ?_⟩
    · exact ((h c hc g).mp ⟨hg, c, hc, rfl, hcarried⟩).2
    · obtain ⟨-, k, hk, hkid, hcarried⟩ := (h c hc g).mpr ⟨hg, hexpected⟩
      exact ((h c' hc' g).mp ⟨hg, k, hk, hkid.trans hid, hcarried⟩).2
    · exact ((h c hc g).mpr ⟨hg, hexpected⟩).2
  · rintro h c hc g
    refine and_congr_right fun hg => ⟨?_, h.reached c hc g hg⟩
    rintro ⟨k, hk, hid, hcarried⟩
    exact h.shared k hk c hc hid g hg (h.own k hk g hg hcarried)

end Sent

/-- A signature in a part of its own, without the flag of a thought, and the call after it. -/
def unflaggedSignature : Value :=
  .object [("candidates", .array [.object [("content", .object [("parts", .array
    [.object [("text", .string ""), ("thoughtSignature", .string "SIG")],
     .object [("functionCall", .object [("name", .string "read")])]])])]])]

/-- The signature of an unflagged part is not captured. -/
theorem unflagged_signature_lost :
    ¬∀ (J : SerdeJson) (ctx : OpaqueCaptureContext) (requestId : String) (chunks : List Value),
      SignaturesReach J ctx requestId chunks := by
  intro h
  obtain ⟨-, hreach⟩ :=
    h .ofEmptyObject ⟨.internal, none, ⟨.geminiThoughtSignature, "p", "f", "u", "m"⟩⟩ "r"
    [unflaggedSignature]
  obtain ⟨c, hc, -⟩ := (hreach _ (List.head_mem (by decide)) "SIG").mpr ⟨by decide, rfl⟩
  exact List.not_mem_nil hc

end Kinetix.Pipeline
