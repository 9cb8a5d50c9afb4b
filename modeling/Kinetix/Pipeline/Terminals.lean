import Kinetix.Frontends.Anthropic.Terminal
import Kinetix.Frontends.OpenAi.Terminal
import Kinetix.Frontends.Responses.Terminal
import Kinetix.Pipeline.Reading

/-!
# How a translated stream ends

Whether the frames that the driver sends end once, for each of the three formats, in terms of what
the upstream is read as.
-/

namespace Kinetix.Pipeline
open Frontends Json StateMachine

/-- An upstream is not refused, and where a finish is shown at once nothing gives a frame after it,
neither an event nor an interruption. -/
def Orderly (quietAfterFinish : List StreamEvent → Prop) (reading : Reading) : Prop :=
  match reading.outcome with
  | .complete => quietAfterFinish reading.events
  | .interrupted _ => reading.events.any (·.isFinish) = false
  | .refused _ => False

/-- An upstream is not refused. -/
def NotRefused (reading : Reading) : Prop := ∀ message, reading.outcome ≠ .refused message

section Watch
variable {ε φ η τ : Type}

/-- A client that watches an encoder which shows a finish at once: where it is follows from what was
heard, as long as that is quiet after a finish, and each end of the encoder ends the stream unless
that has ended. -/
structure Watched (P : StreamEncoder ε φ) (M : Machine τ φ) (ended : τ) (R : ε → η → Prop)
    (heard : List StreamEvent → η) (done : η → Bool) (place : η → τ)
    (quiet : List StreamEvent → Prop) [DecidablePred quiet] : Prop where
  feed : ∀ events, R (P.feed P.start events).1 (heard events) ∧
    M.run (P.feed P.start events).2 = if quiet events then some (place (heard events)) else none
  finished : ∀ events, done (heard events) = events.any (·.isFinish)
  quiet : ∀ {events}, events.any (·.isFinish) = false → quiet events
  finalize : ∀ {e h}, R e h → M.runFrom (place h) (P.finalize e).2 = some ended
  error : ∀ e h message, M.runFrom (place h) (P.errorFrame e message).2 =
    if done h then none else some ended
  again : ∀ e message, M.runFrom ended (P.errorFrame e message).2 = none

variable {P : StreamEncoder ε φ} {M : Machine τ φ} {ended : τ} {R : ε → η → Prop}
  {heard : List StreamEvent → η} {done : η → Bool} {place : η → τ}
  {quiet : List StreamEvent → Prop} [DecidablePred quiet]

/-- An error after the events ends the stream exactly if there was no finish. -/
theorem Watched.interrupted (w : Watched P M ended R heard done place quiet)
    (events : List StreamEvent) (message : String) :
    M.run ((P.feed P.start events).2 ++ (P.errorFrame (P.feed P.start events).1 message).2) =
      if events.any (·.isFinish) then none else some ended := by
  rw [M.run_append, (w.feed events).2]
  by_cases hquiet : quiet events
  · rw [if_pos hquiet, Option.bind_some, w.error, w.finished]
  · have hfinish : events.any (·.isFinish) = true := by
      by_contra hne
      exact hquiet (w.quiet (Bool.not_eq_true _ ▸ hne))
    rw [if_neg hquiet, if_pos hfinish, Option.bind_none]

/-- The frames for a reading end once exactly if it is orderly. -/
theorem Watched.endsOnce_iff (w : Watched P M ended R heard done place quiet)
    (reading : Reading) :
    M.run (perform P P.start reading) = some ended ↔ Orderly quiet reading := by
  obtain ⟨events, outcome⟩ := reading
  cases outcome with
  | complete =>
    change M.run ((P.feed P.start events).2 ++ _) = _ ↔ quiet events
    rw [M.run_append, (w.feed events).2]
    by_cases hquiet : quiet events
    · rw [if_pos hquiet, Option.bind_some]
      exact iff_of_true (w.finalize (w.feed events).1) hquiet
    · rw [if_neg hquiet]
      exact iff_of_false (Option.some_ne_none _).symm hquiet
  | interrupted message =>
    change M.run ((P.feed P.start events).2 ++ _) = _ ↔ events.any (·.isFinish) = false
    have hrun := w.interrupted events message
    rw [endFrames, hrun]
    cases events.any (·.isFinish) <;> simp
  | refused message =>
    change M.run ((P.feed P.start events).2 ++ _) = _ ↔ False
    have hrun := w.interrupted events message
    rw [endFrames, ← List.append_assoc, M.run_append, hrun, iff_false]
    cases events.any (·.isFinish) with
    | true => exact (Option.some_ne_none _).symm
    | false =>
      simp only [Bool.false_eq_true, if_false, Option.bind_some]
      rw [w.again]
      exact (Option.some_ne_none _).symm

end Watch

section Formats
variable (ctx : EncoderCtx) (includeUsage : Bool)

theorem openAi_watched : Watched (openAiEncoder ctx includeUsage) OpenAi.watch .ended
    OpenAi.Remembers OpenAi.heard OpenAi.Heard.finished OpenAi.Heard.progress
    OpenAi.QuietAfterFinish where
  feed := OpenAi.watch_feed ctx includeUsage
  finished := OpenAi.heard_finished
  quiet := OpenAi.quiet_of_no_finish
  finalize := OpenAi.finalize_run
  error _ := OpenAi.errorFrame_run
  again _ _ := rfl

theorem responses_watched : Watched (responsesEncoder ctx) Responses.watch .ended
    Responses.Remembers Responses.heard Responses.Heard.finished Responses.Heard.progress
    Responses.QuietAfterFinish where
  feed := Responses.watch_feed ctx
  finished := Responses.heard_finished
  quiet := Responses.quiet_of_no_finish
  finalize := Responses.finalize_run
  error := Responses.errorFrame_run
  again _ _ := rfl

/-- An Anthropic stream is quiet up to its end, so it ends once unless an error is
reported twice. -/
theorem anthropic_endsOnce_iff (reading : Reading) :
    Anthropic.EndsOnce (perform (anthropicEncoder ctx) (anthropicEncoder ctx).start reading) ↔
      NotRefused reading := by
  obtain ⟨events, outcome⟩ := reading
  have hrun : ∀ out, Anthropic.watch.run
      (((anthropicEncoder ctx).feed (anthropicEncoder ctx).start events).2 ++ out) =
        Anthropic.watch.runFrom .running out := by
    intro out
    rw [Anthropic.watch.run_append]
    exact congrArg (Option.bind · fun t => Anthropic.watch.runFrom t out)
      (Anthropic.watch_feed ctx events)
  change Anthropic.watch.run (_ ++ _) = _ ↔ _
  rw [hrun]
  cases outcome with
  | complete =>
    exact iff_of_true (Anthropic.finalize_run (Anthropic.stopReasonSent_feed ctx events)) nofun
  | interrupted message => exact iff_of_true rfl nofun
  | refused message => exact iff_of_false nofun fun h => h message rfl

end Formats

/-- A stream that the driver sends ends once, in each format, exactly if the upstream is read as an
orderly one; for Anthropic clients it is enough that no payload is refused. -/
theorem driven_stream_ends_once_iff (J : SerdeJson) (A : StreamAdapter) (ctx : EncoderCtx)
    (includeUsage : Bool) (requestId : String) (upstream : UpstreamBody) :
    (OpenAi.EndsOnce (framesOf (driveStream (openAiEncoder ctx includeUsage) J A requestId
        upstream)) ↔
      Orderly OpenAi.QuietAfterFinish (readUpstream J A requestId upstream)) ∧
    (Anthropic.EndsOnce (framesOf (driveStream (anthropicEncoder ctx) J A requestId upstream)) ↔
      NotRefused (readUpstream J A requestId upstream)) ∧
    (Responses.EndsOnce (framesOf (driveStream (responsesEncoder ctx) J A requestId upstream)) ↔
      Orderly Responses.QuietAfterFinish (readUpstream J A requestId upstream)) := by
  rw [driveStream_frames, driveStream_frames, driveStream_frames]
  exact ⟨(openAi_watched ctx includeUsage).endsOnce_iff _, anthropic_endsOnce_iff ctx _,
    (responses_watched ctx).endsOnce_iff _⟩

/-- An adapter for which each JSON payload is a text: other payloads are errors. -/
def jsonAdapter (J : SerdeJson) : StreamAdapter where
  parseStreamChunk payload :=
    match J.fromStr payload with
    | some _ => .ok [.textDelta "hello"]
    | none => .error ⟨.serverError, none, none, "invalid upstream chunk", none⟩
  classifyError _ payload := ⟨.serverError, none, none, payload, none⟩

/-- A payload that is not JSON, after one that is, is reported twice in every format. -/
theorem malformed_chunk_reported_twice :
    ¬ ∀ (J : SerdeJson) (A : StreamAdapter) (ctx : EncoderCtx) (includeUsage : Bool)
      (requestId : String) (upstream : UpstreamBody),
        OpenAi.EndsOnce (framesOf (driveStream (openAiEncoder ctx includeUsage) J A requestId
          upstream)) ∧
        Anthropic.EndsOnce (framesOf (driveStream (anthropicEncoder ctx) J A requestId
          upstream)) ∧
        Responses.EndsOnce (framesOf (driveStream (responsesEncoder ctx) J A requestId
          upstream)) := by
  intro h
  obtain ⟨-, hanthropic, -⟩ := h .ofEmptyObject (jsonAdapter .ofEmptyObject)
    ⟨"model", "req", 0, {}⟩ true "req"
    (.sse [.chunk "data: {}\n\n".toUTF8.toList, .chunk "data: oops\n\n".toUTF8.toList] .eof)
  rw [driveStream_frames, anthropic_endsOnce_iff] at hanthropic
  exact hanthropic "invalid upstream chunk" (by decide +kernel)

end Kinetix.Pipeline
