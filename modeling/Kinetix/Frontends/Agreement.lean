import Kinetix.Frontends.OpenAi.Agreement
import Kinetix.Frontends.Responses.Agreement

/-!
# Streamed and aggregated answers of the OpenAI formats
-/

namespace Kinetix.Frontends

/-- A finish that is reported as failed takes up no text. -/
theorem refusalApart_of_failure {events pre : List StreamEvent} {reason : FinishReason}
    (hfinish : events = pre ++ [.finish reason]) (hpre : ∀ r, .finish r ∉ pre)
    (h : (Responses.responsesStreamFailure reason (refusalOf events ≠ "")).isSome) :
    Responses.RefusalApart events := by
  intro hmem
  have hreason : FinishReason.other "refusal" = reason := by
    simpa [hfinish, hpre] using hmem
  left
  by_contra hne
  rw [← hreason, decide_eq_true hne] at h
  exact absurd h (by decide)

/-- For both OpenAI formats the streamed answer is the aggregated one exactly if there is text, or
nothing but the finish, every call has arguments and a refusal by the provider does not mix text and
refusal text. -/
theorem streamed_agrees_iff (ctx : EncoderCtx) (includeUsage : Bool) (events : List StreamEvent)
    (usage : TokenUsage) (now : Int) (h : Normalized events) :
    OpenAi.Agrees ctx includeUsage events usage ∧
        Responses.TerminalAgrees ctx events usage now ↔
      OpenAi.TextGiven events ∧ ArgsGiven events ∧ Responses.RefusalApart events := by
  obtain ⟨pre, reason, hfinish, hpre⟩ := h.finish
  rw [OpenAi.agrees_iff_given h, Responses.terminalAgrees_iff ctx h hfinish hpre]
  constructor
  · rintro ⟨⟨htext, hargs⟩, hfailed | ⟨-, hapart⟩⟩
    · exact ⟨htext, hargs, refusalApart_of_failure hfinish hpre hfailed⟩
    · exact ⟨htext, hargs, hapart⟩
  · rintro ⟨htext, hargs, hapart⟩
    exact ⟨⟨htext, hargs⟩, .inr ⟨hargs, hapart⟩⟩

/-- Text and a call with arguments. -/
theorem streamed_agrees_iff_call :
    OpenAi.Agrees ⟨"model", "req", 0, {}⟩ true [.textDelta "now",
        .toolCallStart 0 (some "call_1") "clock" none, .toolCallArgsDelta 0 "{}",
        .finish .toolCalls] {} ∧
      Responses.TerminalAgrees ⟨"model", "req", 0, {}⟩ [.textDelta "now",
        .toolCallStart 0 (some "call_1") "clock" none, .toolCallArgsDelta 0 "{}",
        .finish .toolCalls] {} 0 :=
  (streamed_agrees_iff _ true _ {} 0 ⟨by decide, by decide, by decide, _, .toolCalls,
    (List.dropLast_append_getLast (by simp)).symm, by simp⟩).mpr
      ⟨by decide, by decide, by decide⟩

/-- A call without arguments has empty arguments in the stream and an empty object in the
aggregation. -/
theorem empty_arguments_differ :
    ¬ ∀ (ctx : EncoderCtx) (includeUsage : Bool) (events : List StreamEvent)
      (usage : TokenUsage) (now : Int), Normalized events →
        OpenAi.Agrees ctx includeUsage events usage ∧
          Responses.TerminalAgrees ctx events usage now := by
  intro h
  have hagrees := (h ⟨"model", "req", 0, {}⟩ true [.textDelta "now",
    .toolCallStart 0 (some "call_1") "clock" none, .finish .toolCalls] {} 0
    ⟨by decide, by decide, by decide, _, .toolCalls,
      (List.dropLast_append_getLast (by simp)).symm, by simp⟩).1.1
  exact absurd hagrees (by decide)

end Kinetix.Frontends
