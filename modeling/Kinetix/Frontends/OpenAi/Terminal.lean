import Kinetix.Frontends.OpenAi.Encoder

/-!
# The frames that end a Chat Completions stream

A client that watches for the end of a stream: a chunk with a finish reason, the usage, `[DONE]`, or
the frames of an error. The finish reason is sent as soon as the finish comes, so what comes after
it must not give frames any more.
-/

namespace Kinetix.Frontends.OpenAi
open StateMachine

/-- How far a stream is. -/
inductive Progress where
  | running
  | finished
  | failing
  | failed
  | ended
  deriving DecidableEq

def Progress.step : Progress → Frame → Option Progress
  | .running, .chunk _ none => some .running
  | .running, .chunk _ (some _) => some .finished
  | .running, .error _ => some .failing
  | .finished, .usage _ => some .finished
  | .finished, .done => some .ended
  | .failing, .chunk _ (some _) => some .failed
  | .failed, .done => some .ended
  | _, _ => none

/-- A client that watches for the end. -/
def watch : Machine Progress Frame := ⟨.running, Progress.step⟩

/-- The stream ends once, well or with an error, and no frame follows. -/
def EndsOnce (out : List Frame) : Prop := watch.run out = some .ended

/-- What has been heard of a stream that matters to its end. -/
structure Heard where
  spoken : Bool := false
  finished : Bool := false

namespace Heard

def hear (h : Heard) : StreamEvent → Heard
  | .start _ | .usage _ => h
  | .finish _ => { h with finished := true }
  | .textDelta _ | .refusalDelta _ | .thinkingDelta _ _ | .toolCallStart _ _ _ _
  | .toolCallArgsDelta _ _ => { h with spoken := true }

/-- After a finish only events that give no frame may come. -/
def allows (h : Heard) : StreamEvent → Bool
  | .start _ | .usage _ => true
  | .thinkingDelta text _ => !h.finished || text = "" && h.spoken
  | .finish _ | .textDelta _ | .refusalDelta _ | .toolCallStart _ _ _ _
  | .toolCallArgsDelta _ _ => !h.finished

def progress (h : Heard) : Progress := if h.finished then .finished else .running

end Heard

def heard (events : List StreamEvent) : Heard := events.foldl Heard.hear {}

/-- After the finish of a stream no event gives a frame. -/
def QuietAfterFinish (events : List StreamEvent) : Prop :=
  Each (fun pre a => (heard pre).allows a) events

instance (events : List StreamEvent) : Decidable (QuietAfterFinish events) :=
  inferInstanceAs (Decidable (Each _ events))

/-- The encoder remembers what was heard. -/
structure Remembers (e : OpenAiEncoder) (h : Heard) : Prop where
  spoken : e.roleSent = h.spoken
  finished : e.finishSent = h.finished

section Steps
variable {e : OpenAiEncoder} {h : Heard}

theorem ensureRole_fst (e : OpenAiEncoder) : e.ensureRole.1 = { e with roleSent := true } := by
  rw [OpenAiEncoder.ensureRole]
  split
  next hrole => rw [← hrole]
  · rfl

theorem ensureRole_run (e : OpenAiEncoder) :
    watch.runFrom .running e.ensureRole.2 = some .running := by
  rw [OpenAiEncoder.ensureRole]
  split <;> rfl

theorem say_run (e : OpenAiEncoder) (h : Heard) (delta : Delta) :
    watch.runFrom h.progress (e.say delta).2 = if h.finished then none else some .running := by
  have hsay : (e.say delta).2 = e.ensureRole.2 ++ [.chunk delta none] := rfl
  rw [hsay, Heard.progress]
  cases h.finished with
  | false =>
    simp only [Bool.false_eq_true, if_false]
    rw [watch.runFrom_append, ensureRole_run]
    rfl
  | true =>
    simp only [if_true]
    rw [OpenAiEncoder.ensureRole]
    split <;> rfl

theorem usageChunk_run (e : OpenAiEncoder) :
    watch.runFrom .finished e.usageChunk = some .finished := by
  rw [OpenAiEncoder.usageChunk]
  split
  · cases e.usage <;> rfl
  · rfl

theorem Remembers.say (hr : Remembers e h) (delta : Delta) :
    Remembers (e.say delta).1 { h with spoken := true } := by
  change Remembers e.ensureRole.1 _
  rw [ensureRole_fst]
  exact ⟨rfl, hr.finished⟩

theorem Remembers.encode (hr : Remembers e h) (a : StreamEvent) :
    Remembers (e.encode a).1 (h.hear a) ∧
      watch.runFrom h.progress (e.encode a).2 =
        if h.allows a then some (h.hear a).progress else none := by
  have hsay : ∀ delta, Remembers (e.say delta).1 { h with spoken := true } ∧
      watch.runFrom h.progress (e.say delta).2 =
        if !h.finished then some ({ h with spoken := true } : Heard).progress else none := by
    intro delta
    refine ⟨hr.say delta, ?_⟩
    rw [say_run, Heard.progress]
    cases h.finished <;> rfl
  cases a with
  | start _ => exact ⟨hr, rfl⟩
  | usage u => exact ⟨⟨hr.spoken, hr.finished⟩, rfl⟩
  | textDelta _ | refusalDelta _ | toolCallStart _ _ _ _ | toolCallArgsDelta _ _ => exact hsay _
  | thinkingDelta text signature =>
    have hencode : e.encode (.thinkingDelta text signature) =
        if text = "" then e.ensureRole else e.say (.reasoningContent text) := rfl
    rw [hencode]
    by_cases htext : text = ""
    · rw [if_pos htext]
      refine ⟨?_, ?_⟩
      · rw [ensureRole_fst]
        exact ⟨rfl, hr.finished⟩
      · subst htext
        obtain ⟨spoken, finished⟩ := h
        cases finished with
        | false => exact ensureRole_run e
        | true =>
          rw [OpenAiEncoder.ensureRole, hr.spoken]
          cases spoken <;> rfl
    · rw [if_neg htext]
      have hallows : h.allows (.thinkingDelta text signature) = !h.finished := by
        simp [Heard.allows, htext]
      rw [hallows]
      exact hsay _
  | finish reason =>
    refine ⟨⟨hr.spoken, rfl⟩, ?_⟩
    change watch.runFrom h.progress (.chunk .empty (some (openaiFinish reason)) ::
      ({ e with finishSent := true } : OpenAiEncoder).usageChunk) =
        if !h.finished then some .finished else none
    rw [Heard.progress]
    cases h.finished with
    | false => exact usageChunk_run _
    | true => rfl

end Steps

/-- A watching client follows the events as long as they are quiet after the finish. -/
theorem watch_feed (ctx : EncoderCtx) (includeUsage : Bool) (events : List StreamEvent) :
    Remembers ((encoder ctx includeUsage).feed (encoder ctx includeUsage).start events).1
        (heard events) ∧
      watch.run ((encoder ctx includeUsage).feed (encoder ctx includeUsage).start events).2 =
        if QuietAfterFinish events then some (heard events).progress else none :=
  (encoder ctx includeUsage).feed_follows (M := watch) (R := Remembers) (p := Heard.progress)
    ⟨rfl, rfl⟩ rfl (fun _ _ a hr => hr.encode a) events

theorem heard_finished (events : List StreamEvent) :
    (heard events).finished = events.any (·.isFinish) := by
  refine foldl_flag Heard.finished (f := Heard.hear) ?_ {} events
  intro h a
  cases a <;> simp [Heard.hear, StreamEvent.isFinish]

/-- A stream without a finish is quiet after it. -/
theorem quiet_of_no_finish {events : List StreamEvent} (h : events.any (·.isFinish) = false) :
    QuietAfterFinish events := by
  intro i
  have hpre : (heard (events.take i)).finished = false := by
    rw [heard_finished, List.any_eq_false]
    exact fun a ha => List.any_eq_false.mp h a (List.mem_of_mem_take ha)
  have ha := List.any_eq_false.mp h events[i] (List.getElem_mem _)
  revert ha
  generalize events[i] = a
  intro ha
  cases a with
  | finish _ => exact absurd rfl ha
  | start _ | usage _ => rfl
  | textDelta _ | refusalDelta _ | thinkingDelta _ _ | toolCallStart _ _ _ _
  | toolCallArgsDelta _ _ => simp [Heard.allows, hpre]

/-- `finalize` ends a stream. -/
theorem finalize_run {e : OpenAiEncoder} {h : Heard} (hr : Remembers e h) :
    watch.runFrom h.progress e.finalize.2 = some .ended := by
  rw [OpenAiEncoder.finalize, hr.finished, Heard.progress]
  cases h.finished with
  | true => rfl
  | false =>
    simp only [Bool.false_eq_true, if_false]
    rw [List.append_assoc, watch.runFrom_append, ensureRole_run, Option.bind_some]
    change watch.runFrom .finished (e.ensureRole.1.usageChunk ++ [.done]) = some .ended
    rw [watch.runFrom_append, usageChunk_run]
    rfl

/-- An error ends a stream that has not finished. -/
theorem errorFrame_run (h : Heard) (message : String) :
    watch.runFrom h.progress (OpenAiEncoder.errorFrame message) =
      if h.finished then none else some .ended := by
  rw [Heard.progress]
  cases h.finished <;> rfl

end Kinetix.Frontends.OpenAi
