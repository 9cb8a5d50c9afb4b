import Kinetix.Frontends.Anthropic.Terminal
import Kinetix.Frontends.OpenAi.Encoder
import Kinetix.Frontends.Responses.Agreement

/-!
# The usage that a stream shows

What a client reads of the token usage from each of the three streams, against the usage of all
records, with which the pipeline calls the aggregation.

## Implementation notes

An ending is a finish, or the end of a stream without one. The encoders of the OpenAI formats show
at each ending the record that came last.
-/

namespace Kinetix.Frontends
open StateMachine

def StreamEvent.isUsage : StreamEvent → Bool
  | .usage _ => true
  | _ => false

/-- What has been shown is the whole usage, which the answer without streaming reports too, and it
is shown once if there were records. -/
structure ShownOnce {α : Type} (shown : List α) (whole : α) (reported : Option α)
    (events : List StreamEvent) : Prop where
  whole : ∀ u ∈ shown, u = whole ∧ reported = some u
  once : events.any (·.isUsage) → shown.length = 1

/-! ## Endings -/

/-- What a stream has said. -/
structure Said where
  refusal : String := ""
  usage : Option TokenUsage := none
  finished : Bool := false

/-- A finish, after refusal text or not, and the last record before it. -/
structure Ending where
  reason : FinishReason
  refused : Bool
  usage : Option TokenUsage

def Said.ending (s : Said) (reason : FinishReason) : Ending where
  reason := reason
  refused := s.refusal ≠ ""
  usage := s.usage

def Said.step (s : Said) : StreamEvent → Said × List Ending
  | .usage u => ({ s with usage := some u }, [])
  | .refusalDelta text => ({ s with refusal := s.refusal ++ text }, [])
  | .finish reason => ({ s with finished := true }, [s.ending reason])
  | .start _ | .textDelta _ | .thinkingDelta _ _ | .toolCallStart _ _ _ _
  | .toolCallArgsDelta _ _ => (s, [])

/-- What a stream has said is remembered. -/
def listener : Transducer Said StreamEvent Ending where
  start := {}
  step := Said.step

/-- The finishes of a stream; a stream without one ends with a stop. -/
def endings (events : List StreamEvent) : List Ending :=
  let (s, finishes) := listener.feed listener.start events
  if s.finished then finishes else finishes ++ [s.ending .stop]

/-- Without records an ending has none, and the whole usage is blank. -/
theorem endings_of_no_usage {events : List StreamEvent} (h : events.any (·.isUsage) = false) :
    mergedUsage events = {} ∧ ∀ ending ∈ endings events, ending.usage = none := by
  have hrun : mergedUsage events = {} ∧
      (listener.feed listener.start events).1.usage = none ∧
      ∀ ending ∈ (listener.feed listener.start events).2, ending.usage = none := by
    induction events using List.reverseRecOn with
    | nil => exact ⟨rfl, rfl, nofun⟩
    | append_singleton events a ih =>
      rw [List.any_append, Bool.or_eq_false_iff, List.any_cons, List.any_nil, Bool.or_false] at h
      obtain ⟨hmerged, husage, hendings⟩ := ih h.1
      rw [mergedUsage, foldl_snoc, ← mergedUsage, Transducer.feed_snoc, hmerged]
      cases a with
      | usage _ => exact Bool.noConfusion h.2
      | finish reason =>
        refine ⟨rfl, husage, fun ending hmem => ?_⟩
        cases List.mem_append.mp hmem with
        | inl hmem => exact hendings ending hmem
        | inr hmem =>
          rw [List.mem_singleton.mp hmem]
          exact husage
      | start _ | textDelta _ | refusalDelta _ | thinkingDelta _ _ | toolCallStart _ _ _ _
      | toolCallArgsDelta _ _ =>
        refine ⟨rfl, husage, fun ending hmem => hendings ending ?_⟩
        exact (List.append_nil (listener.feed listener.start events).2) ▸ hmem
  obtain ⟨hmerged, husage, hendings⟩ := hrun
  refine ⟨hmerged, fun ending hmem => ?_⟩
  simp only [endings] at hmem
  split at hmem
  · exact hendings ending hmem
  · cases List.mem_append.mp hmem with
    | inl hmem => exact hendings ending hmem
    | inr hmem =>
      rw [List.mem_singleton.mp hmem]
      exact husage

/-! ## Chat Completions -/

namespace OpenAi

def Frame.shownUsage : Frame → Option OpenAiUsage
  | .usage u => some u
  | .chunk _ _ | .error _ | .done => none

/-- The usage chunks of a stream. -/
def shownUsage (out : List Frame) : List OpenAiUsage := out.filterMap (·.shownUsage)

theorem shownUsage_append (out out' : List Frame) :
    shownUsage (out ++ out') = shownUsage out ++ shownUsage out' :=
  List.filterMap_append

theorem shownUsage_chunk (delta : Delta) (finishReason : Option String) (out : List Frame) :
    shownUsage (.chunk delta finishReason :: out) = shownUsage out :=
  rfl

/-- The counts that are shown at an ending. -/
def endingUsage (ending : Ending) : Option OpenAiUsage := ending.usage.map openaiUsage

/-- The encoder has heard what the stream said. -/
structure Hears (e : OpenAiEncoder) (s : Said) : Prop where
  includeUsage : e.includeUsage = true
  usage : e.usage = s.usage
  finished : e.finishSent = s.finished

section Steps
variable {e : OpenAiEncoder} {s : Said}

theorem Hears.ensureRole (h : Hears e s) : Hears e.ensureRole.1 s := by
  simp only [OpenAiEncoder.ensureRole]
  split
  · exact h
  · exact ⟨h.includeUsage, h.usage, h.finished⟩

theorem shownUsage_ensureRole (e : OpenAiEncoder) : shownUsage e.ensureRole.2 = [] := by
  simp only [OpenAiEncoder.ensureRole]
  split <;> rfl

theorem Hears.say (h : Hears e s) (delta : Delta) :
    Hears (e.say delta).1 s ∧ shownUsage (e.say delta).2 = [] := by
  refine ⟨h.ensureRole, ?_⟩
  have hrole := shownUsage_ensureRole e
  simp only [OpenAiEncoder.say, shownUsage, List.filterMap_append] at hrole ⊢
  rw [hrole]
  rfl

theorem Hears.usageChunk (h : Hears e s) (reason : FinishReason) :
    shownUsage e.usageChunk = [s.ending reason].filterMap endingUsage := by
  simp only [OpenAiEncoder.usageChunk, h.includeUsage, if_pos, h.usage, endingUsage, Said.ending]
  cases s.usage <;> rfl

theorem Hears.encode (h : Hears e s) (a : StreamEvent) :
    Hears (e.encode a).1 (s.step a).1 ∧
      shownUsage (e.encode a).2 = (s.step a).2.filterMap endingUsage := by
  cases a with
  | start _ => exact ⟨h, rfl⟩
  | textDelta _ | toolCallStart _ _ _ _ | toolCallArgsDelta _ _ => exact h.say _
  | refusalDelta _ =>
    obtain ⟨⟨includeUsage, usage, finished⟩, hshown⟩ := h.say (.content _)
    exact ⟨⟨includeUsage, usage, finished⟩, hshown⟩
  | thinkingDelta text _ =>
    simp only [OpenAiEncoder.encode]
    split
    · exact ⟨h.ensureRole, shownUsage_ensureRole e⟩
    · exact h.say _
  | usage u => exact ⟨⟨h.includeUsage, rfl, h.finished⟩, rfl⟩
  | finish reason =>
    have hsent : Hears { e with finishSent := true } { s with finished := true } :=
      ⟨h.includeUsage, h.usage, rfl⟩
    exact ⟨hsent, hsent.usageChunk reason⟩

end Steps

/-- The stream shows the last record before each ending. -/
theorem shownUsage_frames (ctx : EncoderCtx) (events : List StreamEvent) :
    shownUsage (frames ctx true events) = (endings events).filterMap endingUsage := by
  have hstart : Hears (encoder ctx true).start listener.start := ⟨rfl, rfl, rfl⟩
  obtain ⟨hears, hshown⟩ := Transducer.feed_shows (T := encoder ctx true) (U := listener)
    (R := Hears) (f := (·.shownUsage)) (g := endingUsage) (fun _ _ a h => h.encode a) hstart events
  simp only [frames, endings]
  generalize (encoder ctx true).feed (encoder ctx true).start events = r at hears hshown ⊢
  generalize listener.feed listener.start events = t at hears hshown ⊢
  obtain ⟨e, out⟩ := r
  obtain ⟨s, finishes⟩ := t
  change shownUsage (out ++ e.finalize.2) = _
  rw [shownUsage, List.filterMap_append, hshown, ← shownUsage, OpenAiEncoder.finalize,
    hears.finished]
  by_cases hfin : s.finished
  · rw [if_pos hfin, if_pos hfin]
    exact List.append_nil _
  · rw [if_neg hfin, if_neg hfin, List.filterMap_append, ← hears.ensureRole.usageChunk .stop]
    change _ ++ shownUsage (e.ensureRole.2 ++ .chunk .empty (some "stop") ::
      e.ensureRole.1.usageChunk ++ [.done]) = _
    rw [shownUsage_append, shownUsage_append, shownUsage_ensureRole, shownUsage_chunk]
    simp [shownUsage, Frame.shownUsage]

/-- If there are records, then one comes last before an ending, at one ending only, and it shows the
whole usage. -/
def UsageComplete (events : List StreamEvent) : Prop :=
  events.any (·.isUsage) →
    (endings events).filterMap endingUsage = [openaiUsage (mergedUsage events)]

instance (events : List StreamEvent) : Decidable (UsageComplete events) :=
  inferInstanceAs (Decidable (_ → _))

theorem shownOnce_iff (ctx : EncoderCtx) (events : List StreamEvent) :
    ShownOnce (shownUsage (frames ctx true events)) (openaiUsage (mergedUsage events))
        (some (aggregate ctx.modelName ctx.requestId events (mergedUsage events)).usage) events ↔
      UsageComplete events := by
  rw [shownUsage_frames]
  constructor
  · intro h hany
    obtain ⟨u, hu⟩ := List.length_eq_one_iff.mp (h.once hany)
    rw [hu, (h.whole u (hu ▸ List.mem_singleton_self u)).1]
  · intro h
    cases hany : events.any (·.isUsage) with
    | true =>
      rw [h hany]
      exact ⟨fun u hu => by rw [List.mem_singleton.mp hu]; exact ⟨rfl, rfl⟩, fun _ => rfl⟩
    | false =>
      obtain ⟨-, hnone⟩ := endings_of_no_usage hany
      have hnil : (endings events).filterMap endingUsage = [] :=
        List.filterMap_eq_nil_iff.mpr fun ending hmem => by rw [endingUsage, hnone _ hmem]; rfl
      rw [hnil]
      exact ⟨nofun, fun h => absurd (hany ▸ h) (by decide)⟩

end OpenAi

/-! ## Responses -/

namespace Responses

/-- The usage of the responses that end a stream. -/
def shownUsage (out : List Frame) : List ResponsesUsage :=
  out.filterMap fun frame => frame.body.terminalResponse.bind (·.usage)

/-- The counts that are shown at an ending, unless the response fails. -/
def endingUsage (ending : Ending) : Option ResponsesUsage :=
  match responsesStreamFailure ending.reason ending.refused with
  | some _ => none
  | none => some (responsesUsage ending.usage)

/-- The encoder has heard what the stream said. -/
structure Hears (e : ResponsesEncoder) (s : Said) : Prop where
  usage : e.usage = s.usage
  refusal : e.accumulatedRefusal = s.refusal
  finished : e.finishSent = s.finished

theorem Hears.congr {e e' : ResponsesEncoder} {s : Said} (h : Hears e s)
    (usage : e'.usage = e.usage) (refusal : e'.accumulatedRefusal = e.accumulatedRefusal)
    (finished : e'.finishSent = e.finishSent) : Hears e' s :=
  ⟨usage.trans h.usage, refusal.trans h.refusal, finished.trans h.finished⟩

section Steps
variable {e : ResponsesEncoder} {s : Said}

theorem Hears.ensureCreated (h : Hears e s) : Hears e.ensureCreated.1 s := by
  simp only [ResponsesEncoder.ensureCreated]
  split
  · exact h
  · exact h.congr rfl rfl rfl

theorem Hears.ensureMessageItem (h : Hears e s) (refusal : Bool) :
    Hears (e.ensureMessageItem refusal).1 s := by
  simp only [ResponsesEncoder.ensureMessageItem]
  split
  · exact h
  · exact h.congr rfl rfl rfl

theorem Hears.answer (h : Hears e s) (a : StreamEvent) : Hears (e.answer a).1 (s.step a).1 := by
  have hcreated := h.ensureCreated
  cases a with
  | start _ => exact hcreated
  | thinkingDelta _ _ => exact h
  | usage _ => exact ⟨rfl, h.refusal, h.finished⟩
  | textDelta t => exact (hcreated.ensureMessageItem false).congr rfl rfl rfl
  | refusalDelta t =>
    obtain ⟨usage, refusal, finished⟩ := hcreated.ensureMessageItem true
    exact ⟨usage, congrArg (· ++ t) refusal, finished⟩
  | toolCallStart index id name _ =>
    simp only [ResponsesEncoder.answer, ResponsesEncoder.startTool, closeTextItem_fst]
    exact hcreated.congr rfl rfl rfl
  | toolCallArgsDelta index args =>
    simp only [ResponsesEncoder.answer, ResponsesEncoder.pushToolArgs]
    split
    · exact hcreated.congr rfl rfl rfl
    · exact hcreated
  | finish reason =>
    have hsent : Hears { e with finishSent := true } { s with finished := true } :=
      ⟨h.usage, h.refusal, rfl⟩
    rcases finish_cases e reason with ⟨response, heq⟩ | ⟨response, heq⟩ <;>
      simp only [ResponsesEncoder.answer, heq]
    · exact hsent.congr rfl rfl rfl
    · exact hsent.congr rfl rfl rfl

theorem Hears.buildResponseObject (h : Hears e s) (reason : FinishReason) :
    (e.buildResponseObject reason).usage = endingUsage (s.ending reason) := by
  have hrefused : e.hasTypedRefusal = (s.ending reason).refused := by
    simp only [ResponsesEncoder.hasTypedRefusal, h.refusal, Said.ending]
  rw [ResponsesEncoder.buildResponseObject, endingUsage, hrefused]
  change _ = match responsesStreamFailure reason (s.ending reason).refused with
    | some _ => none
    | none => some (responsesUsage s.usage)
  cases responsesStreamFailure reason (s.ending reason).refused with
  | some _ => rfl
  | none => exact congrArg (fun u => some (responsesUsage u)) h.usage

theorem shownUsage_frames_bodies (e : ResponsesEncoder) (bodies : List Body) :
    shownUsage (e.frames bodies).2 =
      (bodies.filterMap (·.terminalResponse)).filterMap (·.usage) := by
  have hbodies := congrArg (List.filterMap fun body : Body =>
    body.terminalResponse.bind (·.usage)) (frames_bodies e bodies)
  rw [List.filterMap_map] at hbodies
  rw [List.filterMap_filterMap]
  exact hbodies

theorem Hears.encode (h : Hears e s) (a : StreamEvent) :
    Hears (e.encode a).1 (s.step a).1 ∧
      shownUsage (e.encode a).2 = (s.step a).2.filterMap endingUsage := by
  refine ⟨(h.answer a).congr rfl rfl rfl, ?_⟩
  have hshown : shownUsage (e.encode a).2 =
      ((e.answer a).2.filterMap (·.terminalResponse)).filterMap (·.usage) :=
    shownUsage_frames_bodies _ _
  rw [hshown]
  by_cases hfinish : ∃ reason, a = .finish reason
  · obtain ⟨reason, rfl⟩ := hfinish
    obtain ⟨bodies, body, hbodies, hquiet, hterminal⟩ := finish_bodies e reason
    change ((e.finish reason).2.filterMap _).filterMap _ = _
    rw [hbodies, List.filterMap_append, hquiet.terminals, List.nil_append, List.filterMap_cons,
      hterminal, Said.step, List.filterMap_cons, List.filterMap_cons, h.buildResponseObject]
    rfl
  · rw [(quiet_answer e fun reason heq => hfinish ⟨reason, heq⟩).terminals]
    cases a with
    | finish reason => exact absurd ⟨reason, rfl⟩ hfinish
    | start _ | textDelta _ | refusalDelta _ | thinkingDelta _ _ | toolCallStart _ _ _ _
    | toolCallArgsDelta _ _ | usage _ => rfl

end Steps

/-- The terminal frames show the last record before each ending that does not fail. -/
theorem shownUsage_frames (ctx : EncoderCtx) (events : List StreamEvent) :
    shownUsage (frames ctx events) = (endings events).filterMap endingUsage := by
  have hstart : Hears (encoder ctx).start listener.start := ⟨rfl, rfl, rfl⟩
  obtain ⟨hears, hshown⟩ := Transducer.feed_shows (T := encoder ctx) (U := listener)
    (R := Hears) (f := fun frame => frame.body.terminalResponse.bind (·.usage))
    (g := endingUsage) (fun _ _ a h => h.encode a) hstart events
  simp only [frames, endings]
  generalize (encoder ctx).feed (encoder ctx).start events = r at hears hshown ⊢
  generalize listener.feed listener.start events = t at hears hshown ⊢
  obtain ⟨e, out⟩ := r
  obtain ⟨s, finishes⟩ := t
  change shownUsage (out ++ e.finalize.2) = _
  rw [shownUsage, List.filterMap_append, hshown, ← shownUsage, ResponsesEncoder.finalize,
    hears.finished]
  by_cases hfin : s.finished
  · rw [if_pos hfin, if_pos hfin]
    exact List.append_nil _
  · rw [if_neg hfin, if_neg hfin, List.filterMap_append, (hears.encode (.finish .stop)).2]
    rfl

def finishStep (last : FinishReason) : StreamEvent → FinishReason
  | .finish reason => reason
  | _ => last

/-- The reason of the last finish. -/
def lastFinish (events : List StreamEvent) : FinishReason := events.foldl finishStep .stop

theorem aggregated_finish (requestId : String) (events : List StreamEvent) :
    (aggregated requestId events).finish = lastFinish events := by
  induction events using List.reverseRecOn with
  | nil => rfl
  | append_singleton events a ih =>
    rw [aggregated_snoc, lastFinish, foldl_snoc, ← lastFinish, ← ih]
    cases a <;> rfl

def ResponsesTerminal.isFailed : ResponsesTerminal → Bool
  | .failed _ => true
  | .completed | .incomplete _ | .refusal => false

/-- The aggregation reports the usage unless its finish fails. -/
theorem aggregate_usage (modelName requestId : String) (events : List StreamEvent)
    (usage : TokenUsage) (fields : ResponsesResponseFields) (now : Int) :
    (aggregate modelName requestId events usage fields now).usage =
      if (responsesTerminal (lastFinish events)).isFailed then none
      else some (responsesUsage (some usage)) := by
  rw [← aggregated_finish requestId]
  change ((aggregated requestId events).response modelName requestId usage fields now).usage = _
  rw [Aggregate.response]
  cases responsesTerminal (aggregated requestId events).finish <;> rfl

/-- If there are records, then one comes last before an ending that does not fail, at one ending
only, and it shows the whole usage. When something is shown, the last finish does not fail. -/
structure UsageComplete (events : List StreamEvent) : Prop where
  whole : events.any (·.isUsage) →
    (endings events).filterMap endingUsage = [responsesUsage (some (mergedUsage events))]
  reported : (responsesTerminal (lastFinish events)).isFailed →
    (endings events).filterMap endingUsage = []

theorem shownOnce_iff (ctx : EncoderCtx) (events : List StreamEvent) (now : Int) :
    ShownOnce (shownUsage (frames ctx events)) (responsesUsage (some (mergedUsage events)))
        (aggregate ctx.modelName ctx.requestId events (mergedUsage events) ctx.responses now).usage
        events ↔
      UsageComplete events := by
  rw [shownUsage_frames, aggregate_usage]
  have hwhole : events.any (·.isUsage) = false →
      ∀ u ∈ (endings events).filterMap endingUsage,
        u = responsesUsage (some (mergedUsage events)) := by
    intro hany u hu
    obtain ⟨hmerged, hnone⟩ := endings_of_no_usage hany
    obtain ⟨ending, hmem, hending⟩ := List.mem_filterMap.mp hu
    rw [endingUsage, hnone ending hmem] at hending
    rw [hmerged]
    revert hending
    cases responsesStreamFailure ending.reason ending.refused with
    | some _ => exact nofun
    | none => exact fun h => (Option.some.inj h).symm
  constructor
  · intro h
    refine ⟨fun hany => ?_, fun hfailed => ?_⟩
    · obtain ⟨u, hu⟩ := List.length_eq_one_iff.mp (h.once hany)
      rw [hu, (h.whole u (hu ▸ List.mem_singleton_self u)).1]
    · rw [if_pos hfailed] at h
      exact List.eq_nil_iff_forall_not_mem.mpr fun u hu => nomatch (h.whole u hu).2
  · intro h
    refine ⟨fun u hu => ?_, fun hany => by rw [h.whole hany]; rfl⟩
    have hu' : u = responsesUsage (some (mergedUsage events)) := by
      cases hany : events.any (·.isUsage) with
      | true =>
        rw [h.whole hany] at hu
        exact List.mem_singleton.mp hu
      | false => exact hwhole hany u hu
    refine ⟨hu', ?_⟩
    rw [if_neg, hu']
    intro hfailed
    rw [h.reported hfailed] at hu
    exact nomatch hu

end Responses

/-! ## Anthropic -/

namespace Anthropic

/-- The counts of a frame. A message starts with zeros, and at its end the output is replaced. -/
def Frame.readUsage (u : AnthropicUsage) : Frame → AnthropicUsage
  | .messageStart _ _ => ⟨0, 0, none, none⟩
  | .messageDelta _ outputTokens => { u with outputTokens := outputTokens }
  | .contentBlockStart _ _ | .contentBlockDelta _ _ | .contentBlockStop _ | .messageStop
  | .error _ => u

/-- The counts that a client has read. -/
def clientUsage (out : List Frame) : AnthropicUsage := out.foldl Frame.readUsage ⟨0, 0, none, none⟩

def Frame.shownOutput : Frame → Option Nat
  | .messageDelta _ outputTokens => some outputTokens
  | .messageStart _ _ | .contentBlockStart _ _ | .contentBlockDelta _ _ | .contentBlockStop _
  | .messageStop | .error _ => none

/-- The output counts of the message deltas. -/
def shownOutput (out : List Frame) : List Nat := out.filterMap (·.shownOutput)

theorem readUsage_quiet {out : List Frame} (h : Quiet out) :
    out.foldl Frame.readUsage ⟨0, 0, none, none⟩ = ⟨0, 0, none, none⟩ := by
  induction out with
  | nil => rfl
  | cons frame out ih =>
    obtain ⟨hframe, hrest⟩ := List.forall_mem_cons.mp h
    rw [List.foldl_cons]
    have hread : Frame.readUsage ⟨0, 0, none, none⟩ frame = ⟨0, 0, none, none⟩ := by
      cases frame with
      | messageDelta _ _ => exact Bool.noConfusion hframe
      | messageStart _ _ | contentBlockStart _ _ | contentBlockDelta _ _ | contentBlockStop _
      | messageStop | error _ => rfl
    rw [hread]
    exact ih hrest

theorem shownOutput_quiet {out : List Frame} (h : Quiet out) : shownOutput out = [] := by
  refine List.filterMap_eq_nil_iff.mpr fun frame hmem => ?_
  have hframe := h frame hmem
  cases frame with
  | messageDelta _ _ => exact Bool.noConfusion hframe
  | messageStart _ _ | contentBlockStart _ _ | contentBlockDelta _ _ | contentBlockStop _
  | messageStop | error _ => rfl

/-- A whole stream is quiet up to its end, which has the merged output count. -/
theorem frames_end (ctx : EncoderCtx) (events : List StreamEvent) :
    ∃ out reason, Quiet out ∧ frames ctx events = out ++
      [.messageDelta reason ((mergedUsage events).output.getD 0), .messageStop] := by
  obtain ⟨out, hquiet, hout⟩ := finalize_frames (stopReasonSent_feed ctx events)
  refine ⟨((encoder ctx).feed (encoder ctx).start events).2 ++ out, AnthropicEncoder.stopReason
    ((encoder ctx).feed (encoder ctx).start events).1.finish,
    quiet_append.mpr ⟨quiet_feed ctx events, hquiet⟩, ?_⟩
  simp only [frames]
  rw [hout, usage_feed, List.append_assoc]

/-- The output count is the only one that a client is shown. -/
theorem clientUsage_frames (ctx : EncoderCtx) (events : List StreamEvent) :
    clientUsage (frames ctx events) = ⟨0, (mergedUsage events).output.getD 0, none, none⟩ := by
  obtain ⟨out, reason, hquiet, hframes⟩ := frames_end ctx events
  rw [hframes, clientUsage, List.foldl_append, readUsage_quiet hquiet]
  rfl

theorem shownOutput_once (J : Json.SerdeJson) (ctx : EncoderCtx) (events : List StreamEvent) :
    ShownOnce (shownOutput (frames ctx events)) ((mergedUsage events).output.getD 0)
      (some (aggregate J ctx.modelName ctx.requestId events
        (mergedUsage events)).usage.outputTokens) events := by
  obtain ⟨out, reason, hquiet, hframes⟩ := frames_end ctx events
  have hshown : shownOutput (frames ctx events) = [(mergedUsage events).output.getD 0] := by
    have hsplit : ∀ ending, shownOutput (out ++ ending) = shownOutput out ++ shownOutput ending :=
      fun _ => List.filterMap_append
    rw [hframes, hsplit, shownOutput_quiet hquiet]
    rfl
  rw [hshown]
  exact ⟨fun u hu => by rw [List.mem_singleton.mp hu]; exact ⟨rfl, rfl⟩, fun _ => rfl⟩

end Anthropic

/-! ## The three streams -/

/-- What the three streams show of the usage. In the OpenAI formats it is the whole usage, once,
exactly if one ending has records before it and the last of them shows the same counts; to an
Anthropic client the merged output count is shown once, and the other counts are not told. -/
theorem shown_usage_iff (J : Json.SerdeJson) (ctx : EncoderCtx) (events : List StreamEvent)
    (now : Int) :
    (ShownOnce (OpenAi.shownUsage (OpenAi.frames ctx true events))
        (OpenAi.openaiUsage (mergedUsage events))
        (some (OpenAi.aggregate ctx.modelName ctx.requestId events (mergedUsage events)).usage)
        events ↔ OpenAi.UsageComplete events) ∧
      (ShownOnce (Responses.shownUsage (Responses.frames ctx events))
        (Responses.responsesUsage (some (mergedUsage events)))
        (Responses.aggregate ctx.modelName ctx.requestId events (mergedUsage events) ctx.responses
          now).usage events ↔ Responses.UsageComplete events) ∧
      ShownOnce (Anthropic.shownOutput (Anthropic.frames ctx events))
        ((mergedUsage events).output.getD 0)
        (some (Anthropic.aggregate J ctx.modelName ctx.requestId events
          (mergedUsage events)).usage.outputTokens) events ∧
      Anthropic.clientUsage (Anthropic.frames ctx events) =
        ⟨0, (mergedUsage events).output.getD 0, none, none⟩ :=
  ⟨OpenAi.shownOnce_iff ctx events, Responses.shownOnce_iff ctx events now,
    Anthropic.shownOutput_once J ctx events, Anthropic.clientUsage_frames ctx events⟩

/-- Two records, the input first, as an Anthropic upstream sends them: the streams of the OpenAI
formats show no input, and an Anthropic client is told none. -/
theorem first_record_forgotten :
    let ctx : EncoderCtx := ⟨"model", "req", 0, {}⟩
    let events : List StreamEvent :=
      [.usage { input := some 5 }, .textDelta "now", .usage { output := some 3 }, .finish .stop]
    ¬ ShownOnce (OpenAi.shownUsage (OpenAi.frames ctx true events))
        (OpenAi.openaiUsage (mergedUsage events))
        (some (OpenAi.aggregate ctx.modelName ctx.requestId events (mergedUsage events)).usage)
        events ∧
      ¬ ShownOnce (Responses.shownUsage (Responses.frames ctx events))
        (Responses.responsesUsage (some (mergedUsage events)))
        (Responses.aggregate ctx.modelName ctx.requestId events (mergedUsage events) ctx.responses
          0).usage events ∧
      Anthropic.clientUsage (Anthropic.frames ctx events) ≠
        (Anthropic.aggregate .ofEmptyObject ctx.modelName ctx.requestId events
          (mergedUsage events)).usage := by
  intro ctx events
  refine ⟨fun h => ?_, fun h => ?_, ?_⟩
  · exact absurd ((OpenAi.shownOnce_iff ctx events).mp h) (by decide)
  · exact absurd (((Responses.shownOnce_iff ctx events 0).mp h).whole rfl) (by decide)
  · rw [Anthropic.clientUsage_frames]
    decide

end Kinetix.Frontends
