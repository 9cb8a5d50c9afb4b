import Kinetix.Frontends.Responses.Protocol

/-!
# The frames that end a Responses stream

Only a finish ends a response, with one frame, which comes last and has the response object. It is
sent as soon as the finish comes, so what comes after it must not give frames any more.
-/

namespace Kinetix.Frontends.Responses
open StateMachine

/-- The response of a frame that ends a stream. -/
def Body.terminalResponse : Body → Option Response
  | .completed response | .incomplete response | .failed response => some response
  | _ => none

/-- None of the bodies ends the response. -/
def Quiet (bodies : List Body) : Prop := ∀ body ∈ bodies, body.terminalResponse = none

theorem Quiet.nil : Quiet [] := nofun

theorem Quiet.append {bodies bodies' : List Body} (h : Quiet bodies) (h' : Quiet bodies') :
    Quiet (bodies ++ bodies') := by
  intro body hmem
  cases List.mem_append.mp hmem with
  | inl hmem => exact h body hmem
  | inr hmem => exact h' body hmem

theorem Quiet.terminals {bodies : List Body} (h : Quiet bodies) :
    bodies.filterMap (·.terminalResponse) = [] :=
  List.filterMap_eq_nil_iff.mpr h

section Steps
variable (e : ResponsesEncoder)

theorem quiet_ensureCreated : Quiet e.ensureCreated.2 := by
  simp only [ResponsesEncoder.ensureCreated]
  split
  · exact Quiet.nil
  · simp [Quiet, Body.terminalResponse]

theorem quiet_ensureMessageItem (refusal : Bool) : Quiet (e.ensureMessageItem refusal).2 := by
  simp only [ResponsesEncoder.ensureMessageItem]
  split
  · exact Quiet.nil
  · simp [Quiet, Body.terminalResponse]

theorem quiet_closeTextItem (status : String) : Quiet (e.closeTextItem status).2 := by
  simp only [ResponsesEncoder.closeTextItem]
  split
  · split <;> simp [Quiet, Body.terminalResponse]
  · exact Quiet.nil

theorem quiet_toolDone (status : String) (tools : List ActiveTool) :
    Quiet (tools.flatMap (ResponsesEncoder.toolDone status)) := by
  intro body hmem
  obtain ⟨tool, -, hbody⟩ := List.mem_flatMap.mp hmem
  simp only [ResponsesEncoder.toolDone, List.mem_cons, List.not_mem_nil, or_false] at hbody
  rcases hbody with rfl | rfl <;> rfl

/-- An event other than a finish does not end the response. -/
theorem quiet_answer {a : StreamEvent} (h : ∀ reason, a ≠ .finish reason) :
    Quiet (e.answer a).2 := by
  have hcreated := quiet_ensureCreated e
  cases a with
  | start _ => exact hcreated
  | thinkingDelta _ _ | usage _ => exact Quiet.nil
  | finish reason => exact absurd rfl (h reason)
  | textDelta t =>
    refine (hcreated.append (quiet_ensureMessageItem _ false)).append ?_
    simp [Quiet, Body.terminalResponse]
  | refusalDelta t =>
    refine (hcreated.append (quiet_ensureMessageItem _ true)).append ?_
    simp [Quiet, Body.terminalResponse]
  | toolCallStart index id name _ =>
    refine hcreated.append ((quiet_closeTextItem _ "completed").append ?_)
    simp [Quiet, Body.terminalResponse]
  | toolCallArgsDelta index args =>
    refine hcreated.append ?_
    change Quiet (e.ensureCreated.1.pushToolArgs index args).2
    rw [ResponsesEncoder.pushToolArgs]
    split
    · simp [Quiet, Body.terminalResponse]
    · exact Quiet.nil

/-- A finish ends the response with its last frame. -/
theorem finish_bodies (reason : FinishReason) :
    ∃ bodies body, (e.finish reason).2 = bodies ++ [body] ∧ Quiet bodies ∧
      body.terminalResponse = some (e.buildResponseObject reason) := by
  have htyped : ({ e with finishSent := true } : ResponsesEncoder).hasTypedRefusal =
      e.hasTypedRefusal := rfl
  simp only [ResponsesEncoder.finish, htyped]
  cases hf : responsesStreamFailure reason e.hasTypedRefusal with
  | some failure =>
    refine ⟨_, _, rfl, quiet_ensureCreated _, ?_⟩
    simp only [Body.terminalResponse, ResponsesEncoder.buildResponseObject, hf,
      ResponsesEncoder.ensureCreated]
    split <;> rfl
  | none =>
    refine ⟨_, _, rfl, (quiet_closeTextItem _ _).append (quiet_toolDone _ _), ?_⟩
    simp only [closeTextItem_fst, ResponsesEncoder.terminal]
    split <;> rfl

theorem finishSent_finish (reason : FinishReason) : (e.finish reason).1.finishSent = true := by
  rcases finish_cases e reason with ⟨response, heq⟩ | ⟨response, heq⟩ <;> rw [heq]

/-- The bodies of numbered frames. -/
theorem frames_bodies (bodies : List Body) : (e.frames bodies).2.map (·.body) = bodies := by
  simp only [ResponsesEncoder.frames, List.map_map]
  exact List.zipIdx_map_fst e.seq bodies

end Steps

/-! ## A client that watches for the end -/

/-- How far a stream is. -/
inductive Progress where
  | running
  | ended
  deriving DecidableEq

def Progress.step : Progress → Frame → Option Progress
  | .running, frame => some (if frame.body.terminalResponse.isSome then .ended else .running)
  | .ended, _ => none

/-- A client that watches for the end. -/
def watch : Machine Progress Frame := ⟨.running, Progress.step⟩

/-- The stream ends once, well or with an error, and no frame follows. -/
def EndsOnce (out : List Frame) : Prop := watch.run out = some .ended

/-- What has been heard of a stream that matters to its end. -/
structure Heard where
  created : Bool := false
  refused : Bool := false
  calls : List Nat := []
  finished : Bool := false

namespace Heard

def hear (h : Heard) : StreamEvent → Heard
  | .start _ | .textDelta _ | .toolCallArgsDelta _ _ => { h with created := true }
  | .refusalDelta text => { h with created := true, refused := h.refused || text ≠ "" }
  | .toolCallStart index _ _ _ => { h with created := true, calls := h.calls ++ [index] }
  | .finish reason =>
    { h with
      created := h.created || (responsesStreamFailure reason h.refused).isSome
      finished := true }
  | .thinkingDelta _ _ | .usage _ => h

/-- After a finish only events that give no frame may come. -/
def allows (h : Heard) : StreamEvent → Bool
  | .thinkingDelta _ _ | .usage _ => true
  | .start _ => !h.finished || h.created
  | .toolCallArgsDelta index _ => !h.finished || h.created && index ∉ h.calls
  | .textDelta _ | .refusalDelta _ | .toolCallStart _ _ _ _ | .finish _ => !h.finished

def progress (h : Heard) : Progress := if h.finished then .ended else .running

end Heard

def heard (events : List StreamEvent) : Heard := events.foldl Heard.hear {}

/-- After the finish of a stream no event gives a frame. -/
def QuietAfterFinish (events : List StreamEvent) : Prop :=
  Each (fun pre a => (heard pre).allows a) events

instance (events : List StreamEvent) : Decidable (QuietAfterFinish events) :=
  inferInstanceAs (Decidable (Each _ events))

theorem watch_quiet (e : ResponsesEncoder) {bodies : List Body} (h : Quiet bodies) :
    watch.runFrom .running (e.frames bodies).2 = some .running := by
  simp only [ResponsesEncoder.frames]
  generalize e.seq = n
  induction bodies generalizing n with
  | nil => rfl
  | cons body bodies ih =>
    obtain ⟨hbody, hrest⟩ := List.forall_mem_cons.mp h
    rw [List.zipIdx_cons, List.map_cons]
    have hstep : watch.step .running ⟨n, body⟩ = some .running := by
      simp [watch, Progress.step, hbody]
    rw [watch.runFrom_cons_of_step hstep]
    exact ih hrest (n + 1)

theorem watch_terminal (e : ResponsesEncoder) {bodies : List Body} (h : Quiet bodies) {body : Body}
    {response : Response} (hbody : body.terminalResponse = some response) :
    watch.runFrom .running (e.frames (bodies ++ [body])).2 = some .ended := by
  have hsplit : (e.frames (bodies ++ [body])).2 =
      (e.frames bodies).2 ++ [⟨e.seq + bodies.length, body⟩] := by
    simp only [ResponsesEncoder.frames, List.zipIdx_append, List.map_append]
    rfl
  rw [hsplit, watch.runFrom_append, watch_quiet e h, Option.bind_some, watch.runFrom_singleton]
  simp [watch, Progress.step, hbody]

theorem watch_ended (e : ResponsesEncoder) (bodies : List Body) :
    watch.runFrom .ended (e.frames bodies).2 = if bodies = [] then some .ended else none := by
  cases bodies with
  | nil | cons body bodies => rfl

/-- The encoder remembers what was heard. -/
structure Remembers (e : ResponsesEncoder) (h : Heard) : Prop where
  created : e.createdSent = h.created
  refused : e.hasTypedRefusal = h.refused
  calls : e.activeTools.map (·.index) = h.calls
  finished : e.finishSent = h.finished

section Remember
variable {e : ResponsesEncoder} {h : Heard}

theorem Remembers.congr {e' : ResponsesEncoder} (hr : Remembers e h)
    (created : e'.createdSent = e.createdSent)
    (refusal : e'.accumulatedRefusal = e.accumulatedRefusal)
    (tools : e'.activeTools = e.activeTools) (finished : e'.finishSent = e.finishSent) :
    Remembers e' h :=
  ⟨created.trans hr.created, (by rw [ResponsesEncoder.hasTypedRefusal, refusal]; exact hr.refused),
    (by rw [tools]; exact hr.calls), finished.trans hr.finished⟩

theorem ensureCreated_fst (e : ResponsesEncoder) :
    e.ensureCreated.1 = { e with createdSent := true } := by
  rw [ResponsesEncoder.ensureCreated]
  split
  next hcreated => rw [← hcreated]
  · rfl

theorem Remembers.ensureCreated (hr : Remembers e h) :
    Remembers e.ensureCreated.1 { h with created := true } := by
  rw [ensureCreated_fst]
  exact ⟨rfl, hr.refused, hr.calls, hr.finished⟩

theorem Remembers.ensureMessageItem (hr : Remembers e h) (refusal : Bool) :
    Remembers (e.ensureMessageItem refusal).1 h := by
  rw [ResponsesEncoder.ensureMessageItem]
  split
  · exact hr
  · exact hr.congr rfl rfl rfl rfl

theorem Remembers.refuse (hr : Remembers e h) (t : String) :
    Remembers { e with accumulatedRefusal := e.accumulatedRefusal ++ t }
      { h with refused := h.refused || t ≠ "" } := by
  refine ⟨hr.created, ?_, hr.calls, hr.finished⟩
  rw [← hr.refused, ResponsesEncoder.hasTypedRefusal, ResponsesEncoder.hasTypedRefusal,
    ← Bool.decide_or]
  refine decide_eq_decide.mpr ?_
  rw [Ne, String.append_eq_empty_iff, not_and_or]

theorem Remembers.answer (hr : Remembers e h) (a : StreamEvent) :
    Remembers (e.answer a).1 (h.hear a) := by
  have hcreated := hr.ensureCreated
  cases a with
  | start _ => exact hcreated
  | thinkingDelta _ _ => exact hr
  | usage _ => exact hr.congr rfl rfl rfl rfl
  | textDelta t => exact (hcreated.ensureMessageItem false).congr rfl rfl rfl rfl
  | refusalDelta t => exact (hcreated.ensureMessageItem true).refuse t
  | toolCallStart index id name _ =>
    obtain ⟨created, refused, calls, finished⟩ := hcreated
    simp only [ResponsesEncoder.answer, ResponsesEncoder.startTool, closeTextItem_fst]
    refine ⟨created, refused, ?_, finished⟩
    rw [List.map_append, calls]
    rfl
  | toolCallArgsDelta index args =>
    change Remembers (e.ensureCreated.1.pushToolArgs index args).1 _
    rw [ResponsesEncoder.pushToolArgs]
    split
    · obtain ⟨created, refused, calls, finished⟩ := hcreated
      exact ⟨created, refused, (pushArgs_index _ _ _).trans calls, finished⟩
    · exact hcreated
  | finish reason =>
    cases hf : responsesStreamFailure reason e.hasTypedRefusal with
    | some failure =>
      obtain ⟨response, heq⟩ := finish_of_failure hf
      simp only [ResponsesEncoder.answer, heq]
      rw [hr.refused] at hf
      exact ⟨by simp [Heard.hear, hf], hr.refused, hr.calls, rfl⟩
    | none =>
      obtain ⟨response, -, heq⟩ := finish_of_none hf
      simp only [ResponsesEncoder.answer, heq]
      rw [hr.refused] at hf
      exact ⟨by simp [Heard.hear, hf, hr.created], hr.refused, hr.calls, rfl⟩

/-- After a finish the events that are allowed are those without an answer. -/
theorem answer_eq_nil (hr : Remembers e h) (hfinished : h.finished = true) (a : StreamEvent) :
    (e.answer a).2 = [] ↔ h.allows a = true := by
  have hcreated : e.ensureCreated.2 = [] ↔ h.created = true := by
    rw [ResponsesEncoder.ensureCreated, hr.created]
    by_cases hc : h.created = true <;> simp [hc]
  cases a with
  | start _ =>
    change e.ensureCreated.2 = [] ↔ _
    simpa [Heard.allows, hfinished] using hcreated
  | thinkingDelta _ _ | usage _ => simp [Heard.allows, ResponsesEncoder.answer]
  | textDelta _ | refusalDelta _ => simp [Heard.allows, ResponsesEncoder.answer, hfinished]
  | toolCallStart _ _ _ _ =>
    simp [Heard.allows, ResponsesEncoder.answer, ResponsesEncoder.startTool, hfinished]
  | finish reason =>
    obtain ⟨bodies, body, hbodies, -, -⟩ := finish_bodies e reason
    change (e.finish reason).2 = [] ↔ _
    simp [hbodies, Heard.allows, hfinished]
  | toolCallArgsDelta index args =>
    have hpushed : (e.ensureCreated.1.pushToolArgs index args).2 = [] ↔ index ∉ h.calls := by
      rw [← hr.ensureCreated.calls, ResponsesEncoder.pushToolArgs]
      cases hfind : e.ensureCreated.1.activeTools.find? (·.index = index) with
      | some tool =>
        have hmem := List.mem_of_find?_eq_some hfind
        have hindex := List.find?_some hfind
        simp only [decide_eq_true_eq] at hindex
        simp only [List.cons_ne_nil, false_iff, not_not]
        exact hindex ▸ List.mem_map_of_mem hmem
      | none =>
        simp only [true_iff, List.mem_map, not_exists, not_and]
        intro tool hmem
        simpa using List.find?_eq_none.mp hfind tool hmem
    change e.ensureCreated.2 ++ _ = [] ↔ _
    rw [List.append_eq_nil_iff, hcreated]
    simp only [Heard.allows, hfinished, Bool.not_true, Bool.false_or, Bool.and_eq_true,
      decide_eq_true_eq]
    exact and_congr_right fun _ => hpushed

theorem Remembers.encode (hr : Remembers e h) (a : StreamEvent) :
    Remembers (e.encode a).1 (h.hear a) ∧
      watch.runFrom h.progress (e.encode a).2 =
        if h.allows a then some (h.hear a).progress else none := by
  refine ⟨(hr.answer a).congr rfl rfl rfl rfl, ?_⟩
  change watch.runFrom h.progress ((e.answer a).1.frames (e.answer a).2).2 = _
  by_cases hfinished : h.finished = true
  · have hprogress : (h.hear a).progress = .ended := by
      cases a <;> simp [Heard.hear, Heard.progress, hfinished]
    rw [hprogress, Heard.progress, if_pos hfinished, watch_ended]
    exact if_congr (answer_eq_nil hr hfinished a) rfl rfl
  · have hallows : h.allows a = true := by
      cases a <;> simp [Heard.allows, hfinished]
    rw [if_pos hallows, Heard.progress, if_neg hfinished]
    by_cases hfinish : ∃ reason, a = .finish reason
    · obtain ⟨reason, rfl⟩ := hfinish
      obtain ⟨bodies, body, hbodies, hquiet, hterminal⟩ := finish_bodies e reason
      change watch.runFrom .running ((e.finish reason).1.frames (e.finish reason).2).2 = _
      rw [hbodies, watch_terminal _ hquiet hterminal]
      rfl
    · rw [watch_quiet _ (quiet_answer e fun reason heq => hfinish ⟨reason, heq⟩)]
      cases a with
      | finish reason => exact absurd ⟨reason, rfl⟩ hfinish
      | start _ | textDelta _ | refusalDelta _ | thinkingDelta _ _ | toolCallStart _ _ _ _
      | toolCallArgsDelta _ _ | usage _ =>
        simp [Heard.hear, Heard.progress, hfinished]

/-- `finalize` ends a stream that has not ended. -/
theorem finalize_run (hr : Remembers e h) :
    watch.runFrom h.progress e.finalize.2 = some .ended := by
  rw [ResponsesEncoder.finalize, hr.finished]
  by_cases hfinished : h.finished = true
  · rw [if_pos hfinished, Heard.progress, if_pos hfinished]
    rfl
  · rw [if_neg hfinished, (hr.encode (.finish .stop)).2]
    simp [Heard.allows, hfinished, Heard.hear, Heard.progress]

/-- An error ends a stream that has not ended. -/
theorem errorFrame_run (e : ResponsesEncoder) (h : Heard) (message : String) :
    watch.runFrom h.progress (e.errorFrame message).2 =
      if h.finished then none else some .ended := by
  rw [Heard.progress]
  cases h.finished <;> rfl

end Remember

/-- A watching client follows the events as long as they are quiet after the finish. -/
theorem watch_feed (ctx : EncoderCtx) (events : List StreamEvent) :
    Remembers ((encoder ctx).feed (encoder ctx).start events).1 (heard events) ∧
      watch.run ((encoder ctx).feed (encoder ctx).start events).2 =
        if QuietAfterFinish events then some (heard events).progress else none :=
  (encoder ctx).feed_follows (M := watch) (R := Remembers) (p := Heard.progress)
    ⟨rfl, rfl, rfl, rfl⟩ rfl (fun _ _ a hr => hr.encode a) events

theorem heard_finished (events : List StreamEvent) :
    (heard events).finished = events.any (·.isFinish) := by
  refine foldl_flag Heard.finished (f := Heard.hear) ?_ {} events
  intro h a
  cases a <;> simp [Heard.hear, StreamEvent.isFinish]

/-- A stream without a finish is quiet after it. -/
theorem quiet_of_no_finish {events : List StreamEvent} (h : events.any (·.isFinish) = false) :
    QuietAfterFinish events := by
  intro i
  have hpre : (heard (events.take i)).finished = false := by
    rw [heard_finished, List.any_eq_false]
    exact fun a ha => List.any_eq_false.mp h a (List.mem_of_mem_take ha)
  generalize events[i] = a
  cases a <;> simp [Heard.allows, hpre]

end Kinetix.Frontends.Responses
