import Kinetix.Frontends.Responses.Terminal

/-!
# Streamed and aggregated responses

`aggregate_responses_with_fields` of `frontends/responses.rs` answers without streaming. The
terminal frame of a stream carries the response that the aggregation gives, except that it shows
empty arguments as they are and keeps text apart from a refusal by the provider.
-/

namespace Kinetix.Frontends.Responses

structure Aggregate where
  text : String := ""
  refusal : String := ""
  finish : FinishReason := .stop
  toolCalls : List ToolCall := []

namespace Aggregate

def step (requestId : String) (g : Aggregate) : StreamEvent → Aggregate
  | .textDelta t => { g with text := g.text ++ t }
  | .refusalDelta t => { g with refusal := g.refusal ++ t }
  | .finish reason => { g with finish := reason }
  | .toolCallStart index id name _ =>
    { g with
      toolCalls := g.toolCalls ++ [⟨index, id.getD s!"call_{requestId}_{index}", name, ""⟩] }
  | .toolCallArgsDelta index args =>
    { g with toolCalls := appendArgs index args g.toolCalls }
  | .start _ | .thinkingDelta _ _ | .usage _ => g

/-- A provider refusal makes all text a refusal. -/
def refuse (g : Aggregate) : Aggregate :=
  if responsesTerminal g.finish = .refusal then
    { g with refusal := g.refusal ++ g.text, text := "" }
  else g

def content (g : Aggregate) : List ContentPart :=
  (if g.text ≠ "" ∨ g.refusal = "" then [.outputText g.text] else []) ++
    (if g.refusal ≠ "" then [.refusal g.refusal] else [])

def output (g : Aggregate) (requestId : String) : List Item :=
  (if g.text ≠ "" ∨ g.refusal ≠ "" ∨ g.toolCalls = [] then
      [.message (textItemId requestId) (responseStatus g.finish) g.content] else []) ++
    g.toolCalls.map fun call =>
      .functionCall call.id call.name (if call.args = "" then "{}" else call.args)
        (responseStatus g.finish)

/-- The response of what was collected. -/
def response (g : Aggregate) (modelName requestId : String) (usage : TokenUsage)
    (fields : ResponsesResponseFields) (now : Int) : Response :=
  match responsesTerminal g.finish with
  | .failed failure =>
    failedTerminalResponse fields (responseId requestId) now modelName failure
  | .completed | .incomplete _ | .refusal =>
    let g := g.refuse
    { id := responseId requestId
      createdAt := now
      model := modelName
      status := responseStatus g.finish
      error := none
      incompleteDetails := responsesIncompleteReason g.finish
      output := g.output requestId
      usage := some (responsesUsage (some usage))
      fields := fields }

end Aggregate

/-- The response that is not streamed; `now` is the time of the aggregation. -/
def aggregate (modelName requestId : String) (events : List StreamEvent) (usage : TokenUsage)
    (fields : ResponsesResponseFields) (now : Int) : Response :=
  (events.foldl (Aggregate.step requestId) {}).response modelName requestId usage fields now

open StateMachine

/-- The response of the last frame that ends a stream. -/
def terminalResponse (out : List Frame) : Option Response :=
  (out.filterMap (·.body.terminalResponse)).getLast?

/-- Two responses tell the same. -/
structure Same (r s : Response) : Prop where
  status : r.status = s.status
  error : r.error = s.error
  incompleteDetails : r.incompleteDetails = s.incompleteDetails
  output : r.output = s.output

/-- Unless the finish is a refusal that cannot be streamed, the terminal frame tells the same as the
aggregation, whenever that is made. -/
def TerminalAgrees (ctx : EncoderCtx) (events : List StreamEvent) (usage : TokenUsage) (now : Int) :
    Prop :=
  ∀ reason, StreamEvent.finish reason ∈ events →
    responsesStreamFailure reason (refusalOf events ≠ "") ≠ some .unstreamableRefusal →
    ∃ r, terminalResponse (frames ctx events) = some r ∧
      Same r (aggregate ctx.modelName ctx.requestId events usage ctx.responses now)

/-- A refusal by the provider comes with text or with refusal text, not with both. -/
def RefusalApart (events : List StreamEvent) : Prop :=
  .finish (.other "refusal") ∈ events → refusalOf events = "" ∨ textOf events = ""

instance (events : List StreamEvent) : Decidable (RefusalApart events) :=
  inferInstanceAs (Decidable (_ → _ ∨ _))

/-! ## The encoder collects what the aggregation does -/

/-- The events so far, folded by the aggregation. -/
def aggregated (requestId : String) (events : List StreamEvent) : Aggregate :=
  events.foldl (Aggregate.step requestId) {}

theorem aggregated_snoc (requestId : String) (events : List StreamEvent) (a : StreamEvent) :
    aggregated requestId (events ++ [a]) = (aggregated requestId events).step requestId a :=
  foldl_snoc ..

theorem aggregated_fields (requestId : String) (events : List StreamEvent) :
    (aggregated requestId events).text = textOf events ∧
      (aggregated requestId events).refusal = refusalOf events ∧
      (aggregated requestId events).toolCalls =
        callsOf (fun index => s!"call_{requestId}_{index}") events := by
  induction events using List.reverseRecOn with
  | nil => exact ⟨rfl, rfl, rfl⟩
  | append_singleton events a ih =>
    obtain ⟨htext, hrefusal, hcalls⟩ := ih
    rw [aggregated_snoc, textOf, refusalOf, callsOf, foldl_snoc, foldl_snoc, foldl_snoc,
      ← textOf, ← refusalOf, ← callsOf, ← htext, ← hrefusal, ← hcalls]
    cases a <;> exact ⟨rfl, rfl, rfl⟩

/-- A call of the encoder as the aggregation collects it. -/
def ActiveTool.call (tool : ActiveTool) : ToolCall :=
  ⟨tool.index, tool.callId, tool.name, tool.arguments⟩

/-- The encoder has what the aggregation has so far. -/
structure Collects (ctx : EncoderCtx) (e : ResponsesEncoder) (g : Aggregate) : Prop where
  textItemId : e.textItemId = Responses.textItemId ctx.requestId
  text : e.accumulatedText = g.text
  refusal : e.accumulatedRefusal = g.refusal
  tools : e.activeTools.map (·.call) = g.toolCalls

theorem pushArgs_call (index : Nat) (args : String) (tools : List ActiveTool) :
    (pushArgs index args tools).map (·.call) = appendArgs index args (tools.map (·.call)) := by
  induction tools with
  | nil => rfl
  | cons tool tools ih =>
    rw [pushArgs, List.map_cons, appendArgs]
    by_cases h : tool.index = index
    · rw [if_pos h, if_pos (show tool.call.index = index from h)]
      rfl
    · rw [if_neg h, if_neg (show ¬ tool.call.index = index from h), List.map_cons, ih]

/-- Without a call of the index nothing is appended. -/
theorem appendArgs_of_find {tools : List ActiveTool} {index : Nat}
    (h : tools.find? (·.index = index) = none) (args : String) :
    appendArgs index args (tools.map (·.call)) = tools.map (·.call) := by
  induction tools with
  | nil => rfl
  | cons tool tools ih =>
    rw [List.find?_cons] at h
    by_cases ht : tool.index = index
    · simp [ht] at h
    · simp only [ht, decide_false] at h
      rw [List.map_cons, appendArgs, if_neg (show ¬ tool.call.index = index from ht), ih h]

section Steps
variable {ctx : EncoderCtx} {e : ResponsesEncoder} {g : Aggregate}

theorem Collects.congr (h : Collects ctx e g) {e' : ResponsesEncoder}
    (hi : e'.textItemId = e.textItemId) (ht : e'.accumulatedText = e.accumulatedText)
    (hr : e'.accumulatedRefusal = e.accumulatedRefusal)
    (ha : e'.activeTools = e.activeTools) : Collects ctx e' g :=
  ⟨hi.trans h.textItemId, ht.trans h.text, hr.trans h.refusal, (congrArg _ ha).trans h.tools⟩

theorem Collects.ensureCreated (h : Collects ctx e g) : Collects ctx e.ensureCreated.1 g := by
  simp only [ResponsesEncoder.ensureCreated]
  split
  · exact h
  · exact h.congr rfl rfl rfl rfl

theorem Collects.ensureMessageItem (h : Collects ctx e g) (refusal : Bool) :
    Collects ctx (e.ensureMessageItem refusal).1 g := by
  simp only [ResponsesEncoder.ensureMessageItem]
  split
  · exact h
  · exact h.congr rfl rfl rfl rfl

theorem Collects.finish (h : Collects ctx e g) (reason : FinishReason) :
    Collects ctx (e.finish reason).1 { g with finish := reason } := by
  have same : Collects ctx e { g with finish := reason } :=
    ⟨h.textItemId, h.text, h.refusal, h.tools⟩
  rcases finish_cases e reason with ⟨response, heq⟩ | ⟨response, heq⟩ <;> rw [heq]
  · exact same.congr rfl rfl rfl rfl
  · exact same.congr rfl rfl rfl rfl

theorem Collects.encode (h : Collects ctx e g) (requestId : String) (a : StreamEvent)
    (hid : ∀ id ∈ a.startedId, id.isSome) :
    Collects ctx (e.encode a).1 (g.step requestId a) := by
  suffices hanswer : Collects ctx (e.answer a).1 (g.step requestId a) from
    hanswer.congr rfl rfl rfl rfl
  have hcreated := h.ensureCreated
  cases a with
  | start _ => exact hcreated
  | thinkingDelta _ _ => exact h
  | usage _ => exact h.congr rfl rfl rfl rfl
  | finish reason => exact h.finish reason
  | textDelta t =>
    obtain ⟨textItemId, text, refusal, tools⟩ := hcreated.ensureMessageItem false
    exact ⟨textItemId, congrArg (· ++ t) text, refusal, tools⟩
  | refusalDelta t =>
    obtain ⟨textItemId, text, refusal, tools⟩ := hcreated.ensureMessageItem true
    exact ⟨textItemId, text, congrArg (· ++ t) refusal, tools⟩
  | toolCallStart index id name _ =>
    obtain ⟨callId, rfl⟩ := Option.isSome_iff_exists.mp (hid id rfl)
    obtain ⟨textItemId, text, refusal, tools⟩ := hcreated
    simp only [ResponsesEncoder.answer, ResponsesEncoder.startTool, closeTextItem_fst]
    refine ⟨textItemId, text, refusal, ?_⟩
    rw [List.map_append, tools]
    rfl
  | toolCallArgsDelta index args =>
    obtain ⟨textItemId, text, refusal, tools⟩ := hcreated
    simp only [ResponsesEncoder.answer, ResponsesEncoder.pushToolArgs]
    split
    · refine ⟨textItemId, text, refusal, ?_⟩
      simp only [pushArgs_call, tools, Aggregate.step]
    next hfind =>
      refine ⟨textItemId, text, refusal, ?_⟩
      simp only [Aggregate.step, ← tools]
      exact (appendArgs_of_find hfind args).symm

end Steps

/-- The encoder collects what the aggregation does from every stream whose calls have ids. -/
theorem collects_feed (ctx : EncoderCtx) {events : List StreamEvent}
    (h : ∀ id ∈ events.filterMap (·.startedId), id.isSome) :
    Collects ctx ((encoder ctx).feed (encoder ctx).start events).1
      (aggregated ctx.requestId events) := by
  induction events using List.reverseRecOn with
  | nil => exact ⟨rfl, rfl, rfl, rfl⟩
  | append_singleton events a ih =>
    rw [List.filterMap_append] at h
    have hpre := ih fun id hid => h id (List.mem_append_left _ hid)
    rw [Transducer.feed_snoc, aggregated_snoc]
    refine hpre.encode ctx.requestId a fun id hid => h id (List.mem_append_right _ ?_)
    exact List.mem_filterMap.mpr ⟨a, List.mem_singleton_self a, hid⟩

/-! ## The terminal frame -/

/-- The stream ends with the response object of its finish. -/
theorem terminalResponse_frames (ctx : EncoderCtx) {events pre : List StreamEvent}
    {reason : FinishReason} (h : events = pre ++ [.finish reason]) :
    terminalResponse (frames ctx events) =
      some (((encoder ctx).feed (encoder ctx).start pre).1.buildResponseObject reason) := by
  subst h
  simp only [frames]
  rw [Transducer.feed_snoc]
  generalize (encoder ctx).feed (encoder ctx).start pre = r
  obtain ⟨e, out⟩ := r
  obtain ⟨bodies, body, hbodies, -, hterminal⟩ := finish_bodies e reason
  have hsent : ((encoder ctx).step e (.finish reason)).1.finishSent = true :=
    finishSent_finish e reason
  have hframes : ∃ front n, ((encoder ctx).step e (.finish reason)).2 =
      front ++ [⟨n, body⟩] := by
    change ∃ front n, ((e.finish reason).1.frames (e.finish reason).2).2 = front ++ [⟨n, body⟩]
    simp only [ResponsesEncoder.frames, hbodies, List.zipIdx_append, List.map_append]
    exact ⟨_, _, rfl⟩
  obtain ⟨front, n, hfront⟩ := hframes
  simp only [ResponsesEncoder.finalize, hsent, if_pos, List.append_nil, hfront, terminalResponse]
  rw [← List.append_assoc, List.filterMap_append]
  simp [hterminal]

/-! ## Comparing the responses -/

section Compare
variable {ctx : EncoderCtx} {e : ResponsesEncoder} {g : Aggregate}

/-- The calls are shown the same exactly if all have arguments. -/
theorem calls_iff (tools : List ActiveTool) (status : String) :
    (tools.map fun tool => Item.functionCall tool.callId tool.name tool.arguments status) =
      ((tools.map (·.call)).map fun call =>
        .functionCall call.id call.name (if call.args = "" then "{}" else call.args) status) ↔
      ∀ call ∈ tools.map (·.call), call.args ≠ "" := by
  rw [List.map_map, List.map_inj_left, List.forall_mem_map]
  refine forall₂_congr fun tool _ => ?_
  by_cases h : tool.arguments = "" <;> simp [ActiveTool.call, h]

/-- The outputs are the same exactly if the calls are and no refusal takes up text. -/
theorem output_iff (h : Collects ctx e g)
    (hrefusal : responsesTerminal g.finish = .refusal → e.accumulatedRefusal ≠ "") :
    e.finalOutput (responseStatus g.finish) = g.refuse.output ctx.requestId ↔
      (∀ call ∈ g.toolCalls, call.args ≠ "") ∧
        (responsesTerminal g.finish = .refusal → g.text = "") := by
  obtain ⟨hid, htext, hr, htools⟩ := h
  have hnil : e.activeTools = [] ↔ g.toolCalls = [] := by
    rw [← htools, List.map_eq_nil_iff]
  have hcalls := calls_iff e.activeTools (responseStatus g.finish)
  rw [htools] at hcalls
  by_cases hterm : responsesTerminal g.finish = .refusal
  · have hne : g.refusal ≠ "" := hr ▸ hrefusal hterm
    have hjoined : g.refusal ++ g.text ≠ "" := by simp [hne]
    simp only [ResponsesEncoder.finalOutput, ResponsesEncoder.finalContent, Aggregate.refuse,
      hterm, if_pos, Aggregate.output, Aggregate.content, htext, hr, hid, hne, hjoined]
    by_cases ht : g.text = ""
    · simpa [ht, hne] using hcalls
    · simp [ht, hne]
  · have hrefuse : g.refuse = g := if_neg hterm
    rw [hrefuse]
    simp only [ResponsesEncoder.finalOutput, ResponsesEncoder.finalContent, Aggregate.output,
      Aggregate.content, htext, hr, hid, hnil, hterm, false_implies, and_true]
    rw [← hcalls]
    by_cases ht : g.text = "" <;> by_cases hf : g.refusal = "" <;>
      by_cases hn : g.toolCalls = [] <;> simp [ht, hf, hn]

/-- The response object tells the same as the aggregation if that fails, and otherwise exactly if
the outputs are the same. -/
theorem same_iff (h : Collects ctx e g) (modelName : String) (usage : TokenUsage) (now : Int)
    (fields : ResponsesResponseFields)
    (hstream : responsesStreamFailure g.finish e.hasTypedRefusal ≠ some .unstreamableRefusal) :
    Same (e.buildResponseObject g.finish)
        (g.response modelName ctx.requestId usage fields now) ↔
      (∃ failure, responsesTerminal g.finish = .failed failure) ∨
        (∀ call ∈ g.toolCalls, call.args ≠ "") ∧
          (responsesTerminal g.finish = .refusal → g.text = "") := by
  have hfinish : g.refuse.finish = g.finish := by
    simp only [Aggregate.refuse]
    split <;> rfl
  cases hterm : responsesTerminal g.finish with
  | failed failure =>
    have hf : responsesStreamFailure g.finish e.hasTypedRefusal = some failure := by
      simp [responsesStreamFailure, hterm]
    simp only [ResponsesEncoder.buildResponseObject, hf, Aggregate.response, hterm]
    exact ⟨fun _ => .inl ⟨failure, rfl⟩, fun _ => ⟨rfl, rfl, rfl, rfl⟩⟩
  | completed | incomplete _ | refusal =>
    have hnone : responsesStreamFailure g.finish e.hasTypedRefusal = none := by
      revert hstream
      simp only [responsesStreamFailure, hterm]
      first
        | exact fun _ => rfl
        | cases e.hasTypedRefusal <;> simp
    have hrefusal : responsesTerminal g.finish = .refusal → e.accumulatedRefusal ≠ "" := by
      intro ht hempty
      simp [responsesStreamFailure, ht, ResponsesEncoder.hasTypedRefusal, hempty] at hnone
    have houtput := output_iff h hrefusal
    rw [hterm] at houtput
    have hleft : Same (e.buildResponseObject g.finish)
        (g.response modelName ctx.requestId usage fields now) ↔
          e.finalOutput (responseStatus g.finish) = g.refuse.output ctx.requestId := by
      simp only [ResponsesEncoder.buildResponseObject, hnone, Aggregate.response, hfinish]
      rw [hterm]
      exact ⟨fun hs => hs.output, fun hs => ⟨rfl, rfl, rfl, hs⟩⟩
    rw [hleft, houtput]
    exact ⟨.inr, fun hs => hs.resolve_left (by rintro ⟨_, ⟨⟩⟩)⟩

end Compare

theorem responsesTerminal_refusal {reason : FinishReason} :
    responsesTerminal reason = .refusal ↔ reason = .other "refusal" := by
  cases reason with
  | other reason =>
    simp only [responsesTerminal, FinishReason.other.injEq]
    split
    next h => simp [h]
    next h => split <;> simp [h]
  | stop | length | toolCalls | contentFilter => simp [responsesTerminal]

/-- The terminal frame agrees with the aggregation exactly if the finish is reported as failed, or
else the calls have arguments and no refusal takes up text. -/
theorem terminalAgrees_iff (ctx : EncoderCtx) {events pre : List StreamEvent}
    {reason : FinishReason} (h : Normalized events) (hfinish : events = pre ++ [.finish reason])
    (hpre : ∀ r, .finish r ∉ pre) (usage : TokenUsage) (now : Int) :
    TerminalAgrees ctx events usage now ↔
      (responsesStreamFailure reason (refusalOf events ≠ "")).isSome ∨
        ArgsGiven events ∧ RefusalApart events := by
  have hids : ∀ id ∈ pre.filterMap (·.startedId), id.isSome := by
    have hids := h.ids
    rw [hfinish, List.filterMap_append] at hids
    exact fun id hid => hids id (List.mem_append_left _ hid)
  have honly : ∀ r, StreamEvent.finish r ∈ events ↔ r = reason := by
    intro r
    simp [hfinish, hpre r]
  have haggregated : aggregated ctx.requestId events =
      { aggregated ctx.requestId pre with finish := reason } := by
    rw [hfinish, aggregated_snoc]
    rfl
  obtain ⟨htext, hrefusal, hcalls⟩ := aggregated_fields ctx.requestId events
  generalize he : ((encoder ctx).feed (encoder ctx).start pre).1 = e
  have hcollects : Collects ctx e (aggregated ctx.requestId events) := by
    rw [haggregated]
    obtain ⟨h₁, h₂, h₃, h₄⟩ := collects_feed ctx hids
    exact he ▸ ⟨h₁, h₂, h₃, h₄⟩
  have htyped : e.hasTypedRefusal = decide (refusalOf events ≠ "") := by
    rw [ResponsesEncoder.hasTypedRefusal, hcollects.refusal, hrefusal]
  have hreason : (aggregated ctx.requestId events).finish = reason := by rw [haggregated]
  have hagree : TerminalAgrees ctx events usage now ↔
      (responsesStreamFailure reason e.hasTypedRefusal ≠ some .unstreamableRefusal →
        Same (e.buildResponseObject reason)
          (aggregate ctx.modelName ctx.requestId events usage ctx.responses now)) := by
    simp only [TerminalAgrees, honly, forall_eq, ← htyped, terminalResponse_frames ctx hfinish, he,
      Option.some.injEq, exists_eq_left']
  have hsame := same_iff hcollects ctx.modelName usage now ctx.responses
  rw [hreason] at hsame
  rw [hagree, argsGiven_iff h.callsStarted h.nodup _, ← hcalls, ← htyped]
  by_cases hunstreamable :
      responsesStreamFailure reason e.hasTypedRefusal = some .unstreamableRefusal
  · simp [hunstreamable]
  · have hcompare : Same (e.buildResponseObject reason)
        (aggregate ctx.modelName ctx.requestId events usage ctx.responses now) ↔
          (∃ failure, responsesTerminal reason = .failed failure) ∨
          (∀ call ∈ (aggregated ctx.requestId events).toolCalls, call.args ≠ "") ∧
            (responsesTerminal reason = .refusal →
              (aggregated ctx.requestId events).text = "") := hsame hunstreamable
    have hfailed : (∃ failure, responsesTerminal reason = .failed failure) ↔
        (responsesStreamFailure reason e.hasTypedRefusal).isSome := by
      revert hunstreamable
      simp only [responsesStreamFailure]
      cases responsesTerminal reason with
      | failed failure => simp
      | completed | incomplete _ => simp
      | refusal => cases e.hasTypedRefusal <;> simp
    have hapart : (responsesTerminal reason = .refusal →
        (aggregated ctx.requestId events).text = "") ↔ RefusalApart events := by
      rw [RefusalApart, honly, responsesTerminal_refusal, htext, eq_comm (b := reason)]
      refine forall_congr' fun hr => (or_iff_right ?_).symm
      intro hempty
      apply hunstreamable
      rw [htyped, hempty, hr]
      rfl
    rw [hcompare, hfailed, hapart]
    exact imp_iff_right hunstreamable

end Kinetix.Frontends.Responses
