import Kinetix.Frontends.Anthropic.Protocol

/-!
# The frames that end an Anthropic stream

Only `finalize` ends a message; until then the encoder remembers the finish and merges the usage.
-/

namespace Kinetix.Frontends.Anthropic
open StateMachine

/-- A frame that ends a stream, or that is part of its end. -/
def Frame.ends : Frame → Bool
  | .messageDelta _ _ | .messageStop | .error _ => true
  | .messageStart _ _ | .contentBlockStart _ _ | .contentBlockDelta _ _ | .contentBlockStop _ =>
    false

/-- None of the frames ends the stream. -/
def Quiet (out : List Frame) : Prop := ∀ frame ∈ out, frame.ends = false

theorem Quiet.nil : Quiet [] := nofun

theorem quiet_append {out out' : List Frame} : Quiet (out ++ out') ↔ Quiet out ∧ Quiet out' :=
  List.forall_mem_append

/-- A part of an answer that only adds content. -/
structure Adds (e : AnthropicEncoder) (r : AnthropicEncoder × List Frame) : Prop where
  quiet : Quiet r.2
  usage : r.1.usage = e.usage
  finish : r.1.finish = e.finish

section Steps
variable (e : AnthropicEncoder)

theorem adds_emitStart : Adds e e.emitStart := by
  simp only [AnthropicEncoder.emitStart]
  split
  · exact ⟨Quiet.nil, rfl, rfl⟩
  · exact ⟨by simp [Quiet, Frame.ends], rfl, rfl⟩

theorem adds_closeOpenBlock : Adds e e.closeOpenBlock := by
  simp only [AnthropicEncoder.closeOpenBlock]
  split
  · exact ⟨by simp [Quiet, Frame.ends], rfl, rfl⟩
  · exact ⟨Quiet.nil, rfl, rfl⟩

theorem adds_openNext (block : ContentBlock) (state : BlockState) :
    Adds e (e.openNext block state) := by
  obtain ⟨quiet, usage, finish⟩ := adds_closeOpenBlock e
  refine ⟨quiet_append.mpr ⟨quiet, ?_⟩, usage, finish⟩
  simp [Quiet, Frame.ends]

theorem adds_openTextBlock : Adds e e.openTextBlock := by
  simp only [AnthropicEncoder.openTextBlock]
  split
  · exact ⟨Quiet.nil, rfl, rfl⟩
  · exact adds_openNext e .text .text

theorem adds_openThinkingBlock : Adds e e.openThinkingBlock := by
  simp only [AnthropicEncoder.openThinkingBlock]
  split
  · exact ⟨Quiet.nil, rfl, rfl⟩
  · exact adds_openNext e .thinking .thinking

theorem adds_openToolBlock (index : Nat) (id name : String) :
    Adds e (e.openToolBlock index id name) := by
  obtain ⟨quiet, usage, finish⟩ := adds_openNext e (.toolUse id name) .text
  exact ⟨quiet, usage, finish⟩

end Steps

section Encode
variable {e : AnthropicEncoder}

theorem Adds.trans {r r' : AnthropicEncoder × List Frame} (h : Adds e r) (h' : Adds r.1 r') :
    Adds e (r'.1, r.2 ++ r'.2) :=
  ⟨quiet_append.mpr ⟨h.quiet, h'.quiet⟩, h'.usage.trans h.usage, h'.finish.trans h.finish⟩

theorem Adds.more {r : AnthropicEncoder × List Frame} (h : Adds e r) {out : List Frame}
    (hout : Quiet out) : Adds e (r.1, r.2 ++ out) :=
  ⟨quiet_append.mpr ⟨h.quiet, hout⟩, h.usage, h.finish⟩

theorem adds_encodeText (text : String) : Adds e (e.encodeText text) := by
  have hopened := (adds_emitStart e).trans (adds_openTextBlock e.emitStart.1)
  exact hopened.more (by simp [Quiet, Frame.ends])

theorem adds_encodeThinking (text : String) (signature : Option String) :
    Adds e (e.encodeThinking text signature) := by
  have hopened := (adds_emitStart e).trans (adds_openThinkingBlock e.emitStart.1)
  refine (hopened.more ?_).more ?_
  · split
    · simp [Quiet, Frame.ends]
    · exact Quiet.nil
  · split
    · split
      · simp [Quiet, Frame.ends]
      · exact Quiet.nil
    · exact Quiet.nil

/-- No event ends the message. -/
theorem quiet_encode (e : AnthropicEncoder) (a : StreamEvent) : Quiet (e.encode a).2 := by
  cases a with
  | start _ => exact (adds_emitStart e).quiet
  | textDelta text | refusalDelta text => exact (adds_encodeText text).quiet
  | thinkingDelta text signature => exact (adds_encodeThinking text signature).quiet
  | toolCallStart index id name signature =>
    exact ((adds_emitStart e).trans (adds_openToolBlock e.emitStart.1 index _ name)).quiet
  | toolCallArgsDelta index args => simp [Quiet, AnthropicEncoder.encode, Frame.ends]
  | usage _ | finish _ => exact Quiet.nil

/-- The records are merged as they come. -/
theorem usage_encode (e : AnthropicEncoder) (a : StreamEvent) :
    (e.encode a).1.usage = usageStep e.usage a := by
  cases a with
  | start _ => exact (adds_emitStart e).usage
  | textDelta text | refusalDelta text => exact (adds_encodeText text).usage
  | thinkingDelta text signature => exact (adds_encodeThinking text signature).usage
  | toolCallStart index id name signature =>
    exact ((adds_emitStart e).trans (adds_openToolBlock e.emitStart.1 index _ name)).usage
  | toolCallArgsDelta _ _ | usage _ | finish _ => rfl

end Encode

variable (ctx : EncoderCtx) (events : List StreamEvent)

theorem quiet_feed : Quiet ((encoder ctx).feed (encoder ctx).start events).2 :=
  (encoder ctx).feed_induction (I := fun _ r => Quiet r.2) Quiet.nil
    (fun _ r a ih => quiet_append.mpr ⟨ih, quiet_encode r.1 a⟩) events

theorem usage_feed :
    ((encoder ctx).feed (encoder ctx).start events).1.usage = mergedUsage events := by
  refine (encoder ctx).feed_induction (I := fun as r => r.1.usage = mergedUsage as) rfl ?_ events
  intro as r a ih
  rw [mergedUsage, foldl_snoc, ← mergedUsage, ← ih]
  exact usage_encode r.1 a

/-- `finalize` ends a message with its stop reason and the output count. -/
theorem finalize_frames {e : AnthropicEncoder} (h : e.stopReasonSent = false) :
    ∃ out, Quiet out ∧ e.finalize.2 = out ++
      [.messageDelta (AnthropicEncoder.stopReason e.finish) (e.usage.output.getD 0),
        .messageStop] := by
  have hclosed := (adds_emitStart e).trans (adds_closeOpenBlock e.emitStart.1)
  have hsent : e.emitStart.1.closeOpenBlock.1.stopReasonSent = false := by
    simp only [AnthropicEncoder.emitStart, AnthropicEncoder.closeOpenBlock]
    split <;> split <;> exact h
  have hfinish : e.emitStart.1.closeOpenBlock.1.finish = e.finish := hclosed.finish
  have husage : e.emitStart.1.closeOpenBlock.1.usage = e.usage := hclosed.usage
  refine ⟨_, hclosed.quiet, ?_⟩
  simp [AnthropicEncoder.finalize, hsent, hfinish, husage]

/-! ## A client that watches for the end -/

/-- How far a stream is. -/
inductive Progress where
  | running
  | finished
  | ended
  deriving DecidableEq

def Progress.step : Progress → Frame → Option Progress
  | .running, .messageDelta _ _ => some .finished
  | .running, .messageStop => none
  | .running, .error _ => some .ended
  | .running, _ => some .running
  | .finished, .messageStop => some .ended
  | _, _ => none

/-- A client that watches for the end. -/
def watch : Machine Progress Frame := ⟨.running, Progress.step⟩

/-- The stream ends once, well or with an error, and no frame follows. -/
def EndsOnce (out : List Frame) : Prop := watch.run out = some .ended

theorem watch_quiet {out : List Frame} (h : Quiet out) :
    watch.runFrom .running out = some .running := by
  induction out with
  | nil => rfl
  | cons frame out ih =>
    obtain ⟨hframe, hrest⟩ := List.forall_mem_cons.mp h
    have hstep : watch.step .running frame = some .running := by
      cases frame with
      | messageDelta _ _ | messageStop | error _ => exact Bool.noConfusion hframe
      | messageStart _ _ | contentBlockStart _ _ | contentBlockDelta _ _
      | contentBlockStop _ => rfl
    rw [watch.runFrom_cons_of_step hstep]
    exact ih hrest

theorem watch_feed : watch.run ((encoder ctx).feed (encoder ctx).start events).2 = some .running :=
  watch_quiet (quiet_feed ctx events)

/-- `finalize` ends a stream. -/
theorem finalize_run {e : AnthropicEncoder} (h : e.stopReasonSent = false) :
    watch.runFrom .running e.finalize.2 = some .ended := by
  obtain ⟨out, hquiet, hout⟩ := finalize_frames h
  rw [hout, watch.runFrom_append, watch_quiet hquiet]
  rfl

end Kinetix.Frontends.Anthropic
