import Kinetix.Frontends.OpenAi.Encoder

/-!
# Streamed and aggregated Chat Completions

A client assembles the message from the chunks. It has what the aggregation has, but it shows empty
arguments and, once the role was sent, empty text as they are.
-/

namespace Kinetix.Frontends.OpenAi
open StateMachine

/-- The message as far as a client has it. -/
structure Assembled where
  content : Option String := none
  reasoningContent : Option String := none
  toolCalls : List ToolCall := []
  finishReason : Option String := none

namespace Assembled

/-- Append to a text, which may not have begun. -/
def append (s : Option String) (t : String) : Option String := some (s.getD "" ++ t)

def readDelta (c : Assembled) : Delta → Assembled
  | .role => { c with content := append c.content "" }
  | .content text => { c with content := append c.content text }
  | .reasoningContent text => { c with reasoningContent := append c.reasoningContent text }
  | .toolCall index id name => { c with toolCalls := c.toolCalls ++ [⟨index, id, name, ""⟩] }
  | .arguments index args => { c with toolCalls := appendArgs index args c.toolCalls }
  | .empty => c

def read (c : Assembled) : Frame → Assembled
  | .chunk delta finishReason =>
    let c := c.readDelta delta
    { c with finishReason := finishReason.or c.finishReason }
  | .usage _ | .error _ | .done => c

def readAll (c : Assembled) (out : List Frame) : Assembled := out.foldl read c

def message (c : Assembled) : Message where
  content := c.content
  reasoningContent := c.reasoningContent
  toolCalls := c.toolCalls.map fun call => ⟨call.id, call.name, call.args⟩

end Assembled

/-- What a client has of a whole stream. -/
def assembled (ctx : EncoderCtx) (includeUsage : Bool) (events : List StreamEvent) : Assembled :=
  ({} : Assembled).readAll (frames ctx includeUsage events)

/-- A client that assembles the stream has the message and the finish reason of the aggregation. -/
def Agrees (ctx : EncoderCtx) (includeUsage : Bool) (events : List StreamEvent)
    (usage : TokenUsage) : Prop :=
  (assembled ctx includeUsage events).message =
      (aggregate ctx.modelName ctx.requestId events usage).message ∧
    (assembled ctx includeUsage events).finishReason =
      some (aggregate ctx.modelName ctx.requestId events usage).finishReason

/-- The event makes the encoder send the role. -/
def speaks : StreamEvent → Bool
  | .start _ | .usage _ | .finish _ => false
  | .textDelta _ | .refusalDelta _ | .thinkingDelta _ _ | .toolCallStart _ _ _ _
  | .toolCallArgsDelta _ _ => true

/-- There is text, or nothing but the finish. -/
def TextGiven (events : List StreamEvent) : Prop :=
  textOf events ≠ "" ∨ refusalOf events ≠ "" ∨ ∀ a ∈ events, speaks a = false

instance (events : List StreamEvent) : Decidable (TextGiven events) :=
  inferInstanceAs (Decidable (_ ∨ _ ∨ _))

/-! ## The stream follows the aggregation -/

/-- The client has what the aggregation has so far. -/
structure Follows (e : OpenAiEncoder) (c : Assembled) (g : Aggregate) : Prop where
  content : c.content = if e.roleSent then some g.text else none
  reasoning : c.reasoningContent = if g.reasoning = "" then none else some g.reasoning
  toolCalls : c.toolCalls = g.toolCalls
  silent : e.roleSent = false → g.text = ""

theorem readAll_append (c : Assembled) (out more : List Frame) :
    c.readAll (out ++ more) = (c.readAll out).readAll more :=
  List.foldl_append

section Steps
variable {e : OpenAiEncoder} {c : Assembled} {g : Aggregate}

theorem Follows.ensureRole (h : Follows e c g) :
    Follows e.ensureRole.1 (c.readAll e.ensureRole.2) g ∧ e.ensureRole.1.roleSent = true := by
  obtain ⟨content, reasoning, toolCalls, silent⟩ := h
  cases hs : e.roleSent with
  | true =>
    simp only [OpenAiEncoder.ensureRole, hs]
    exact ⟨⟨content, reasoning, toolCalls, silent⟩, hs⟩
  | false =>
    simp only [OpenAiEncoder.ensureRole, hs]
    refine ⟨⟨?_, reasoning, toolCalls, nofun⟩, rfl⟩
    simp [Assembled.readAll, Assembled.read, Assembled.readDelta, Assembled.append, content, hs,
      silent hs]

theorem say_read (c : Assembled) (e : OpenAiEncoder) (delta : Delta) :
    c.readAll (e.say delta).2 = (c.readAll e.ensureRole.2).read (.chunk delta none) := by
  simp only [OpenAiEncoder.say]
  rw [readAll_append]
  rfl

theorem Follows.encode (h : Follows e c g) (requestId : String) (a : StreamEvent)
    (hid : ∀ id ∈ a.startedId, id.isSome) :
    Follows (e.encode a).1 (c.readAll (e.encode a).2) (g.step requestId a) := by
  obtain ⟨⟨content, reasoning, toolCalls, silent⟩, hsent⟩ := h.ensureRole
  rw [if_pos hsent] at content
  have text : ∀ t, Follows (e.say (.content t)).1 (c.readAll (e.say (.content t)).2)
      { g with text := g.text ++ t } := by
    intro t
    rw [say_read]
    refine ⟨?_, reasoning, toolCalls, fun hs => ?_⟩
    · simp [OpenAiEncoder.say, hsent, Assembled.read, Assembled.readDelta, Assembled.append,
        content]
    · simp [OpenAiEncoder.say, hsent] at hs
  cases a with
  | start _ => exact h
  | usage _ => exact ⟨h.content, h.reasoning, h.toolCalls, h.silent⟩
  | textDelta t | refusalDelta t => exact text t
  | thinkingDelta t signature =>
    simp only [OpenAiEncoder.encode, Aggregate.step]
    split
    next ht =>
      rw [ht, String.append_empty]
      exact h.ensureRole.1
    next ht =>
      rw [say_read]
      refine ⟨?_, ?_, toolCalls, fun hs => ?_⟩
      · simp [OpenAiEncoder.say, hsent, Assembled.read, Assembled.readDelta, content]
      · have hne : g.reasoning ++ t ≠ "" := by simp [ht]
        rw [if_neg hne]
        by_cases hr : g.reasoning = "" <;>
          simp [Assembled.read, Assembled.readDelta, Assembled.append, reasoning, hr]
      · simp [OpenAiEncoder.say, hsent] at hs
  | toolCallStart index id name signature =>
    obtain ⟨callId, rfl⟩ := Option.isSome_iff_exists.mp (hid id rfl)
    simp only [OpenAiEncoder.encode, Aggregate.step]
    rw [say_read]
    refine ⟨?_, reasoning, ?_, fun hs => ?_⟩
    · simp [OpenAiEncoder.say, hsent, Assembled.read, Assembled.readDelta, content]
    · simp [Assembled.read, Assembled.readDelta, toolCalls, OpenAiEncoder.callId]
    · simp [OpenAiEncoder.say, hsent] at hs
  | toolCallArgsDelta index args =>
    simp only [OpenAiEncoder.encode, Aggregate.step]
    rw [say_read]
    refine ⟨?_, reasoning, ?_, fun hs => ?_⟩
    · simp [OpenAiEncoder.say, hsent, Assembled.read, Assembled.readDelta, content]
    · simp [Assembled.read, Assembled.readDelta, toolCalls]
    · simp [OpenAiEncoder.say, hsent] at hs
  | finish reason =>
    have hquiet : c.readAll (e.encode (.finish reason)).2 =
        { c with finishReason := some (openaiFinish reason) } := by
      simp only [OpenAiEncoder.encode, OpenAiEncoder.usageChunk]
      cases e.includeUsage <;> cases e.usage <;> rfl
    rw [hquiet]
    exact ⟨h.content, h.reasoning, h.toolCalls, h.silent⟩

end Steps

/-- The events so far, folded by the aggregation. -/
def aggregated (requestId : String) (events : List StreamEvent) : Aggregate :=
  events.foldl (Aggregate.step requestId) {}

variable (requestId : String) (events : List StreamEvent)

theorem aggregated_snoc (a : StreamEvent) :
    aggregated requestId (events ++ [a]) = (aggregated requestId events).step requestId a :=
  foldl_snoc ..

theorem aggregated_calls : (aggregated requestId events).toolCalls =
      callsOf (fun index => s!"call_{requestId}_{index}") events := by
  induction events using List.reverseRecOn with
  | nil => rfl
  | append_singleton events a ih =>
    rw [aggregated_snoc, callsOf, foldl_snoc, ← callsOf, ← ih]
    cases a <;> rfl

theorem aggregated_text :
    (aggregated requestId events).text = "" ↔ textOf events = "" ∧ refusalOf events = "" := by
  induction events using List.reverseRecOn with
  | nil => exact ⟨fun _ => ⟨rfl, rfl⟩, fun _ => rfl⟩
  | append_singleton events a ih =>
    rw [aggregated_snoc, textOf, refusalOf, foldl_snoc, foldl_snoc, ← textOf, ← refusalOf]
    cases a with
    | textDelta t =>
      simp only [Aggregate.step, textStep, refusalStep, String.append_eq_empty_iff, ih]
      exact and_right_comm
    | refusalDelta t =>
      simp only [Aggregate.step, textStep, refusalStep, String.append_eq_empty_iff, ih]
      exact and_assoc
    | start _ | thinkingDelta _ _ | toolCallStart _ _ _ _ | toolCallArgsDelta _ _ | usage _
    | finish _ => exact ih

section Whole
variable {ctx : EncoderCtx} {includeUsage : Bool} {events : List StreamEvent}

/-- A client follows every stream whose calls have ids. -/
theorem follows_feed (h : ∀ id ∈ events.filterMap (·.startedId), id.isSome) :
    Follows ((encoder ctx includeUsage).feed (encoder ctx includeUsage).start events).1
      (({} : Assembled).readAll
        ((encoder ctx includeUsage).feed (encoder ctx includeUsage).start events).2)
      (aggregated ctx.requestId events) := by
  induction events using List.reverseRecOn with
  | nil => exact ⟨rfl, rfl, rfl, fun _ => rfl⟩
  | append_singleton events a ih =>
    rw [List.filterMap_append] at h
    have hpre := ih fun id hid => h id (List.mem_append_left _ hid)
    rw [Transducer.feed_snoc, readAll_append, aggregated_snoc]
    refine hpre.encode ctx.requestId a fun id hid => h id (List.mem_append_right _ ?_)
    exact List.mem_filterMap.mpr ⟨a, List.mem_singleton_self a, hid⟩

/-- The role is sent with the first event that speaks. -/
theorem roleSent_feed (events : List StreamEvent) :
    ((encoder ctx includeUsage).feed (encoder ctx includeUsage).start events).1.roleSent =
      events.any speaks := by
  have role : ∀ e : OpenAiEncoder, e.ensureRole.1.roleSent = true := by
    intro e
    simp only [OpenAiEncoder.ensureRole]
    split
    next h => exact h
    · rfl
  induction events using List.reverseRecOn with
  | nil => rfl
  | append_singleton events a ih =>
    rw [Transducer.feed_snoc, List.any_append, ← ih]
    generalize ((encoder ctx includeUsage).feed _ events).1 = e
    cases a with
    | start _ | usage _ | finish _ =>
      simp [encoder, OpenAiEncoder.encode, speaks]
    | textDelta _ | refusalDelta _ | toolCallStart _ _ _ _ | toolCallArgsDelta _ _ =>
      simp [encoder, OpenAiEncoder.encode, OpenAiEncoder.say, role, speaks]
    | thinkingDelta t _ =>
      simp only [encoder, OpenAiEncoder.encode, OpenAiEncoder.say]
      split <;> simp [role, speaks]

/-- What a client has at the end of a stream that ends with its finish. -/
theorem assembled_of_finish {pre : List StreamEvent} {reason : FinishReason}
    (h : events = pre ++ [.finish reason]) :
    assembled ctx includeUsage events =
      { (({} : Assembled).readAll ((encoder ctx includeUsage).feed
          (encoder ctx includeUsage).start pre).2) with
        finishReason := some (openaiFinish reason) } := by
  have hquiet : ∀ (c : Assembled) (e : OpenAiEncoder),
      (c.readAll (e.encode (.finish reason)).2).readAll (e.encode (.finish reason)).1.finalize.2 =
        { c with finishReason := some (openaiFinish reason) } := by
    intro c e
    simp only [OpenAiEncoder.encode, OpenAiEncoder.finalize, OpenAiEncoder.usageChunk]
    cases e.includeUsage <;> cases e.usage <;> rfl
  subst h
  simp only [assembled, frames]
  rw [Transducer.feed_snoc, readAll_append, readAll_append]
  exact hquiet _ _

/-- The two messages are the same if text and arguments are given. -/
theorem message_iff {e : OpenAiEncoder} {c : Assembled} {g : Aggregate} (h : Follows e c g) :
    c.message = g.message ↔
      (e.roleSent = false ∨ g.text ≠ "") ∧ ∀ call ∈ g.toolCalls, call.args ≠ "" := by
  have hcontent : c.content = (if g.text = "" then none else some g.text) ↔
      e.roleSent = false ∨ g.text ≠ "" := by
    rw [h.content]
    cases hs : e.roleSent with
    | true => by_cases ht : g.text = "" <;> simp [ht]
    | false => simp [h.silent hs]
  have hcalls : (c.toolCalls.map fun call => (⟨call.id, call.name, call.args⟩ : MessageToolCall)) =
      (g.toolCalls.map fun call =>
        ⟨call.id, call.name, if call.args = "" then "{}" else call.args⟩) ↔
      ∀ call ∈ g.toolCalls, call.args ≠ "" := by
    rw [h.toolCalls, List.map_inj_left]
    refine forall₂_congr fun call _ => ?_
    by_cases ha : call.args = "" <;> simp [ha]
  simp only [Assembled.message, Aggregate.message, Message.mk.injEq, h.reasoning, true_and]
  rw [hcontent, hcalls]

/-- The streamed and the aggregated message agree exactly if text and arguments are given. -/
theorem agrees_iff_given (h : Normalized events) (usage : TokenUsage) :
    Agrees ctx includeUsage events usage ↔ TextGiven events ∧ ArgsGiven events := by
  obtain ⟨pre, reason, hfinish, -⟩ := h.finish
  have hids : ∀ id ∈ pre.filterMap (·.startedId), id.isSome := by
    have hids := h.ids
    rw [hfinish, List.filterMap_append] at hids
    exact fun id hid => hids id (List.mem_append_left _ hid)
  have hfollows : Follows ((encoder ctx includeUsage).feed (encoder ctx includeUsage).start pre).1
      _ _ := follows_feed hids
  have hmessage := message_iff hfollows
  have haggregated : aggregated ctx.requestId events =
      { aggregated ctx.requestId pre with finish := reason } := by
    rw [hfinish, aggregated_snoc]
    rfl
  have htext : (aggregated ctx.requestId pre).text ≠ "" ↔
      textOf events ≠ "" ∨ refusalOf events ≠ "" := by
    have hempty := aggregated_text ctx.requestId events
    rw [haggregated] at hempty
    exact (not_congr hempty).trans not_and_or
  have hcalls : (aggregated ctx.requestId pre).toolCalls =
      callsOf (fun index => s!"call_{ctx.requestId}_{index}") events := by
    rw [← aggregated_calls, haggregated]
  have hspeaks : pre.any speaks = false ↔ ∀ a ∈ events, speaks a = false := by
    rw [hfinish, List.any_eq_false]
    simp [or_imp, forall_and, speaks]
  have hagree : Agrees ctx includeUsage events usage ↔
      (({} : Assembled).readAll ((encoder ctx includeUsage).feed
        (encoder ctx includeUsage).start pre).2).message =
          (aggregated ctx.requestId pre).message := by
    have hsame : (aggregate ctx.modelName ctx.requestId events usage).message =
        (aggregated ctx.requestId events).message := rfl
    have hreason : (aggregate ctx.modelName ctx.requestId events usage).finishReason =
        openaiFinish (aggregated ctx.requestId events).finish := rfl
    rw [Agrees, assembled_of_finish hfinish, hsame, hreason, haggregated]
    exact and_iff_left rfl
  rw [hagree, hmessage, roleSent_feed, argsGiven_iff h.callsStarted h.nodup _, ← hcalls, hspeaks,
    htext, TextGiven, or_comm, or_assoc]

end Whole

end Kinetix.Frontends.OpenAi
