import Kinetix.Frontends.Anthropic.Encoder

/-!
# The protocol of an Anthropic stream

A client that reads the frames of a message follows a small machine: one block at a time is open,
and its deltas fit it. The encoder's frames take the machine to its end when the events come in
turns: no text while the block opened last is a tool call, and no arguments but those of that call.
-/

namespace Kinetix.Frontends.Anthropic
open StateMachine

/-! ## What a client reads -/

/-- The type of a content block. -/
inductive BlockKind where
  | text
  | thinking
  | toolUse
  deriving DecidableEq

def ContentBlock.kind : ContentBlock → BlockKind
  | .text => .text
  | .thinking => .thinking
  | .toolUse _ _ => .toolUse

/-- The type of block that a delta belongs to. -/
def Delta.kind : Delta → BlockKind
  | .text _ => .text
  | .thinking _ => .thinking
  | .signature _ => .thinking
  | .inputJson _ => .toolUse

/-- How far a client is in a message. -/
inductive Reader where
  | initial
  /-- The message has started; so many blocks were opened, and one of them may be open. -/
  | streaming (opened : Nat) (current : Option (Nat × BlockKind))
  /-- The message delta was read. -/
  | closing
  | stopped
  deriving DecidableEq

def Reader.step : Reader → Frame → Option Reader
  | .initial, .messageStart _ _ => some (.streaming 0 none)
  | .streaming n none, .contentBlockStart index block =>
    if index = n then some (.streaming (n + 1) (some (index, block.kind))) else none
  | .streaming n (some (current, kind)), .contentBlockDelta index delta =>
    if index = current ∧ delta.kind = kind then some (.streaming n (some (current, kind)))
    else none
  | .streaming n (some (current, _)), .contentBlockStop index =>
    if index = current then some (.streaming n none) else none
  | .streaming _ none, .messageDelta _ _ => some .closing
  | .closing, .messageStop => some .stopped
  | _, _ => none

/-- The client of a message. -/
def client : Machine Reader Frame where
  start := .initial
  step := Reader.step

/-- The frames are a whole message. -/
def WellFormed (out : List Frame) : Prop := client.run out = some .stopped

instance (out : List Frame) : Decidable (WellFormed out) :=
  inferInstanceAs (Decidable (client.run out = some .stopped))

/-! ## Events that come in turns -/

/-- What the last content event opened. -/
inductive Turn where
  | none
  | text
  | thinking
  | tool (index : Nat)
  deriving DecidableEq

/-- Text and refusals come in blocks of text, but not directly after a tool call. -/
def Turn.textStep : Turn → Option Turn
  | .tool _ => Option.none
  | .none | .text | .thinking => some .text

def Turn.step (turn : Turn) : StreamEvent → Option Turn
  | .textDelta _ => turn.textStep
  | .refusalDelta _ => turn.textStep
  | .thinkingDelta _ _ => some .thinking
  | .toolCallStart index _ _ _ => some (.tool index)
  | .toolCallArgsDelta index _ => if turn = .tool index then some turn else Option.none
  | .start _ => some turn
  | .usage _ => some turn
  | .finish _ => some turn

def turns : Machine Turn StreamEvent where
  start := .none
  step := Turn.step

/-- No text comes directly after a tool call, and arguments come only for the call whose start is
the last content event before them. -/
def InTurns (events : List StreamEvent) : Prop := (turns.run events).isSome

instance (events : List StreamEvent) : Decidable (InTurns events) :=
  inferInstanceAs (Decidable (_ = true))

/-- The state in which the encoder keeps the open block, and its type. -/
def Turn.block : Turn → Option (BlockState × BlockKind)
  | .none => Option.none
  | .text => some (.text, .text)
  | .thinking => some (.thinking, .thinking)
  | .tool _ => some (.text, .toolUse)

/-- The encoder, the turn of the events and the client agree. -/
structure Tracks (pre : List StreamEvent) (e : AnthropicEncoder) (turn : Turn) (r : Reader) :
    Prop where
  /-- The client is where the encoder is. -/
  reader : r = if e.started then
      .streaming e.nextIndex (e.openBlock.bind fun b => turn.block.map fun k => (b.1, k.2))
    else .initial
  /-- The open block is that of the turn. -/
  block : e.openBlock.map (·.2) = turn.block.map (·.1)
  fresh : e.started = false → e.nextIndex = 0 ∧ turn = .none
  /-- The block of a tool call is open while it is the call's turn. -/
  tool : ∀ index, turn = .tool index →
    e.openBlock.map (·.1) = (e.toolBlocks index).map (·.1)
  known : ∀ index ∈ startedCalls pre, (e.toolBlocks index).isSome
  /-- The blocks of other calls are closed. -/
  closed : ∀ index b, (e.toolBlocks index).map (·.1) = some b → e.started = true ∧
    b < e.nextIndex ∧ (e.openBlock.map (·.1) = some b → turn = .tool index)

theorem tracks_initial (ctx : EncoderCtx) :
    Tracks [] (encoder ctx).start turns.start client.start where
  reader := rfl
  block := rfl
  fresh _ := ⟨rfl, rfl⟩
  tool _ h := by cases h
  known _ h := by cases h
  closed _ _ h := by cases h

section Steps
variable {pre : List StreamEvent} {e : AnthropicEncoder} {turn : Turn} {r : Reader}

/-- An event that starts no call adds nothing to what is known. -/
theorem Tracks.snoc {a : StreamEvent} (h : Tracks pre e turn r)
    (ha : a.startedCall = none) : Tracks (pre ++ [a]) e turn r :=
  { h with known := by simpa [ha] using h.known }

/-- The client does not see the usage and the finish. -/
theorem Tracks.congr {e' : AnthropicEncoder} (h : Tracks pre e turn r)
    (hs : e'.started = e.started) (hn : e'.nextIndex = e.nextIndex)
    (ho : e'.openBlock = e.openBlock) (ht : e'.toolBlocks = e.toolBlocks) :
    Tracks pre e' turn r where
  reader := by rw [hs, hn, ho]; exact h.reader
  block := by rw [ho]; exact h.block
  fresh := by rw [hs, hn]; exact h.fresh
  tool := by rw [ho, ht]; exact h.tool
  known := by rw [ht]; exact h.known
  closed := by rw [hs, hn, ho, ht]; exact h.closed

theorem Tracks.openBlock_none (h : Tracks pre e turn r) (ht : turn.block = none) :
    e.openBlock = none := by
  have hb := h.block
  rw [ht] at hb
  exact Option.map_eq_none_iff.mp hb

variable {state : BlockState}

/-- The block of the turn is open, and the client reads it. -/
theorem Tracks.openBlock_some (h : Tracks pre e turn r) (hs : e.started = true) {kind : BlockKind}
    (ht : turn.block = some (state, kind)) : e.openBlock = some (e.openIndex, state) ∧
      r = .streaming e.nextIndex (some (e.openIndex, kind)) := by
  have hb := h.block
  have hr := h.reader
  rw [ht] at hb hr
  cases hopen : e.openBlock with
  | none =>
    rw [hopen] at hb
    cases hb
  | some b =>
    rw [hopen] at hb hr
    obtain ⟨index, state'⟩ := b
    cases hb
    simp only [AnthropicEncoder.openIndex, hopen]
    refine ⟨rfl, ?_⟩
    simpa [hs] using hr

/-- After `message_start` the encoder and the client have started. -/
theorem Tracks.emitStart (h : Tracks pre e turn r) :
    ∃ r', client.runFrom r e.emitStart.2 = some r' ∧ Tracks pre e.emitStart.1 turn r' ∧
      e.emitStart.1.started = true := by
  cases hs : e.started with
  | true =>
    simp only [AnthropicEncoder.emitStart, hs]
    exact ⟨r, rfl, h, hs⟩
  | false =>
    obtain ⟨hn, ht⟩ := h.fresh hs
    have hopen := h.openBlock_none (by simp [ht, Turn.block])
    have hr : r = .initial := by simpa [hs] using h.reader
    simp only [AnthropicEncoder.emitStart, hs, hr]
    refine ⟨.streaming 0 none, rfl, ?_, rfl⟩
    exact { h with
      reader := by simp [hn, hopen]
      fresh := by simp
      closed := fun index b hb => ⟨rfl, (h.closed index b hb).2⟩ }

theorem Tracks.closeOpenBlock_run (h : Tracks pre e turn r) (hs : e.started = true) :
    client.runFrom r e.closeOpenBlock.2 = some (.streaming e.nextIndex none) := by
  cases ht : turn.block with
  | none =>
    have hopen := h.openBlock_none ht
    have hr := h.reader
    rw [hopen] at hr
    simp only [AnthropicEncoder.closeOpenBlock, hopen, Machine.runFrom_nil]
    simpa [hs] using hr
  | some b =>
    obtain ⟨hopen, hr⟩ := h.openBlock_some hs ht
    simp only [AnthropicEncoder.closeOpenBlock]
    rw [hopen, hr]
    simp [Machine.runFrom, client, Reader.step]

theorem openNext_fst (e : AnthropicEncoder) (block : ContentBlock) (state : BlockState) :
    (e.openNext block state).1 =
      { e with nextIndex := e.nextIndex + 1, openBlock := some (e.nextIndex, state) } := by
  simp only [AnthropicEncoder.openNext, AnthropicEncoder.closeOpenBlock]
  split <;> rfl

theorem openToolBlock_fst (e : AnthropicEncoder) (index : Nat) (id name : String) :
    (e.openToolBlock index id name).1 =
      { e with
        nextIndex := e.nextIndex + 1
        openBlock := some (e.nextIndex, .text)
        toolBlocks := Function.update e.toolBlocks index (some (e.nextIndex, id, name)) } := by
  simp only [AnthropicEncoder.openToolBlock, openNext_fst]
  simp only [AnthropicEncoder.closeOpenBlock]
  split <;> rfl

theorem Tracks.openNext_run (h : Tracks pre e turn r) (hs : e.started = true)
    (block : ContentBlock) (state : BlockState) :
    client.runFrom r (e.openNext block state).2 =
      some (.streaming (e.nextIndex + 1) (some (e.nextIndex, block.kind))) := by
  have hclose := h.closeOpenBlock_run hs
  have hnext : e.closeOpenBlock.1.nextIndex = e.nextIndex := by
    simp only [AnthropicEncoder.closeOpenBlock]
    split <;> rfl
  simp only [AnthropicEncoder.openNext]
  rw [Machine.runFrom_append, hclose, hnext]
  simp [Machine.runFrom, client, Reader.step]

/-- The next block of text or thinking. -/
theorem Tracks.openNext (h : Tracks pre e turn r) (hs : e.started = true) {block : ContentBlock}
    {turn' : Turn} (hblock : turn'.block = some (state, block.kind))
    (htool : ∀ index, turn' ≠ .tool index) : Tracks pre (e.openNext block state).1 turn'
      (.streaming (e.nextIndex + 1) (some (e.nextIndex, block.kind))) := by
  rw [openNext_fst]
  refine ⟨?_, ?_, ?_, ?_, h.known, ?_⟩
  · simp [hs, hblock]
  · simp [hblock]
  · simp [hs]
  · intro index ht
    exact absurd ht (htool index)
  · intro index b hb
    obtain ⟨-, hlt, -⟩ := h.closed index b hb
    refine ⟨hs, Nat.lt_succ_of_lt hlt, ?_⟩
    intro hopen
    cases hopen
    exact absurd hlt (Nat.lt_irrefl _)

/-- The block of a tool call that starts. -/
theorem Tracks.openToolBlock (h : Tracks pre e turn r) (hs : e.started = true) (index : Nat)
    (id : Option String) (callId name : String) (signature : Option String) :
    Tracks (pre ++ [.toolCallStart index id name signature])
      (e.openToolBlock index callId name).1 (.tool index)
      (.streaming (e.nextIndex + 1) (some (e.nextIndex, .toolUse))) := by
  rw [openToolBlock_fst]
  refine ⟨?_, rfl, ?_, ?_, ?_, ?_⟩
  · simp [hs, Turn.block]
  · simp [hs]
  · intro index' ht
    cases ht
    simp
  · intro index' hmem
    by_cases hi : index' = index
    · simp [hi]
    · have hpre : index' ∈ startedCalls pre := by
        simpa [StreamEvent.startedCall, hi] using hmem
      simpa [Function.update_of_ne hi] using h.known index' hpre
  · intro index' b hb
    by_cases hi : index' = index
    · subst hi
      simp only [Function.update_self, Option.map_some, Option.some.injEq] at hb
      subst hb
      exact ⟨hs, Nat.lt_succ_self _, fun _ => rfl⟩
    · simp only [Function.update_of_ne hi] at hb
      obtain ⟨-, hlt, -⟩ := h.closed index' b hb
      refine ⟨hs, Nat.lt_succ_of_lt hlt, ?_⟩
      intro hopen
      cases hopen
      exact absurd hlt (Nat.lt_irrefl _)

/-- A client takes a delta of the open block exactly if it fits the block's type. -/
theorem Tracks.delta (h : Tracks pre e turn r) (hs : e.started = true) {kind : BlockKind}
    (ht : turn.block = some (state, kind)) (delta : Delta) :
    client.runFrom r [.contentBlockDelta e.openIndex delta] =
      if delta.kind = kind then some r else none := by
  obtain ⟨-, hr⟩ := h.openBlock_some hs ht
  rw [hr]
  by_cases hk : delta.kind = kind
  · simp [Machine.runFrom, client, Reader.step, hk]
  · simp [Machine.runFrom, client, Reader.step, hk]

theorem Tracks.openTextBlock (h : Tracks pre e turn r) (hs : e.started = true)
    (ht : ∀ index, turn ≠ .tool index) :
    ∃ r', client.runFrom r e.openTextBlock.2 = some r' ∧
      Tracks pre e.openTextBlock.1 .text r' ∧ e.openTextBlock.1.started = true := by
  cases turn with
  | text =>
    obtain ⟨hopen, -⟩ := h.openBlock_some hs rfl
    simp only [AnthropicEncoder.openTextBlock, hopen]
    exact ⟨r, rfl, h, hs⟩
  | tool index => exact absurd rfl (ht index)
  | none =>
    have hopen := h.openBlock_none rfl
    simp only [AnthropicEncoder.openTextBlock, hopen]
    refine ⟨_, h.openNext_run hs .text .text, h.openNext hs rfl (by simp), ?_⟩
    rw [openNext_fst]
    exact hs
  | thinking =>
    obtain ⟨hopen, -⟩ := h.openBlock_some hs rfl
    simp only [AnthropicEncoder.openTextBlock, hopen]
    refine ⟨_, h.openNext_run hs .text .text, h.openNext hs rfl (by simp), ?_⟩
    rw [openNext_fst]
    exact hs

theorem Tracks.openThinkingBlock (h : Tracks pre e turn r) (hs : e.started = true) :
    ∃ r', client.runFrom r e.openThinkingBlock.2 = some r' ∧
      Tracks pre e.openThinkingBlock.1 .thinking r' ∧ e.openThinkingBlock.1.started = true := by
  have next : ∃ r', client.runFrom r (e.openNext .thinking .thinking).2 = some r' ∧
      Tracks pre (e.openNext .thinking .thinking).1 .thinking r' ∧
      (e.openNext .thinking .thinking).1.started = true := by
    refine ⟨_, h.openNext_run hs .thinking .thinking, h.openNext hs rfl (by simp), ?_⟩
    rw [openNext_fst]
    exact hs
  cases turn with
  | thinking =>
    obtain ⟨hopen, -⟩ := h.openBlock_some hs rfl
    simp only [AnthropicEncoder.openThinkingBlock, hopen]
    exact ⟨r, rfl, h, hs⟩
  | none =>
    have hopen := h.openBlock_none rfl
    simpa only [AnthropicEncoder.openThinkingBlock, hopen] using next
  | text | tool index =>
    obtain ⟨hopen, -⟩ := h.openBlock_some hs rfl
    simpa only [AnthropicEncoder.openThinkingBlock, hopen] using next

theorem Tracks.encodeText (h : Tracks pre e turn r) (text : String) :
    Option.Rel (Tracks pre (e.encodeText text).1) turn.textStep
      (client.runFrom r (e.encodeText text).2) := by
  obtain ⟨r₁, hr₁, h₁, hs₁⟩ := h.emitStart
  simp only [AnthropicEncoder.encodeText]
  rw [Machine.runFrom_append, Machine.runFrom_append, hr₁]
  by_cases ht : ∃ index, turn = .tool index
  · -- The block of the call is taken for a block of text, so the text goes into it.
    obtain ⟨index, rfl⟩ := ht
    obtain ⟨hopen, -⟩ := h₁.openBlock_some hs₁ rfl
    have hsame : e.emitStart.1.openTextBlock = (e.emitStart.1, []) := by
      simp only [AnthropicEncoder.openTextBlock, hopen]
    rw [hsame, Option.bind_some, Machine.runFrom_nil, Option.bind_some, h₁.delta hs₁ rfl]
    exact Option.Rel.none
  · have htext : turn.textStep = some .text := by
      cases turn with
      | tool index => exact absurd ⟨index, rfl⟩ ht
      | none | text | thinking => rfl
    obtain ⟨r₂, hr₂, h₂, hs₂⟩ := h₁.openTextBlock hs₁ fun index hi => ht ⟨index, hi⟩
    rw [htext, Option.bind_some, hr₂, Option.bind_some, h₂.delta hs₂ rfl]
    exact Option.Rel.some h₂

theorem Tracks.encodeThinking (h : Tracks pre e turn r) (text : String)
    (signature : Option String) :
    Option.Rel (Tracks pre (e.encodeThinking text signature).1) (some Turn.thinking)
      (client.runFrom r (e.encodeThinking text signature).2) := by
  obtain ⟨r₁, hr₁, h₁, hs₁⟩ := h.emitStart
  obtain ⟨r₂, hr₂, h₂, hs₂⟩ := h₁.openThinkingBlock hs₁
  have hdelta : ∀ (c : Prop) [Decidable c] (delta : Delta), delta.kind = .thinking →
      client.runFrom r₂ (if c then
        [.contentBlockDelta e.emitStart.1.openThinkingBlock.1.openIndex delta] else []) =
          some r₂ := by
    intro c _ delta hk
    split
    · rw [h₂.delta hs₂ rfl, if_pos hk]
    · rfl
  simp only [AnthropicEncoder.encodeThinking]
  rw [Machine.runFrom_append, Machine.runFrom_append, Machine.runFrom_append, hr₁,
    Option.bind_some, hr₂, Option.bind_some, hdelta _ _ rfl, Option.bind_some]
  cases signature with
  | none => exact Option.Rel.some h₂
  | some signature =>
    simp only
    rw [hdelta _ _ rfl]
    exact Option.Rel.some h₂

theorem Tracks.encodeToolStart (h : Tracks pre e turn r) (index : Nat) (id : Option String)
    (name : String) (signature : Option String) :
    Option.Rel (Tracks (pre ++ [.toolCallStart index id name signature])
        (e.encode (.toolCallStart index id name signature)).1)
      (some (Turn.tool index))
      (client.runFrom r (e.encode (.toolCallStart index id name signature)).2) := by
  obtain ⟨r₁, hr₁, h₁, hs₁⟩ := h.emitStart
  have hrun := h₁.openNext_run hs₁
    (.toolUse (toolId e.emitStart.1.ctx.requestId index id) name) .text
  simp only [AnthropicEncoder.encode]
  rw [Machine.runFrom_append, hr₁, Option.bind_some]
  refine hrun ▸ Option.Rel.some ?_
  exact h₁.openToolBlock hs₁ index id _ name signature

/-- The arguments of the call whose turn it is go into the open block; those of another call name
a block that is closed. -/
theorem Tracks.encodeArgs (h : Tracks pre e turn r) (index : Nat) (args : String)
    (hc : ArgsAfterStart pre (.toolCallArgsDelta index args)) :
    Option.Rel (Tracks (pre ++ [.toolCallArgsDelta index args]) e)
      (if turn = .tool index then some turn else none)
      (client.runFrom r [.contentBlockDelta (e.argsBlock index) (.inputJson args)]) := by
  obtain ⟨⟨b, call⟩, hb⟩ := Option.isSome_iff_exists.mp (h.known index hc)
  have hblock : (e.toolBlocks index).map (·.1) = some b := by rw [hb]; rfl
  have hargs : e.argsBlock index = b := by simp [AnthropicEncoder.argsBlock, hb]
  obtain ⟨hs, -, hturn⟩ := h.closed index b hblock
  rw [hargs]
  split
  next ht =>
    subst ht
    have hopen : e.openBlock.map (·.1) = some b := (h.tool index rfl).trans hblock
    have hindex : e.openIndex = b := by rw [AnthropicEncoder.openIndex, hopen]; rfl
    rw [← hindex, h.delta hs rfl]
    exact Option.Rel.some (h.snoc rfl)
  next ht =>
    have hne : e.openBlock.map (·.1) ≠ some b := fun hopen => ht (hturn hopen)
    have hrefused : client.runFrom r [.contentBlockDelta b (.inputJson args)] = none := by
      cases hk : turn.block with
      | none =>
        have hr := h.reader
        rw [h.openBlock_none hk, hs] at hr
        rw [hr]
        rfl
      | some k =>
        obtain ⟨hopen, hr⟩ := h.openBlock_some hs hk
        have hi : b ≠ e.openIndex := by
          rintro rfl
          exact hne (by rw [hopen]; rfl)
        rw [hr]
        simp [Machine.runFrom, client, Reader.step, hi]
    rw [hrefused]
    exact Option.Rel.none

/-- Each event that is in its turn gives frames that the client takes, and no other event does. -/
theorem Tracks.encode (h : Tracks pre e turn r) (a : StreamEvent) (hc : ArgsAfterStart pre a) :
    Option.Rel (Tracks (pre ++ [a]) (e.encode a).1) (turn.step a)
      (client.runFrom r (e.encode a).2) := by
  cases a with
  | start id =>
    obtain ⟨r', hr', h', -⟩ := h.emitStart
    exact hr' ▸ Option.Rel.some (h'.snoc rfl)
  | textDelta text | refusalDelta text => exact rel_imp (fun h' => h'.snoc rfl) (h.encodeText text)
  | thinkingDelta text signature =>
    exact rel_imp (fun h' => h'.snoc rfl) (h.encodeThinking text signature)
  | toolCallStart index id name signature => exact h.encodeToolStart index id name signature
  | toolCallArgsDelta index args => exact h.encodeArgs index args hc
  | usage u | finish reason =>
    refine Option.Rel.some (Tracks.snoc ?_ rfl)
    exact h.congr rfl rfl rfl rfl

/-- The end of the message is always taken. -/
theorem Tracks.finalize (h : Tracks pre e turn r) (hsent : e.stopReasonSent = false) :
    client.runFrom r e.finalize.2 = some .stopped := by
  obtain ⟨r₁, hr₁, h₁, hs₁⟩ := h.emitStart
  have hsent₁ : e.emitStart.1.closeOpenBlock.1.stopReasonSent = false := by
    simp only [AnthropicEncoder.emitStart, AnthropicEncoder.closeOpenBlock]
    split <;> split <;> exact hsent
  simp only [AnthropicEncoder.finalize, hsent₁]
  rw [Machine.runFrom_append, Machine.runFrom_append, Machine.runFrom_append, hr₁,
    Option.bind_some, h₁.closeOpenBlock_run hs₁]
  rfl

end Steps

/-- Only `finalize` sends the message delta. -/
theorem stopReasonSent_encode (e : AnthropicEncoder) (a : StreamEvent) :
    (e.encode a).1.stopReasonSent = e.stopReasonSent := by
  have hstart : e.emitStart.1.stopReasonSent = e.stopReasonSent := by
    simp only [AnthropicEncoder.emitStart]
    split <;> rfl
  have hnext : ∀ (e : AnthropicEncoder) block state,
      (e.openNext block state).1.stopReasonSent = e.stopReasonSent := by
    intro e block state
    rw [openNext_fst]
  have htext : ∀ e : AnthropicEncoder, e.openTextBlock.1.stopReasonSent = e.stopReasonSent := by
    intro e
    simp only [AnthropicEncoder.openTextBlock]
    split
    · rfl
    · exact hnext ..
  cases a with
  | start _ => exact hstart
  | textDelta text | refusalDelta text => exact (htext _).trans hstart
  | thinkingDelta text signature =>
    simp only [AnthropicEncoder.encode, AnthropicEncoder.encodeThinking,
      AnthropicEncoder.openThinkingBlock]
    split
    · exact hstart
    · exact (hnext ..).trans hstart
  | toolCallStart index id name signature =>
    simp only [AnthropicEncoder.encode, openToolBlock_fst]
    exact hstart
  | toolCallArgsDelta _ _ | usage _ | finish _ => rfl

/-- The encoder, the turns and the client agree on every stream. -/
theorem frames_track (ctx : EncoderCtx) (events : List StreamEvent) (h : CallsStarted events) :
    Option.Rel (Tracks events ((encoder ctx).feed (encoder ctx).start events).1)
      (turns.run events) (client.run ((encoder ctx).feed (encoder ctx).start events).2) :=
  (encoder ctx).feed_rel (C := ArgsAfterStart) (R := Tracks) (tracks_initial ctx)
    (fun _ _ _ _ a hc hr => hr.encode a hc) events h

theorem stopReasonSent_feed (ctx : EncoderCtx) (events : List StreamEvent) :
    ((encoder ctx).feed (encoder ctx).start events).1.stopReasonSent = false :=
  (encoder ctx).feed_induction (I := fun _ r => r.1.stopReasonSent = false) rfl
    (fun _ r a ih => (stopReasonSent_encode r.1 a).trans ih) events

/-- The frames of a stream are a whole message exactly if its events come in turns. -/
theorem wellFormed_iff_inTurns (ctx : EncoderCtx) (events : List StreamEvent)
    (h : CallsStarted events) : WellFormed (frames ctx events) ↔ InTurns events := by
  have hrel := frames_track ctx events h
  have hsent := stopReasonSent_feed ctx events
  simp only [WellFormed, InTurns, frames]
  rw [Machine.run_append]
  generalize turns.run events = turn at hrel ⊢
  generalize client.run ((encoder ctx).feed (encoder ctx).start events).2 = r at hrel ⊢
  cases hrel with
  | none => simp
  | some hr => simp [hr.finalize hsent]

/-- Thinking, a call with its arguments and, after more thinking, text. -/
theorem wellFormed_iff_inTurns_call :
    let events : List StreamEvent := [.thinkingDelta "look it up" none,
      .toolCallStart 0 (some "call_1") "search" none, .toolCallArgsDelta 0 "{}",
      .thinkingDelta "found" none, .textDelta "done", .finish .stop]
    InTurns events ∧ WellFormed (frames ⟨"model", "req", 0, {}⟩ events) := by
  exact ⟨by decide, (wellFormed_iff_inTurns _ _ (by decide)).mpr (by decide)⟩

/-- Text after a tool call goes into the block of the call. -/
theorem text_in_tool_block :
    ¬ ∀ (ctx : EncoderCtx) (events : List StreamEvent), CallsStarted events →
      WellFormed (frames ctx events) := by
  intro h
  have hwell := h ⟨"model", "req", 0, {}⟩ [.toolCallStart 0 (some "call_1") "search" none,
    .textDelta "done"] (by decide)
  exact absurd hwell (by decide)

end Kinetix.Frontends.Anthropic
