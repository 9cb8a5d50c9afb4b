import Mathlib.Data.List.Forall2
import Kinetix.Frontends.Anthropic.Protocol

/-!
# What a client assembles from an Anthropic stream

A client appends each delta to the block that it names. Here the blocks that it ends up with are
computed from the events alone.
-/

namespace Kinetix.Frontends.Anthropic
open Json StateMachine

/-- A block with what was appended to it. -/
structure Received where
  index : Nat
  block : ContentBlock
  text : String := ""
  thinking : String := ""
  signature : String := ""
  json : String := ""

def Received.append (r : Received) : Delta → Received
  | .text text => { r with text := r.text ++ text }
  | .thinking thinking => { r with thinking := r.thinking ++ thinking }
  | .signature signature => { r with signature := r.signature ++ signature }
  | .inputJson partialJson => { r with json := r.json ++ partialJson }

/-- The message as far as a client has it; the latest block comes first. -/
structure Assembled where
  blocks : List Received := []
  stopReason : Option String := none

namespace Assembled

def read (c : Assembled) : Frame → Assembled
  | .contentBlockStart index block => { c with blocks := { index, block } :: c.blocks }
  | .contentBlockDelta index delta =>
    { c with blocks := c.blocks.map fun r => if r.index = index then r.append delta else r }
  | .messageDelta stopReason _ => { c with stopReason := some stopReason }
  | .messageStart _ _ | .contentBlockStop _ | .messageStop | .error _ => c

def readAll (c : Assembled) (out : List Frame) : Assembled := out.foldl read c

end Assembled

/-- The input of a tool; a call without argument text has an empty object. -/
def clientInput (J : SerdeJson) (json : String) : Option Value :=
  if json = "" then some (.object []) else J.fromStr json

def Received.content (J : SerdeJson) (r : Received) : Option Content :=
  match r.block with
  | .text => some (.text r.text)
  | .thinking => some (.thinking r.thinking r.signature)
  | .toolUse id name => (clientInput J r.json).map (.toolUse id name)

/-- The content; a tool whose input cannot be read has none. -/
def Assembled.content (J : SerdeJson) (c : Assembled) : List (Option Content) :=
  c.blocks.reverse.map (·.content J)

/-! ## The blocks from the events -/

/-- A block of an answer; a tool with the index of its call. -/
inductive Shown where
  | text (text : String)
  | thinking (thinking signature : String)
  | tool (index : Nat) (id name args : String)

namespace Shown

/-- Text goes into the latest block, unless that is one of thinking; a tool does not show it. -/
def addText (t : String) : List Shown → List Shown
  | .text earlier :: rest => .text (earlier ++ t) :: rest
  | .tool index id name args :: rest => .tool index id name args :: rest
  | .thinking earlier signed :: rest => .text t :: .thinking earlier signed :: rest
  | [] => [.text t]

def addThinking (t signature : String) : List Shown → List Shown
  | .thinking earlier signed :: rest => .thinking (earlier ++ t) (signed ++ signature) :: rest
  | .tool index id name args :: rest => .thinking t signature :: .tool index id name args :: rest
  | .text earlier :: rest => .thinking t signature :: .text earlier :: rest
  | [] => [.thinking t signature]

def addArgs (index : Nat) (args : String) : Shown → Shown
  | .tool i id name earlier =>
    if i = index then .tool i id name (earlier ++ args) else .tool i id name earlier
  | s => s

def step (requestId : String) (shown : List Shown) : StreamEvent → List Shown
  | .textDelta t => addText t shown
  | .refusalDelta t => addText t shown
  | .thinkingDelta t signature => addThinking t (signature.getD "") shown
  | .toolCallStart index id name _ => .tool index (toolId requestId index id) name "" :: shown
  | .toolCallArgsDelta index args => shown.map (addArgs index args)
  | .start _ | .usage _ | .finish _ => shown

/-- The index of the call of a tool. -/
def call : Shown → Option Nat
  | .tool index _ _ _ => some index
  | _ => none

/-- How the encoder remembers the block while it is open. -/
def state : Shown → BlockState
  | .thinking _ _ => .thinking
  | .text _ | .tool _ _ _ _ => .text

end Shown

/-- The blocks that a stream shows, the latest first. -/
def streamed (requestId : String) (events : List StreamEvent) : List Shown :=
  events.foldl (Shown.step requestId) []

theorem streamed_snoc (requestId : String) (events : List StreamEvent) (a : StreamEvent) :
    streamed requestId (events ++ [a]) = Shown.step requestId (streamed requestId events) a := by
  rw [streamed, List.foldl_append]
  rfl

/-- A client has what a block shows, and the encoder knows the block of a call. -/
structure Shows (toolBlocks : Nat → Option (Nat × String × String)) (r : Received) (s : Shown) :
    Prop where
  content : match s with
    | .text t => r.block = .text ∧ r.text = t
    | .thinking t signature => r.block = .thinking ∧ r.thinking = t ∧ r.signature = signature
    | .tool _ id name args => r.block = .toolUse id name ∧ r.json = args
  call : ∀ i, (toolBlocks i).map (·.1) = some r.index ↔ s.call = some i

/-- The client has what the events show, and the encoder knows where. -/
structure Follows (requestId : String) (shown : List Shown) (e : AnthropicEncoder)
    (c : Assembled) : Prop where
  requestId_eq : e.ctx.requestId = requestId
  index : c.blocks.map (·.index) = (List.range e.nextIndex).reverse
  blocks : List.Forall₂ (Shows e.toolBlocks) c.blocks shown
  openBlock : e.openBlock = shown.head?.map fun s => (e.nextIndex - 1, s.state)
  lt : ∀ i b, (e.toolBlocks i).map (·.1) = some b → b < e.nextIndex
  stopReason : c.stopReason = none

theorem follows_initial (ctx : EncoderCtx) :
    Follows ctx.requestId [] (encoder ctx).start {} where
  requestId_eq := rfl
  index := rfl
  blocks := .nil
  openBlock := rfl
  lt _ _ h := by cases h
  stopReason := rfl

theorem readAll_append (c : Assembled) (out more : List Frame) :
    c.readAll (out ++ more) = (c.readAll out).readAll more :=
  List.foldl_append

/-- Pairs of elements may be related anew. -/
theorem forall₂_imp_mem {α β : Type} {R S : α → β → Prop} {as : List α} {bs : List β}
    (h : List.Forall₂ R as bs) (himp : ∀ a ∈ as, ∀ b ∈ bs, R a b → S a b) :
    List.Forall₂ S as bs := by
  rw [List.forall₂_iff_zip] at h ⊢
  refine ⟨h.1, fun {a b} hmem => ?_⟩
  obtain ⟨ha, hb⟩ := List.of_mem_zip hmem
  exact himp a ha b hb (h.2 hmem)

@[simp] theorem append_index (r : Received) (delta : Delta) :
    (r.append delta).index = r.index := by
  cases delta <;> rfl

namespace Follows
variable {requestId : String} {shown : List Shown} {e : AnthropicEncoder} {c : Assembled}

/-- What the frames do not show. -/
theorem congr (h : Follows requestId shown e c) {e' : AnthropicEncoder} (hc : e'.ctx = e.ctx)
    (hn : e'.nextIndex = e.nextIndex) (ho : e'.openBlock = e.openBlock)
    (ht : e'.toolBlocks = e.toolBlocks) : Follows requestId shown e' c where
  requestId_eq := by rw [hc]; exact h.requestId_eq
  index := by rw [hn]; exact h.index
  blocks := by rw [ht]; exact h.blocks
  openBlock := by rw [ho, hn]; exact h.openBlock
  lt := by rw [ht, hn]; exact h.lt
  stopReason := h.stopReason

theorem emitStart (h : Follows requestId shown e c) :
    Follows requestId shown e.emitStart.1 (c.readAll e.emitStart.2) := by
  simp only [AnthropicEncoder.emitStart]
  split
  · exact h
  · exact h.congr rfl rfl rfl rfl

theorem openNext_read (c : Assembled) (e : AnthropicEncoder) (block : ContentBlock)
    (state : BlockState) : c.readAll (e.openNext block state).2 =
      { c with blocks := { index := e.nextIndex, block } :: c.blocks } := by
  simp only [AnthropicEncoder.openNext, AnthropicEncoder.closeOpenBlock]
  split <;> rfl

/-- The next block of text or thinking is the latest. -/
theorem openNext (h : Follows requestId shown e c) (block : ContentBlock) {s : Shown}
    (hcall : s.call = none)
    (hs : Shows (fun _ => none) { index := e.nextIndex, block } s) :
    Follows requestId (s :: shown) (e.openNext block s.state).1
      (c.readAll (e.openNext block s.state).2) := by
  rw [openNext_read, openNext_fst]
  refine ⟨h.requestId_eq, ?_, .cons ⟨hs.content, ?_⟩ h.blocks, rfl, ?_, h.stopReason⟩
  · simp [List.range_succ, h.index]
  · intro i
    simp only [hcall, reduceCtorEq, iff_false]
    exact fun hb => Nat.lt_irrefl _ (h.lt i _ hb)
  · exact fun i b hb => Nat.lt_succ_of_lt (h.lt i b hb)

/-- The block of a call that starts is the latest. -/
theorem openToolBlock (h : Follows requestId shown e c) {index : Nat}
    (hnew : index ∉ shown.filterMap (·.call)) (id name : String) :
    Follows requestId (.tool index id name "" :: shown) (e.openToolBlock index id name).1
      (c.readAll (e.openToolBlock index id name).2) := by
  have hread : c.readAll (e.openToolBlock index id name).2 =
      { c with blocks := { index := e.nextIndex, block := .toolUse id name } :: c.blocks } :=
    openNext_read c e (.toolUse id name) .text
  rw [hread, openToolBlock_fst]
  have hlt : ∀ r ∈ c.blocks, r.index < e.nextIndex := by
    intro r hr
    have hmem := List.mem_map_of_mem (f := (·.index)) hr
    rw [h.index, List.mem_reverse] at hmem
    exact List.mem_range.mp hmem
  refine ⟨h.requestId_eq, ?_, .cons ⟨⟨rfl, rfl⟩, ?_⟩ ?_, rfl, ?_, h.stopReason⟩
  · simp [List.range_succ, h.index]
  · intro i
    by_cases hi : i = index
    · simp [hi, Shown.call]
    · simp only [Function.update_of_ne hi, Shown.call, Option.some.injEq, Ne.symm hi, iff_false]
      exact fun hb => Nat.lt_irrefl _ (h.lt i _ hb)
  · -- The blocks of earlier calls are the same as before.
    have hkeep : ∀ r ∈ c.blocks, ∀ s ∈ shown, Shows e.toolBlocks r s → Shows
        (Function.update e.toolBlocks index (some (e.nextIndex, id, name))) r s := by
      intro r hr s hmem hs
      refine ⟨hs.content, fun i => ?_⟩
      by_cases hi : i = index
      · have hne : s.call ≠ some index := fun hcall =>
          hnew (List.mem_filterMap.mpr ⟨s, hmem, hcall⟩)
        simp only [hi, Function.update_self, Option.map_some, Option.some.injEq, hne, iff_false]
        exact fun heq => Nat.lt_irrefl _ (heq ▸ hlt r hr)
      · simp only [Function.update_of_ne hi]
        exact hs.call i
    exact forall₂_imp_mem h.blocks hkeep
  · intro i b hb
    by_cases hi : i = index
    · simp only [hi, Function.update_self, Option.map_some, Option.some.injEq] at hb
      exact hb ▸ Nat.lt_succ_self _
    · simp only [Function.update_of_ne hi] at hb
      exact Nat.lt_succ_of_lt (h.lt i b hb)

/-- A delta of the open block goes to the latest block. -/
theorem deltaHead {s s' : Shown} (h : Follows requestId (s :: shown) e c) (delta : Delta)
    (hs : ∀ r, Shows e.toolBlocks r s → Shows e.toolBlocks (r.append delta) s')
    (hstate : s'.state = s.state) :
    Follows requestId (s' :: shown) e (c.readAll [.contentBlockDelta e.openIndex delta]) := by
  obtain ⟨requestId_eq, index, blocks, openBlock, lt, stopReason⟩ := h
  obtain ⟨list, reason⟩ := c
  cases blocks with
  | @cons r _ rest _ hr hrest =>
    obtain ⟨n, hn⟩ : ∃ n, e.nextIndex = n + 1 := by
      cases hn : e.nextIndex with
      | zero => simp [hn] at index
      | succ n => exact ⟨n, rfl⟩
    rw [hn, List.range_succ, List.reverse_append, List.reverse_singleton,
      List.singleton_append] at index
    obtain ⟨hindex, htail⟩ := List.cons.inj index
    have hopen : e.openIndex = n := by simp [AnthropicEncoder.openIndex, openBlock, hn]
    have hkeep : (rest.map fun t => if t.index = n then t.append delta else t) = rest := by
      conv_rhs => rw [← List.map_id rest]
      refine List.map_congr_left fun t ht => if_neg fun ht' => ?_
      have hmem := List.mem_map_of_mem (f := (·.index)) ht
      rw [htail, List.mem_reverse, List.mem_range] at hmem
      omega
    have hread : (⟨r :: rest, reason⟩ : Assembled).readAll
        [.contentBlockDelta e.openIndex delta] = ⟨r.append delta :: rest, reason⟩ := by
      simp only [Assembled.readAll, List.foldl_cons, List.foldl_nil, Assembled.read,
        List.map_cons, hopen, hkeep, hindex, if_pos]
    rw [hread]
    refine ⟨requestId_eq, ?_, .cons (hs r hr) hrest, ?_, lt, stopReason⟩
    · rw [hn, List.range_succ, List.reverse_append, List.reverse_singleton]
      simpa using ⟨hindex, htail⟩
    · simpa [hstate] using openBlock

variable {toolBlocks : Nat → Option (Nat × String × String)} {r : Received}

/-- A text delta of a block of text. -/
theorem shows_text {earlier : String} (h : Shows toolBlocks r (.text earlier)) (t : String) :
    Shows toolBlocks (r.append (.text t)) (.text (earlier ++ t)) :=
  ⟨⟨h.content.1, congrArg (· ++ t) h.content.2⟩, h.call⟩

/-- A text delta of a block of a tool is not shown. -/
theorem shows_tool {index : Nat} {id name args : String}
    (h : Shows toolBlocks r (.tool index id name args)) (t : String) :
    Shows toolBlocks (r.append (.text t)) (.tool index id name args) :=
  ⟨h.content, h.call⟩

theorem shows_thinking {earlier signed : String}
    (h : Shows toolBlocks r (.thinking earlier signed)) (t : String) :
    Shows toolBlocks (r.append (.thinking t)) (.thinking (earlier ++ t) signed) :=
  ⟨⟨h.content.1, congrArg (· ++ t) h.content.2.1, h.content.2.2⟩, h.call⟩

theorem shows_signature {earlier signed : String}
    (h : Shows toolBlocks r (.thinking earlier signed)) (t : String) :
    Shows toolBlocks (r.append (.signature t)) (.thinking earlier (signed ++ t)) :=
  ⟨⟨h.content.1, h.content.2.1, congrArg (· ++ t) h.content.2.2⟩, h.call⟩

theorem encodeText (h : Follows requestId shown e c) (t : String) :
    Follows requestId (Shown.addText t shown) (e.encodeText t).1
      (c.readAll (e.encodeText t).2) := by
  have hstart := h.emitStart
  simp only [AnthropicEncoder.encodeText]
  rw [readAll_append, readAll_append]
  generalize e.emitStart.1 = e₁ at hstart
  generalize c.readAll e.emitStart.2 = c₁ at hstart
  have hopen := hstart.openBlock
  have next : ∀ rest : List Shown, Follows requestId rest e₁ c₁ →
      Follows requestId (.text t :: rest) (e₁.openNext .text .text).1
        ((c₁.readAll (e₁.openNext .text .text).2).readAll
          [.contentBlockDelta (e₁.openNext .text .text).1.openIndex (.text t)]) := by
    intro rest hrest
    have hnext := hrest.openNext .text (s := .text "") rfl ⟨⟨rfl, rfl⟩, by simp [Shown.call]⟩
    have hdelta := hnext.deltaHead (.text t) (fun r hr => shows_text hr t) rfl
    rwa [String.empty_append] at hdelta
  cases shown with
  | nil =>
    simp only [AnthropicEncoder.openTextBlock, hopen]
    exact next [] hstart
  | cons s rest =>
    cases s with
    | thinking earlier signed =>
      simp only [AnthropicEncoder.openTextBlock, hopen]
      exact next _ hstart
    | text earlier =>
      simp only [AnthropicEncoder.openTextBlock, hopen]
      exact hstart.deltaHead (.text t) (fun r hr => shows_text hr t) rfl
    | tool index id name args =>
      simp only [AnthropicEncoder.openTextBlock, hopen]
      exact hstart.deltaHead (.text t) (fun r hr => shows_tool hr t) rfl

/-- The frame of a signature, if it is not empty. -/
def signedFrames (block : Nat) : Option String → List Frame
  | some signature =>
    if signature ≠ "" then [.contentBlockDelta block (.signature signature)] else []
  | none => []

/-- An empty text is not sent, but shown it would be the same. -/
theorem encodeThinking (h : Follows requestId shown e c) (t : String)
    (signature : Option String) :
    Follows requestId (Shown.addThinking t (signature.getD "") shown)
      (e.encodeThinking t signature).1 (c.readAll (e.encodeThinking t signature).2) := by
  have hstart := h.emitStart
  simp only [AnthropicEncoder.encodeThinking]
  rw [readAll_append, readAll_append, readAll_append]
  generalize e.emitStart.1 = e₁ at hstart
  generalize c.readAll e.emitStart.2 = c₁ at hstart
  have deltas : ∀ (e₂ : AnthropicEncoder) (c₂ : Assembled) (earlier signed : String)
      (rest : List Shown), Follows requestId (.thinking earlier signed :: rest) e₂ c₂ →
      Follows requestId (.thinking (earlier ++ t) (signed ++ signature.getD "") :: rest) e₂
        ((c₂.readAll
          (if t ≠ "" then [.contentBlockDelta e₂.openIndex (.thinking t)] else [])).readAll
          (signedFrames e₂.openIndex signature)) := by
    intro e₂ c₂ earlier signed rest hopen
    have hthinking : Follows requestId (.thinking (earlier ++ t) signed :: rest) e₂
        (c₂.readAll (if t ≠ "" then [.contentBlockDelta e₂.openIndex (.thinking t)] else [])) := by
      split
      · exact hopen.deltaHead (.thinking t) (fun r hr => shows_thinking hr t) rfl
      next ht =>
        rw [not_not.mp ht, String.append_empty]
        exact hopen
    cases signature with
    | none =>
      rw [Option.getD_none, String.append_empty]
      exact hthinking
    | some signature =>
      simp only [Option.getD_some, signedFrames]
      generalize c₂.readAll _ = c₃ at hthinking ⊢
      split
      · exact hthinking.deltaHead (.signature signature)
          (fun r hr => shows_signature hr signature) rfl
      next hs =>
        rw [not_not.mp hs, String.append_empty]
        exact hthinking
  have hopen := hstart.openBlock
  have next : ∀ rest : List Shown, Follows requestId rest e₁ c₁ →
      Follows requestId (.thinking "" "" :: rest) (e₁.openNext .thinking .thinking).1
        (c₁.readAll (e₁.openNext .thinking .thinking).2) := fun rest hrest =>
    hrest.openNext .thinking (s := .thinking "" "") rfl ⟨⟨rfl, rfl, rfl⟩, by simp [Shown.call]⟩
  have first : ∀ rest : List Shown, Follows requestId rest e₁ c₁ → _ := fun rest hrest =>
    deltas _ _ _ _ _ (next rest hrest)
  simp only [String.empty_append] at first
  cases shown with
  | nil =>
    simp only [AnthropicEncoder.openThinkingBlock, hopen]
    exact first [] hstart
  | cons s rest =>
    cases s with
    | text earlier | tool index id name args =>
      simp only [AnthropicEncoder.openThinkingBlock, hopen]
      exact first _ hstart
    | thinking earlier signed =>
      simp only [AnthropicEncoder.openThinkingBlock, hopen]
      exact deltas _ _ _ _ _ hstart

/-- Arguments go to the block of their call. -/
theorem encodeArgs (h : Follows requestId shown e c) {index : Nat}
    (hknown : index ∈ shown.filterMap (·.call)) (args : String) :
    Follows requestId (shown.map (Shown.addArgs index args)) e
      (c.readAll [.contentBlockDelta (e.argsBlock index) (.inputJson args)]) := by
  obtain ⟨s, hs, hcall⟩ := List.mem_filterMap.mp hknown
  obtain ⟨b, hb⟩ : ∃ b, (e.toolBlocks index).map (·.1) = some b := by
    have hlength := h.blocks.length_eq
    obtain ⟨k, hk, rfl⟩ := List.getElem_of_mem hs
    have hpair := h.blocks.get (i := k) (by omega) hk
    exact ⟨_, (hpair.call index).mpr hcall⟩
  have hargs : e.argsBlock index = b := by simp [AnthropicEncoder.argsBlock, hb]
  have hmap : (c.blocks.map fun r => if r.index = b then r.append (.inputJson args) else r).map
      (·.index) = c.blocks.map (·.index) := by
    rw [List.map_map]
    refine List.map_congr_left fun r _ => ?_
    simp only [Function.comp_apply]
    split <;> simp
  have hread : c.readAll [.contentBlockDelta (e.argsBlock index) (.inputJson args)] =
      { c with blocks := c.blocks.map fun r =>
          if r.index = b then r.append (.inputJson args) else r } := by
    rw [hargs]
    rfl
  rw [hread]
  refine ⟨h.requestId_eq, hmap.trans h.index, ?_, ?_, h.lt, h.stopReason⟩
  · rw [List.forall₂_map_left_iff, List.forall₂_map_right_iff]
    refine h.blocks.imp fun r s hs => ?_
    have hiff : r.index = b ↔ s.call = some index := by
      rw [← hs.call index, hb, Option.some.injEq, eq_comm]
    cases s with
    | text t | thinking t signature =>
      rw [if_neg (by simp [hiff, Shown.call])]
      exact hs
    | tool i id name earlier =>
      by_cases hi : i = index
      · rw [if_pos (by simp [hiff, Shown.call, hi]), Shown.addArgs, if_pos hi]
        exact ⟨⟨hs.content.1, congrArg (· ++ args) hs.content.2⟩, hs.call⟩
      · rw [if_neg (by simp [hiff, Shown.call, hi]), Shown.addArgs, if_neg hi]
        exact hs
  · rw [h.openBlock, List.head?_map]
    cases shown.head? with
    | none => rfl
    | some s =>
      cases s with
      | text _ | thinking _ _ => rfl
      | tool i id name earlier =>
        simp only [Option.map_some, Shown.addArgs]
        split <;> rfl

theorem encode (h : Follows requestId shown e c) (a : StreamEvent)
    (hnew : ∀ index ∈ a.startedCall, index ∉ shown.filterMap (·.call))
    (hknown : ∀ index args, a = .toolCallArgsDelta index args →
      index ∈ shown.filterMap (·.call)) :
    Follows requestId (Shown.step requestId shown a) (e.encode a).1 (c.readAll (e.encode a).2) := by
  cases a with
  | start _ => exact h.emitStart
  | textDelta t | refusalDelta t => exact h.encodeText t
  | thinkingDelta t signature => exact h.encodeThinking t signature
  | toolCallStart index id name _ =>
    have hstart := h.emitStart
    have hopen := hstart.openToolBlock (hnew index rfl) (toolId requestId index id) name
    rw [← readAll_append] at hopen
    simp only [AnthropicEncoder.encode, hstart.requestId_eq]
    exact hopen
  | toolCallArgsDelta index args => exact h.encodeArgs (hknown index args rfl) args
  | usage _ | finish _ => exact h.congr rfl rfl rfl rfl

end Follows

/-- The calls that are shown are those that have started. -/
theorem streamed_calls (requestId : String) (events : List StreamEvent) :
    (streamed requestId events).filterMap (·.call) = (startedCalls events).reverse := by
  have text : ∀ t (shown : List Shown), (Shown.addText t shown).filterMap (·.call) =
      shown.filterMap (·.call) := by
    intro t shown
    match shown with
    | [] | .text _ :: _ | .thinking _ _ :: _ | .tool _ _ _ _ :: _ => rfl
  have thinking :
      ∀ t signature (shown : List Shown), (Shown.addThinking t signature shown).filterMap (·.call) =
      shown.filterMap (·.call) := by
    intro t signature shown
    match shown with
    | [] | .text _ :: _ | .thinking _ _ :: _ | .tool _ _ _ _ :: _ => rfl
  have args :
      ∀ index args (shown : List Shown), (shown.map (Shown.addArgs index args)).filterMap (·.call) =
      shown.filterMap (·.call) := by
    intro index args shown
    rw [List.filterMap_map]
    refine List.filterMap_congr fun s _ => ?_
    cases s with
    | text _ | thinking _ _ => rfl
    | tool i id name earlier =>
      simp only [Function.comp_apply, Shown.addArgs]
      split <;> rfl
  induction events using List.reverseRecOn with
  | nil => rfl
  | append_singleton events a ih =>
    rw [streamed_snoc, startedCalls_snoc]
    cases a with
    | textDelta t | refusalDelta t =>
      simpa [Shown.step, StreamEvent.startedCall] using (text t _).trans ih
    | thinkingDelta t signature =>
      simpa [Shown.step, StreamEvent.startedCall] using (thinking t _ _).trans ih
    | toolCallArgsDelta index t =>
      simpa [Shown.step, StreamEvent.startedCall] using (args index t _).trans ih
    | toolCallStart index id name _ =>
      simpa [Shown.step, StreamEvent.startedCall, Shown.call] using ih
    | start _ | usage _ | finish _ => simpa [Shown.step, StreamEvent.startedCall] using ih

/-- A client follows every stream. -/
theorem follows_feed (ctx : EncoderCtx) (events : List StreamEvent) (h : CallsStarted events)
    (hnodup : (startedCalls events).Nodup) :
    Follows ctx.requestId (streamed ctx.requestId events)
      ((encoder ctx).feed (encoder ctx).start events).1
      (({} : Assembled).readAll ((encoder ctx).feed (encoder ctx).start events).2) := by
  induction events using List.reverseRecOn with
  | nil => exact follows_initial ctx
  | append_singleton events a ih =>
    obtain ⟨hpre, ha⟩ := each_snoc.mp h
    rw [startedCalls_snoc, List.nodup_append] at hnodup
    have hfollows := ih hpre hnodup.1
    rw [(encoder ctx).feed_snoc, readAll_append, streamed_snoc]
    refine hfollows.encode a ?_ ?_
    · intro index hi hmem
      rw [streamed_calls, List.mem_reverse] at hmem
      exact hnodup.2.2 index hmem index (Option.mem_toList.mpr hi) rfl
    · rintro index args rfl
      rw [streamed_calls, List.mem_reverse]
      exact ha

/-- The frames of the end add the stop reason. -/
theorem finalize_read (c : Assembled) (e : AnthropicEncoder) (h : e.stopReasonSent = false) :
    c.readAll e.finalize.2 =
      { c with stopReason := some (AnthropicEncoder.stopReason e.finish) } := by
  simp only [AnthropicEncoder.finalize, AnthropicEncoder.emitStart,
    AnthropicEncoder.closeOpenBlock]
  split <;> split <;> simp [Assembled.readAll, Assembled.read, h]

/-- What a client has of a whole stream. -/
def assembled (ctx : EncoderCtx) (events : List StreamEvent) : Assembled :=
  ({} : Assembled).readAll (frames ctx events)

/-- What a block reads as. -/
def Shown.content (J : SerdeJson) : Shown → Option Content
  | .text t => some (.text t)
  | .thinking t signature => some (.thinking t signature)
  | .tool _ id name args => (clientInput J args).map (.toolUse id name)

/-- The content that a client assembles is the one computed from the events. -/
theorem assembled_content (J : SerdeJson) (ctx : EncoderCtx) {events : List StreamEvent}
    (h : CallsStarted events) (hnodup : (startedCalls events).Nodup) :
    (assembled ctx events).content J =
      ((streamed ctx.requestId events).map (·.content J)).reverse := by
  have hfollows := follows_feed ctx events h hnodup
  have hread : (assembled ctx events).blocks = (({} : Assembled).readAll
      ((encoder ctx).feed (encoder ctx).start events).2).blocks := by
    simp only [assembled, frames]
    rw [readAll_append, finalize_read _ _ (stopReasonSent_feed ctx events)]
  rw [Assembled.content, hread, ← List.map_reverse]
  have hblocks := hfollows.blocks
  generalize Assembled.blocks _ = blocks at hblocks ⊢
  generalize streamed ctx.requestId events = shown at hblocks ⊢
  rw [List.map_reverse, List.map_reverse]
  congr 1
  induction hblocks with
  | nil => rfl
  | @cons r s _ _ hs _ ih =>
    rw [List.map_cons, List.map_cons, ih]
    congr 1
    cases s with
    | text t => simp [Received.content, Shown.content, hs.content.1, hs.content.2]
    | thinking t signature =>
      simp [Received.content, Shown.content, hs.content.1, hs.content.2.1, hs.content.2.2]
    | tool i id name args =>
      simp [Received.content, Shown.content, hs.content.1, hs.content.2]

end Kinetix.Frontends.Anthropic
