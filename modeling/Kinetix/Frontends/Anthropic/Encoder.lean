import Kinetix.Frontends.Events
import Mathlib.Logic.Function.Basic

/-!
# Anthropic answers

`AnthropicEncoder` of `frontends/anthropic.rs` for streams, and the Anthropic branch of
`aggregate_with_responses_fields` of `frontends/mod.rs` for answers without streaming: one fold over
the events, which remembers the call that started last.

## Implementation notes

A frame is one server-sent event; the constructor gives its type, the arguments what varies in its
data. The `HashMap` from tool indexes to blocks is a function. Block indexes do not wrap.
-/

namespace Kinetix.Frontends.Anthropic
open StateMachine

/-- The `content_block` of a `content_block_start`. -/
inductive ContentBlock where
  | text
  | thinking
  | toolUse (id name : String)
  deriving DecidableEq

/-- The `delta` of a `content_block_delta`. -/
inductive Delta where
  | text (text : String)
  | thinking (thinking : String)
  | signature (signature : String)
  | inputJson (partialJson : String)
  deriving DecidableEq

/-- An event of the stream. -/
inductive Frame where
  | messageStart (id model : String)
  | contentBlockStart (index : Nat) (block : ContentBlock)
  | contentBlockDelta (index : Nat) (delta : Delta)
  | contentBlockStop (index : Nat)
  | messageDelta (stopReason : String) (outputTokens : Nat)
  | messageStop
  | error (message : String)
  deriving DecidableEq

/-- The kind of an open block. -/
inductive BlockState where
  | text
  | thinking
  deriving DecidableEq

/-- `AnthropicEncoder`. -/
structure AnthropicEncoder where
  ctx : EncoderCtx
  started : Bool := false
  /-- A `u32` of the source, which wraps after 2^32 blocks; here it does not. -/
  nextIndex : Nat := 0
  openBlock : Option (Nat × BlockState) := none
  toolBlocks : Nat → Option (Nat × String × String) := fun _ => none
  usage : TokenUsage := {}
  finish : Option FinishReason := none
  stopReasonSent : Bool := false

/-- The id of a call that has none. -/
def toolId (requestId : String) (index : Nat) (id : Option String) : String :=
  id.getD s!"toolu_{requestId}_{index}"

namespace AnthropicEncoder

def messageId (e : AnthropicEncoder) : String := "msg_" ++ plainId e.ctx.requestId

/-- `message_start`, sent once. -/
def emitStart (e : AnthropicEncoder) : AnthropicEncoder × List Frame :=
  if e.started then (e, [])
  else ({ e with started := true }, [.messageStart e.messageId e.ctx.modelName])

/-- `close_open_block`. -/
def closeOpenBlock (e : AnthropicEncoder) : AnthropicEncoder × List Frame :=
  match e.openBlock with
  | some (index, _) => ({ e with openBlock := none }, [.contentBlockStop index])
  | none => (e, [])

/-- Close the open block and open the next one. -/
def openNext (e : AnthropicEncoder) (block : ContentBlock) (state : BlockState) :
    AnthropicEncoder × List Frame :=
  let (e, closed) := e.closeOpenBlock
  ({ e with nextIndex := e.nextIndex + 1, openBlock := some (e.nextIndex, state) },
    closed ++ [.contentBlockStart e.nextIndex block])

/-- Opens a text block, unless one is open. -/
def openTextBlock (e : AnthropicEncoder) : AnthropicEncoder × List Frame :=
  match e.openBlock with
  | some (_, .text) => (e, [])
  | _ => e.openNext .text .text

/-- Opens a thinking block, unless one is open. -/
def openThinkingBlock (e : AnthropicEncoder) : AnthropicEncoder × List Frame :=
  match e.openBlock with
  | some (_, .thinking) => (e, [])
  | _ => e.openNext .thinking .thinking

/-- A tool block is remembered as open in the state of a text block. -/
def openToolBlock (e : AnthropicEncoder) (index : Nat) (id name : String) :
    AnthropicEncoder × List Frame :=
  let block := (e.closeOpenBlock.1.nextIndex, id, name)
  let (e, out) := e.openNext (.toolUse id name) .text
  ({ e with toolBlocks := Function.update e.toolBlocks index (some block) }, out)

/-- The index of the open block. -/
def openIndex (e : AnthropicEncoder) : Nat := (e.openBlock.map (·.1)).getD 0

/-- The frames of text, and of a refusal. -/
def encodeText (e : AnthropicEncoder) (text : String) : AnthropicEncoder × List Frame :=
  let (e, start) := e.emitStart
  let (e, opened) := e.openTextBlock
  (e, start ++ opened ++ [.contentBlockDelta e.openIndex (.text text)])

/-- A thinking delta, and its signature after it. -/
def encodeThinking (e : AnthropicEncoder) (text : String) (signature : Option String) :
    AnthropicEncoder × List Frame :=
  let (e, start) := e.emitStart
  let (e, opened) := e.openThinkingBlock
  let thinking := if text ≠ "" then [.contentBlockDelta e.openIndex (.thinking text)] else []
  let signed := match signature with
    | some signature =>
      if signature ≠ "" then [.contentBlockDelta e.openIndex (.signature signature)] else []
    | none => []
  (e, start ++ opened ++ thinking ++ signed)

/-- The block that an argument delta names. -/
def argsBlock (e : AnthropicEncoder) (index : Nat) : Nat :=
  (((e.toolBlocks index).map (·.1)).or (e.openBlock.map (·.1))).getD 0

/-- `StreamEncoder::encode`. -/
def encode (e : AnthropicEncoder) : StreamEvent → AnthropicEncoder × List Frame
  | .start _ => e.emitStart
  | .textDelta text => e.encodeText text
  | .refusalDelta text => e.encodeText text
  | .thinkingDelta text signature => e.encodeThinking text signature
  | .toolCallStart index id name _ =>
    let (e, start) := e.emitStart
    let (e, opened) := e.openToolBlock index (toolId e.ctx.requestId index id) name
    (e, start ++ opened)
  | .toolCallArgsDelta index args =>
    (e, [.contentBlockDelta (e.argsBlock index) (.inputJson args)])
  | .usage u => ({ e with usage := e.usage.merge u }, [])
  | .finish reason => ({ e with finish := some reason }, [])

/-- The `stop_reason` of a finish. -/
def stopReason : Option FinishReason → String
  | some .length => "max_tokens"
  | some .toolCalls => "tool_use"
  | some .stop | some .contentFilter | some (.other _) | none => "end_turn"

/-- `StreamEncoder::finalize`. -/
def finalize (e : AnthropicEncoder) : AnthropicEncoder × List Frame :=
  let (e, start) := e.emitStart
  let (e, closed) := e.closeOpenBlock
  let delta :=
    if e.stopReasonSent then []
    else [.messageDelta (stopReason e.finish) (e.usage.output.getD 0)]
  ({ e with stopReasonSent := true }, start ++ closed ++ delta ++ [.messageStop])

def errorFrame (message : String) : List Frame := [.error message]

end AnthropicEncoder

/-- The encoder of one response. -/
def encoder (ctx : EncoderCtx) : Transducer AnthropicEncoder StreamEvent Frame where
  start := { ctx }
  step := AnthropicEncoder.encode

/-- The frames of a whole response. -/
def frames (ctx : EncoderCtx) (events : List StreamEvent) : List Frame :=
  let (e, out) := (encoder ctx).feed (encoder ctx).start events
  out ++ e.finalize.2

open Json

/-- An element of `content`. -/
inductive Content where
  | text (text : String)
  | thinking (thinking signature : String)
  | toolUse (id name : String) (input : Value)

/-- The usage object of a message. -/
structure AnthropicUsage where
  inputTokens : Nat
  outputTokens : Nat
  cacheReadInputTokens : Option Nat
  cacheCreationInputTokens : Option Nat
  deriving DecidableEq

/-- An answer without streaming. -/
structure Message where
  id : String
  model : String
  content : List Content
  stopReason : String
  usage : AnthropicUsage

/-- Counts that the upstream left out: the required ones are zero, the others stay out. -/
def anthropicUsage (usage : TokenUsage) : AnthropicUsage where
  inputTokens := usage.input.getD 0 - usage.cached.getD 0 - usage.cacheWrite.getD 0
  outputTokens := usage.output.getD 0
  cacheReadInputTokens := usage.cached
  cacheCreationInputTokens := usage.cacheWrite

/-- The call that started last, with the arguments that came since. -/
structure CurTool where
  index : Nat
  id : String
  name : String
  args : String

/-- What the aggregation has read. -/
structure Aggregate where
  blocks : List Content := []
  curTool : Option CurTool := none
  finish : FinishReason := .stop

/-- Arguments that are not JSON give an empty object. -/
def toolInput (J : SerdeJson) (args : String) : Value := (J.fromStr args).getD (.object [])

namespace Aggregate
variable (J : SerdeJson) (requestId : String)

/-- The call whose arguments came last is complete. -/
def pushTool (g : Aggregate) : Aggregate :=
  match g.curTool with
  | some tool =>
    { g with
      curTool := none
      blocks := g.blocks ++ [.toolUse tool.id tool.name (toolInput J tool.args)] }
  | none => g

def pushText (g : Aggregate) (text : String) : Aggregate :=
  let g := g.pushTool J
  { g with blocks := g.blocks ++ [.text text] }

/-- An event is read; a text ends the call before it. -/
def step (g : Aggregate) : StreamEvent → Aggregate
  | .textDelta text => g.pushText J text
  | .refusalDelta text => g.pushText J text
  | .thinkingDelta text signature =>
    { g with blocks := g.blocks ++ [.thinking text (signature.getD "")] }
  | .toolCallStart index id name _ =>
    let g := g.pushTool J
    { g with curTool := some ⟨index, toolId requestId index id, name, ""⟩ }
  | .toolCallArgsDelta _ args =>
    { g with curTool := g.curTool.map fun tool => { tool with args := tool.args ++ args } }
  | .finish reason => { g with finish := reason }
  | .start _ => g
  | .usage _ => g

end Aggregate

/-- The message of a response that is not streamed. -/
def aggregate (J : SerdeJson) (modelName requestId : String) (events : List StreamEvent)
    (usage : TokenUsage) : Message :=
  let g := (events.foldl (Aggregate.step J requestId) {}).pushTool J
  { id := "msg_" ++ plainId requestId
    model := modelName
    content := g.blocks
    stopReason := match g.finish with
      | .length => "max_tokens"
      | .toolCalls => "tool_use"
      | .stop | .contentFilter | .other _ => "end_turn"
    usage := anthropicUsage usage }

end Kinetix.Frontends.Anthropic
