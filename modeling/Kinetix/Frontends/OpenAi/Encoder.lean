import Kinetix.Frontends.Events

/-!
# Chat Completions answers

`OpenAiEncoder` of `frontends/openai.rs` for streams, and the OpenAI branch of
`aggregate_with_responses_fields` of `frontends/mod.rs` for answers without streaming.

## Implementation notes

A frame is one server-sent event. The id, the creation time and the model, which are the same in all
chunks, are left out, and so is the set `tool_started`, which is written and never read. Sums of
counts stay in their range.
-/

namespace Kinetix.Frontends.OpenAi
open StateMachine

/-- The `delta` of a chunk. -/
inductive Delta where
  | role
  | content (text : String)
  | reasoningContent (text : String)
  | toolCall (index : Nat) (id name : String)
  | arguments (index : Nat) (args : String)
  | empty
  deriving DecidableEq

/-- The usage object of a completion. -/
structure OpenAiUsage where
  promptTokens : Nat
  completionTokens : Nat
  totalTokens : Nat
  cachedTokens : Option Nat
  reasoningTokens : Option Nat
  deriving DecidableEq

/-- A chunk of the stream. -/
inductive Frame where
  | chunk (delta : Delta) (finishReason : Option String)
  | usage (usage : OpenAiUsage)
  | error (message : String)
  | done
  deriving DecidableEq

/-- Counts that the upstream left out: the required ones are zero, the others stay out. -/
def openaiUsage (u : TokenUsage) : OpenAiUsage where
  promptTokens := u.input.getD 0
  completionTokens := u.output.getD 0
  totalTokens := u.input.getD 0 + u.output.getD 0
  cachedTokens := u.cached
  reasoningTokens := u.thinking

/-- `openai_finish`. -/
def openaiFinish : FinishReason → String
  | .stop => "stop"
  | .length => "length"
  | .toolCalls => "tool_calls"
  | .contentFilter => "content_filter"
  | .other reason => reason

/-- `OpenAiEncoder`. -/
structure OpenAiEncoder where
  ctx : EncoderCtx
  includeUsage : Bool := true
  roleSent : Bool := false
  finishSent : Bool := false
  usage : Option TokenUsage := none
  id : String

namespace OpenAiEncoder

def new (ctx : EncoderCtx) (includeUsage : Bool) : OpenAiEncoder where
  ctx := ctx
  includeUsage := includeUsage
  id := "chatcmpl-" ++ plainId ctx.requestId

/-- The role is sent with the first chunk only. -/
def ensureRole (e : OpenAiEncoder) : OpenAiEncoder × List Frame :=
  if e.roleSent then (e, []) else ({ e with roleSent := true }, [.chunk .role none])

/-- The usage chunk after a finish. -/
def usageChunk (e : OpenAiEncoder) : List Frame :=
  if e.includeUsage then (e.usage.map fun u => .usage (openaiUsage u)).toList else []

/-- A chunk after the role. -/
def say (e : OpenAiEncoder) (delta : Delta) : OpenAiEncoder × List Frame :=
  let (e, role) := e.ensureRole
  (e, role ++ [.chunk delta none])

/-- The id of a call that has none. -/
def callId (e : OpenAiEncoder) (index : Nat) (id : Option String) : String :=
  id.getD s!"call_{e.id}_{index}"

/-- `StreamEncoder::encode`. -/
def encode (e : OpenAiEncoder) : StreamEvent → OpenAiEncoder × List Frame
  | .start _ => (e, [])
  | .textDelta text => e.say (.content text)
  | .refusalDelta text => e.say (.content text)
  | .thinkingDelta text _ =>
    if text = "" then e.ensureRole else e.say (.reasoningContent text)
  | .toolCallStart index id name _ => e.say (.toolCall index (e.callId index id) name)
  | .toolCallArgsDelta index args => e.say (.arguments index args)
  | .usage u => ({ e with usage := some u }, [])
  | .finish reason =>
    let e := { e with finishSent := true }
    (e, .chunk .empty (some (openaiFinish reason)) :: e.usageChunk)

/-- `StreamEncoder::finalize`. -/
def finalize (e : OpenAiEncoder) : OpenAiEncoder × List Frame :=
  if e.finishSent then (e, [.done])
  else
    let (e, role) := e.ensureRole
    (e, role ++ .chunk .empty (some "stop") :: e.usageChunk ++ [.done])

def errorFrame (message : String) : List Frame :=
  [.error message, .chunk .empty (some "error"), .done]

end OpenAiEncoder

/-- The encoder of one response. -/
def encoder (ctx : EncoderCtx) (includeUsage : Bool) :
    Transducer OpenAiEncoder StreamEvent Frame where
  start := .new ctx includeUsage
  step := OpenAiEncoder.encode

/-- The frames of a whole response. -/
def frames (ctx : EncoderCtx) (includeUsage : Bool) (events : List StreamEvent) : List Frame :=
  let (e, out) := (encoder ctx includeUsage).feed (encoder ctx includeUsage).start events
  out ++ e.finalize.2

/-- An element of `tool_calls`. -/
structure MessageToolCall where
  id : String
  name : String
  arguments : String
  deriving DecidableEq

structure Message where
  content : Option String
  reasoningContent : Option String
  toolCalls : List MessageToolCall
  deriving DecidableEq

/-- An answer without streaming. -/
structure Completion where
  id : String
  model : String
  message : Message
  finishReason : String
  usage : OpenAiUsage

/-- What the aggregation has read. -/
structure Aggregate where
  text : String := ""
  reasoning : String := ""
  toolCalls : List ToolCall := []
  finish : FinishReason := .stop

def openaiFinishStr (f : FinishReason) : String := openaiFinish f

namespace Aggregate

def step (requestId : String) (g : Aggregate) : StreamEvent → Aggregate
  | .textDelta text => { g with text := g.text ++ text }
  | .refusalDelta text => { g with text := g.text ++ text }
  | .thinkingDelta text _ => { g with reasoning := g.reasoning ++ text }
  | .toolCallStart index id name _ =>
    { g with
      toolCalls := g.toolCalls ++ [⟨index, id.getD s!"call_{requestId}_{index}", name, ""⟩] }
  | .toolCallArgsDelta index args =>
    { g with toolCalls := appendArgs index args g.toolCalls }
  | .finish reason => { g with finish := reason }
  | .start _ => g
  | .usage _ => g

/-- Empty text is no text, and empty arguments are an empty object. -/
def message (g : Aggregate) : Message where
  content := if g.text = "" then none else some g.text
  reasoningContent := if g.reasoning = "" then none else some g.reasoning
  toolCalls := g.toolCalls.map fun call =>
    ⟨call.id, call.name, if call.args = "" then "{}" else call.args⟩

end Aggregate

/-- The completion of a response that is not streamed. -/
def aggregate (modelName requestId : String) (events : List StreamEvent) (usage : TokenUsage) :
    Completion :=
  let g := events.foldl (Aggregate.step requestId) {}
  { id := "chatcmpl-" ++ plainId requestId
    model := modelName
    message := g.message
    finishReason := openaiFinishStr g.finish
    usage := openaiUsage usage }

end Kinetix.Frontends.OpenAi
