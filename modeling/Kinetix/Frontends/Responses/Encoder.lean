import Kinetix.Foundation.Words
import Kinetix.Frontends.Events

/-!
# The Responses object and its encoder

The response object of `frontends/responses.rs`, how a finish reason ends a response, and
`ResponsesEncoder`.

## Implementation notes

The constant fields of an object (`object`, `role`, `annotations`, `logprobs` and the code
`server_error` of an error) are not repeated in the model.

A frame is its sequence number and its body; the constructor of the body gives the event name, the
arguments what varies in its data. The response id and the content index, which are the same in all
frames, are left out. What an event gives is stated first as bodies, which `frames` then numbers in
their order, as `frame` of the source does one by one.
-/

namespace Kinetix.Frontends.Responses
open Words

/-- A part of a message of the assistant. -/
inductive ContentPart where
  | outputText (text : String)
  | refusal (refusal : String)
  deriving DecidableEq

/-- An element of `output`. The id of a function call is its call id. -/
inductive Item where
  | message (id status : String) (content : List ContentPart)
  | functionCall (callId name arguments status : String)
  deriving DecidableEq

/-- The usage object of a response. -/
structure ResponsesUsage where
  totalTokens : Nat
  inputTokens : Nat
  cachedTokens : Nat
  cacheWriteTokens : Nat
  outputTokens : Nat
  reasoningTokens : Nat
  deriving DecidableEq

/-- The message of an `error`. -/
structure ResponseError where
  message : String
  deriving DecidableEq

/-- A response object, with the fields of the request that it repeats. -/
structure Response where
  id : String
  createdAt : Int
  model : String
  status : String
  error : Option ResponseError
  /-- The `reason` of `incomplete_details`. -/
  incompleteDetails : Option String
  output : List Item
  usage : Option ResponsesUsage
  fields : ResponsesResponseFields

/-- Counts that the upstream left out are shown as zero. -/
def responsesUsage (usage : Option TokenUsage) : ResponsesUsage :=
  let input := (usage.bind (·.input)).getD 0
  let output := (usage.bind (·.output)).getD 0
  { totalTokens := saturatingAdd input output
    inputTokens := input
    cachedTokens := (usage.bind (·.cached)).getD 0
    cacheWriteTokens := (usage.bind (·.cacheWrite)).getD 0
    outputTokens := output
    reasoningTokens := (usage.bind (·.thinking)).getD 0 }

/-- Why a stream that finished is reported as failed. -/
inductive ResponsesTerminalFailure where
  | unsupportedProviderReason
  | unstreamableRefusal
  deriving DecidableEq

/-- `ResponsesTerminal`. -/
inductive ResponsesTerminal where
  | completed
  | incomplete (reason : String)
  | refusal
  | failed (failure : ResponsesTerminalFailure)
  deriving DecidableEq

/-- `responses_terminal`. -/
def responsesTerminal : FinishReason → ResponsesTerminal
  | .length => .incomplete "max_output_tokens"
  | .contentFilter => .incomplete "content_filter"
  | .other reason =>
    if reason = "refusal" then .refusal
    else if reason = "steered" then .incomplete "steered"
    else .failed .unsupportedProviderReason
  | .stop | .toolCalls => .completed

/-- `responses_stream_failure`. -/
def responsesStreamFailure (finish : FinishReason) (hasTypedRefusal : Bool) :
    Option ResponsesTerminalFailure :=
  match responsesTerminal finish with
  | .failed failure => some failure
  | .refusal => if hasTypedRefusal then none else some .unstreamableRefusal
  | .completed | .incomplete _ => none

/-- `responses_incomplete_reason`. -/
def responsesIncompleteReason (finish : FinishReason) : Option String :=
  match responsesTerminal finish with
  | .incomplete reason => some reason
  | .completed | .refusal | .failed _ => none

/-- The status of a response that did not fail. -/
def responseStatus (finish : FinishReason) : String :=
  if (responsesIncompleteReason finish).isSome then "incomplete" else "completed"

/-- `failed_response`: a response with an error and no output. -/
def failedResponse (fields : ResponsesResponseFields) (responseId : String) (createdAt : Int)
    (model message : String) : Response where
  id := responseId
  createdAt := createdAt
  model := model
  status := "failed"
  error := some ⟨message⟩
  incompleteDetails := none
  output := []
  usage := none
  fields := fields

def ResponsesTerminalFailure.message : ResponsesTerminalFailure → String
  | .unsupportedProviderReason =>
    "The upstream response used a terminal reason that cannot be represented by the Responses API."
  | .unstreamableRefusal =>
    "The upstream refusal cannot be represented as typed refusal content on this streaming path."

def failedTerminalResponse (fields : ResponsesResponseFields) (responseId : String)
    (createdAt : Int) (model : String) (failure : ResponsesTerminalFailure) : Response :=
  failedResponse fields responseId createdAt model failure.message

open StateMachine

/-- An event of the stream, without its number. -/
inductive Body where
  | created (response : Response)
  | inProgress (response : Response)
  | outputItemAdded (outputIndex : Nat) (item : Item)
  | contentPartAdded (outputIndex : Nat) (itemId : String) (part : ContentPart)
  | outputTextDelta (outputIndex : Nat) (itemId delta : String)
  | refusalDelta (outputIndex : Nat) (itemId delta : String)
  | functionCallArgumentsDelta (outputIndex : Nat) (itemId delta : String)
  | outputTextDone (outputIndex : Nat) (itemId text : String)
  | refusalDone (outputIndex : Nat) (itemId refusal : String)
  | contentPartDone (outputIndex : Nat) (itemId : String) (part : ContentPart)
  | functionCallArgumentsDone (outputIndex : Nat) (itemId name arguments : String)
  | outputItemDone (outputIndex : Nat) (item : Item)
  | completed (response : Response)
  | incomplete (response : Response)
  | failed (response : Response)

/-- A numbered event. -/
structure Frame where
  sequenceNumber : Nat
  body : Body

/-- A call whose arguments are still coming. -/
structure ActiveTool where
  index : Nat
  callId : String
  name : String
  arguments : String
  outputIndex : Nat

/-- `ResponsesEncoder`. -/
structure ResponsesEncoder where
  ctx : EncoderCtx
  responseId : String
  seq : Nat := 0
  createdSent : Bool := false
  activeTextItem : Bool := false
  textItemId : String
  accumulatedText : String := ""
  accumulatedRefusal : String := ""
  messageIsRefusal : Bool := false
  activeTools : List ActiveTool := []
  finishSent : Bool := false
  usage : Option TokenUsage := none

def responseId (requestId : String) : String := "resp_" ++ plainId requestId

def textItemId (requestId : String) : String := "msg_" ++ plainId requestId ++ "_0"

/-- Append to the arguments of the first call with the index. -/
def pushArgs (index : Nat) (args : String) : List ActiveTool → List ActiveTool
  | [] => []
  | tool :: tools =>
    if tool.index = index then { tool with arguments := tool.arguments ++ args } :: tools
    else tool :: pushArgs index args tools

namespace ResponsesEncoder

/-- `ResponsesEncoder::new`. -/
def new (ctx : EncoderCtx) : ResponsesEncoder where
  ctx := ctx
  responseId := Responses.responseId ctx.requestId
  textItemId := Responses.textItemId ctx.requestId

/-- The next numbers are given to the bodies. -/
def frames (e : ResponsesEncoder) (bodies : List Body) : ResponsesEncoder × List Frame :=
  ({ e with seq := e.seq + bodies.length },
    (bodies.zipIdx e.seq).map fun (body, n) => ⟨n, body⟩)

/-- The response while it is in progress. -/
def inProgressResponse (e : ResponsesEncoder) : Response where
  id := e.responseId
  createdAt := e.ctx.created
  model := e.ctx.modelName
  status := "in_progress"
  error := none
  incompleteDetails := none
  output := []
  usage := none
  fields := e.ctx.responses

/-- The first two events, sent once. -/
def ensureCreated (e : ResponsesEncoder) : ResponsesEncoder × List Body :=
  if e.createdSent then (e, [])
  else ({ e with createdSent := true },
    [.created e.inProgressResponse, .inProgress e.inProgressResponse])

/-- Opens the item of the message, as a text or as a refusal. -/
def ensureMessageItem (e : ResponsesEncoder) (refusal : Bool) : ResponsesEncoder × List Body :=
  if e.activeTextItem then (e, [])
  else
    let part : ContentPart := if refusal then .refusal "" else .outputText ""
    ({ e with activeTextItem := true, messageIsRefusal := refusal },
      [.outputItemAdded 0 (.message e.textItemId "in_progress" []),
        .contentPartAdded 0 e.textItemId part])

/-- Closes the item of the message with what it accumulated. -/
def closeTextItem (e : ResponsesEncoder) (status : String) : ResponsesEncoder × List Body :=
  if e.activeTextItem then
    let bodies :=
      if e.messageIsRefusal then
        [.refusalDone 0 e.textItemId e.accumulatedRefusal,
          .contentPartDone 0 e.textItemId (.refusal e.accumulatedRefusal),
          .outputItemDone 0 (.message e.textItemId status [.refusal e.accumulatedRefusal])]
      else
        [.outputTextDone 0 e.textItemId e.accumulatedText,
          .contentPartDone 0 e.textItemId (.outputText e.accumulatedText),
          .outputItemDone 0 (.message e.textItemId status [.outputText e.accumulatedText])]
    ({ e with activeTextItem := false }, bodies)
  else (e, [])

/-- The call id of a call that has none. -/
def callId (e : ResponsesEncoder) (index : Nat) (id : Option String) : String :=
  id.getD s!"call_{e.responseId}_{index}"

/-- The item of a call comes after the message item, if that says anything. -/
def startTool (e : ResponsesEncoder) (index : Nat) (callId name : String) :
    ResponsesEncoder × List Body :=
  let (e, closed) := e.closeTextItem "completed"
  let outputIndex :=
    if e.accumulatedText = "" ∧ e.accumulatedRefusal = "" then e.activeTools.length
    else 1 + e.activeTools.length
  ({ e with activeTools := e.activeTools ++ [⟨index, callId, name, "", outputIndex⟩] },
    closed ++ [.outputItemAdded outputIndex (.functionCall callId name "" "in_progress")])

/-- More arguments of an announced call; others are dropped. -/
def pushToolArgs (e : ResponsesEncoder) (index : Nat) (args : String) :
    ResponsesEncoder × List Body :=
  match e.activeTools.find? (·.index = index) with
  | some tool =>
    ({ e with activeTools := pushArgs index args e.activeTools },
      [.functionCallArgumentsDelta tool.outputIndex tool.callId args])
  | none => (e, [])

/-- The content of the message item of a response that ends. -/
def finalContent (e : ResponsesEncoder) : List ContentPart :=
  (if e.accumulatedText ≠ "" ∨ e.accumulatedRefusal = "" ∧ e.activeTools = [] then
      [.outputText e.accumulatedText] else []) ++
    (if e.accumulatedRefusal ≠ "" then [.refusal e.accumulatedRefusal] else [])

/-- The output of a response that ends. -/
def finalOutput (e : ResponsesEncoder) (status : String) : List Item :=
  (if e.accumulatedText ≠ "" ∨ e.accumulatedRefusal ≠ "" ∨ e.activeTools = [] then
      [.message e.textItemId status e.finalContent] else []) ++
    e.activeTools.map fun tool => .functionCall tool.callId tool.name tool.arguments status

def hasTypedRefusal (e : ResponsesEncoder) : Bool := e.accumulatedRefusal ≠ ""

def failedTerminal (e : ResponsesEncoder) (failure : ResponsesTerminalFailure) : Response :=
  failedTerminalResponse e.ctx.responses e.responseId e.ctx.created e.ctx.modelName failure

/-- The response that the terminal event shows. -/
def buildResponseObject (e : ResponsesEncoder) (finish : FinishReason) : Response :=
  match responsesStreamFailure finish e.hasTypedRefusal with
  | some failure => e.failedTerminal failure
  | none =>
    { id := e.responseId
      createdAt := e.ctx.created
      model := e.ctx.modelName
      status := responseStatus finish
      error := none
      incompleteDetails := responsesIncompleteReason finish
      output := e.finalOutput (responseStatus finish)
      usage := some (responsesUsage e.usage)
      fields := e.ctx.responses }

/-- The frames that end a call. -/
def toolDone (status : String) (tool : ActiveTool) : List Body :=
  [.functionCallArgumentsDone tool.outputIndex tool.callId tool.name tool.arguments,
    .outputItemDone tool.outputIndex
      (.functionCall tool.callId tool.name tool.arguments status)]

/-- The frame of a response that ends. -/
def terminal (finish : FinishReason) (response : Response) : Body :=
  if (responsesIncompleteReason finish).isSome then .incomplete response else .completed response

/-- What a finish sends; a failure leaves the open items open. -/
def finish (e : ResponsesEncoder) (finish : FinishReason) : ResponsesEncoder × List Body :=
  let e := { e with finishSent := true }
  match responsesStreamFailure finish e.hasTypedRefusal with
  | some failure =>
    let (e, created) := e.ensureCreated
    (e, created ++ [.failed (e.failedTerminal failure)])
  | none =>
    let (e, closed) := e.closeTextItem (responseStatus finish)
    (e, closed ++ e.activeTools.flatMap (toolDone (responseStatus finish)) ++
      [terminal finish (e.buildResponseObject finish)])

/-- The bodies of the frames that an event gives. -/
def answer (e : ResponsesEncoder) : StreamEvent → ResponsesEncoder × List Body
  | .start _ => e.ensureCreated
  | .textDelta text =>
    let (e, created) := e.ensureCreated
    let (e, added) := e.ensureMessageItem false
    ({ e with accumulatedText := e.accumulatedText ++ text },
      created ++ added ++ [.outputTextDelta 0 e.textItemId text])
  | .refusalDelta text =>
    let (e, created) := e.ensureCreated
    let (e, added) := e.ensureMessageItem true
    ({ e with accumulatedRefusal := e.accumulatedRefusal ++ text },
      created ++ added ++ [.refusalDelta 0 e.textItemId text])
  | .thinkingDelta _ _ => (e, [])
  | .toolCallStart index id name _ =>
    let (e, created) := e.ensureCreated
    let (e, started) := e.startTool index (e.callId index id) name
    (e, created ++ started)
  | .toolCallArgsDelta index args =>
    let (e, created) := e.ensureCreated
    let (e, pushed) := e.pushToolArgs index args
    (e, created ++ pushed)
  | .usage u => ({ e with usage := some u }, [])
  | .finish reason => e.finish reason

/-- `StreamEncoder::encode`. -/
def encode (e : ResponsesEncoder) (event : StreamEvent) : ResponsesEncoder × List Frame :=
  let (e, bodies) := e.answer event
  e.frames bodies

/-- `StreamEncoder::finalize`: a stream without a finish stops. -/
def finalize (e : ResponsesEncoder) : ResponsesEncoder × List Frame :=
  if e.finishSent then (e, []) else e.encode (.finish .stop)

/-- `StreamEncoder::error_frame`. -/
def errorFrame (e : ResponsesEncoder) (message : String) : ResponsesEncoder × List Frame :=
  e.frames [.failed (failedResponse e.ctx.responses e.responseId e.ctx.created e.ctx.modelName
    message)]

end ResponsesEncoder

/-- The encoder of one response. -/
def encoder (ctx : EncoderCtx) : Transducer ResponsesEncoder StreamEvent Frame where
  start := .new ctx
  step := ResponsesEncoder.encode

/-- The frames of a whole response. -/
def frames (ctx : EncoderCtx) (events : List StreamEvent) : List Frame :=
  let (e, out) := (encoder ctx).feed (encoder ctx).start events
  out ++ e.finalize.2

end Kinetix.Frontends.Responses
