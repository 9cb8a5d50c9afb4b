import Kinetix.Foundation.Types
import Kinetix.Frontends.Anthropic.Encoder
import Kinetix.Frontends.OpenAi.Encoder
import Kinetix.Frontends.Responses.Encoder
import Kinetix.Sse.Framer

/-!
# The stream driver

`drive_stream` of `pipeline.rs` for a client that stays connected: it reads the upstream, passes the
events to the encoder of the client's format and sends what that gives. Before a frontend sees them,
the events pass through `ToolStreamState`, where calls get consecutive indexes and ids.

## Implementation notes

The `HashMap`s are functions. The counter of indexes is a `u32`, which a release build wraps.

What the loop waits for is a list of pulses in the order in which they are served, and how the
upstream ends: the driver serves no pulse after one that makes it stop. The driver is written for
any encoder, of which there are three. Logging, tracing, metering and the capture of signatures are
left out; they send nothing to the client.
-/

namespace Kinetix.Pipeline
open Frontends

/-- `ToolStreamState`. -/
structure ToolStreamState where
  nextIndex : Nat := 0
  upstreamIndexes : Nat → Option Nat := fun _ => none
  ids : String → Option Nat := fun _ => none
  requestId : String
  /-- A signature that came before the call it belongs to. -/
  pendingSignature : Option String := none

/-- How many indexes a `u32` has. -/
def indexBound : Nat := 4294967296

namespace ToolStreamState

def new (requestId : String) : ToolStreamState where
  requestId := plainId requestId

/-- The index for a call: the one of the id, or the next one. -/
def canonicalIndex (s : ToolStreamState) (id : Option String) : Nat :=
  (id.bind s.ids).getD s.nextIndex

/-- The id that a call without one gets. -/
def generatedId (s : ToolStreamState) (canonical : Nat) : String :=
  s!"call_{s.requestId}_{canonical}"

/-- A call without an id gets one; a waiting signature goes to it. -/
def startTool (s : ToolStreamState) (index : Nat) (id : Option String) (name : String)
    (signature : Option String) : ToolStreamState × StreamEvent :=
  let canonical := s.canonicalIndex id
  let known := (id.bind s.ids).isSome
  let (ids, id) := match id.filter (· ≠ "") with
    | some id => (Function.update s.ids id ((s.ids id).or (some canonical)), id)
    | none =>
      let generated := s.generatedId canonical
      (Function.update s.ids generated (some canonical), generated)
  ({ s with
      nextIndex := if known then s.nextIndex else (s.nextIndex + 1) % indexBound
      upstreamIndexes := Function.update s.upstreamIndexes index (some canonical)
      ids := ids
      pendingSignature := none },
    .toolCallStart canonical (some id) name (signature.or s.pendingSignature))

/-- An event as it goes on. -/
def normalizeEvent (s : ToolStreamState) : StreamEvent → ToolStreamState × StreamEvent
  | .thinkingDelta text signature =>
    -- only a part that is nothing but a signature hands that on to the next call
    let pending := if text = "" ∧ signature.isSome then signature else none
    ({ s with pendingSignature := pending }, .thinkingDelta text signature)
  | .textDelta text => ({ s with pendingSignature := none }, .textDelta text)
  | .refusalDelta text => ({ s with pendingSignature := none }, .refusalDelta text)
  | .toolCallStart index id name signature => s.startTool index id name signature
  | .toolCallArgsDelta index args =>
    (s, .toolCallArgsDelta ((s.upstreamIndexes index).getD index) args)
  | .finish reason => ({ s with pendingSignature := none }, .finish reason)
  | .start id => (s, .start id)
  | .usage u => (s, .usage u)

/-- `normalize`, event by event. -/
def normalize (s : ToolStreamState) : List StreamEvent → ToolStreamState × List StreamEvent
  | [] => (s, [])
  | event :: events =>
    let (s, event) := s.normalizeEvent event
    let (s, events) := normalize s events
    (s, event :: events)

end ToolStreamState
open Json Sse StateMachine Kinetix.Types

/-- What the driver uses of an adapter. -/
structure StreamAdapter where
  parseStreamChunk : String → Except UpstreamFailure (List StreamEvent)
  classifyError : Nat → String → UpstreamFailure

/-- An encoder of one response, with its ends. -/
structure StreamEncoder (ε φ : Type) extends Transducer ε StreamEvent φ where
  finalize : ε → ε × List φ
  errorFrame : ε → String → ε × List φ

/-- What is sent: comments, which are no part of the response, and frames. -/
inductive Sent (φ : Type) where
  | comment (text : String)
  | frame (frame : φ)

/-- What the loop is woken by while the upstream goes on. -/
inductive Pulse where
  | keepalive
  | chunk (bytes : List UInt8)

/-- How the upstream ends if the driver has not stopped before. -/
inductive UpstreamEnd where
  | eof
  | idleTimeout
  | transportError (message : String)

/-- A validated upstream response: all events of a JSON body, or a stream. -/
inductive UpstreamBody where
  | full (events : List StreamEvent)
  | sse (pulses : List Pulse) (ending : UpstreamEnd)

/-- How the driver ended. -/
inductive Status where
  | success
  | streamError (message : String)

/-- `payload_is_terminal`. -/
def payloadIsTerminal (J : SerdeJson) (payload : String) (events : List StreamEvent) : Bool :=
  Text.trim payload = "[DONE]" ||
    events.any (fun | .finish _ => true | _ => false) ||
    (((J.fromStr payload).bind (·.get "type")).bind (·.asStr)) = some "message_stop"

/-- `payload_error_failure`. -/
def payloadErrorFailure (J : SerdeJson) (A : StreamAdapter) (payload : String) :
    Option UpstreamFailure :=
  match J.fromStr payload with
  | none => none
  | some value =>
    if (value.get "error").isSome ∨ (value.get "type").bind (·.asStr) = some "error" then
      some (A.classifyError 502 payload)
    else none

/-- What the driver knows of the upstream. -/
structure StreamReader where
  tools : ToolStreamState
  framer : SseFramer := {}
  terminalSeen : Bool := false

namespace StreamReader
variable (J : SerdeJson) (A : StreamAdapter)

/-- Read one SSE frame: its normalized events, or the message of an error that stops the driver. -/
def readFrame (r : StreamReader) (frame : String) :
    StreamReader × Except String (List StreamEvent) :=
  match extractData frame with
  | none => (r, .ok [])
  | some payload =>
    if Text.trim payload = "[DONE]" then ({ r with terminalSeen := true }, .ok [])
    else
      match payloadErrorFailure J A payload with
      | some failure => (r, .error failure.message)
      | none =>
        match A.parseStreamChunk payload with
        | .error failure => (r, .error failure.message)
        | .ok events =>
          let (tools, normalized) := r.tools.normalize events
          ({ r with
              tools := tools
              terminalSeen := r.terminalSeen || payloadIsTerminal J payload events },
            .ok normalized)

end StreamReader

section Driver
variable {ε φ : Type} (P : StreamEncoder ε φ) (J : SerdeJson) (A : StreamAdapter)

/-- A driver, over any encoder. -/
structure Driver (ε : Type) where
  encoder : ε
  reader : StreamReader

/-- The frames of a chunk. An error payload, or one that does not parse, is reported at once and
stops the loop. -/
def takeFrames (d : Driver ε) : List String → Driver ε × List φ × Status
  | [] => (d, [], .success)
  | frame :: frames =>
    match d.reader.readFrame J A frame with
    | (reader, .ok events) =>
      let (encoder, out) := P.feed d.encoder events
      let (d, rest, status) := takeFrames ⟨encoder, reader⟩ frames
      (d, out ++ rest, status)
    | (reader, .error message) =>
      let (encoder, out) := P.errorFrame d.encoder message
      (⟨encoder, reader⟩, out, .streamError message)

/-- The loop, until it stops or the upstream ends. -/
def takePulses (d : Driver ε) (ending : UpstreamEnd) :
    List Pulse → Driver ε × List (Sent φ) × Status
  | [] =>
    match ending with
    | .eof => (d, [], .success)
    | .idleTimeout => (d, [], .streamError "upstream stream idle timeout")
    | .transportError message => (d, [], .streamError message)
  | .keepalive :: pulses =>
    let (d, sent, status) := takePulses d ending pulses
    (d, .comment "keepalive" :: sent, status)
  | .chunk bytes :: pulses =>
    match d.reader.framer.push bytes with
    | (framer, .error error) =>
      ({ d with reader := { d.reader with framer := framer } }, [],
        .streamError error.message)
    | (framer, .ok frames) =>
      match takeFrames P J A { d with reader := { d.reader with framer := framer } } frames with
      | (d, out, .streamError message) => (d, out.map .frame, .streamError message)
      | (d, out, .success) =>
        let (d, sent, status) := takePulses d ending pulses
        (d, out.map .frame ++ sent, status)

/-- After the loop a stream that did not come to its end is an error. -/
def endStatus (r : StreamReader) : Status → Status
  | .success =>
    if 0 < r.framer.pendingBytes then
      .streamError "upstream SSE ended with an incomplete frame"
    else if r.terminalSeen then .success
    else .streamError "upstream SSE ended before a terminal event"
  | .streamError message => .streamError message

/-- What `drive_stream` sends to a client that stays connected. -/
def driveStream (requestId : String) : UpstreamBody → List (Sent φ)
  | .full events =>
    let (_, events) := (ToolStreamState.new requestId).normalize events
    let (encoder, out) := P.feed P.start events
    (out ++ (P.finalize encoder).2).map .frame
  | .sse pulses ending =>
    let (d, sent, status) :=
      takePulses P J A ⟨P.start, { tools := .new requestId }⟩ ending pulses
    match endStatus d.reader status with
    | .success => sent ++ (P.finalize d.encoder).2.map .frame
    | .streamError message => sent ++ (P.errorFrame d.encoder message).2.map .frame

end Driver

def Sent.frame? {φ : Type} : Sent φ → Option φ
  | .frame f => some f
  | .comment _ => none

/-- The frames of what was sent. -/
def framesOf {φ : Type} (sent : List (Sent φ)) : List φ := sent.filterMap (·.frame?)

/-! ## The three encoders -/

def openAiEncoder (ctx : EncoderCtx) (includeUsage : Bool) :
    StreamEncoder OpenAi.OpenAiEncoder OpenAi.Frame where
  toTransducer := OpenAi.encoder ctx includeUsage
  finalize := OpenAi.OpenAiEncoder.finalize
  errorFrame e message := (e, OpenAi.OpenAiEncoder.errorFrame message)

def anthropicEncoder (ctx : EncoderCtx) :
    StreamEncoder Anthropic.AnthropicEncoder Anthropic.Frame where
  toTransducer := Anthropic.encoder ctx
  finalize := Anthropic.AnthropicEncoder.finalize
  errorFrame e message := (e, Anthropic.AnthropicEncoder.errorFrame message)

def responsesEncoder (ctx : EncoderCtx) :
    StreamEncoder Responses.ResponsesEncoder Responses.Frame where
  toTransducer := Responses.encoder ctx
  finalize := Responses.ResponsesEncoder.finalize
  errorFrame := Responses.ResponsesEncoder.errorFrame

end Kinetix.Pipeline
