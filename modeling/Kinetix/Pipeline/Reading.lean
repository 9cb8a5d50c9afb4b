import Kinetix.Pipeline.PassthroughCopy

/-!
# What the drivers read

The events that an upstream is read as, and how the reading ends, do not depend on the encoder. What
the driver sends is what the encoder makes of the reading. `drive_aggregate` of `pipeline.rs` is the
driver for a client that asked for no stream; with it, what `prepare_success_response` does with an
upstream response that is no stream.

## Implementation notes

The frontends make a body out of the events and the usage of an answer. Tracing, logging and the
capture of signatures are left out, and so is what `serde_json` says about a body it cannot read.
-/

namespace Kinetix.Pipeline
open Frontends Json Sse StateMachine

/-- How a reading ends. -/
inductive Outcome where
  | complete
  /-- The upstream broke off, or sent a frame that is too large. -/
  | interrupted (message : String)
  /-- A payload is an error, or does not parse. -/
  | refused (message : String)
  deriving DecidableEq

/-- What is read of a stream, and how it ended. -/
structure Reading where
  events : List StreamEvent
  outcome : Outcome
  deriving DecidableEq

section Read
variable (J : SerdeJson) (A : StreamAdapter)

/-- The events of the frames up to a payload that is refused, and the message for that. -/
def readFrames (r : StreamReader) : List String → StreamReader × List StreamEvent × Option String
  | [] => (r, [], none)
  | frame :: frames =>
    match r.readFrame J A frame with
    | (r, .ok events) =>
      let (r, rest, refused) := readFrames r frames
      (r, events ++ rest, refused)
    | (r, .error message) => (r, [], some message)

/-- How a reading ends when nothing stopped it before the upstream ended. -/
def endOutcome (r : StreamReader) : UpstreamEnd → Outcome
  | .eof =>
    match endStatus r .success with
    | .success => .complete
    | .streamError message => .interrupted message
  | .idleTimeout => .interrupted "upstream stream idle timeout"
  | .transportError message => .interrupted message

def readPulses (r : StreamReader) (ending : UpstreamEnd) : List Pulse → Reading
  | [] => ⟨[], endOutcome r ending⟩
  | .keepalive :: pulses => readPulses r ending pulses
  | .chunk bytes :: pulses =>
    match r.framer.push bytes with
    | (_, .error error) => ⟨[], .interrupted error.message⟩
    | (framer, .ok frames) =>
      match readFrames J A { r with framer := framer } frames with
      | (_, events, some message) => ⟨events, .refused message⟩
      | (r, events, none) =>
        let reading := readPulses r ending pulses
        { reading with events := events ++ reading.events }

/-- What an upstream is read as. -/
def readUpstream (requestId : String) : UpstreamBody → Reading
  | .full events => ⟨((ToolStreamState.new requestId).normalize events).2, .complete⟩
  | .sse pulses ending => readPulses J A { tools := .new requestId } ending pulses

end Read

section Perform
variable {ε φ : Type} (P : StreamEncoder ε φ)

/-- The frames of an end. A refused payload is reported where it is read and once more at
the end. -/
def endFrames (e : ε) : Outcome → List φ
  | .complete => (P.finalize e).2
  | .interrupted message => (P.errorFrame e message).2
  | .refused message =>
    let (e, out) := P.errorFrame e message
    out ++ (P.errorFrame e message).2

/-- The frames for a reading. -/
def perform (e : ε) (reading : Reading) : List φ :=
  let (e, out) := P.feed e reading.events
  out ++ endFrames P e reading.outcome

theorem perform_append (e : ε) (events : List StreamEvent) (reading : Reading) :
    perform P e { reading with events := events ++ reading.events } =
      (P.feed e events).2 ++ perform P (P.feed e events).1 reading := by
  simp only [perform, Transducer.feed_append, List.append_assoc]

end Perform

section Frames
variable {φ : Type}

theorem framesOf_append (sent sent' : List (Sent φ)) :
    framesOf (sent ++ sent') = framesOf sent ++ framesOf sent' :=
  List.filterMap_append

theorem framesOf_map (out : List φ) : framesOf (out.map .frame) = out := by
  induction out with
  | nil => rfl
  | cons f out ih => exact congrArg (f :: ·) ih

end Frames

section Drive
variable {ε φ : Type} (P : StreamEncoder ε φ) (J : SerdeJson) (A : StreamAdapter)

/-- The driver reads the frames of a chunk as they are read, and gives the events to the encoder. -/
theorem takeFrames_eq (d : Driver ε) (frames : List String) :
    takeFrames P J A d frames =
      match readFrames J A d.reader frames with
      | (r, events, none) =>
        (⟨(P.feed d.encoder events).1, r⟩, (P.feed d.encoder events).2, .success)
      | (r, events, some message) =>
        let e := (P.feed d.encoder events).1
        (⟨(P.errorFrame e message).1, r⟩,
          (P.feed d.encoder events).2 ++ (P.errorFrame e message).2, .streamError message) := by
  induction frames generalizing d with
  | nil => rfl
  | cons frame frames ih =>
    rw [takeFrames, readFrames]
    obtain ⟨r, result⟩ := d.reader.readFrame J A frame
    cases result with
    | error message => rfl
    | ok events =>
      simp only [ih]
      obtain ⟨r', rest, refused⟩ := readFrames J A r frames
      cases refused with
      | none => simp only [Transducer.feed_append]
      | some message => simp only [Transducer.feed_append, List.append_assoc]

/-- The frames of what the loop gave and of what follows it. -/
def loopFrames (result : Driver ε × List (Sent φ) × Status) : List φ :=
  match endStatus result.1.reader result.2.2 with
  | .success => framesOf result.2.1 ++ (P.finalize result.1.encoder).2
  | .streamError message => framesOf result.2.1 ++ (P.errorFrame result.1.encoder message).2

theorem takePulses_frames (d : Driver ε) (ending : UpstreamEnd) (pulses : List Pulse) :
    loopFrames P (takePulses P J A d ending pulses) =
      perform P d.encoder (readPulses J A d.reader ending pulses) := by
  induction pulses generalizing d with
  | nil =>
    cases ending with
    | eof =>
      simp only [loopFrames, takePulses, readPulses, endOutcome, perform]
      cases endStatus d.reader .success <;> rfl
    | idleTimeout | transportError message => rfl
  | cons pulse pulses ih =>
    cases pulse with
    | keepalive => exact ih d
    | chunk bytes =>
      rw [takePulses, readPulses]
      obtain ⟨framer, result⟩ := d.reader.framer.push bytes
      cases result with
      | error error => rfl
      | ok frames =>
        simp only [takeFrames_eq]
        obtain ⟨r, events, refused⟩ :=
          readFrames J A { d.reader with framer := framer } frames
        cases refused with
        | some message =>
          simp only [loopFrames, endStatus, perform, endFrames, framesOf_map,
            List.append_assoc]
        | none =>
          have hrest := ih ⟨(P.feed d.encoder events).1, r⟩
          simp only
          rw [perform_append, ← hrest]
          generalize takePulses P J A ⟨(P.feed d.encoder events).1, r⟩ ending pulses = t
          obtain ⟨d', sent, status⟩ := t
          simp only [loopFrames, framesOf_append, framesOf_map]
          cases endStatus d'.reader status <;> simp only [List.append_assoc]

/-- The frames that the driver sends are those of the reading. -/
theorem driveStream_frames (requestId : String) (upstream : UpstreamBody) :
    framesOf (driveStream P J A requestId upstream) =
      perform P P.start (readUpstream J A requestId upstream) := by
  cases upstream with
  | full events => exact framesOf_map _
  | sse pulses ending =>
    have hframes := takePulses_frames P J A ⟨P.start, { tools := .new requestId }⟩ ending pulses
    rw [driveStream, readUpstream]
    refine Eq.trans ?_ hframes
    generalize takePulses P J A ⟨P.start, { tools := .new requestId }⟩ ending pulses = t
    obtain ⟨d, sent, status⟩ := t
    simp only [loopFrames]
    cases endStatus d.reader status <;> simp only [framesOf_append, framesOf_map]

end Drive
open Kinetix.Types

/-- What is used of an adapter for responses of both kinds. -/
structure ResponseAdapter extends StreamAdapter where
  parseFullResponse : Value → Except UpstreamFailure (List StreamEvent)

/-! ## Complete responses -/

def maxFullResponseBytes : Nat := 8 * 1024 * 1024

/-- A response that is no stream: the length it announces, and its bytes or why they could not be
read. -/
structure JsonResponse where
  contentLength : Option Nat
  bytes : Except UpstreamFailure (List UInt8)

/-- The events of a validated response, and the usage in them. -/
structure FullResponse where
  events : List StreamEvent
  precommitUsage : TokenUsage

/-- A response that cannot be used. -/
def badGateway (message : String) : UpstreamFailure := ⟨.serverError, some 502, none, message, none⟩

/-- How a response that is no stream is prepared with a test of its payload. `from_slice` reads a
text only if the bytes are one. -/
def prepareTested (test : String → Option UpstreamFailure) (J : SerdeJson) (A : ResponseAdapter)
    (response : JsonResponse) : Except UpstreamFailure FullResponse :=
  if response.contentLength.any (maxFullResponseBytes < ·) then
    .error (badGateway "upstream JSON response exceeds size limit")
  else
    match response.bytes with
    | .error failure => .error failure
    | .ok body =>
      if maxFullResponseBytes < body.length then
        .error (badGateway "upstream JSON response exceeds size limit")
      else
        match test (fromUtf8Lossy body) with
        | some failure => .error failure
        | none =>
          match (String.fromUTF8? ⟨body.toArray⟩).bind J.fromStr with
          | none => .error (badGateway "invalid upstream JSON response")
          | some value =>
            match A.parseFullResponse value with
            | .error failure => .error failure
            | .ok events =>
              if events.any isSemanticEvent then .ok ⟨events, mergedUsage events⟩
              else .error (badGateway "upstream JSON response contained no model result")

/-- `prepare_success_response` for a response that is no stream. -/
def prepareJson (J : SerdeJson) (A : ResponseAdapter) :
    JsonResponse → Except UpstreamFailure FullResponse :=
  prepareTested (payloadErrorFailure J A.toStreamAdapter) J A

/-! ## The driver -/

/-- What `drive_aggregate` ends with: an answer, or a message and a status code. -/
inductive AggregateResult where
  | answer (events : List StreamEvent) (usage : TokenUsage)
  | failure (message : String) (statusCode : Nat)

/-- What was collected so far. -/
structure Collected where
  reader : StreamReader
  events : List StreamEvent := []
  usage : TokenUsage := {}

section
variable (J : SerdeJson) (A : StreamAdapter)

def Collected.add (c : Collected) (reader : StreamReader) (events : List StreamEvent) : Collected :=
  { reader, events := c.events ++ events, usage := events.foldl usageStep c.usage }

/-- The frames of a chunk, up to an error or a payload that does not parse. -/
def collectFrames (c : Collected) : List String → Collected × Option String
  | [] => (c, none)
  | frame :: frames =>
    match c.reader.readFrame J A frame with
    | (reader, .ok events) => collectFrames (c.add reader events) frames
    | (reader, .error message) => ({ c with reader := reader }, some message)

/-- The loop, and the message and the status code of the error that ended it. -/
def collectChunks (c : Collected) (ending : UpstreamEnd) :
    List (List UInt8) → Collected × Option (String × Nat)
  | [] =>
    match ending with
    | .eof => (c, none)
    | .idleTimeout => (c, some ("upstream stream idle timeout", 504))
    | .transportError message => (c, some (message, 502))
  | chunk :: chunks =>
    match c.reader.framer.push chunk with
    | (framer, .error error) =>
      ({ c with reader := { c.reader with framer := framer } }, some (error.message, 502))
    | (framer, .ok frames) =>
      match collectFrames J A { c with reader := { c.reader with framer := framer } } frames with
      | (c, some message) => (c, some (message, 502))
      | (c, none) => collectChunks c ending chunks

/-- `drive_aggregate` for a stream. -/
def driveAggregate (requestId : String) (chunks : List (List UInt8)) (ending : UpstreamEnd) :
    AggregateResult :=
  match collectChunks J A { reader := { tools := .new requestId } } ending chunks with
  | (_, some (message, code)) => .failure message code
  | (c, none) =>
    match endStatus c.reader .success with
    | .success => .answer c.events c.usage
    | .streamError message => .failure message 502

end

end Kinetix.Pipeline
