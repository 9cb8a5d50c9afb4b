import Kinetix.Frontends.Decoding
import Kinetix.Library.Piecewise
import Kinetix.Pipeline.DriveStream
import Kinetix.Sse.Chunking

/-!
# The passthrough driver

`drive_stream_passthrough` of `pipeline.rs`, for an upstream of the client's own format: the frames
are copied, and none is sent before one with a semantic event has arrived.

## Implementation notes

What the loop waits for is a list of pulses in the order in which they are served, the flag of a
client that went away among them, and how the upstream ends. Whether the client takes an item may
depend on all that happened before. The log of the driver is the order in which it took the frames
of the upstream and sent the items to the client. Metering, tracing and logging are left out.
-/

namespace Kinetix.Pipeline
open Frontends HeldBack Json Sse Splitting StateMachine

/-- `is_semantic_event`. -/
def isSemanticEvent : StreamEvent → Bool
  | .start _ | .usage _ => false
  | .thinkingDelta _ _ | .textDelta _ | .refusalDelta _ | .toolCallStart _ _ _ _
  | .toolCallArgsDelta _ _ | .finish _ => true

def reportsUsageOnly (events : List StreamEvent) : Bool :=
  !events.isEmpty && events.all fun
    | .usage _ => true
    | _ => false

/-- What the driver sends: an upstream frame with a blank line behind it, or a frame of its own. -/
inductive ClientFrame where
  | copied (frame : String)
  | openAi (frame : OpenAi.Frame)
  | anthropic (frame : Anthropic.Frame)
  | responses (frame : Responses.Frame)

/-- A frame is taken, or something sent. -/
inductive Act where
  | took (frame : String)
  | sent (item : Sent ClientFrame)

/-- Why the driver stops before the upstream has ended. -/
inductive Stop where
  | clientDisconnect
  | streamError (message : String)
  deriving DecidableEq

/-- What the loop is woken by while the upstream goes on. -/
inductive Wake where
  | notified (disconnected : Bool)
  | keepalive
  | chunk (bytes : List UInt8)

/-- What the loop finds in a frame. -/
structure FrameNote where
  semantic : Bool := false
  terminal : Bool := false
  usageOnly : Bool := false

structure Relay where
  terminalSeen : Bool := false
  committed : Bool := false
  pendingFrames : List String := []
  log : List Act := []

/-- What a run leaves behind. -/
structure PassthroughRun where
  log : List Act
  stopped : Option Stop
  status : Option Stop

namespace Relay
variable (takes : List Act → Bool)

def send (r : Relay) (item : Sent ClientFrame) : Relay × Option Stop :=
  if takes r.log then ({ r with log := r.log ++ [.sent item] }, none)
  else (r, some .clientDisconnect)

def sendAll (r : Relay) : List String → Relay × Option Stop
  | [] => (r, none)
  | frame :: frames =>
    match r.send takes (.frame (.copied frame)) with
    | (r, none) => sendAll r frames
    | (r, some stop) => (r, some stop)

/-- After an error nothing is left to be done for a client that went away. -/
def sendErrors (r : Relay) : List ClientFrame → Relay
  | [] => r
  | frame :: frames => sendErrors (r.send takes (.frame frame)).1 frames

/-- After the loop a stream that did not come to its end is an error. -/
def endStop (r : Relay) (framer : SseFramer) : Option Stop → Option Stop
  | none =>
    if 0 < framer.pendingBytes then
      some (.streamError "upstream SSE ended with an incomplete frame")
    else if r.terminalSeen then none
    else some (.streamError "upstream SSE ended before a terminal event")
  | some stop => some stop

end Relay

/-- What the driver is called with. -/
structure Passthrough where
  json : SerdeJson
  adapter : StreamAdapter
  format : FrontendFormat
  includeUsage : Bool
  ctx : EncoderCtx

namespace Passthrough
variable (C : Passthrough) (takes : List Act → Bool)

/-- What a frame says, or the message of an error that stops the driver. -/
def inspect (frame : String) : Except String FrameNote :=
  match extractData frame with
  | none => .ok {}
  | some payload =>
    if Text.trim payload = "[DONE]" then .ok { terminal := true }
    else
      match payloadErrorFailure C.json C.adapter payload with
      | some failure => .error failure.message
      | none =>
        match C.adapter.parseStreamChunk payload with
        | .error failure => .error failure.message
        | .ok events =>
          .ok {
            semantic := events.any isSemanticEvent
            terminal := payloadIsTerminal C.json payload events
            usageOnly := reportsUsageOnly events }

/-- A frame that reports usage only is not for a client that did not ask for it. -/
def suppresses (note : FrameNote) : Bool :=
  C.format = .openAi && !C.includeUsage && note.usageOnly

/-- A frame is copied, and what it says is noted. -/
def takeFrame (r : Relay) (frame : String) : Relay × Option Stop :=
  let r := { r with log := r.log ++ [.took frame] }
  match C.inspect frame with
  | .error message => (r, some (.streamError message))
  | .ok note =>
    let r := { r with terminalSeen := r.terminalSeen || note.terminal }
    if C.suppresses note then (r, none)
    else if r.committed then r.send takes (.frame (.copied frame))
    else
      let pendingFrames := r.pendingFrames ++ [frame]
      if note.semantic then
        { r with committed := true, pendingFrames := [] }.sendAll takes pendingFrames
      else ({ r with pendingFrames := pendingFrames }, none)

/-- The frames of a chunk. -/
def takeFrames (r : Relay) : List String → Relay × Option Stop
  | [] => (r, none)
  | frame :: frames =>
    match C.takeFrame takes r frame with
    | (r, none) => takeFrames r frames
    | (r, some stop) => (r, some stop)

/-- The loop, until it stops or the upstream ends. -/
def takePulses (framer : SseFramer) (r : Relay) (ending : UpstreamEnd) :
    List Wake → SseFramer × Relay × Option Stop
  | [] =>
    match ending with
    | .eof => (framer, r, none)
    | .idleTimeout => (framer, r, some (.streamError "upstream stream idle timeout"))
    | .transportError message => (framer, r, some (.streamError message))
  | .notified disconnected :: pulses =>
    if disconnected then (framer, r, some .clientDisconnect)
    else takePulses framer r ending pulses
  | .keepalive :: pulses =>
    if r.committed then
      match r.send takes (.comment "keepalive") with
      | (r, none) => takePulses framer r ending pulses
      | (r, some stop) => (framer, r, some stop)
    else takePulses framer r ending pulses
  | .chunk bytes :: pulses =>
    match framer.push bytes with
    | (framer, .error error) => (framer, r, some (.streamError error.message))
    | (framer, .ok frames) =>
      match C.takeFrames takes r frames with
      | (r, none) => takePulses framer r ending pulses
      | (r, some stop) => (framer, r, some stop)

/-- The frames for an error. An OpenAI client gets no new id and model. -/
def errorEnd (message : String) : List ClientFrame :=
  match C.format with
  | .openAi => [.openAi (.error message), .openAi .done]
  | .anthropic =>
    let P := anthropicEncoder C.ctx
    (P.errorFrame P.start message).2.map .anthropic
  | .openAiResponses =>
    let P := responsesEncoder C.ctx
    (P.errorFrame P.start message).2.map .responses

/-- `drive_stream_passthrough`. -/
def driveStreamPassthrough (pulses : List Wake) (ending : UpstreamEnd) : PassthroughRun :=
  let (framer, r, stopped) := C.takePulses takes {} {} ending pulses
  let status := r.endStop framer stopped
  match status with
  | some (.streamError message) =>
    if r.committed then ⟨(r.sendErrors takes (C.errorEnd message)).log, stopped, status⟩
    else ⟨r.log, stopped, status⟩
  | _ => ⟨r.log, stopped, status⟩

end Passthrough

/-! ## What a copy is -/

/-- The frames of an upstream, however it arrives. -/
def upstreamFrames (bytes : List UInt8) : List String :=
  (delimiters.split bytes).1.filterMap renderFrame

def Wake.chunk? : Wake → Option (List UInt8)
  | .chunk bytes => some bytes
  | .notified _ | .keepalive => none

/-- The chunks that arrive. -/
def chunksOf (pulses : List Wake) : List (List UInt8) := pulses.filterMap (·.chunk?)

def Act.took? : Act → Option String
  | .took frame => some frame
  | .sent _ => none

def Act.copied? : Act → Option String
  | .sent (.frame (.copied frame)) => some frame
  | _ => none

/-- The frames that the driver took from the upstream. -/
def taken (log : List Act) : List String := log.filterMap (·.took?)

/-- The upstream frames that were sent to the client. -/
def copied (log : List Act) : List String := log.filterMap (·.copied?)

namespace Passthrough
variable (C : Passthrough)

/-- A frame that is for the client: it is no error, and its client wants it. -/
def keeps (frame : String) : Bool :=
  match C.inspect frame with
  | .ok note => !C.suppresses note
  | .error _ => false

/-- A frame with a semantic event. -/
def commits (frame : String) : Bool :=
  match C.inspect frame with
  | .ok note => note.semantic
  | .error _ => false

/-- The frames for the client among those that were taken. -/
def kept (log : List Act) : List String := (taken log).filter C.keeps

/-- What is sent is sent after a semantic event was taken, and what is copied comes next among the
frames for the client. -/
def Timely (pre : List Act) : Act → Prop
  | .took _ => True
  | .sent item => (taken pre).any C.commits = true ∧
      ∀ frame, item = .frame (.copied frame) → copied pre ++ [frame] <+: C.kept pre

/-- A run copies the frames for the client: at each moment those that were sent are the first ones,
and none was sent before a semantic event. In the end, unless the client went away, all that were
taken are sent, and the upstream was taken up to where the driver stopped. -/
structure Copies (pulses : List Wake) (run : PassthroughRun) : Prop where
  timely : Each C.Timely run.log
  whole : run.stopped ≠ some .clientDisconnect →
    copied run.log = released C.commits (C.kept run.log)
  inOrder : taken run.log <+: upstreamFrames (chunksOf pulses).flatten
  complete : run.stopped = none → taken run.log = upstreamFrames (chunksOf pulses).flatten

end Passthrough

/-! ## The invariant -/

section Logs
variable (log : List Act)

variable (frame : String)

@[simp] theorem taken_took : taken (log ++ [.took frame]) = taken log ++ [frame] := by
  simp [taken, Act.took?]

@[simp] theorem taken_sent (item : Sent ClientFrame) : taken (log ++ [.sent item]) = taken log := by
  simp [taken, Act.took?]

@[simp] theorem copied_took : copied (log ++ [.took frame]) = copied log := by
  simp [copied, Act.copied?]

@[simp] theorem copied_frame :
    copied (log ++ [.sent (.frame (.copied frame))]) = copied log ++ [frame] := by
  simp [copied, Act.copied?]

theorem copied_sent {item : Sent ClientFrame} (h : ∀ frame, item ≠ .frame (.copied frame)) :
    copied (log ++ [.sent item]) = copied log := by
  rw [copied, List.filterMap_append]
  cases item with
  | comment text => simp [copied, Act.copied?]
  | frame f =>
    cases f with
    | copied frame => exact absurd rfl (h frame)
    | openAi f | anthropic f | responses f => simp [copied, Act.copied?]

end Logs

namespace Passthrough
variable {C : Passthrough} {takes : List Act → Bool} {r r' : Relay} {stop : Option Stop}

@[simp] theorem kept_sent (log : List Act) (item : Sent ClientFrame) :
    C.kept (log ++ [.sent item]) = C.kept log := by
  rw [kept, taken_sent, kept]

/-- A usage report is no semantic event. -/
theorem usageOnly_of_semantic {events : List StreamEvent} (h : events.any isSemanticEvent = true) :
    reportsUsageOnly events = false := by
  obtain ⟨event, hmem, hsemantic⟩ := List.any_eq_true.mp h
  rw [reportsUsageOnly, Bool.and_eq_false_iff]
  refine .inr (List.all_eq_false.mpr ⟨event, hmem, ?_⟩)
  cases event with
  | usage u => cases hsemantic
  | start _ | textDelta _ | refusalDelta _ | thinkingDelta _ _ | toolCallStart _ _ _ _
  | toolCallArgsDelta _ _ | finish _ => exact Bool.false_ne_true

variable {frame : String} {frames : List String}

theorem usageOnly_inspect {note : FrameNote} (h : C.inspect frame = .ok note)
    (hsemantic : note.semantic = true) : note.usageOnly = false := by
  unfold inspect at h
  split at h
  · cases h
    rfl
  · split_ifs at h
    · cases h
      rfl
    · split at h
      · cases h
      · split at h
        · cases h
        · cases h
          exact usageOnly_of_semantic hsemantic

theorem keeps_of_commits (h : C.commits frame = true) : C.keeps frame = true := by
  unfold commits at h
  unfold keeps
  cases hn : C.inspect frame with
  | error message => simp [hn] at h
  | ok note =>
    rw [hn] at h
    simp [suppresses, usageOnly_inspect hn h]

theorem any_kept (log : List Act) : (C.kept log).any C.commits = (taken log).any C.commits := by
  rw [kept, List.any_filter]
  congr 1
  funext frame
  cases h : C.commits frame with
  | false => simp
  | true => simp [keeps_of_commits h]

/-- The state of a driver that no client has left: what is released of the frames for the client has
been sent, and the others are pending. -/
structure Copying (C : Passthrough) (r : Relay) : Prop where
  timely : Each C.Timely r.log
  committed : r.committed = (C.kept r.log).any C.commits
  released : copied r.log = released C.commits (C.kept r.log)
  pending : r.pendingFrames = held C.commits (C.kept r.log)

theorem Copying.start : Copying C {} where
  timely i := i.elim0
  committed := rfl
  released := rfl
  pending := rfl

/-- From one state the driver came to another one, while frames of the upstream were there to be
taken: it took them all, or stopped after some of them. -/
structure Advances (C : Passthrough) (r r' : Relay) (stop : Option Stop) (frames : List String) :
    Prop where
  timely : Each C.Timely r'.log
  took : ∃ seen, taken r'.log = taken r.log ++ seen ∧ seen <+: frames ∧
    (stop = none → seen = frames)
  copying : stop ≠ some .clientDisconnect → C.Copying r'

theorem Advances.refl (h : C.Copying r) : C.Advances r r none [] :=
  ⟨h.timely, ⟨[], by simp⟩, fun _ => h⟩

theorem Advances.stay (h : C.Copying r) (stop : Stop) (frames : List String) :
    C.Advances r r (some stop) frames :=
  ⟨h.timely, ⟨[], by simp⟩, fun _ => h⟩

theorem Advances.more {stop : Stop} (h : C.Advances r r' (some stop) frames) (more : List String) :
    C.Advances r r' (some stop) (frames ++ more) := by
  obtain ⟨seen, htaken, hseen, -⟩ := h.took
  exact ⟨h.timely,
    ⟨seen, htaken, hseen.trans (List.prefix_append _ _), fun hstop => by cases hstop⟩, h.copying⟩

theorem Advances.trans {r₁ : Relay} {frames more : List String} (h : C.Advances r r₁ none frames)
    (h' : C.Advances r₁ r' stop more) : C.Advances r r' stop (frames ++ more) := by
  obtain ⟨seen, htaken, -, hall⟩ := h.took
  obtain rfl := hall rfl
  obtain ⟨seen', htaken', hseen', hall'⟩ := h'.took
  refine ⟨h'.timely, ⟨seen ++ seen', ?_, ?_, fun hstop => ?_⟩, h'.copying⟩
  · rw [htaken', htaken, List.append_assoc]
  · exact (List.prefix_append_right_inj seen).mpr hseen'
  · rw [hall' hstop]

theorem send_cases {item : Sent ClientFrame} (h : r.send takes item = (r', stop)) :
    (stop = none ∧ r' = { r with log := r.log ++ [.sent item] }) ∨
      (stop = some .clientDisconnect ∧ r' = r) := by
  unfold Relay.send at h
  split_ifs at h
  · cases h
    exact .inl ⟨rfl, rfl⟩
  · cases h
    exact .inr ⟨rfl, rfl⟩

/-- Frames that come next are sent one after the other until the client goes away. -/
theorem sendAll_cases (h : r.sendAll takes frames = (r', stop)) (htimely : Each C.Timely r.log)
    (hopen : (taken r.log).any C.commits = true) (hnext : copied r.log ++ frames <+: C.kept r.log) :
    Each C.Timely r'.log ∧ taken r'.log = taken r.log ∧
      (stop = some .clientDisconnect ∨
        stop = none ∧ copied r'.log = copied r.log ++ frames ∧ r' = { r with log := r'.log }) := by
  induction frames generalizing r with
  | nil =>
    cases h
    exact ⟨htimely, rfl, .inr ⟨rfl, by simp, rfl⟩⟩
  | cons frame frames ih =>
    rw [Relay.sendAll] at h
    have hone : copied r.log ++ [frame] <+: C.kept r.log := by
      refine List.IsPrefix.trans ?_ hnext
      exact (List.prefix_append_right_inj _).mpr (List.prefix_append [frame] frames)
    split at h
    next r₁ hsend =>
      obtain ⟨-, rfl⟩ | ⟨hstop, -⟩ := send_cases hsend
      · have hsent : C.Timely r.log (.sent (.frame (.copied frame))) :=
          ⟨hopen, fun f hf => by cases hf; exact hone⟩
        obtain ⟨htimely', htaken, hend⟩ := ih h (each_snoc.mpr ⟨htimely, hsent⟩)
          (by simpa using hopen) (by simpa using hnext)
        refine ⟨htimely', by simpa using htaken, hend.imp id ?_⟩
        rintro ⟨hstop, hcopied, hr⟩
        exact ⟨hstop, by simpa using hcopied, hr⟩
      · cases hstop
    next r₁ stop' hsend =>
      obtain ⟨hstop, -⟩ | ⟨hstop, rfl⟩ := send_cases hsend
      · cases hstop
      · cases h
        cases hstop
        exact ⟨htimely, rfl, .inl rfl⟩

theorem timely_took (h : Each C.Timely r.log) (frame : String) :
    Each C.Timely (r.log ++ [.took frame]) :=
  each_snoc.mpr ⟨h, trivial⟩

theorem kept_took (log : List Act) (frame : String) :
    C.kept (log ++ [.took frame]) = C.kept log ++ [frame].filter C.keeps := by
  rw [kept, taken_took, List.filter_append, kept]

/-- A frame that is not for the client changes nothing for it. -/
theorem Copying.drop (h : C.Copying r) (hkeeps : C.keeps frame = false) (terminalSeen : Bool) :
    C.Copying { r with terminalSeen := terminalSeen, log := r.log ++ [.took frame] } := by
  have hkept : C.kept (r.log ++ [.took frame]) = C.kept r.log := by simp [kept_took, hkeeps]
  refine ⟨timely_took h.timely frame, ?_, ?_, ?_⟩
  · rw [hkept]
    exact h.committed
  · rw [hkept, copied_took]
    exact h.released
  · rw [hkept]
    exact h.pending

/-- A frame without a semantic event waits for one. -/
theorem Copying.hold (h : C.Copying r) (hkeeps : C.keeps frame = true)
    (hcommits : C.commits frame = false) (hc : r.committed = false) (terminalSeen : Bool) :
    C.Copying { r with
      terminalSeen := terminalSeen
      pendingFrames := r.pendingFrames ++ [frame]
      log := r.log ++ [.took frame] } := by
  have hkept : C.kept (r.log ++ [.took frame]) = C.kept r.log ++ [frame] := by
    simp [kept_took, hkeeps]
  have hclosed : (C.kept r.log).any C.commits = false := h.committed.symm.trans hc
  have hstill : (C.kept r.log ++ [frame]).any C.commits = false := by simp [hclosed, hcommits]
  refine ⟨timely_took h.timely frame, ?_, ?_, ?_⟩
  · rw [hkept, hstill]
    exact hc
  · rw [hkept, released_of_closed hstill, copied_took, h.released, released_of_closed hclosed]
  · rw [hkept, held_of_closed hstill, h.pending, held_of_closed hclosed]

/-- After the first semantic event a frame for the client is sent at once. -/
theorem Copying.pass (h : C.Copying r) (hkeeps : C.keeps frame = true) (hc : r.committed = true)
    {terminalSeen : Bool} (hsend : Relay.send takes
      { r with terminalSeen := terminalSeen, log := r.log ++ [.took frame] }
      (.frame (.copied frame)) = (r', stop)) : C.Advances r r' stop [frame] := by
  have htook := timely_took h.timely frame
  have hkept : C.kept (r.log ++ [.took frame]) = C.kept r.log ++ [frame] := by
    simp [kept_took, hkeeps]
  have hopen : (C.kept r.log).any C.commits = true := h.committed.symm.trans hc
  have hstill : (C.kept r.log ++ [frame]).any C.commits = true := by
    rw [List.any_append, hopen, Bool.true_or]
  have hcopied : copied r.log = C.kept r.log := h.released.trans (released_of_open hopen)
  obtain ⟨rfl, rfl⟩ | ⟨rfl, rfl⟩ := send_cases hsend
  · have hsent : C.Timely (r.log ++ [.took frame]) (.sent (.frame (.copied frame))) := by
      refine ⟨by rw [← any_kept, hkept, hstill], fun f hf => ?_⟩
      cases hf
      rw [copied_took, hcopied, hkept]
    have htimely := each_snoc.mpr ⟨htook, hsent⟩
    refine ⟨htimely, ⟨[frame], ?_, List.prefix_rfl, fun _ => rfl⟩, fun _ => ⟨htimely, ?_, ?_, ?_⟩⟩
    · rw [taken_sent, taken_took]
    · rw [kept_sent, hkept, hstill]
      exact hc
    · rw [copied_frame, copied_took, kept_sent, hkept, released_of_open hstill, hcopied]
    · rw [kept_sent, hkept, held_of_open hstill]
      exact h.pending.trans (held_of_open hopen)
  · exact ⟨htook, ⟨[frame], by simp⟩, fun hstop => absurd rfl hstop⟩

/-- The first semantic event sends what was held back. -/
theorem Copying.release (h : C.Copying r) (hcommits : C.commits frame = true)
    (hc : r.committed = false) {terminalSeen : Bool} (hsend : Relay.sendAll takes
      { r with
        terminalSeen := terminalSeen
        committed := true
        pendingFrames := []
        log := r.log ++ [.took frame] }
      (r.pendingFrames ++ [frame]) = (r', stop)) : C.Advances r r' stop [frame] := by
  have hclosed : (C.kept r.log).any C.commits = false := h.committed.symm.trans hc
  have hkept : C.kept (r.log ++ [.took frame]) = r.pendingFrames ++ [frame] := by
    rw [kept_took, h.pending, held_of_closed hclosed]
    simp [keeps_of_commits hcommits]
  have hcopied : copied (r.log ++ [.took frame]) = [] := by
    rw [copied_took, h.released, released_of_closed hclosed]
  obtain ⟨htimely, htaken, hend⟩ := sendAll_cases hsend (timely_took h.timely frame)
    (by simp [hcommits]) (by rw [hkept, hcopied, List.nil_append])
  refine ⟨htimely, ⟨[frame], by simpa using htaken⟩, fun hstop => ?_⟩
  obtain hgone | ⟨-, hall, hr⟩ := hend
  · exact absurd hgone hstop
  · have hkept' : C.kept r'.log = r.pendingFrames ++ [frame] := by
      rw [kept, htaken, ← kept, hkept]
    have hopen : (r.pendingFrames ++ [frame]).any C.commits = true := by simp [hcommits]
    refine ⟨htimely, ?_, ?_, ?_⟩
    · rw [hkept', hopen, hr]
    · rw [hkept', released_of_open hopen, hall, hcopied, List.nil_append]
    · rw [hkept', held_of_open hopen, hr]

theorem takeFrame_advances (h : C.Copying r) (hrun : C.takeFrame takes r frame = (r', stop)) :
    C.Advances r r' stop [frame] := by
  unfold takeFrame at hrun
  cases hn : C.inspect frame with
  | error message =>
    rw [hn] at hrun
    cases hrun
    have hkeeps : C.keeps frame = false := by simp [keeps, hn]
    have hdrop := h.drop hkeeps r.terminalSeen
    exact ⟨hdrop.timely, ⟨[frame], by simp⟩, fun _ => hdrop⟩
  | ok note =>
    rw [hn] at hrun
    simp only at hrun
    split_ifs at hrun with hsuppressed hc hsemantic
    · cases hrun
      have hkeeps : C.keeps frame = false := by simp [keeps, hn, hsuppressed]
      have hdrop := h.drop hkeeps (r.terminalSeen || note.terminal)
      exact ⟨hdrop.timely, ⟨[frame], by simp⟩, fun _ => hdrop⟩
    · exact h.pass (by simp [keeps, hn, hsuppressed]) hc hrun
    · exact h.release (by simp [commits, hn, hsemantic]) (by simpa using hc) hrun
    · cases hrun
      have hkeeps : C.keeps frame = true := by simp [keeps, hn, hsuppressed]
      have hcommits : C.commits frame = false := by simpa [commits, hn] using hsemantic
      have hhold := h.hold hkeeps hcommits (by simpa using hc) (r.terminalSeen || note.terminal)
      exact ⟨hhold.timely, ⟨[frame], by simp⟩, fun _ => hhold⟩

theorem takeFrames_advances (h : C.Copying r) (hrun : C.takeFrames takes r frames = (r', stop)) :
    C.Advances r r' stop frames := by
  induction frames generalizing r with
  | nil =>
    cases hrun
    exact .refl h
  | cons frame frames ih =>
    rw [takeFrames] at hrun
    split at hrun
    next r₁ hframe =>
      have hone := takeFrame_advances h hframe
      exact hone.trans (ih (hone.copying (by simp)) hrun)
    next r₁ stop' hframe =>
      cases hrun
      exact (takeFrame_advances h hframe).more frames

/-- Comments are no part of the copy. -/
theorem Copying.keepalive (h : C.Copying r) (hc : r.committed = true)
    (hsend : r.send takes (.comment "keepalive") = (r', stop)) : C.Advances r r' stop [] := by
  obtain ⟨rfl, rfl⟩ | ⟨rfl, rfl⟩ := send_cases hsend
  · have hopen : (taken r.log).any C.commits = true := by rw [← any_kept, ← h.committed, hc]
    have hcopied : copied (r.log ++ [.sent (.comment "keepalive")]) = copied r.log :=
      copied_sent r.log fun _ => by simp
    have htimely : Each C.Timely (r.log ++ [.sent (.comment "keepalive")]) :=
      each_snoc.mpr ⟨h.timely, hopen, fun _ hf => by cases hf⟩
    refine ⟨htimely, ⟨[], by simp⟩, fun _ => ⟨htimely, ?_, ?_, ?_⟩⟩
    · rw [kept_sent]
      exact h.committed
    · rw [hcopied, kept_sent]
      exact h.released
    · rw [kept_sent]
      exact h.pending
  · exact .stay h _ _

theorem chunksOf_chunk (bytes : List UInt8) (pulses : List Wake) :
    chunksOf (.chunk bytes :: pulses) = bytes :: chunksOf pulses := rfl

/-- The frames of an upstream, of which a part has arrived. -/
theorem upstreamFrames_append (bytes more : List UInt8) : upstreamFrames (bytes ++ more) =
    upstreamFrames bytes ++ upstreamFrames ((delimiters.split bytes).2 ++ more) := by
  rw [upstreamFrames, Delimiters.split_append, List.filterMap_append]
  rfl

/-- The loop takes the frames of the upstream, however the chunks cut them. -/
theorem takePulses_advances {framer framer' : SseFramer} {ending : UpstreamEnd} {pulses : List Wake}
    (h : C.Copying r) (hscan : framer.Scanned) (hpending : delimiters.find framer.buffer = none)
    (hrun : C.takePulses takes framer r ending pulses = (framer', r', stop)) :
    C.Advances r r' stop (upstreamFrames (framer.buffer ++ (chunksOf pulses).flatten)) := by
  induction pulses generalizing framer r with
  | nil =>
    rw [chunksOf, List.filterMap_nil, List.flatten_nil, List.append_nil, upstreamFrames,
      Delimiters.split_of_none hpending]
    cases ending with
    | eof =>
      cases hrun
      exact .refl h
    | idleTimeout | transportError message =>
      cases hrun
      exact .stay h _ _
  | cons pulse pulses ih =>
    cases pulse with
    | notified disconnected =>
      rw [takePulses] at hrun
      split_ifs at hrun
      · cases hrun
        exact .stay h _ _
      · exact ih h hscan hpending hrun
    | keepalive =>
      rw [takePulses] at hrun
      split_ifs at hrun with hc
      · split at hrun
        next r₁ hsend =>
          have hone := h.keepalive hc hsend
          exact hone.trans (ih (hone.copying (by simp)) hscan hpending hrun)
        next r₁ stop' hsend =>
          cases hrun
          exact (h.keepalive hc hsend).more _
      · exact ih h hscan hpending hrun
    | chunk bytes =>
      rw [takePulses] at hrun
      split at hrun
      next framer₁ error hpush =>
        cases hrun
        exact .stay h _ _
      next framer₁ frames hpush =>
        obtain ⟨rfl, hbuffer, hscan₁⟩ := SseFramer.push_ok hscan hpush
        rw [chunksOf_chunk, List.flatten_cons, ← List.append_assoc, upstreamFrames_append,
          ← hbuffer]
        split at hrun
        next r₁ hframes =>
          have hone := takeFrames_advances h hframes
          refine hone.trans (ih (hone.copying (by simp)) hscan₁ ?_ hrun)
          exact hbuffer ▸ Delimiters.find_split_rest _
        next r₁ stop' hframes =>
          cases hrun
          exact (takeFrames_advances h hframes).more _

/-- The frames of an error are no part of the copy. -/
theorem sendErrors_spec {frames : List ClientFrame}
    (hframes : ∀ f ∈ frames, ∀ frame, f ≠ .copied frame)
    (htimely : Each C.Timely r.log) (hopen : (taken r.log).any C.commits = true) :
    Each C.Timely (r.sendErrors takes frames).log ∧
      taken (r.sendErrors takes frames).log = taken r.log ∧
      copied (r.sendErrors takes frames).log = copied r.log := by
  induction frames generalizing r with
  | nil => exact ⟨htimely, rfl, rfl⟩
  | cons f frames ih =>
    have hf : ∀ frame, Sent.frame f ≠ .frame (.copied frame) := fun frame he =>
      hframes f List.mem_cons_self frame (Sent.frame.inj he)
    have hrest : ∀ f ∈ frames, ∀ frame, f ≠ .copied frame := fun f hmem =>
      hframes f (List.mem_cons_of_mem _ hmem)
    rw [Relay.sendErrors]
    generalize hsend : r.send takes (.frame f) = sent
    obtain ⟨r₁, stop⟩ := sent
    obtain ⟨-, rfl⟩ | ⟨-, rfl⟩ := send_cases hsend
    · have hsent : C.Timely r.log (.sent (.frame f)) :=
        ⟨hopen, fun frame he => absurd he (hf frame)⟩
      obtain ⟨htimely', htaken, hcopied⟩ := ih (r := { r with log := _ }) hrest
        (each_snoc.mpr ⟨htimely, hsent⟩) (by simpa using hopen)
      exact ⟨htimely', by simpa using htaken, hcopied.trans (copied_sent r.log hf)⟩
    · exact ih hrest htimely hopen

theorem errorEnd_not_copied (C : Passthrough) (message : String) :
    ∀ f ∈ C.errorEnd message, ∀ frame, f ≠ .copied frame := by
  intro f hf frame he
  unfold errorEnd at hf
  cases hformat : C.format <;> simp_all

end Passthrough
end Kinetix.Pipeline
