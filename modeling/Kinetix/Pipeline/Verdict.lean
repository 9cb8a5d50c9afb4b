import Kinetix.Pipeline.Reading

/-!
# How a stream ends

The drivers go through the payloads of a stream in the same way, and end as one scan over them says
that knows nothing of encoders and clients. What a payload is tested for is a parameter of the scan,
so that two tests can be compared.
-/

namespace Kinetix.Pipeline
open Json Sse Splitting Kinetix.Types

/-- The payloads of a stream, however it arrives. -/
def payloadsOf (chunks : List (List UInt8)) : List String :=
  (upstreamFrames chunks.flatten).filterMap extractData

/-! ## One scan -/

section Scan
variable (test : String → Option UpstreamFailure) (J : SerdeJson) (A : StreamAdapter)

/-- What a frame says if payloads are tested: whether it is terminal, or the message of an error. -/
def noteFrame (frame : String) : Except String Bool :=
  match extractData frame with
  | none => .ok false
  | some payload =>
    if Text.trim payload = "[DONE]" then .ok true
    else
      match test payload with
      | some failure => .error failure.message
      | none =>
        match A.parseStreamChunk payload with
        | .error failure => .error failure.message
        | .ok events => .ok (payloadIsTerminal J payload events)

/-- Whether a terminal frame was seen. -/
def noteFrames (seen : Bool) : List String → Except String Bool
  | [] => .ok seen
  | frame :: frames =>
    match noteFrame test J A frame with
    | .error message => .error message
    | .ok terminal => noteFrames (seen || terminal) frames

/-- The error in which a stream ends, if it ends in one. -/
def verdict (framer : SseFramer) (seen : Bool) (ending : UpstreamEnd) :
    List (List UInt8) → Option String
  | [] =>
    match ending with
    | .eof =>
      if 0 < framer.pendingBytes then some "upstream SSE ended with an incomplete frame"
      else if seen then none
      else some "upstream SSE ended before a terminal event"
    | .idleTimeout => some "upstream stream idle timeout"
    | .transportError message => some message
  | chunk :: chunks =>
    match framer.push chunk with
    | (_, .error error) => some error.message
    | (framer, .ok frames) =>
      match noteFrames test J A seen frames with
      | .error message => some message
      | .ok seen => verdict framer seen ending chunks

end Scan

/-- No test at all. -/
def noTest : String → Option UpstreamFailure := fun _ => none

section
variable {test test' : String → Option UpstreamFailure} {J : SerdeJson} {A : StreamAdapter}
  {frame payload : String} {frames : List String} {framer : SseFramer} {seen : Bool}
  {ending : UpstreamEnd} {chunks : List (List UInt8)}

/-! ## Tests -/

theorem noteFrame_congr
    (h : ∀ payload, extractData frame = some payload → test payload = test' payload) :
    noteFrame test J A frame = noteFrame test' J A frame := by
  rw [noteFrame, noteFrame]
  split
  · rfl
  next payload hpayload => rw [h payload hpayload]

theorem noteFrames_congr
    (h : ∀ payload ∈ frames.filterMap extractData, test payload = test' payload) :
    noteFrames test J A seen frames = noteFrames test' J A seen frames := by
  induction frames generalizing seen with
  | nil => rfl
  | cons frame frames ih =>
    have hframe : noteFrame test J A frame = noteFrame test' J A frame :=
      noteFrame_congr fun payload hpayload =>
        h payload (List.mem_filterMap.mpr ⟨frame, List.mem_cons_self, hpayload⟩)
    have hrest (seen : Bool) : noteFrames test J A seen frames = noteFrames test' J A seen frames :=
      ih fun payload hpayload => h payload (by
        obtain ⟨other, hother, hsome⟩ := List.mem_filterMap.mp hpayload
        exact List.mem_filterMap.mpr ⟨other, List.mem_cons_of_mem frame hother, hsome⟩)
    rw [noteFrames, noteFrames, hframe]
    split
    · rfl
    · exact hrest _

theorem verdict_congr (hscan : framer.Scanned)
    (h : ∀ payload ∈ (upstreamFrames (framer.buffer ++ chunks.flatten)).filterMap extractData,
      test payload = test' payload) :
    verdict test J A framer seen ending chunks = verdict test' J A framer seen ending chunks := by
  induction chunks generalizing framer seen with
  | nil => rfl
  | cons chunk chunks ih =>
    rw [verdict, verdict]
    split
    · rfl
    next framer₁ frames hpush =>
      obtain ⟨hframes, hbuffer, hscan₁⟩ := SseFramer.push_ok hscan hpush
      rw [List.flatten_cons, ← List.append_assoc, Passthrough.upstreamFrames_append, ← hbuffer,
        List.filterMap_append, List.forall_mem_append] at h
      rw [upstreamFrames, ← hframes] at h
      rw [noteFrames_congr h.1]
      split
      · rfl
      · exact ih hscan₁ h.2

/-! ## What a success says -/

theorem test_of_noteFrame {terminal : Bool} (h : noteFrame test J A frame = .ok terminal)
    (hpayload : extractData frame = some payload) :
    Text.trim payload = "[DONE]" ∨ test payload = none := by
  rw [noteFrame, hpayload] at h
  dsimp only at h
  split at h
  · exact Or.inl ‹_›
  split at h
  · cases h
  · exact Or.inr ‹_›

theorem test_of_noteFrames {seen' : Bool} (h : noteFrames test J A seen frames = .ok seen') :
    ∀ payload ∈ frames.filterMap extractData, Text.trim payload = "[DONE]" ∨
      test payload = none := by
  induction frames generalizing seen with
  | nil => exact fun payload hpayload => (List.not_mem_nil hpayload).elim
  | cons frame frames ih =>
    rw [noteFrames] at h
    split at h
    · cases h
    next terminal hframe =>
      intro payload hpayload
      obtain ⟨other, hother, hsome⟩ := List.mem_filterMap.mp hpayload
      rcases List.mem_cons.mp hother with rfl | hother
      · exact test_of_noteFrame hframe hsome
      · exact ih h payload (List.mem_filterMap.mpr ⟨other, hother, hsome⟩)

/-- A stream that ends well was tested in vain. -/
theorem test_of_verdict (hscan : framer.Scanned) (hpending : delimiters.find framer.buffer = none)
    (h : verdict test J A framer seen ending chunks = none) :
    ∀ payload ∈ (upstreamFrames (framer.buffer ++ chunks.flatten)).filterMap extractData,
      Text.trim payload = "[DONE]" ∨ test payload = none := by
  induction chunks generalizing framer seen with
  | nil =>
    rw [List.flatten_nil, List.append_nil, upstreamFrames, Delimiters.split_of_none hpending]
    exact fun payload hpayload => (List.not_mem_nil hpayload).elim
  | cons chunk chunks ih =>
    rw [verdict] at h
    split at h
    · cases h
    next framer₁ frames hpush =>
      obtain ⟨rfl, hbuffer, hscan₁⟩ := SseFramer.push_ok hscan hpush
      split at h
      · cases h
      next seen' hframes =>
        rw [List.flatten_cons, ← List.append_assoc, Passthrough.upstreamFrames_append, ← hbuffer,
          List.filterMap_append, List.forall_mem_append]
        refine ⟨test_of_noteFrames hframes, ih hscan₁ ?_ h⟩
        exact hbuffer ▸ Delimiters.find_split_rest _

theorem scanned_start : ({} : SseFramer).Scanned := fun j hj => absurd hj (Nat.not_lt_zero j)

/-! ## The drivers end as the scan says -/

variable (r : StreamReader)

theorem readFrame_spec (frame : String) :
    (∃ r' events terminal, r.readFrame J A frame = (r', .ok events) ∧ r'.framer = r.framer ∧
      r'.terminalSeen = (r.terminalSeen || terminal) ∧
      noteFrame (payloadErrorFailure J A) J A frame = .ok terminal) ∨
    ∃ message, r.readFrame J A frame = (r, .error message) ∧
      noteFrame (payloadErrorFailure J A) J A frame = .error message := by
  rw [StreamReader.readFrame, noteFrame]
  cases extractData frame with
  | none => exact Or.inl ⟨r, [], false, rfl, rfl, (Bool.or_false _).symm, rfl⟩
  | some payload =>
    dsimp only
    by_cases hdone : Text.trim payload = "[DONE]"
    · rw [if_pos hdone, if_pos hdone]
      exact Or.inl ⟨_, [], true, rfl, rfl, (Bool.or_true _).symm, rfl⟩
    rw [if_neg hdone, if_neg hdone]
    cases payloadErrorFailure J A payload with
    | some failure => exact Or.inr ⟨_, rfl, rfl⟩
    | none =>
      cases A.parseStreamChunk payload with
      | error failure => exact Or.inr ⟨_, rfl, rfl⟩
      | ok events => exact Or.inl ⟨_, _, _, rfl, rfl, rfl, rfl⟩

theorem readFrames_spec (frames : List String) :
    (∃ r' events, readFrames J A r frames = (r', events, none) ∧ r'.framer = r.framer ∧
      noteFrames (payloadErrorFailure J A) J A r.terminalSeen frames = .ok r'.terminalSeen) ∨
    ∃ r' events message, readFrames J A r frames = (r', events, some message) ∧
      noteFrames (payloadErrorFailure J A) J A r.terminalSeen frames = .error message := by
  induction frames generalizing r with
  | nil => exact Or.inl ⟨r, [], rfl, rfl, rfl⟩
  | cons frame frames ih =>
    rw [readFrames, noteFrames]
    rcases readFrame_spec (J := J) (A := A) r frame with
      ⟨r₁, events, terminal, hread, hframer, hseen, hnote⟩ | ⟨message, hread, hnote⟩
    · rw [hread, hnote]
      dsimp only
      rw [← hseen]
      rcases ih r₁ with ⟨r', rest, hrest, hframer', hnotes⟩ | ⟨r', rest, message, hrest, hnotes⟩
      · exact Or.inl ⟨r', events ++ rest, by rw [hrest], hframer'.trans hframer, hnotes⟩
      · exact Or.inr ⟨r', events ++ rest, message, by rw [hrest], hnotes⟩
    · rw [hread, hnote]
      exact Or.inr ⟨r, [], message, rfl, rfl⟩

/-- The status that a stream driver comes to. -/
def Status.error? : Status → Option String
  | .success => none
  | .streamError message => some message

/-- At the end of the stream. -/
theorem error_endStatus : (endStatus r .success).error? =
    verdict test J A r.framer r.terminalSeen .eof [] := by
  rw [endStatus, verdict]
  by_cases hpending : 0 < r.framer.pendingBytes
  · rw [if_pos hpending, if_pos hpending]
    rfl
  · rw [if_neg hpending, if_neg hpending]
    cases r.terminalSeen <;> rfl

section
variable {ε φ : Type} (P : StreamEncoder ε φ)

/-- The chunks among the pulses. -/
def Pulse.chunk? : Pulse → Option (List UInt8)
  | .chunk bytes => some bytes
  | .keepalive => none

/-- The status of `drive_stream` for a stream. -/
def driveStreamStatus (J : SerdeJson) (A : StreamAdapter) (requestId : String) (pulses : List Pulse)
    (ending : UpstreamEnd) : Status :=
  let (d, _, status) := takePulses P J A ⟨P.start, { tools := .new requestId }⟩ ending pulses
  endStatus d.reader status

theorem status_takePulses (d : Driver ε) (pulses : List Pulse) :
    (endStatus (takePulses P J A d ending pulses).1.reader
        (takePulses P J A d ending pulses).2.2).error? =
      verdict (payloadErrorFailure J A) J A d.reader.framer d.reader.terminalSeen ending
        (pulses.filterMap Pulse.chunk?) := by
  induction pulses generalizing d with
  | nil =>
    cases ending with
    | eof => exact error_endStatus d.reader
    | idleTimeout | transportError message => rfl
  | cons pulse pulses ih =>
    cases pulse with
    | keepalive => exact ih d
    | chunk bytes =>
      have hchunks : (Pulse.chunk bytes :: pulses).filterMap Pulse.chunk? =
          bytes :: pulses.filterMap Pulse.chunk? := rfl
      rw [hchunks, takePulses, verdict]
      cases hpush : d.reader.framer.push bytes with
      | mk framer result =>
        cases result with
        | error error => rfl
        | ok frames =>
          simp only [takeFrames_eq]
          rcases readFrames_spec (J := J) (A := A) { d.reader with framer := framer } frames
            with ⟨r', events, hread, hframer, hnotes⟩ |
              ⟨r', events, message, hread, hnotes⟩
          · rw [hread, hnotes]
            dsimp only
            rw [ih]
            simp only [hframer]
          · rw [hread, hnotes]
            rfl

theorem driveStreamStatus_eq (requestId : String) (pulses : List Pulse) (ending : UpstreamEnd) :
    (driveStreamStatus P J A requestId pulses ending).error? =
      verdict (payloadErrorFailure J A) J A {} false ending (pulses.filterMap Pulse.chunk?) :=
  status_takePulses P ⟨P.start, { tools := .new requestId }⟩ pulses

end

/-- The message of a failure. -/
def AggregateResult.error? : AggregateResult → Option String
  | .answer _ _ => none
  | .failure message _ => some message

theorem collectFrames_spec (c : Collected) (frames : List String) :
    (∃ c', collectFrames J A c frames = (c', none) ∧ c'.reader.framer = c.reader.framer ∧
      noteFrames (payloadErrorFailure J A) J A c.reader.terminalSeen frames =
        .ok c'.reader.terminalSeen) ∨
    ∃ c' message, collectFrames J A c frames = (c', some message) ∧
      noteFrames (payloadErrorFailure J A) J A c.reader.terminalSeen frames = .error message := by
  induction frames generalizing c with
  | nil => exact Or.inl ⟨c, rfl, rfl, rfl⟩
  | cons frame frames ih =>
    rw [collectFrames, noteFrames]
    rcases readFrame_spec (J := J) (A := A) c.reader frame with
      ⟨r, events, terminal, hread, hframer, hseen, hnote⟩ | ⟨message, hread, hnote⟩
    · rw [hread, hnote]
      dsimp only
      rw [← hseen]
      rcases ih (c.add r events) with ⟨c', hrest, hframer', hnotes⟩ | ⟨c', message, hrest, hnotes⟩
      · exact Or.inl ⟨c', hrest, hframer'.trans hframer, hnotes⟩
      · exact Or.inr ⟨c', message, hrest, hnotes⟩
    · rw [hread, hnote]
      exact Or.inr ⟨_, message, rfl, rfl⟩

theorem collectChunks_spec (c : Collected) (ending : UpstreamEnd) (chunks : List (List UInt8)) :
    (match collectChunks J A c ending chunks with
      | (_, some (message, _)) => some message
      | (c, none) => (endStatus c.reader .success).error?) =
      verdict (payloadErrorFailure J A) J A c.reader.framer c.reader.terminalSeen
        ending chunks := by
  induction chunks generalizing c with
  | nil =>
    cases ending with
    | eof => exact error_endStatus c.reader
    | idleTimeout | transportError message => rfl
  | cons chunk chunks ih =>
    rw [collectChunks, verdict]
    cases hpush : c.reader.framer.push chunk with
    | mk framer result =>
      cases result with
      | error error => rfl
      | ok frames =>
        dsimp only
        rcases collectFrames_spec (J := J) (A := A)
          { c with reader := { c.reader with framer := framer } } frames with
          ⟨c', hcollect, hframer, hnotes⟩ | ⟨c', message, hcollect, hnotes⟩
        · rw [hcollect, hnotes]
          dsimp only
          rw [ih]
          simp only [hframer]
        · rw [hcollect, hnotes]

theorem driveAggregate_eq (requestId : String) (chunks : List (List UInt8)) (ending : UpstreamEnd) :
    (driveAggregate J A requestId chunks ending).error? =
      verdict (payloadErrorFailure J A) J A {} false ending chunks := by
  rw [← collectChunks_spec { reader := { tools := .new requestId } } ending chunks, driveAggregate]
  rcases collectChunks J A { reader := { tools := .new requestId } } ending chunks with
    ⟨c, _ | ⟨message, code⟩⟩
  · dsimp only
    cases endStatus c.reader .success with
    | success | streamError message => rfl
  · rfl

/-! ## The passthrough driver -/

namespace Passthrough
variable {C : Passthrough} {takes : List Act → Bool} {r r' : Relay} {stop : Option Stop}

/-- Why the driver stopped if the client did not go away. -/
def Told (stop : Option Stop) (told : Except String Bool) (r : Relay) : Prop :=
  match stop with
  | none => told = .ok r.terminalSeen
  | some (.streamError message) => told = .error message
  | some .clientDisconnect => True

theorem inspect_terminal (frame : String) :
    (C.inspect frame).map FrameNote.terminal =
      noteFrame (payloadErrorFailure C.json C.adapter) C.json C.adapter frame := by
  rw [inspect, noteFrame]
  cases extractData frame with
  | none => rfl
  | some payload =>
    dsimp only
    by_cases hdone : Text.trim payload = "[DONE]"
    · rw [if_pos hdone, if_pos hdone]
      rfl
    rw [if_neg hdone, if_neg hdone]
    cases payloadErrorFailure C.json C.adapter payload with
    | some failure => rfl
    | none => cases C.adapter.parseStreamChunk payload <;> rfl

variable (takes r) in
theorem send_terminalSeen (item : Sent ClientFrame) :
    (r.send takes item).1.terminalSeen = r.terminalSeen ∧
      ((r.send takes item).2 = none ∨ (r.send takes item).2 = some .clientDisconnect) := by
  rw [Relay.send]
  split
  · exact ⟨rfl, Or.inl rfl⟩
  · exact ⟨rfl, Or.inr rfl⟩

theorem sendAll_terminalSeen (frames : List String) :
    (r.sendAll takes frames).1.terminalSeen = r.terminalSeen ∧
      ((r.sendAll takes frames).2 = none ∨
        (r.sendAll takes frames).2 = some .clientDisconnect) := by
  induction frames generalizing r with
  | nil => exact ⟨rfl, Or.inl rfl⟩
  | cons frame frames ih =>
    rw [Relay.sendAll]
    have hsend := send_terminalSeen takes r (.frame (.copied frame))
    split
    next r₁ heq =>
      rw [heq] at hsend
      obtain ⟨hseen, hstop⟩ := ih (r := r₁)
      exact ⟨hseen.trans hsend.1, hstop⟩
    next r₁ stop heq =>
      rw [heq] at hsend
      exact hsend

/-- What is sent does not matter for what was told. -/
theorem told_of_sent {terminalSeen : Bool} {result : Relay × Option Stop}
    (h : result.1.terminalSeen = terminalSeen ∧
      (result.2 = none ∨ result.2 = some .clientDisconnect)) :
    Told result.2 (.ok terminalSeen) result.1 := by
  obtain ⟨rfl, hstop | hstop⟩ := h
  · rw [hstop]
    rfl
  · rw [hstop]
    trivial

variable (C takes r) in
theorem told_takeFrame (frame : String) :
    Told (C.takeFrame takes r frame).2
      ((noteFrame (payloadErrorFailure C.json C.adapter) C.json C.adapter frame).map
        (r.terminalSeen || ·)) (C.takeFrame takes r frame).1 := by
  rw [takeFrame, ← inspect_terminal]
  cases C.inspect frame with
  | error message => rfl
  | ok note =>
    dsimp only [Except.map]
    split
    · rfl
    split
    · exact told_of_sent (send_terminalSeen ..)
    split
    · exact told_of_sent (sendAll_terminalSeen _)
    · rfl

variable (C takes r) in
theorem told_takeFrames (frames : List String) :
    Told (C.takeFrames takes r frames).2
      (noteFrames (payloadErrorFailure C.json C.adapter) C.json C.adapter r.terminalSeen frames)
      (C.takeFrames takes r frames).1 := by
  induction frames generalizing r with
  | nil => rfl
  | cons frame frames ih =>
    have hone := told_takeFrame C takes r frame
    rw [takeFrames, noteFrames]
    generalize C.takeFrame takes r frame = result at hone ⊢
    obtain ⟨r₁, stop⟩ := result
    generalize noteFrame (payloadErrorFailure C.json C.adapter) C.json C.adapter frame = note
      at hone ⊢
    cases stop with
    | none =>
      cases note with
      | error message => cases hone
      | ok terminal =>
        have hseen : (r.terminalSeen || terminal) = r₁.terminalSeen := Except.ok.inj hone
        dsimp only
        rw [hseen]
        exact ih r₁
    | some stop =>
      cases stop with
      | clientDisconnect => trivial
      | streamError message =>
        cases note with
        | error other =>
          cases hone
          rfl
        | ok terminal => cases hone

variable (C takes r) in
/-- A driver whose client stays ends as the scan says. -/
theorem endStop_takePulses (framer : SseFramer) (ending : UpstreamEnd) (pulses : List Wake) :
    (C.takePulses takes framer r ending pulses).2.2 = some .clientDisconnect ∨
      (C.takePulses takes framer r ending pulses).2.1.endStop
          (C.takePulses takes framer r ending pulses).1
          (C.takePulses takes framer r ending pulses).2.2 =
        (verdict (payloadErrorFailure C.json C.adapter) C.json C.adapter framer
          r.terminalSeen ending
          (chunksOf pulses)).map .streamError := by
  induction pulses generalizing framer r with
  | nil =>
    cases ending with
    | eof =>
      refine Or.inr ?_
      change r.endStop framer none = _
      rw [Relay.endStop, chunksOf, List.filterMap_nil, verdict]
      by_cases hpending : 0 < framer.pendingBytes
      · rw [if_pos hpending, if_pos hpending]
        rfl
      · rw [if_neg hpending, if_neg hpending]
        cases r.terminalSeen <;> rfl
    | idleTimeout | transportError message => exact Or.inr rfl
  | cons pulse pulses ih =>
    cases pulse with
    | notified disconnected =>
      rw [takePulses]
      split
      · exact Or.inl rfl
      · exact ih _ framer
    | keepalive =>
      rw [takePulses]
      split
      · have hsend := send_terminalSeen takes r (.comment "keepalive")
        split
        next r₁ heq =>
          rw [heq] at hsend
          rw [← hsend.1]
          exact ih _ framer
        next r₁ stop heq =>
          rw [heq] at hsend
          exact Or.inl (hsend.2.resolve_left (Option.some_ne_none stop))
      · exact ih _ framer
    | chunk bytes =>
      rw [takePulses, chunksOf_chunk, verdict]
      cases framer.push bytes with
      | mk framer₁ result =>
        cases result with
        | error error => exact Or.inr rfl
        | ok frames =>
          dsimp only
          have htold := told_takeFrames C takes r frames
          generalize C.takeFrames takes r frames = result at htold ⊢
          obtain ⟨r₁, stop⟩ := result
          cases stop with
          | none =>
            rw [show noteFrames _ _ _ _ frames = _ from htold]
            exact ih _ framer₁
          | some stop =>
            cases stop with
            | clientDisconnect => exact Or.inl rfl
            | streamError message =>
              rw [show noteFrames _ _ _ _ frames = _ from htold]
              exact Or.inr rfl

theorem status_eq (pulses : List Wake) (ending : UpstreamEnd) :
    (C.driveStreamPassthrough takes pulses ending).status =
      (C.takePulses takes {} {} ending pulses).2.1.endStop
        (C.takePulses takes {} {} ending pulses).1
        (C.takePulses takes {} {} ending pulses).2.2 := by
  unfold driveStreamPassthrough
  dsimp only
  split
  next => split <;> rfl
  next => rfl

variable {pulses : List Wake}

/-- A driver that ends well ends as the scan says. -/
theorem verdict_of_status {ending : UpstreamEnd}
    (h : (C.driveStreamPassthrough takes pulses ending).status = none) :
    verdict (payloadErrorFailure C.json C.adapter) C.json C.adapter {} false ending
      (chunksOf pulses) = none := by
  rw [status_eq] at h
  rcases endStop_takePulses C takes {} {} ending pulses with hleft | hstays
  · rw [hleft] at h
    cases h
  · rw [hstays] at h
    exact Option.map_eq_none_iff.mp h

theorem takeFrames_stays (htakes : ∀ log, takes log = true) (frames : List String) :
    (C.takeFrames takes r frames).2 ≠ some .clientDisconnect := by
  induction frames generalizing r with
  | nil => simp [takeFrames]
  | cons frame frames ih =>
    have hone : (C.takeFrame takes r frame).2 ≠ some .clientDisconnect := by
      rw [takeFrame]
      cases C.inspect frame with
      | error message => simp
      | ok note =>
        dsimp only
        split
        · simp
        split
        · simp [send_takes htakes]
        split
        · simp [sendAll_takes htakes]
        · simp
    rw [takeFrames]
    split
    · exact ih
    next r₁ stop heq => rwa [heq] at hone

theorem takePulses_stays (htakes : ∀ log, takes log = true) (hstays : Wake.notified true ∉ pulses)
    (framer : SseFramer) (ending : UpstreamEnd) :
    (C.takePulses takes framer r ending pulses).2.2 ≠ some .clientDisconnect := by
  induction pulses generalizing framer r with
  | nil => cases ending <;> simp [takePulses]
  | cons pulse pulses ih =>
    rw [List.mem_cons, not_or] at hstays
    cases pulse with
    | notified disconnected =>
      rw [takePulses]
      split
      next h =>
        subst h
        exact absurd rfl hstays.1
      next => exact ih hstays.2 framer
    | keepalive =>
      rw [takePulses]
      split
      · rw [send_takes htakes]
        exact ih hstays.2 framer
      · exact ih hstays.2 framer
    | chunk bytes =>
      rw [takePulses]
      cases framer.push bytes with
      | mk framer₁ result =>
        cases result with
        | error error => simp
        | ok frames =>
          have hframes := takeFrames_stays (C := C) (r := r) htakes frames
          dsimp only
          split
          · exact ih hstays.2 framer₁
          next r₁ stop heq => rwa [heq] at hframes

/-- A driver whose client stays ends as the scan says. -/
theorem status_of_stays (htakes : ∀ log, takes log = true) (hstays : Wake.notified true ∉ pulses)
    (ending : UpstreamEnd) : (C.driveStreamPassthrough takes pulses ending).status =
      (verdict (payloadErrorFailure C.json C.adapter) C.json C.adapter {} false ending
        (chunksOf pulses)).map .streamError := by
  rw [status_eq]
  exact (endStop_takePulses C takes {} {} ending pulses).resolve_left
    (takePulses_stays htakes hstays {} ending)

end Passthrough

/-! ## Before a driver starts -/

section Prepare
variable (test : String → Option UpstreamFailure) (A : StreamAdapter)

/-- The search for a semantic event, if payloads are tested. -/
def seekFrames : List String → Except UpstreamFailure Bool
  | [] => .ok false
  | frame :: frames =>
    match extractData frame with
    | none => seekFrames frames
    | some payload =>
      match test payload with
      | some failure => .error failure
      | none =>
        if Text.trim payload = "[DONE]" then
          .error (badGateway "upstream SSE ended before any model event")
        else
          match A.parseStreamChunk payload with
          | .error failure => .error failure
          | .ok events =>
            if events.any isSemanticEvent then .ok true else seekFrames frames

def seek (framer : SseFramer) (ending : Option UpstreamFailure) :
    List (List UInt8) → Except UpstreamFailure (List (List UInt8))
  | [] =>
    match ending with
    | some failure => .error failure
    | none =>
      .error (badGateway
        (if 0 < framer.pendingBytes then "upstream SSE ended with an incomplete frame"
        else "upstream SSE ended before any model event"))
  | chunk :: chunks =>
    match framer.push chunk with
    | (_, .error error) => .error (badGateway error.message)
    | (framer, .ok frames) =>
      match seekFrames test A frames with
      | .error failure => .error failure
      | .ok true => .ok [chunk]
      | .ok false => (seek framer ending chunks).map (chunk :: ·)

end Prepare

theorem findSemantic_eq {C : Passthrough} (frames : List String) :
    C.findSemantic frames = seekFrames (payloadErrorFailure C.json C.adapter) C.adapter frames := by
  induction frames with
  | nil => rfl
  | cons frame frames ih =>
    rw [Passthrough.findSemantic, seekFrames, ih]
    rfl

theorem prepareStream_eq {C : Passthrough} (framer : SseFramer) (failure : Option UpstreamFailure)
    (chunks : List (List UInt8)) :
    C.prepareStream framer failure chunks =
      seek (payloadErrorFailure C.json C.adapter) C.adapter framer failure chunks := by
  induction chunks generalizing framer with
  | nil => rfl
  | cons chunk chunks ih =>
    rw [Passthrough.prepareStream, seek]
    simp only [findSemantic_eq, ih]
    rfl

theorem seekFrames_congr
    (h : ∀ payload ∈ frames.filterMap extractData, test payload = test' payload) :
    seekFrames test A frames = seekFrames test' A frames := by
  induction frames with
  | nil => rfl
  | cons frame frames ih =>
    rw [seekFrames, seekFrames]
    cases hpayload : extractData frame with
    | none =>
      rw [List.filterMap_cons_none hpayload] at h
      exact ih h
    | some payload =>
      rw [List.filterMap_cons_some hpayload, List.forall_mem_cons] at h
      dsimp only
      rw [h.1, ih h.2]

theorem seek_congr {failure : Option UpstreamFailure} (hscan : framer.Scanned)
    (h : ∀ payload ∈ (upstreamFrames (framer.buffer ++ chunks.flatten)).filterMap extractData,
      test payload = test' payload) :
    seek test A framer failure chunks = seek test' A framer failure chunks := by
  induction chunks generalizing framer with
  | nil => rfl
  | cons chunk chunks ih =>
    rw [seek, seek]
    split
    · rfl
    next framer₁ frames hpush =>
      obtain ⟨hframes, hbuffer, hscan₁⟩ := SseFramer.push_ok hscan hpush
      rw [List.flatten_cons, ← List.append_assoc, Passthrough.upstreamFrames_append, ← hbuffer,
        List.filterMap_append, List.forall_mem_append, upstreamFrames, ← hframes] at h
      rw [seekFrames_congr h.1, ih hscan₁ h.2]

theorem prepareTested_congr {F : ResponseAdapter} {response : JsonResponse}
    (h : ∀ body, response.bytes = .ok body →
      test (fromUtf8Lossy body) = test' (fromUtf8Lossy body)) :
    prepareTested test J F response = prepareTested test' J F response := by
  rw [prepareTested, prepareTested]
  cases hbytes : response.bytes with
  | error failure => rfl
  | ok body => simp only [h body hbytes]

theorem prepareTested_of_some {F : ResponseAdapter} {response : JsonResponse} {body : List UInt8}
    (hbody : response.bytes = .ok body) (h : (test (fromUtf8Lossy body)).isSome) :
    ∃ failure, prepareTested test J F response = .error failure := by
  obtain ⟨failure, hfailure⟩ := Option.isSome_iff_exists.mp h
  rw [prepareTested, hbody]
  split
  · exact ⟨_, rfl⟩
  dsimp only
  split
  · exact ⟨_, rfl⟩
  · exact ⟨failure, by rw [hfailure]⟩

end

end Kinetix.Pipeline
