import Kinetix.Pipeline.Passthrough

/-!
# The passthrough stream is a copy

Only the client, the upstream's own end or a frame that cannot be copied stops the driver, and a
response whose first chunks were validated comes to the point where the frames are sent.
-/

namespace Kinetix.Pipeline
open HeldBack Sse StateMachine Kinetix.Types

namespace Passthrough
variable {C : Passthrough} {takes : List Act → Bool} {r r' : Relay} {stop : Option Stop}

/-! ## Nothing else stops the driver -/

/-- The client stays and takes all, the upstream comes to its end, no frame is too large, and each
of them can be read and is no error. -/
structure Undisturbed (C : Passthrough) (takes : List Act → Bool) (pulses : List Wake)
    (ending : UpstreamEnd) : Prop where
  stays : Wake.notified true ∉ pulses
  takes : ∀ log, takes log = true
  eof : ending = .eof
  framed : SseFramer.pushAll {} (chunksOf pulses) ≠ none
  readable : ∀ frame ∈ upstreamFrames (chunksOf pulses).flatten,
    ∀ message, C.inspect frame ≠ .error message

section Undisturbed
variable {ending : UpstreamEnd} {pulses : List Wake} {framer : SseFramer}

theorem send_takes (htakes : ∀ log, takes log = true) (r : Relay) (item : Sent ClientFrame) :
    r.send takes item = ({ r with log := r.log ++ [.sent item] }, none) := by
  rw [Relay.send, if_pos (htakes r.log)]

theorem sendAll_takes (htakes : ∀ log, takes log = true) (r : Relay) (frames : List String) :
    (r.sendAll takes frames).2 = none := by
  induction frames generalizing r with
  | nil => rfl
  | cons frame frames ih =>
    rw [Relay.sendAll, send_takes htakes]
    exact ih _

theorem takeFrames_takes (htakes : ∀ log, takes log = true) {frames : List String}
    (hread : ∀ frame ∈ frames, ∀ message, C.inspect frame ≠ .error message) (r : Relay) :
    (C.takeFrames takes r frames).2 = none := by
  induction frames generalizing r with
  | nil => rfl
  | cons frame frames ih =>
    have hone : (C.takeFrame takes r frame).2 = none := by
      unfold takeFrame
      cases hn : C.inspect frame with
      | error message => exact absurd hn (hread frame List.mem_cons_self message)
      | ok note =>
        simp only
        split_ifs
        · rfl
        · rw [send_takes htakes]
        · exact sendAll_takes htakes _ _
        · rfl
    rw [takeFrames]
    split
    next r₁ hframe => exact ih (fun f hf => hread f (List.mem_cons_of_mem _ hf)) r₁
    next r₁ stop hframe =>
      rw [hframe] at hone
      exact hone

theorem takePulses_takes (htakes : ∀ log, takes log = true) (hstays : Wake.notified true ∉ pulses)
    (hframed : framer.pushAll (chunksOf pulses) ≠ none)
    (hread : ∀ frame ∈ upstreamFrames (framer.buffer ++ (chunksOf pulses).flatten),
      ∀ message, C.inspect frame ≠ .error message)
    (hscan : framer.Scanned) (r : Relay) :
    (C.takePulses takes framer r .eof pulses).2.2 = none := by
  induction pulses generalizing framer r with
  | nil => rfl
  | cons pulse pulses ih =>
    have hstays' : Wake.notified true ∉ pulses := fun h => hstays (List.mem_cons_of_mem _ h)
    cases pulse with
    | notified disconnected =>
      rw [takePulses, if_neg]
      · exact ih hstays' hframed hread hscan r
      · rintro rfl
        exact hstays List.mem_cons_self
    | keepalive =>
      rw [takePulses]
      split_ifs
      · rw [send_takes htakes]
        exact ih hstays' hframed hread hscan _
      · exact ih hstays' hframed hread hscan r
    | chunk bytes =>
      rw [chunksOf_chunk, SseFramer.pushAll] at hframed
      rw [chunksOf_chunk, List.flatten_cons, ← List.append_assoc,
        upstreamFrames_append] at hread
      rw [takePulses]
      split
      next framer₁ error hpush =>
        rw [hpush] at hframed
        exact absurd rfl hframed
      next framer₁ frames hpush =>
        rw [hpush] at hframed
        dsimp only at hframed
        obtain ⟨rfl, hbuffer, hscan₁⟩ := SseFramer.push_ok hscan hpush
        rw [← hbuffer] at hread
        have hframes := takeFrames_takes htakes
          (fun f hf => hread f (List.mem_append_left _ hf)) r
        rw [upstreamFrames] at hframes
        split
        next r₁ hrun =>
          refine ih hstays' (fun hnone => hframed ?_)
            (fun f hf => hread f (List.mem_append_right _ hf)) hscan₁ r₁
          rw [hnone]
          rfl
        next r₁ stop hrun =>
          rw [hrun] at hframes
          exact hframes

end Undisturbed

/-- What comes after the loop is no part of the copy. -/
theorem Advances.copies {pulses : List Wake} {log : List Act} {stopped status : Option Stop}
    (h : C.Advances {} r stopped (upstreamFrames (chunksOf pulses).flatten))
    (htimely : Each C.Timely log) (htaken : taken log = taken r.log)
    (hcopied : copied log = copied r.log) : C.Copies pulses ⟨log, stopped, status⟩ where
  timely := htimely
  whole hstop := by
    have hreleased := (h.copying hstop).released
    rw [kept] at hreleased ⊢
    rw [hcopied, hreleased, htaken]
  inOrder := by
    obtain ⟨seen, hseen, hpre, -⟩ := h.took
    rw [htaken, hseen]
    exact hpre
  complete hstop := by
    obtain ⟨seen, hseen, -, hall⟩ := h.took
    rw [htaken, hseen]
    exact hall hstop

theorem driveStreamPassthrough_copies (C : Passthrough) (takes : List Act → Bool)
    (pulses : List Wake) (ending : UpstreamEnd) :
    C.Copies pulses (C.driveStreamPassthrough takes pulses ending) := by
  unfold driveStreamPassthrough
  generalize hrun : C.takePulses takes {} {} ending pulses = result
  obtain ⟨framer, r, stopped⟩ := result
  have hadvances : C.Advances {} r stopped (upstreamFrames (chunksOf pulses).flatten) :=
    takePulses_advances .start (fun j hj => absurd hj (Nat.not_lt_zero j)) rfl hrun
  dsimp only
  cases hstatus : r.endStop framer stopped with
  | none => exact hadvances.copies hadvances.timely rfl rfl
  | some stop =>
    cases stop with
    | clientDisconnect => exact hadvances.copies hadvances.timely rfl rfl
    | streamError message =>
      dsimp only
      split_ifs with hc
      · have hstopped : stopped ≠ some .clientDisconnect := by
          rintro rfl
          cases hstatus
        have hcommitted := (hadvances.copying hstopped).committed
        rw [any_kept] at hcommitted
        obtain ⟨htimely, htaken, hcopied⟩ := @sendErrors_spec C takes r (C.errorEnd message)
          (errorEnd_not_copied C message) hadvances.timely (hcommitted ▸ hc)
        exact hadvances.copies htimely htaken hcopied
      · exact hadvances.copies hadvances.timely rfl rfl

theorem stopped_of_undisturbed {pulses : List Wake} {ending : UpstreamEnd}
    (h : C.Undisturbed takes pulses ending) :
    (C.driveStreamPassthrough takes pulses ending).stopped = none := by
  have hstop := takePulses_takes h.takes h.stays h.framed (r := {}) (by simpa using h.readable)
    (fun j hj => absurd hj (Nat.not_lt_zero j))
  rw [← h.eof] at hstop
  unfold driveStreamPassthrough
  generalize C.takePulses takes {} {} ending pulses = result at hstop ⊢
  obtain ⟨framer, r, stopped⟩ := result
  dsimp only at hstop ⊢
  split
  · split_ifs
    · exact hstop
    · exact hstop
  · exact hstop

/-! ## The first chunks -/

section Prepare
variable (C)

/-- Whether a frame of a chunk has a semantic event, or the failure for which the response is given
up before. -/
def findSemantic : List String → Except UpstreamFailure Bool
  | [] => .ok false
  | frame :: frames =>
    match extractData frame with
    | none => findSemantic frames
    | some payload =>
      match payloadErrorFailure C.json C.adapter payload with
      | some failure => .error failure
      | none =>
        if Text.trim payload = "[DONE]" then
          .error ⟨.serverError, some 502, none,
            "upstream SSE ended before any model event", none⟩
        else
          match C.adapter.parseStreamChunk payload with
          | .error failure => .error failure
          | .ok events =>
            if events.any isSemanticEvent then .ok true else findSemantic frames

/-- `prepare_success_response` for a stream: the chunks up to the first semantic event, or the
failure for which the response is given up. A transport error comes with its failure. -/
def prepareStream (framer : SseFramer) (ending : Option UpstreamFailure) :
    List (List UInt8) → Except UpstreamFailure (List (List UInt8))
  | [] =>
    match ending with
    | some failure => .error failure
    | none =>
      .error ⟨.serverError, some 502, none,
        if 0 < framer.pendingBytes then "upstream SSE ended with an incomplete frame"
        else "upstream SSE ended before any model event", none⟩
  | chunk :: chunks =>
    match framer.push chunk with
    | (_, .error error) => .error ⟨.serverError, some 502, none, error.message, none⟩
    | (framer, .ok frames) =>
      match C.findSemantic frames with
      | .error failure => .error failure
      | .ok true => .ok [chunk]
      | .ok false => (prepareStream framer ending chunks).map (chunk :: ·)

end Prepare

theorem commits_of_findSemantic {frames : List String} (h : C.findSemantic frames = .ok true) :
    frames.any C.commits = true := by
  induction frames with
  | nil => cases h
  | cons frame frames ih =>
    rw [List.any_cons, Bool.or_eq_true]
    rw [findSemantic] at h
    split at h
    next => exact .inr (ih h)
    next payload hpayload =>
      split at h
      · cases h
      · next hfailure =>
        split_ifs at h with hdone
        split at h
        · cases h
        · next events hevents =>
          split_ifs at h with hsemantic
          · refine .inl ?_
            simp [commits, inspect, hpayload, hdone, hfailure, hevents, hsemantic]
          · exact .inr (ih h)

/-- A response that is not given up has a semantic event in its first chunks. -/
theorem commits_of_prepareStream {framer : SseFramer} {ending : Option UpstreamFailure}
    {chunks prefetched : List (List UInt8)} (hscan : framer.Scanned)
    (h : C.prepareStream framer ending chunks = .ok prefetched) :
    (upstreamFrames (framer.buffer ++ prefetched.flatten)).any C.commits = true := by
  induction chunks generalizing framer prefetched with
  | nil =>
    cases ending with
    | none | some failure => cases h
  | cons chunk chunks ih =>
    rw [prepareStream] at h
    split at h
    next => cases h
    next framer₁ frames hpush =>
      obtain ⟨rfl, hbuffer, hscan₁⟩ := SseFramer.push_ok hscan hpush
      split at h
      next => cases h
      next hfound =>
        cases h
        rw [List.flatten_singleton]
        exact commits_of_findSemantic hfound
      next =>
        cases hrest : C.prepareStream framer₁ ending chunks with
        | error failure =>
          rw [hrest] at h
          cases h
        | ok rest =>
          rw [hrest] at h
          cases h
          rw [List.flatten_cons, ← List.append_assoc, upstreamFrames_append, ← hbuffer,
            List.any_append, ih hscan₁ hrest, Bool.or_true]

/-- Whatever arrives and whenever the client goes away, the driver copies the frames for the client
up to where it stops, and what is held back comes first. It stops before the end of the upstream
only for a client that went away, an upstream that broke off, or a frame that is too large, is an
error or cannot be read; otherwise the copy of a validated response is complete. -/
theorem passthrough_copies (C : Passthrough) (takes : List Act → Bool) (pulses : List Wake)
    (ending : UpstreamEnd) :
    C.Copies pulses (C.driveStreamPassthrough takes pulses ending) ∧
      (C.Undisturbed takes pulses ending →
        (C.driveStreamPassthrough takes pulses ending).stopped = none ∧
        ∀ (chunks prefetched : List (List UInt8)) (failure : Option UpstreamFailure),
          C.prepareStream {} failure chunks = .ok prefetched → prefetched <+: chunksOf pulses →
            copied (C.driveStreamPassthrough takes pulses ending).log =
              (upstreamFrames (chunksOf pulses).flatten).filter C.keeps) := by
  have hcopies := driveStreamPassthrough_copies C takes pulses ending
  refine ⟨hcopies, fun h => ?_⟩
  have hstopped := stopped_of_undisturbed h
  refine ⟨hstopped, fun chunks prefetched failure hprepared hprefetched => ?_⟩
  have hfirst := commits_of_prepareStream (fun j hj => absurd hj (Nat.not_lt_zero j)) hprepared
  obtain ⟨rest, hrest⟩ := hprefetched
  have hopen :
      (C.kept (C.driveStreamPassthrough takes pulses ending).log).any C.commits = true := by
    rw [any_kept, hcopies.complete hstopped, ← hrest, List.flatten_append, upstreamFrames_append,
      List.any_append]
    simp [show (upstreamFrames prefetched.flatten).any C.commits = true from hfirst]
  rw [hcopies.whole (by simp [hstopped]), released_of_open hopen, kept, hcopies.complete hstopped]

/-! ## An upstream -/

/-- A frame that the client did not ask for. -/
def dropsUsage (C : Passthrough) (frame : String) : Bool :=
  match C.inspect frame with
  | .ok note => C.suppresses note
  | .error _ => false

/-- An upstream that sends the text of its payloads, and errors as JSON objects. -/
def echo : Passthrough where
  json := {
    fromStr := fun text =>
      if text = "\x7b\"error\":\x7b\x7d\x7d" then some (.object [("error", .object [])]) else none
    toString := fun _ => "null" }
  adapter := {
    parseStreamChunk := fun payload => .ok [.textDelta payload]
    classifyError := fun status payload => ⟨.serverError, some status, none, payload, none⟩ }
  format := .openAi
  includeUsage := false
  ctx := ⟨"model", "req", 0, {}⟩

/-- A chunk of text that is one frame. -/
def hello : List UInt8 := "data: hello\n\n".toUTF8.toList

end Passthrough

open Passthrough in
theorem passthrough_copies_hello :
    copied (echo.driveStreamPassthrough (fun _ => true) [.chunk hello] .eof).log =
      ["data: hello"] := by
  have h : echo.Undisturbed (fun _ => true) [.chunk hello] .eof := by
    refine ⟨by simp, fun _ => rfl, rfl, by decide +kernel, ?_⟩
    have hframes : upstreamFrames (chunksOf [.chunk hello]).flatten = ["data: hello"] := by
      decide +kernel
    have hok : (echo.inspect "data: hello").isOk = true := by decide +kernel
    intro frame hmem message herror
    rw [hframes, List.mem_singleton] at hmem
    rw [hmem] at herror
    rw [herror] at hok
    cases hok
  refine (((passthrough_copies echo _ _ _).2 h).2 [hello] [hello] none ?_ List.prefix_rfl).trans ?_
  · decide +kernel
  · decide +kernel

open Passthrough in
/-- An error of the upstream is not copied. -/
theorem error_frame_not_copied : ¬ ∀ (C : Passthrough) (pulses : List Wake),
    copied (C.driveStreamPassthrough (fun _ => true) pulses .eof).log =
      (upstreamFrames (chunksOf pulses).flatten).filter fun frame => !C.dropsUsage frame := by
  intro h
  have hrun := h echo [.chunk (hello ++ "data: \x7b\"error\":\x7b\x7d\x7d\n\n".toUTF8.toList)]
  revert hrun
  decide +kernel

end Kinetix.Pipeline
