import Kinetix.Pipeline.DriveStream
import Kinetix.Sse.Chunking

/-!
# How a stream ends

A delimiter takes two line ends, but any number of blank lines may end an event. What is left over
of them is pending at the end of the stream, and the drivers take it for an incomplete frame.
-/

namespace Kinetix.Pipeline
open Sse Splitting

inductive Eol where
  | lf
  | crlf
  deriving DecidableEq

def Eol.bytes : Eol → List UInt8
  | .lf => [Sse.lf]
  | .crlf => [cr, Sse.lf]

/-- A byte that ends no line. -/
def Plain (b : UInt8) : Prop := b ≠ cr ∧ b ≠ lf

instance (b : UInt8) : Decidable (Plain b) := inferInstanceAs (Decidable (_ ∧ _))

/-- A line that is not blank. -/
structure Line where
  content : List UInt8
  eol : Eol
  nonempty : content ≠ []
  plain : ∀ b ∈ content, Plain b

def Line.bytes (l : Line) : List UInt8 := l.content ++ l.eol.bytes

/-- A complete event: its lines, and the blank lines behind the last one. -/
structure Event where
  lines : List Line
  last : Line
  blanks : List Eol
  ended : blanks ≠ []

def Event.bytes (e : Event) : List UInt8 :=
  e.lines.flatMap Line.bytes ++ (e.last.bytes ++ e.blanks.flatMap Eol.bytes)

/-- The line ends behind the content of the last line. -/
def Event.eols (e : Event) : List Eol := e.last.eol :: e.blanks

/-- Delimiters use up all of a run of line ends: two at a time, but a line feed with a carriage
return behind it makes no delimiter. -/
def usedUp : List Eol → Bool
  | [] => true
  | [_] => false
  | .lf :: .crlf :: eols => usedUp (.crlf :: eols)
  | _ :: _ :: eols => usedUp eols

/-! ## Line ends -/

section
variable {b : UInt8} {v : List UInt8}

theorem closed_plain (h : Plain b) : delimiters.Closed (b :: v) ↔ delimiters.Closed v :=
  Delimiters.closed_cons (front_of_ne h.1 h.2)

theorem closed_content {content : List UInt8} (h : ∀ b ∈ content, Plain b) :
    delimiters.Closed (content ++ v) ↔ delimiters.Closed v := by
  induction content with
  | nil => rfl
  | cons b content ih =>
    rw [List.cons_append, closed_plain (h b List.mem_cons_self)]
    exact ih fun c hc => h c (List.mem_cons_of_mem b hc)

/-- One line end before a byte of a line, or at the end, makes no delimiter. -/
theorem closed_eol (x : Eol) (h : ∀ b ∈ v.head?, Plain b) :
    delimiters.Closed (x.bytes ++ v) ↔ delimiters.Closed v := by
  have hlf : delimiters.front (lf :: v) = none := front_lf fun hb => (h lf hb).2 rfl
  cases x with
  | lf => exact Delimiters.closed_cons hlf
  | crlf =>
    have hcr : delimiters.front (cr :: lf :: v) = none := front_crlf fun hb => (h cr hb).1 rfl
    exact (Delimiters.closed_cons hcr).trans (Delimiters.closed_cons hlf)

/-- A line feed before a carriage return makes no delimiter. -/
theorem closed_lf_crlf : delimiters.Closed (Eol.lf.bytes ++ (Eol.crlf.bytes ++ v)) ↔
    delimiters.Closed (Eol.crlf.bytes ++ v) :=
  Delimiters.closed_cons (front_lf fun h => cr_ne_lf (Option.some.inj h))

/-- Any other two line ends are a delimiter, with a carriage return before it or not. -/
theorem closed_pair {x y : Eol} (h : ¬ (x = .lf ∧ y = .crlf)) :
    delimiters.Closed (x.bytes ++ (y.bytes ++ v)) ↔ (delimiters.split v).2 = [] := by
  have hclosed : delimiters.Closed (lf :: lf :: v) ↔ (delimiters.split v).2 = [] := by
    exact Delimiters.closed_of_find (Delimiters.find_of_front front_lf_lf)
  cases x with
  | lf =>
    cases y with
    | lf => exact hclosed
    | crlf => exact absurd ⟨rfl, rfl⟩ h
  | crlf =>
    cases y with
    | lf =>
      have hlf : (lf :: v).head? ≠ some cr := fun hb => cr_ne_lf (Option.some.inj hb).symm
      exact (Delimiters.closed_cons (front_crlf hlf)).trans hclosed
    | crlf =>
      exact Delimiters.closed_of_find (Delimiters.find_of_front front_crlf_crlf)

theorem bytes_ne_nil (x : Eol) : x.bytes ≠ [] := by
  cases x with
  | lf | crlf => exact List.cons_ne_nil _ _

/-- A run of line ends before another line is in no one's way. -/
theorem closed_eols_plain (eols : List Eol) (hb : v.head? = some b) (hplain : Plain b) :
    delimiters.Closed (eols.flatMap Eol.bytes ++ v) ↔ delimiters.Closed v := by
  have hne : ∀ run : List UInt8, run ++ v ≠ [] := by
    intro run hnil
    rw [(List.append_eq_nil_iff.mp hnil).2] at hb
    cases hb
  fun_induction usedUp eols with
  | case1 => rfl
  | case2 x =>
    rw [List.flatMap_singleton]
    apply closed_eol
    intro c hc
    rw [hb] at hc
    exact Option.some.inj hc ▸ hplain
  | case3 eols ih =>
    simp only [List.flatMap_cons, List.append_assoc] at ih ⊢
    exact closed_lf_crlf.trans ih
  | case4 x y eols hxy ih =>
    simp only [List.flatMap_cons, List.append_assoc] at ih ⊢
    rw [closed_pair (by simpa using hxy), Delimiters.split_rest_eq_nil]
    exact (or_iff_right (hne _)).trans ih

/-- A run of line ends at the end of the stream. -/
theorem closed_eols {eols : List Eol} (h : eols ≠ []) :
    delimiters.Closed (eols.flatMap Eol.bytes) ↔ usedUp eols = true := by
  fun_induction usedUp eols with
  | case1 => exact absurd rfl h
  | case2 x =>
    have hnil : ¬ delimiters.Closed [] := fun hc => hc.1 rfl
    have hone : delimiters.Closed (x.bytes ++ []) ↔ delimiters.Closed [] := closed_eol x (by simp)
    rw [List.append_nil] at hone
    simpa [hone] using hnil
  | case3 eols ih =>
    have hnext := ih (List.cons_ne_nil _ _)
    simp only [List.flatMap_cons] at hnext ⊢
    exact closed_lf_crlf.trans hnext
  | case4 x y eols hxy ih =>
    simp only [List.flatMap_cons]
    rw [closed_pair (by simpa using hxy), Delimiters.split_rest_eq_nil]
    cases eols with
    | nil => simp [usedUp]
    | cons z eols =>
      have hne : (z :: eols).flatMap Eol.bytes ≠ [] := by
        rw [List.flatMap_cons]
        exact List.append_ne_nil_of_left_ne_nil (bytes_ne_nil z) _
      exact (or_iff_right hne).trans (ih (List.cons_ne_nil z eols))

end

/-! ## Events -/

section
variable {v : List UInt8}

/-- The first byte of a line. -/
theorem Line.head (l : Line) (more : List UInt8) :
    ∃ b, (l.content ++ more).head? = some b ∧ Plain b := by
  cases hc : l.content with
  | nil => exact absurd hc l.nonempty
  | cons b content => exact ⟨b, rfl, l.plain b (hc ▸ List.mem_cons_self)⟩

/-- The first byte of an event. -/
theorem Event.head (e : Event) (more : List UInt8) :
    ∃ b, (e.bytes ++ more).head? = some b ∧ Plain b := by
  cases hl : e.lines with
  | nil =>
    simp only [Event.bytes, hl, List.flatMap_nil, List.nil_append, Line.bytes, List.append_assoc]
    exact e.last.head _
  | cons l lines =>
    simp only [Event.bytes, hl, List.flatMap_cons, Line.bytes, List.append_assoc]
    exact l.head _

/-- The lines of an event are closed by what comes behind them. -/
theorem closed_lines (lines : List Line) (h : ∃ b, v.head? = some b ∧ Plain b) :
    delimiters.Closed (lines.flatMap Line.bytes ++ v) ↔ delimiters.Closed v := by
  induction lines with
  | nil => rfl
  | cons l lines ih =>
    have hnext : ∃ b, (lines.flatMap Line.bytes ++ v).head? = some b ∧ Plain b := by
      cases lines with
      | nil => exact h
      | cons l' lines =>
        simp only [List.flatMap_cons, Line.bytes, List.append_assoc]
        exact l'.head _
    obtain ⟨b, hb, hplain⟩ := hnext
    simp only [List.flatMap_cons, Line.bytes, List.append_assoc] at ih hb ⊢
    rw [closed_content l.plain]
    refine (closed_eol l.eol ?_).trans ih
    intro c hc
    rw [hb] at hc
    exact Option.some.inj hc ▸ hplain

/-- An event comes down to the line ends behind its last line. -/
theorem closed_event (e : Event) : delimiters.Closed (e.bytes ++ v) ↔
    delimiters.Closed (e.eols.flatMap Eol.bytes ++ v) := by
  simp only [Event.bytes, Event.eols, Line.bytes, List.flatMap_cons, List.append_assoc]
  exact (closed_lines e.lines (e.last.head _)).trans (closed_content e.last.plain)

/-- Complete events are closed if and only if delimiters use up the line ends behind the
last one. -/
theorem closed_events {events : List Event} {e : Event} (h : events.getLast? = some e) :
    delimiters.Closed (events.flatMap Event.bytes) ↔ usedUp e.eols = true := by
  induction events with
  | nil => cases h
  | cons e' events ih =>
    cases events with
    | nil =>
      cases h
      have hone := closed_event (v := []) e'
      simp only [List.append_nil] at hone
      rw [List.flatMap_singleton]
      exact hone.trans (closed_eols (List.cons_ne_nil _ _))
    | cons e'' events =>
      rw [List.getLast?_cons_cons] at h
      obtain ⟨b, hb, hplain⟩ := e''.head (events.flatMap Event.bytes)
      rw [List.flatMap_cons, closed_event, List.flatMap_cons, closed_eols_plain e'.eols hb hplain]
      exact ih h

/-- Nothing is pending behind complete events if and only if delimiters use up the line ends behind
the last one. -/
theorem split_events_rest (events : List Event) :
    (delimiters.split (events.flatMap Event.bytes)).2 = [] ↔
      ∀ e, events.getLast? = some e → usedUp e.eols = true := by
  rw [Delimiters.split_rest_eq_nil]
  cases hl : events.getLast? with
  | none => simp [List.getLast?_eq_none_iff.mp hl]
  | some e =>
    have hne : events.flatMap Event.bytes ≠ [] := by
      cases events with
      | nil => cases hl
      | cons e' events =>
        obtain ⟨b, hb, -⟩ := e'.head (events.flatMap Event.bytes)
        intro hnil
        rw [List.flatMap_cons] at hnil
        rw [hnil] at hb
        cases hb
    simp only [hne, false_or, closed_events hl, Option.some.injEq, forall_eq']

end

/-- After a stream of complete events nothing is pending if and only if delimiters use up the line
ends behind the last event. Then, and only then, a driver that has seen the terminal event ends with
success. -/
theorem pending_after_events_iff {maxFrameBytes : Nat} {chunks : List (List UInt8)}
    {events : List Event} {f : SseFramer} {frames : List String}
    (hbytes : chunks.flatten = events.flatMap Event.bytes)
    (hpush : (SseFramer.withMaxFrameBytes maxFrameBytes).pushAll chunks = some (f, frames)) :
    (f.pendingBytes = 0 ↔ ∀ e, events.getLast? = some e → usedUp e.eols = true) ∧
    ∀ r : StreamReader, r.framer = f → r.terminalSeen = true →
      (endStatus r .success = .success ↔
        ∀ e, events.getLast? = some e → usedUp e.eols = true) := by
  have hpending : f.pendingBytes = 0 ↔ ∀ e, events.getLast? = some e → usedUp e.eols = true := by
    rw [← split_events_rest, ← hbytes, ← (frames_of_chunks hpush).2]
    exact List.length_eq_zero_iff
  refine ⟨hpending, fun r hr hseen => ?_⟩
  rw [← hpending, ← hr]
  by_cases h0 : r.framer.pendingBytes = 0
  · simp [endStatus, h0, hseen]
  · simp [endStatus, h0, Nat.pos_of_ne_zero h0]

/-- `data: x`, and the given line ends. -/
def sampleEvent (eol : Eol) (blanks : List Eol) (h : blanks ≠ []) : Event where
  lines := []
  last := ⟨[100, 97, 116, 97, 58, 32, 120], eol, by decide, by simp [Plain, cr, lf]⟩
  blanks := blanks
  ended := h

theorem pending_after_events_one_blank : ∃ f,
    (SseFramer.withMaxFrameBytes 100).pushAll [(sampleEvent .lf [.lf] (by decide)).bytes] =
      some (f, ["data: x"]) ∧ f.pendingBytes = 0 := by
  have hrun : (SseFramer.withMaxFrameBytes 100).pushAll
      [(sampleEvent .lf [.lf] (by decide)).bytes] = some (⟨[], 0, 100⟩, ["data: x"]) := by
    decide +kernel
  have hbytes : [(sampleEvent .lf [.lf] (by decide)).bytes].flatten =
      [sampleEvent .lf [.lf] (by decide)].flatMap Event.bytes := by simp
  refine ⟨_, hrun, (pending_after_events_iff hbytes hrun).1.mpr ?_⟩
  intro e he
  cases he
  rfl

/-- A second blank line is left over, and the complete response is taken for a truncated one. -/
theorem pending_after_two_blanks :
    ¬ ∀ (maxFrameBytes : Nat) (chunks : List (List UInt8)) (events : List Event) (f : SseFramer)
      (frames : List String), chunks.flatten = events.flatMap Event.bytes →
      (SseFramer.withMaxFrameBytes maxFrameBytes).pushAll chunks = some (f, frames) →
      f.pendingBytes = 0 := by
  intro h
  have hrun : (SseFramer.withMaxFrameBytes 100).pushAll
      [(sampleEvent .lf [.lf, .lf] (by decide)).bytes] = some (⟨[10], 0, 100⟩, ["data: x"]) := by
    decide +kernel
  exact absurd (h 100 _ [sampleEvent .lf [.lf, .lf] (by decide)] _ _ (by simp) hrun) (by decide)

end Kinetix.Pipeline
