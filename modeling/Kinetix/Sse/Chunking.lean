import Kinetix.Library.Splitting
import Kinetix.Sse.Framer

/-!
# Framing does not depend on the chunks

The frames of a stream are what lies between its delimiters `\n\n` and `\r\n\r\n`. However the
stream arrives, the framer hands out these frames and keeps what follows the last delimiter.
-/

namespace Kinetix.Sse
open Splitting

/-- The delimiters that the framer knows. -/
def delimiters : Delimiters UInt8 where
  patterns := [[lf, lf], [cr, lf, cr, lf]]
  nonempty := by decide
  apart := by decide

/-- All delimiters that make a blank line, those that mix both line endings included. -/
def blankLines : Delimiters UInt8 where
  patterns := [[lf, lf], [cr, lf, cr, lf], [lf, cr, lf], [cr, lf, lf]]
  nonempty := by decide
  apart := by decide

section
variable {b : UInt8} {bytes : List UInt8}

theorem cr_ne_lf : cr ≠ lf := by decide

/-- A delimiter starts with a line end. -/
theorem front_of_ne (hcr : b ≠ cr) (hlf : b ≠ lf) : delimiters.front (b :: bytes) = none := by
  simp [Delimiters.front, delimiters, hcr.symm, hlf.symm]

theorem front_lf_lf : delimiters.front (lf :: lf :: bytes) = some 2 := by
  simp [Delimiters.front, delimiters]

theorem front_lf (h : bytes.head? ≠ some lf) : delimiters.front (lf :: bytes) = none := by
  cases bytes with
  | nil => rfl
  | cons b bytes =>
    have hb : lf ≠ b := fun hb => h (hb ▸ rfl)
    simp [Delimiters.front, delimiters, cr_ne_lf, hb]

theorem front_crlf_crlf : delimiters.front (cr :: lf :: cr :: lf :: bytes) = some 4 := by
  simp [Delimiters.front, delimiters, cr_ne_lf.symm]

theorem front_crlf (h : bytes.head? ≠ some cr) : delimiters.front (cr :: lf :: bytes) = none := by
  cases bytes with
  | nil => rfl
  | cons b bytes =>
    have hb : cr ≠ b := fun hb => h (hb ▸ rfl)
    simp [Delimiters.front, delimiters, cr_ne_lf.symm, hb]

end

/-- The scan of the code is the search of the library. -/
theorem scanDelimiter_eq (i : Nat) (bytes : List UInt8) :
    scanDelimiter i bytes = (delimiters.find bytes).map fun r => (r.1 + i, r.2) := by
  induction bytes generalizing i with
  | nil => rfl
  | cons b rest ih =>
    rw [scanDelimiter, Delimiters.find, ih]
    simp only [Delimiters.front, delimiters, List.find?]
    cases h₂ : [lf, lf].isPrefixOf (b :: rest) with
    | true => simp
    | false =>
      cases h₄ : [cr, lf, cr, lf].isPrefixOf (b :: rest) with
      | true => simp
      | false =>
        simp only [Bool.false_eq_true, if_false, Option.map_none, Option.map_map]
        congr 1
        funext r
        simp [Nat.add_comm, Nat.add_left_comm]

/-- A search that skips places without a delimiter finds the leftmost one. -/
theorem findDelimiter_eq {bytes : List UInt8} {start : Nat}
    (h : ∀ j < start, delimiters.front (bytes.drop j) = none) :
    findDelimiter bytes start = delimiters.find bytes := by
  unfold findDelimiter
  dsimp only
  rw [scanDelimiter_eq,
    Delimiters.find_skip (min start bytes.length) fun j hj => h j (hj.trans_le (min_le_left _ _))]

/-- No delimiter starts in what was searched, whatever follows. -/
def SseFramer.Scanned (f : SseFramer) : Prop :=
  ∀ j < f.scanFrom, ∀ more, delimiters.front ((f.buffer ++ more).drop j) = none

/-- After a search without a result, the last three bytes are all that needs another look. -/
theorem front_scanned {bytes : List UInt8} (h : delimiters.find bytes = none) {j : Nat}
    (hj : j < bytes.length - 3) (more : List UInt8) :
    delimiters.front ((bytes ++ more).drop j) = none := by
  rw [List.drop_append_of_le_length (by omega)]
  refine Delimiters.front_append_none (k := 4) (by decide) ?_ (Delimiters.find_eq_none.mp h j)
  rw [List.length_drop]
  omega

namespace SseFramer

/-- A loop that ends well has split the buffer. -/
theorem drain_ok {f f' : SseFramer} {frames out : List String}
    (hs : ∀ j < f.scanFrom, delimiters.front (f.buffer.drop j) = none)
    (h : f.drain frames = (f', .ok out)) :
    out = frames ++ (delimiters.split f.buffer).1.filterMap renderFrame ∧
      f'.buffer = (delimiters.split f.buffer).2 ∧ f'.Scanned := by
  fun_induction drain f frames with
  | case1 f frames hfind hlarge | case3 f frames idx len hfind hlarge => simp [tooLarge] at h
  | case2 f frames hfind hlarge =>
    rw [findDelimiter_eq hs] at hfind
    simp only [Prod.mk.injEq, Except.ok.injEq] at h
    obtain ⟨rfl, rfl⟩ := h
    rw [Delimiters.split_of_none hfind]
    exact ⟨by simp, rfl, fun j hj more => front_scanned hfind hj more⟩
  | case4 f frames idx len hfind hlarge ih =>
    rw [findDelimiter_eq hs] at hfind
    obtain ⟨rfl, hbuf, hscan⟩ := ih (by simp) h
    rw [List.drop_drop] at hbuf ⊢
    rw [Delimiters.split_of_some hfind]
    refine ⟨?_, hbuf, hscan⟩
    cases hr : renderFrame (f.buffer.take idx) <;> simp [hr]

theorem push_ok {f f' : SseFramer} {bytes : List UInt8} {out : List String} (hs : f.Scanned)
    (h : f.push bytes = (f', .ok out)) :
    out = (delimiters.split (f.buffer ++ bytes)).1.filterMap renderFrame ∧
      f'.buffer = (delimiters.split (f.buffer ++ bytes)).2 ∧ f'.Scanned := by
  have hd := drain_ok (f := { f with buffer := f.buffer ++ bytes }) (fun j hj => hs j hj bytes) h
  simpa using hd

/-- Pushes that all succeed split what was pending and all that they were given. -/
theorem pushAll_ok {f f' : SseFramer} {chunks : List (List UInt8)} {out : List String}
    (hs : f.Scanned) (hp : delimiters.find f.buffer = none)
    (h : f.pushAll chunks = some (f', out)) :
    out = (delimiters.split (f.buffer ++ chunks.flatten)).1.filterMap renderFrame ∧
      f'.buffer = (delimiters.split (f.buffer ++ chunks.flatten)).2 := by
  induction chunks generalizing f out with
  | nil =>
    cases h
    simp [Delimiters.split_of_none hp]
  | cons chunk chunks ih =>
    rw [pushAll] at h
    split at h
    case h_2 => cases h
    case h_1 g frames hpush =>
      obtain ⟨⟨g', rest⟩, hrest, heq⟩ := Option.map_eq_some_iff.mp h
      cases heq
      obtain ⟨rfl, hbuf, hscan⟩ := push_ok hs hpush
      obtain ⟨rfl, hbuf'⟩ := ih hscan (hbuf ▸ Delimiters.find_split_rest _) hrest
      rw [List.flatten_cons, ← List.append_assoc, Delimiters.split_append (f.buffer ++ chunk),
        ← hbuf]
      exact ⟨by simp, hbuf'⟩

end SseFramer

/-- Whatever the chunks of a stream, as long as no push fails the frames are those between the
delimiters of the whole stream, and the pending bytes are those behind the last delimiter. -/
theorem frames_of_chunks {maxFrameBytes : Nat} {chunks : List (List UInt8)} {f : SseFramer}
    {frames : List String}
    (h : (SseFramer.withMaxFrameBytes maxFrameBytes).pushAll chunks = some (f, frames)) :
    frames = (delimiters.split chunks.flatten).1.filterMap renderFrame ∧
      f.buffer = (delimiters.split chunks.flatten).2 :=
  SseFramer.pushAll_ok (fun _ hj => absurd hj (Nat.not_lt_zero _)) rfl h

/-- Two frames that arrive with a delimiter and a character cut in two. -/
def cutChunks : List (List UInt8) := [[97, 195], [169, 13, 10, 13], [10, 98, 10], [10, 99]]

theorem frames_of_chunks_cut :
    ∃ f, (SseFramer.withMaxFrameBytes 8).pushAll cutChunks = some (f, ["aé", "b"]) ∧
      ["aé", "b"] = (delimiters.split cutChunks.flatten).1.filterMap renderFrame ∧
      f.buffer = (delimiters.split cutChunks.flatten).2 := by
  have h : (SseFramer.withMaxFrameBytes 8).pushAll cutChunks =
      some (⟨[99], 0, 8⟩, ["aé", "b"]) := by
    decide +kernel
  exact ⟨_, h, frames_of_chunks h⟩

/-- A blank line that mixes both line endings does not end a frame. -/
theorem frames_miss_mixed_blank_line :
    ¬ ∀ (maxFrameBytes : Nat) (chunks : List (List UInt8)) (f : SseFramer) (frames : List String),
      (SseFramer.withMaxFrameBytes maxFrameBytes).pushAll chunks = some (f, frames) →
        frames = (blankLines.split chunks.flatten).1.filterMap renderFrame ∧
          f.buffer = (blankLines.split chunks.flatten).2 := by
  intro h
  have hrun : (SseFramer.withMaxFrameBytes 8).pushAll [[97, 10, 13, 10, 98, 10, 10]] =
      some (⟨[], 0, 8⟩, ["a\n\nb"]) := by
    decide +kernel
  have hframes := (h 8 [[97, 10, 13, 10, 98, 10, 10]] _ _ hrun).1
  revert hframes
  decide +kernel

end Kinetix.Sse
