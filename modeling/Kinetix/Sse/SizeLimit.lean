import Kinetix.Sse.Chunking
import Mathlib.Data.List.TakeWhile

/-!
# The size limit and the chunks

A push fails if it completes a frame that is too large, or if too much is left behind the last
delimiter. It then hands out nothing, not even the frames that came before. What a stream delivers
before it fails follows from its bytes alone only if no chunk completes a frame together with the
one that is too large, and if the bytes of a delimiter that has only begun are not what is too much.
-/

namespace Kinetix.Sse
open Splitting

/-- Push chunk after chunk until a push fails: the frames that were delivered, and the error. -/
def SseFramer.feed (f : SseFramer) : List (List UInt8) → List String × Option SseFrameError
  | [] => ([], none)
  | chunk :: chunks =>
    match f.push chunk with
    | (f, .ok frames) => (frames ++ (f.feed chunks).1, (f.feed chunks).2)
    | (_, .error e) => ([], some e)

/-- The bytes without the beginning of a delimiter at their end. -/
def openLength (bytes : List UInt8) : Nat :=
  bytes.tails.findIdx fun tail => delimiters.patterns.any tail.isPrefixOf

/-- What the bytes of a stream say: the frames before the first one that is too large, and whether
there is such a frame. -/
def byTheBytes (maxFrameBytes : Nat) (stream : List UInt8) : List String × Bool :=
  let (pieces, rest) := delimiters.split stream
  ((pieces.takeWhile fun piece => piece.length ≤ maxFrameBytes).filterMap renderFrame,
    pieces.any (fun piece => maxFrameBytes < piece.length) || maxFrameBytes < openLength rest)

/-- The framer does not hold the bytes: a frame of theirs is too large, or what follows the last
delimiter is. -/
def Overfull (maxFrameBytes : Nat) (bytes : List UInt8) : Prop :=
  (∃ piece ∈ (delimiters.split bytes).1, maxFrameBytes < piece.length) ∨
    maxFrameBytes < (delimiters.split bytes).2.length

/-- The first frame that is not empty is too large. -/
def FirstTooLarge (maxFrameBytes : Nat) (stream : List UInt8) : Prop :=
  match (delimiters.split stream).1.find? (· ≠ []) with
  | some piece => maxFrameBytes < piece.length
  | none => maxFrameBytes < openLength (delimiters.split stream).2

/-- At the first chunk that the framer does not hold, the first frame that is not delivered yet is
too large, in the stream as a whole. -/
def CutWell (maxFrameBytes : Nat) : List UInt8 → List (List UInt8) → Prop
  | _, [] => True
  | pending, chunk :: chunks =>
    (Overfull maxFrameBytes (pending ++ chunk) →
      FirstTooLarge maxFrameBytes (pending ++ chunk ++ chunks.flatten)) ∧
    (¬ Overfull maxFrameBytes (pending ++ chunk) →
      CutWell maxFrameBytes (delimiters.split (pending ++ chunk)).2 chunks)

/-- The framer holds every chunk. -/
def Held (maxFrameBytes : Nat) : List UInt8 → List (List UInt8) → Prop
  | _, [] => True
  | pending, chunk :: chunks =>
    ¬ Overfull maxFrameBytes (pending ++ chunk) ∧
      Held maxFrameBytes (delimiters.split (pending ++ chunk)).2 chunks

/-! ## When a push fails -/

theorem overfull_of_none {maxFrameBytes : Nat} {bytes : List UInt8}
    (h : delimiters.find bytes = none) :
    Overfull maxFrameBytes bytes ↔ maxFrameBytes < bytes.length := by
  simp [Overfull, Delimiters.split_of_none h]

theorem overfull_of_some {maxFrameBytes i n : Nat} {bytes : List UInt8}
    (h : delimiters.find bytes = some (i, n)) : Overfull maxFrameBytes bytes ↔
      maxFrameBytes < i ∨ Overfull maxFrameBytes (bytes.drop (i + n)) := by
  have hb := Delimiters.find_bound h
  simp only [Overfull, Delimiters.split_of_some h, List.mem_cons, exists_eq_or_imp,
    List.length_take, min_eq_left (show i ≤ bytes.length by omega), or_assoc]

namespace SseFramer

variable {f : SseFramer}

/-- The loop fails if and only if the framer does not hold the buffer. -/
theorem drain_isOk {frames : List String}
    (hs : ∀ j < f.scanFrom, delimiters.front (f.buffer.drop j) = none) :
    (∃ out, (f.drain frames).2 = .ok out) ↔ ¬ Overfull f.maxFrameBytes f.buffer := by
  fun_induction drain f frames with
  | case1 f frames hfind hlarge =>
    rw [findDelimiter_eq hs] at hfind
    simp [tooLarge, overfull_of_none hfind, hlarge]
  | case2 f frames hfind hlarge =>
    rw [findDelimiter_eq hs] at hfind
    simp only [overfull_of_none hfind, hlarge, not_false_eq_true, iff_true]
    exact ⟨frames, rfl⟩
  | case3 f frames idx len hfind hlarge =>
    rw [findDelimiter_eq hs] at hfind
    simp [tooLarge, overfull_of_some hfind, hlarge]
  | case4 f frames idx len hfind hlarge ih =>
    rw [findDelimiter_eq hs] at hfind
    rw [overfull_of_some hfind, ih (by simp), List.drop_drop]
    simp [hlarge]

theorem drain_maxFrameBytes (f : SseFramer) (frames : List String) :
    (f.drain frames).1.maxFrameBytes = f.maxFrameBytes := by
  fun_induction drain f frames with
  | case1 | case2 | case3 => rfl
  | case4 f frames idx len hfind hlarge ih => exact ih

/-- A push that the framer holds delivers the completed frames and keeps the rest. -/
theorem push_of_not_overfull {chunk : List UInt8} (hs : f.Scanned)
    (h : ¬ Overfull f.maxFrameBytes (f.buffer ++ chunk)) : ∃ f', f.push chunk =
        (f', .ok ((delimiters.split (f.buffer ++ chunk)).1.filterMap renderFrame)) ∧
      f'.buffer = (delimiters.split (f.buffer ++ chunk)).2 ∧ f'.Scanned ∧
      f'.maxFrameBytes = f.maxFrameBytes := by
  have hfront : ∀ j < f.scanFrom, delimiters.front ((f.buffer ++ chunk).drop j) = none :=
    fun j hj => hs j hj chunk
  obtain ⟨out, hout⟩ := (drain_isOk (f := { f with buffer := f.buffer ++ chunk }) hfront).mpr h
  have hpush : f.push chunk = ((f.push chunk).1, .ok out) := Prod.ext rfl hout
  obtain ⟨rfl, hbuf, hscan⟩ := push_ok hs hpush
  exact ⟨_, hpush, hbuf, hscan, drain_maxFrameBytes _ []⟩

theorem push_of_overfull {chunk : List UInt8} (hs : f.Scanned)
    (h : Overfull f.maxFrameBytes (f.buffer ++ chunk)) : ∃ f' e, f.push chunk = (f', .error e) := by
  have hfront : ∀ j < f.scanFrom, delimiters.front ((f.buffer ++ chunk).drop j) = none :=
    fun j hj => hs j hj chunk
  cases hr : (f.push chunk).2 with
  | error e => exact ⟨_, e, Prod.ext rfl hr⟩
  | ok out =>
    have hok := (drain_isOk (f := { f with buffer := f.buffer ++ chunk }) hfront).mp ⟨out, hr⟩
    exact absurd h hok

end SseFramer

/-! ## What the bytes say -/

theorem openLength_le (bytes : List UInt8) : openLength bytes ≤ bytes.length := by
  have hnil : ∃ tail ∈ bytes.tails, (delimiters.patterns.any tail.isPrefixOf) = true :=
    ⟨[], by simp, by decide⟩
  have hlt := List.findIdx_lt_length_of_exists hnil
  rw [List.length_tails] at hlt
  exact Nat.le_of_lt_succ hlt

variable {bytes : List UInt8}

theorem normalizeCrlf_eq_nil : normalizeCrlf bytes = [] ↔ bytes = [] := by
  fun_cases normalizeCrlf bytes <;> simp [*]

theorem renderFrame_eq_none : renderFrame bytes = none ↔ bytes = [] := by
  simp [renderFrame, normalizeCrlf_eq_nil]

/-- The frames that are completed and fit are delivered first. -/
theorem byTheBytes_append {maxFrameBytes : Nat} (more : List UInt8)
    (h : ¬ Overfull maxFrameBytes bytes) : byTheBytes maxFrameBytes (bytes ++ more) =
      ((delimiters.split bytes).1.filterMap renderFrame ++
        (byTheBytes maxFrameBytes ((delimiters.split bytes).2 ++ more)).1,
      (byTheBytes maxFrameBytes ((delimiters.split bytes).2 ++ more)).2) := by
  have hfit : ∀ piece ∈ (delimiters.split bytes).1, piece.length ≤ maxFrameBytes :=
    fun piece hp => not_lt.mp fun hlt => h (.inl ⟨piece, hp, hlt⟩)
  have hnone : (delimiters.split bytes).1.any (fun piece => maxFrameBytes < piece.length) =
      false := by
    rw [List.any_eq_false]
    exact fun piece hp => by simpa using hfit piece hp
  have htake : (delimiters.split bytes).1.takeWhile (fun piece => piece.length ≤ maxFrameBytes) =
      (delimiters.split bytes).1 :=
    List.takeWhile_eq_self_iff.mpr fun piece hp => by simpa using hfit piece hp
  simp only [byTheBytes, Delimiters.split_append bytes more, List.any_append, hnone, Bool.false_or,
    List.takeWhile_append, htake, if_true, List.filterMap_append]

/-- Nothing comes before a failure if and only if the first frame that is not empty fails. -/
theorem byTheBytes_eq_failed_iff {maxFrameBytes : Nat} {stream : List UInt8} :
    byTheBytes maxFrameBytes stream = ([], true) ↔ FirstTooLarge maxFrameBytes stream := by
  unfold byTheBytes FirstTooLarge
  dsimp only
  generalize (delimiters.split stream).2 = rest
  induction (delimiters.split stream).1 with
  | nil => simp
  | cons piece pieces ih =>
    by_cases hempty : piece = []
    · subst hempty
      rw [List.takeWhile_cons_of_pos (by simp), List.find?_cons_of_neg (by simp), ← ih]
      simp [renderFrame_eq_none.mpr rfl]
    · rw [List.find?_cons_of_pos (by simpa using hempty)]
      by_cases hlarge : maxFrameBytes < piece.length
      · simp [hlarge]
      · obtain ⟨frame, hframe⟩ := Option.ne_none_iff_exists'.mp
          (fun h => hempty (renderFrame_eq_none.mp h))
        rw [List.takeWhile_cons_of_pos (by simpa using hlarge)]
        simp [hframe, hlarge]

/-! ## The chunks -/

/-- A framer that holds what is pending does what the bytes say if and only if they are cut well. -/
theorem SseFramer.feed_eq_iff {f : SseFramer} (hs : f.Scanned)
    (hp : delimiters.find f.buffer = none) (hlen : f.buffer.length ≤ f.maxFrameBytes)
    (chunks : List (List UInt8)) :
    ((f.feed chunks).1, (f.feed chunks).2.isSome) =
        byTheBytes f.maxFrameBytes (f.buffer ++ chunks.flatten) ↔
      CutWell f.maxFrameBytes f.buffer chunks := by
  induction chunks generalizing f with
  | nil =>
    have hopen := (openLength_le f.buffer).trans hlen
    simp [feed, byTheBytes, CutWell, Delimiters.split_of_none hp, hopen]
  | cons chunk chunks ih =>
    rw [CutWell, List.flatten_cons, ← List.append_assoc]
    by_cases hover : Overfull f.maxFrameBytes (f.buffer ++ chunk)
    · obtain ⟨f', e, hpush⟩ := push_of_overfull hs hover
      rw [feed, hpush]
      simp only [Option.isSome_some, hover, forall_const, not_true_eq_false, false_implies,
        and_true]
      rw [eq_comm, byTheBytes_eq_failed_iff]
    · obtain ⟨f', hpush, hbuf, hscan, hmax⟩ := push_of_not_overfull hs hover
      have hrest : f'.buffer.length ≤ f'.maxFrameBytes := by
        rw [hbuf, hmax]
        exact not_lt.mp fun hlt => hover (.inr hlt)
      have hnext := ih hscan (hbuf ▸ Delimiters.find_split_rest _) hrest
      rw [hmax, hbuf] at hnext
      rw [feed, hpush, byTheBytes_append _ hover]
      simp only [Prod.mk.injEq, List.append_cancel_left_eq, hover, false_implies, true_and,
        not_false_eq_true, forall_const]
      rw [← hnext, Prod.ext_iff]

/-- All pushes succeed if and only if the framer holds every chunk. -/
theorem SseFramer.pushAll_isSome_iff {f : SseFramer} (hs : f.Scanned) (chunks : List (List UInt8)) :
    (f.pushAll chunks).isSome ↔ Held f.maxFrameBytes f.buffer chunks := by
  induction chunks generalizing f with
  | nil => simp [pushAll, Held]
  | cons chunk chunks ih =>
    rw [pushAll, Held]
    by_cases hover : Overfull f.maxFrameBytes (f.buffer ++ chunk)
    · obtain ⟨f', e, hpush⟩ := push_of_overfull hs hover
      simp [hpush, hover]
    · obtain ⟨f', hpush, hbuf, hscan, hmax⟩ := push_of_not_overfull hs hover
      have hnext := ih hscan
      rw [hmax, hbuf] at hnext
      simp [hpush, hover, hnext]

/-- Pushes that succeed leave no more pending than the limit. -/
theorem SseFramer.pendingBytes_le {f f' : SseFramer} {chunks : List (List UInt8)}
    {frames : List String} (hs : f.Scanned) (hlen : f.buffer.length ≤ f.maxFrameBytes)
    (h : f.pushAll chunks = some (f', frames)) : f'.pendingBytes ≤ f.maxFrameBytes := by
  induction chunks generalizing f frames with
  | nil =>
    cases h
    exact hlen
  | cons chunk chunks ih =>
    rw [pushAll] at h
    by_cases hover : Overfull f.maxFrameBytes (f.buffer ++ chunk)
    · obtain ⟨g, e, hpush⟩ := push_of_overfull hs hover
      rw [hpush] at h
      cases h
    · obtain ⟨g, hpush, hbuf, hscan, hmax⟩ := push_of_not_overfull hs hover
      rw [hpush] at h
      obtain ⟨⟨g', rest⟩, hrest, heq⟩ := Option.map_eq_some_iff.mp h
      cases heq
      have hheld : g.buffer.length ≤ g.maxFrameBytes := by
        rw [hbuf, hmax]
        exact not_lt.mp fun hlt => hover (.inr hlt)
      rw [← hmax]
      exact ih hscan hheld hrest

/-- What is delivered and whether there is an error follow from the bytes of the stream if and only
if, at the first chunk that the framer does not hold, the first frame that is not delivered yet is
the one that is too large. Pushes that succeed leave no more pending than the limit. -/
theorem size_limit_iff (maxFrameBytes : Nat) (chunks : List (List UInt8)) :
    ((((SseFramer.withMaxFrameBytes maxFrameBytes).feed chunks).1,
        ((SseFramer.withMaxFrameBytes maxFrameBytes).feed chunks).2.isSome) =
        byTheBytes (max maxFrameBytes 1) chunks.flatten ↔
      CutWell (max maxFrameBytes 1) [] chunks) ∧
    ∀ f frames, (SseFramer.withMaxFrameBytes maxFrameBytes).pushAll chunks = some (f, frames) →
      f.pendingBytes ≤ max maxFrameBytes 1 := by
  have hs : (SseFramer.withMaxFrameBytes maxFrameBytes).Scanned :=
    fun _ hj => absurd hj (Nat.not_lt_zero _)
  constructor
  · exact SseFramer.feed_eq_iff hs rfl (Nat.zero_le _) chunks
  · exact fun f frames h => SseFramer.pendingBytes_le hs (Nat.zero_le _) h

/-- A frame, and then the beginning of one that is too large. -/
def cutBetween : List (List UInt8) := [[97, 10, 10], [98, 98, 98, 98, 10, 10]]

theorem size_limit_cut : CutWell (max 3 1) [] cutBetween ∧ ∃ f, f.pendingBytes ≤ max 3 1 ∧
    (SseFramer.withMaxFrameBytes 3).pushAll [[97, 10, 10, 98, 98]] = some (f, ["a"]) := by
  constructor
  · exact (size_limit_iff 3 cutBetween).1.mp (by decide +kernel)
  · have hrun : (SseFramer.withMaxFrameBytes 3).pushAll [[97, 10, 10, 98, 98]] =
        some (⟨[98, 98], 0, 3⟩, ["a"]) := by
      decide +kernel
    exact ⟨_, (size_limit_iff 3 _).2 _ _ hrun, hrun⟩

/-- In one chunk, the frame before the one that is too large is lost. -/
theorem size_limit_depends_on_chunks :
    (∃ chunks chunks' : List (List UInt8), chunks.flatten = chunks'.flatten ∧
      (SseFramer.withMaxFrameBytes 3).feed chunks = (["a"], some (.frameTooLarge 4 3)) ∧
      (SseFramer.withMaxFrameBytes 3).feed chunks' = ([], some (.frameTooLarge 4 3))) ∧
    ¬ ∀ (maxFrameBytes : Nat) (chunks : List (List UInt8)),
      (((SseFramer.withMaxFrameBytes maxFrameBytes).feed chunks).1,
        ((SseFramer.withMaxFrameBytes maxFrameBytes).feed chunks).2.isSome) =
        byTheBytes (max maxFrameBytes 1) chunks.flatten := by
  have hone : (SseFramer.withMaxFrameBytes 3).feed [cutBetween.flatten] =
      ([], some (.frameTooLarge 4 3)) := by
    decide +kernel
  refine ⟨⟨cutBetween, [cutBetween.flatten], by decide, by decide +kernel, hone⟩, fun h => ?_⟩
  have hbytes := h 3 [cutBetween.flatten]
  rw [hone] at hbytes
  revert hbytes
  decide +kernel

end Kinetix.Sse
