import Kinetix.Sse.SizeLimit

/-!
# The data of a frame

The data of an event is what its data lines carry, joined by line feeds. `extract_data` leaves out
the line feed as long as the text is empty, so empty data lines at the front are lost. The line ends
make no difference to the frames, except that a carriage return counts towards the size of one.
-/

namespace Kinetix.Sse
open Splitting

/-- What a data line carries, without one leading space. -/
def payload (line : String) : Option String :=
  (Text.stripPrefix line "data:").map fun rest => (Text.stripPrefix rest " ").getD rest

def payloads (frame : String) : List String := (Text.lines frame).filterMap payload

/-- The data of a frame by the event-stream rule. -/
def dataOf (frame : String) : Option String :=
  if payloads frame = [] then none else some ("\n".intercalate (payloads frame))

/-- The stream with a carriage return before every line feed. -/
def toCrlf (bytes : List UInt8) : List UInt8 :=
  bytes.flatMap fun b => if b = lf then [cr, lf] else [b]

/-! ## Data lines -/

/-- The loop body of `extract_data` at a data line. -/
def joinData (text payload : String) : String :=
  (if text = "" then text else text ++ "\n") ++ payload

/-- Text that is not empty is joined by line feeds. -/
theorem foldl_joinData {text : String} (h : text ≠ "") (ps : List String) :
    ps.foldl joinData text = "\n".intercalate (text :: ps) := by
  induction ps generalizing text with
  | nil => rw [List.foldl_nil, String.intercalate_singleton]
  | cons p ps ih =>
    have hne : text ++ "\n" ++ p ≠ "" := by
      intro hnil
      simp [String.append_eq_empty_iff] at hnil
    rw [List.foldl_cons, joinData, if_neg h, ih hne, String.intercalate_cons_append,
      String.intercalate_cons_cons]

/-- Payloads that are empty are lost until one is not. -/
theorem foldl_joinData_empty (ps : List String) :
    ps.foldl joinData "" = "\n".intercalate (ps.dropWhile (· = "")) := by
  induction ps with
  | nil => rfl
  | cons p ps ih =>
    have hjoin : joinData "" p = p := by simp [joinData]
    rw [List.foldl_cons, hjoin]
    by_cases hp : p = ""
    · rw [hp, List.dropWhile_cons_of_pos (by simp)]
      exact ih
    · rw [List.dropWhile_cons_of_neg (by simpa using hp)]
      exact foldl_joinData hp ps

/-- The loop of `extract_data`, from any text on. -/
theorem foldl_lines (lines : List String) (data : Option String) :
    lines.foldl (fun data line =>
      match Text.stripPrefix line "data:" with
      | some rest =>
        let joined := match data with
          | some text => if text = "" then text else text ++ "\n"
          | none => ""
        some (joined ++ (Text.stripPrefix rest " ").getD rest)
      | none => data) data =
    if data = none ∧ lines.filterMap payload = [] then none
    else some ((lines.filterMap payload).foldl joinData (data.getD "")) := by
  induction lines generalizing data with
  | nil => cases data <;> simp
  | cons line lines ih =>
    rw [List.foldl_cons, ih]
    cases hline : Text.stripPrefix line "data:" with
    | none =>
      have hnone : payload line = none := by simp [payload, hline]
      rw [List.filterMap_cons_none hnone]
    | some rest =>
      have hsome : payload line = some ((Text.stripPrefix rest " ").getD rest) := by
        simp [payload, hline]
      rw [List.filterMap_cons_some hsome]
      cases data with
      | none | some text => simp [joinData]

/-- `extract_data` joins the payloads from the first that is not empty on. -/
theorem extractData_eq (frame : String) : extractData frame =
    if payloads frame = [] then none
    else some ("\n".intercalate ((payloads frame).dropWhile (· = ""))) := by
  have hloop := foldl_lines (Text.lines frame) none
  rw [Option.getD_none, foldl_joinData_empty] at hloop
  refine hloop.trans ?_
  simp only [true_and]
  rfl

/-- The text is no longer without the payloads at the front. -/
theorem length_intercalate_dropWhile_le (ps : List String) :
    ("\n".intercalate (ps.dropWhile (· = ""))).length ≤ ("\n".intercalate ps).length := by
  induction ps with
  | nil => exact le_rfl
  | cons p ps ih =>
    by_cases hp : p = ""
    · rw [hp, List.dropWhile_cons_of_pos (by simp)]
      refine ih.trans ?_
      cases ps with
      | nil => simp
      | cons q ps =>
        rw [String.intercalate_cons_cons, String.length_append]
        exact Nat.le_add_left _ _
    · rw [List.dropWhile_cons_of_neg (by simpa using hp)]

/-- The data is that of the event-stream rule if and only if there is at most one data line, or the
first one is not empty. -/
theorem extractData_eq_dataOf_iff (frame : String) : extractData frame = dataOf frame ↔
    (payloads frame).length ≤ 1 ∨ (payloads frame).head? ≠ some "" := by
  rw [extractData_eq, dataOf]
  cases payloads frame with
  | nil => simp
  | cons p ps =>
    rw [if_neg (List.cons_ne_nil p ps), if_neg (List.cons_ne_nil p ps), Option.some.injEq]
    by_cases hp : p = ""
    · subst hp
      cases ps with
      | nil => simp
      | cons q ps =>
        have hlen := length_intercalate_dropWhile_le (q :: ps)
        refine iff_of_false (fun heq => ?_) (by simp)
        rw [List.dropWhile_cons_of_pos (by simp), String.intercalate_cons_cons] at heq
        have hlost := congrArg String.length heq
        rw [String.length_append, String.length_append] at hlost
        have hone : "\n".length = 1 := by decide
        omega
    · rw [List.dropWhile_cons_of_neg (by simpa using hp)]
      simp [hp]

/-! ## Line ends -/

section
variable {bytes : List UInt8}

@[simp] theorem toCrlf_nil : toCrlf [] = [] := rfl

theorem toCrlf_append (xs ys : List UInt8) : toCrlf (xs ++ ys) = toCrlf xs ++ toCrlf ys :=
  List.flatMap_append

theorem toCrlf_cons_lf (bytes : List UInt8) : toCrlf (lf :: bytes) = cr :: lf :: toCrlf bytes := rfl

theorem toCrlf_cons {b : UInt8} (h : b ≠ lf) (bytes : List UInt8) :
    toCrlf (b :: bytes) = b :: toCrlf bytes := by
  simp [toCrlf, h]

/-- The delimiters of the two streams are at the same places. -/
theorem find_toCrlf (h : cr ∉ bytes) : delimiters.find (toCrlf bytes) =
    (delimiters.find bytes).map fun r => ((toCrlf (bytes.take r.1)).length, 4) := by
  induction bytes with
  | nil => rfl
  | cons b bytes ih =>
    rw [List.mem_cons, not_or] at h
    obtain ⟨hcr, hrest⟩ := h
    by_cases hb : b = lf
    · subst hb
      cases bytes with
      | nil => rfl
      | cons c bytes =>
        have hc : c ≠ cr := fun hc => hrest (hc ▸ List.mem_cons_self)
        by_cases hlf : c = lf
        · subst hlf
          rw [toCrlf_cons_lf, toCrlf_cons_lf, Delimiters.find_of_front front_crlf_crlf,
            Delimiters.find_of_front front_lf_lf]
          rfl
        · have hfront : delimiters.front (lf :: c :: bytes) = none :=
            front_lf fun h => hlf (Option.some.inj h)
          have hfront' : delimiters.front (lf :: toCrlf (c :: bytes)) = none := by
            rw [toCrlf_cons hlf]
            exact front_lf fun h => hlf (Option.some.inj h)
          have hfront'' : delimiters.front (cr :: lf :: toCrlf (c :: bytes)) = none := by
            rw [toCrlf_cons hlf]
            exact front_crlf fun h => hc (Option.some.inj h)
          rw [toCrlf_cons_lf, Delimiters.find_of_front_none hfront'',
            Delimiters.find_of_front_none hfront', Delimiters.find_of_front_none hfront, ih hrest]
          cases delimiters.find (c :: bytes) with
          | none | some r => rfl
    · have hfront : ∀ v, delimiters.front (b :: v) = none := fun v => front_of_ne (Ne.symm hcr) hb
      rw [toCrlf_cons hb, Delimiters.find_of_front_none (hfront _),
        Delimiters.find_of_front_none (hfront _), ih hrest]
      cases delimiters.find bytes with
      | none => rfl
      | some r =>
        obtain ⟨i, n⟩ := r
        simp only [Option.map_some, List.take_succ_cons, toCrlf_cons hb, List.length_cons]

/-- In a stream without carriage returns a delimiter is two line feeds. -/
theorem eq_of_find (h : cr ∉ bytes) {i n : Nat} (hf : delimiters.find bytes = some (i, n)) :
    n = 2 ∧ bytes = bytes.take i ++ lf :: lf :: bytes.drop (i + n) := by
  obtain ⟨p, hp, ⟨more, hmore⟩, rfl⟩ := Delimiters.front_eq_some.mp (Delimiters.front_of_find hf)
  rcases List.mem_cons.mp hp with rfl | hp
  · refine ⟨rfl, ?_⟩
    conv_lhs => rw [← List.take_append_drop i bytes]
    rw [← List.drop_drop, ← hmore]
    rfl
  · rw [List.mem_singleton.mp hp] at hmore
    have hcr : cr ∈ bytes.drop i := hmore ▸ List.mem_cons_self
    exact absurd (List.mem_of_mem_drop hcr) h

/-- The two streams are split into the same pieces. -/
theorem split_toCrlf (h : cr ∉ bytes) : delimiters.split (toCrlf bytes) =
    ((delimiters.split bytes).1.map toCrlf, toCrlf (delimiters.split bytes).2) := by
  induction hn : bytes.length using Nat.strongRecOn generalizing bytes with
  | ind m ih =>
    have hfind := find_toCrlf h
    cases hf : delimiters.find bytes with
    | none =>
      rw [hf] at hfind
      rw [Delimiters.split_of_none hfind, Delimiters.split_of_none hf]
      rfl
    | some r =>
      obtain ⟨i, n⟩ := r
      rw [hf] at hfind
      obtain ⟨rfl, heq⟩ := eq_of_find h hf
      have hb := Delimiters.find_bound hf
      have hsplit : toCrlf bytes = toCrlf (bytes.take i) ++
          ([cr, lf, cr, lf] ++ toCrlf (bytes.drop (i + 2))) := by
        conv_lhs => rw [heq]
        rw [toCrlf_append]
        rfl
      have htake : (toCrlf bytes).take (toCrlf (bytes.take i)).length = toCrlf (bytes.take i) := by
        rw [hsplit, List.take_left']
        rfl
      have hdrop : (toCrlf bytes).drop ((toCrlf (bytes.take i)).length + 4) =
          toCrlf (bytes.drop (i + 2)) := by
        rw [hsplit, ← List.drop_drop, List.drop_left']
        · rfl
        · rfl
      have hrest := ih (bytes.drop (i + 2)).length (by simp only [List.length_drop]; omega)
        (fun hcr => h (List.mem_of_mem_drop hcr)) rfl
      rw [Delimiters.split_of_some hfind, htake, hdrop, hrest, Delimiters.split_of_some hf]
      rfl

theorem normalizeCrlf_cons {b : UInt8} (h : b ≠ cr) (bytes : List UInt8) :
    normalizeCrlf (b :: bytes) = b :: normalizeCrlf bytes := by
  cases bytes with
  | nil => rfl
  | cons c bytes => rw [normalizeCrlf, if_neg fun hb => h hb.1]

theorem normalizeCrlf_eq_self (h : cr ∉ bytes) : normalizeCrlf bytes = bytes := by
  induction bytes with
  | nil => rfl
  | cons b bytes ih =>
    rw [List.mem_cons, not_or] at h
    rw [normalizeCrlf_cons (Ne.symm h.1), ih h.2]

theorem normalizeCrlf_toCrlf (h : cr ∉ bytes) : normalizeCrlf (toCrlf bytes) = bytes := by
  induction bytes with
  | nil => rfl
  | cons b bytes ih =>
    rw [List.mem_cons, not_or] at h
    by_cases hb : b = lf
    · subst hb
      rw [toCrlf_cons_lf, normalizeCrlf, if_pos ⟨rfl, rfl⟩, ih h.2]
    · rw [toCrlf_cons hb, normalizeCrlf_cons (Ne.symm h.1), ih h.2]

theorem toCrlf_eq_nil : toCrlf bytes = [] ↔ bytes = [] := by
  cases bytes with
  | nil => simp
  | cons b bytes =>
    by_cases hb : b = lf
    · simp [hb, toCrlf_cons_lf]
    · simp [toCrlf_cons hb]

/-- A frame is handed out with line feeds. -/
theorem renderFrame_toCrlf (h : cr ∉ bytes) : renderFrame (toCrlf bytes) = renderFrame bytes := by
  by_cases hb : bytes = []
  · rw [hb]
    rfl
  · simp [renderFrame, toCrlf_eq_nil, hb, normalizeCrlf_toCrlf h, normalizeCrlf_eq_self h]

/-- The two streams have the same frames. -/
theorem frames_toCrlf (h : cr ∉ bytes) :
    (delimiters.split (toCrlf bytes)).1.filterMap renderFrame =
      (delimiters.split bytes).1.filterMap renderFrame := by
  rw [split_toCrlf h, List.filterMap_map]
  refine List.filterMap_congr fun piece hp => ?_
  exact renderFrame_toCrlf fun hcr => h (Delimiters.subset_of_mem_split hp hcr)

end

/-- The frames of a stream that arrives in chunks, if no push fails. -/
def deliveredFrames (maxFrameBytes : Nat) (chunks : List (List UInt8)) : Option (List String) :=
  ((SseFramer.withMaxFrameBytes maxFrameBytes).pushAll chunks).map Prod.snd

theorem deliveredFrames_isSome (maxFrameBytes : Nat) (chunks : List (List UInt8)) :
    (deliveredFrames maxFrameBytes chunks).isSome ↔ Held (max maxFrameBytes 1) [] chunks := by
  have hs : (SseFramer.withMaxFrameBytes maxFrameBytes).Scanned :=
    fun _ hj => absurd hj (Nat.not_lt_zero _)
  rw [deliveredFrames, Option.isSome_map]
  exact SseFramer.pushAll_isSome_iff hs chunks

theorem eq_of_deliveredFrames {maxFrameBytes : Nat} {chunks : List (List UInt8)}
    {frames : List String}
    (h : deliveredFrames maxFrameBytes chunks = some frames) :
    frames = (delimiters.split chunks.flatten).1.filterMap renderFrame := by
  obtain ⟨⟨f, out⟩, hpush, rfl⟩ := Option.map_eq_some_iff.mp h
  exact (frames_of_chunks hpush).1

/-- The data of a frame is that of the event-stream rule if and only if there is at most one data
line, or the first one is not empty. A stream of line feeds and the same stream with carriage
returns before them give the same frames, and the same data, if and only if the framer holds both or
neither. -/
theorem data_iff (frame : String) (maxFrameBytes : Nat) :
    (extractData frame = dataOf frame ↔
      (payloads frame).length ≤ 1 ∨ (payloads frame).head? ≠ some "") ∧
    ∀ chunks chunks' : List (List UInt8), cr ∉ chunks.flatten →
      chunks'.flatten = toCrlf chunks.flatten →
      (deliveredFrames maxFrameBytes chunks' = deliveredFrames maxFrameBytes chunks ∧
          (deliveredFrames maxFrameBytes chunks').map (List.map extractData) =
            (deliveredFrames maxFrameBytes chunks).map (List.map extractData) ↔
        (Held (max maxFrameBytes 1) [] chunks' ↔ Held (max maxFrameBytes 1) [] chunks)) := by
  refine ⟨extractData_eq_dataOf_iff frame, fun chunks chunks' hcr heq => ?_⟩
  rw [← deliveredFrames_isSome, ← deliveredFrames_isSome]
  constructor
  · rintro ⟨h, -⟩
    rw [h]
  · intro h
    have hframes : deliveredFrames maxFrameBytes chunks' =
        deliveredFrames maxFrameBytes chunks := by
      cases hl : deliveredFrames maxFrameBytes chunks with
      | none =>
        rw [hl, Option.isSome_none] at h
        exact Option.not_isSome_iff_eq_none.mp (mt h.mp Bool.false_ne_true)
      | some frames =>
        rw [hl, Option.isSome_some] at h
        obtain ⟨frames', hc⟩ := Option.isSome_iff_exists.mp (h.mpr rfl)
        rw [hc, eq_of_deliveredFrames hc, eq_of_deliveredFrames hl, heq, frames_toCrlf hcr]
    exact ⟨hframes, congrArg _ hframes⟩

/-- One event with either line end. -/
theorem data_iff_lf_crlf :
    extractData "data: a\ndata: b" = dataOf "data: a\ndata: b" ∧
    deliveredFrames 100 [[100, 97, 116, 97, 58, 97, 13, 10], [13, 10]] =
      deliveredFrames 100 [[100, 97, 116, 97, 58, 97, 10, 10]] := by
  have hpush : deliveredFrames 100 [[100, 97, 116, 97, 58, 97, 13, 10], [13, 10]] =
      some ["data:a"] := by
    decide +kernel
  have hpush' : deliveredFrames 100 [[100, 97, 116, 97, 58, 97, 10, 10]] = some ["data:a"] := by
    decide +kernel
  constructor
  · exact (data_iff _ 100).1.mpr (.inr (by decide +kernel))
  · refine (((data_iff "data: a\ndata: b" 100).2 _ _ (by decide) (by decide)).mpr ?_).1
    rw [← deliveredFrames_isSome, ← deliveredFrames_isSome, hpush, hpush']

/-- An empty data line at the front is lost. -/
theorem data_loses_empty_line :
    (extractData "data:\ndata: x" = some "x" ∧ dataOf "data:\ndata: x" = some "\nx") ∧
    ¬ ∀ frame, extractData frame = dataOf frame := by
  have hcode : extractData "data:\ndata: x" = some "x" := by decide +kernel
  have hrule : dataOf "data:\ndata: x" = some "\nx" := by decide +kernel
  refine ⟨⟨hcode, hrule⟩, fun h => ?_⟩
  have heq := h "data:\ndata: x"
  rw [hcode, hrule] at heq
  exact absurd heq (by decide)

end Kinetix.Sse
