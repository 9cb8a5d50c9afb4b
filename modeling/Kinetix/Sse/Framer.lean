import Kinetix.Foundation.Text

/-!
# The SSE framer

`SseFramer` of `sse.rs`: raw bytes are kept until a blank line ends a frame, and only a whole frame
is decoded. The search for a delimiter resumes three bytes before the end of what was searched.

## Implementation notes

A byte vector is a list. The index loops over a vector are recursions over the list from the index
on. `String::from_utf8_lossy` is written out: an ill-formed sequence is cut off where it stops being
the beginning of a character, and stands for one replacement character.
-/

namespace Kinetix.Sse

def defaultMaxFrameBytes : Nat := 1024 * 1024

def lf : UInt8 := 10
def cr : UInt8 := 13

/-- `SseFrameError`. -/
inductive SseFrameError
  | frameTooLarge (pendingBytes limit : Nat)
  deriving DecidableEq, Repr

def SseFrameError.message : SseFrameError → String
  | .frameTooLarge pendingBytes limit =>
    s!"upstream SSE frame exceeds {limit} byte limit ({pendingBytes} bytes buffered)"

/-- `SseFramer`. -/
structure SseFramer where
  buffer : List UInt8 := []
  scanFrom : Nat := 0
  maxFrameBytes : Nat := defaultMaxFrameBytes
  deriving DecidableEq, Repr

/-- The loop of `find_delimiter`, from the bytes at an index on. -/
def scanDelimiter (i : Nat) : List UInt8 → Option (Nat × Nat)
  | [] => none
  | b :: rest =>
    if [lf, lf].isPrefixOf (b :: rest) then some (i, 2)
    else if [cr, lf, cr, lf].isPrefixOf (b :: rest) then some (i, 4)
    else scanDelimiter (i + 1) rest

/-- The index and the length of the first delimiter that starts at `start` or later. -/
def findDelimiter (bytes : List UInt8) (start : Nat) : Option (Nat × Nat) :=
  let i := min start bytes.length
  scanDelimiter i (bytes.drop i)

/-- Two bytes of a line end become one. -/
def normalizeCrlf : List UInt8 → List UInt8
  | [] => []
  | [b] => [b]
  | b :: c :: rest =>
    if b = cr ∧ c = lf then lf :: normalizeCrlf rest else b :: normalizeCrlf (c :: rest)

/-- A byte between two bounds. -/
def within (lo hi : Nat) (b : UInt8) : Bool := lo ≤ b.toNat && b.toNat ≤ hi

/-- The second bytes that may follow the first byte of a character of several bytes, and the number
of bytes after those. -/
def leading (b : UInt8) : Option ((UInt8 → Bool) × Nat) :=
  if within 0xC2 0xDF b then some (within 0x80 0xBF, 0)
  else if within 0xE0 0xE0 b then some (within 0xA0 0xBF, 1)
  else if within 0xE1 0xEC b || within 0xEE 0xEF b then some (within 0x80 0xBF, 1)
  else if within 0xED 0xED b then some (within 0x80 0x9F, 1)
  else if within 0xF0 0xF0 b then some (within 0x90 0xBF, 2)
  else if within 0xF1 0xF3 b then some (within 0x80 0xBF, 2)
  else if within 0xF4 0xF4 b then some (within 0x80 0x8F, 2)
  else none

/-- The value of a character's bytes: six bits of each byte after the first. -/
def codePoint (first : UInt8) (more : List UInt8) : Nat :=
  let bits := match more.length with
    | 1 => first.toNat % 32
    | 2 => first.toNat % 16
    | _ => first.toNat % 8
  more.foldl (fun n b => n * 64 + b.toNat % 64) bits

/-- The first character and the number of its bytes; an ill-formed sequence is read as U+FFFD. -/
def decodeChar (b : UInt8) (rest : List UInt8) : Char × Nat :=
  if b.toNat < 0x80 then (Char.ofNat b.toNat, 1)
  else
    match leading b, rest with
    | some (second, n), c :: rest =>
      if second c then
        let more := (rest.take n).takeWhile (within 0x80 0xBF)
        if more.length = n then (Char.ofNat (codePoint b (c :: more)), 2 + n)
        else ('\uFFFD', 2 + more.length)
      else ('\uFFFD', 1)
    | _, _ => ('\uFFFD', 1)

/-- `from_utf8_lossy`. -/
def decodeLossy : List UInt8 → List Char
  | [] => []
  | b :: rest =>
    let r := decodeChar b rest
    r.1 :: decodeLossy (rest.drop (r.2 - 1))
termination_by bytes => bytes.length
decreasing_by
  simp only [List.length_drop, List.length_cons]
  omega

/-- `String::from_utf8_lossy`. -/
def fromUtf8Lossy (bytes : List UInt8) : String := String.ofList (decodeLossy bytes)

theorem scanDelimiter_pos {i : Nat} {bytes : List UInt8} {r : Nat × Nat}
    (h : scanDelimiter i bytes = some r) : 0 < r.2 ∧ bytes ≠ [] := by
  induction bytes generalizing i with
  | nil => cases h
  | cons b rest ih =>
    rw [scanDelimiter] at h
    split_ifs at h
    · cases h
      simp
    · cases h
      simp
    · exact ⟨(ih h).1, by simp⟩

theorem findDelimiter_pos {bytes : List UInt8} {start : Nat} {r : Nat × Nat}
    (h : findDelimiter bytes start = some r) : 0 < r.2 ∧ 0 < bytes.length := by
  obtain ⟨hn, hne⟩ := scanDelimiter_pos h
  refine ⟨hn, List.length_pos_iff.mpr ?_⟩
  rintro rfl
  simp at hne

/-- A frame as it is handed out, and nothing for an empty one. -/
def renderFrame (bytes : List UInt8) : Option String :=
  if bytes.isEmpty then none
  else
    let normalized := normalizeCrlf bytes
    if normalized.isEmpty then none else some (fromUtf8Lossy normalized)

/-- The payload of a frame: its data lines, joined by line feeds. -/
def extractData (frame : String) : Option String :=
  (Text.lines frame).foldl (fun data line =>
    match Text.stripPrefix line "data:" with
    | some rest =>
      let joined := match data with
        | some text => if text = "" then text else text ++ "\n"
        | none => ""
      some (joined ++ (Text.stripPrefix rest " ").getD rest)
    | none => data) none

namespace SseFramer

def withMaxFrameBytes (maxFrameBytes : Nat) : SseFramer :=
  { maxFrameBytes := max maxFrameBytes 1 }

/-- Give up on a frame that is too large, and on all bytes behind it. -/
def tooLarge (f : SseFramer) (pendingBytes : Nat) :
    SseFramer × Except SseFrameError (List String) :=
  ({ f with buffer := [], scanFrom := 0 }, .error (.frameTooLarge pendingBytes f.maxFrameBytes))

/-- The loop of `push`, with the frames found so far. -/
def drain (f : SseFramer) (frames : List String) :
    SseFramer × Except SseFrameError (List String) :=
  match _h : findDelimiter f.buffer f.scanFrom with
  | none =>
    if f.maxFrameBytes < f.buffer.length then f.tooLarge f.buffer.length
    else ({ f with scanFrom := f.buffer.length - 3 }, .ok frames)
  | some (idx, delimiterLen) =>
    if f.maxFrameBytes < idx then f.tooLarge idx
    else
      drain { f with buffer := (f.buffer.drop idx).drop delimiterLen, scanFrom := 0 }
        (frames ++ (renderFrame (f.buffer.take idx)).toList)
termination_by f.buffer.length
decreasing_by
  have := findDelimiter_pos _h
  simp only [List.length_drop]
  omega

/-- `push`: the frames that the bytes complete. -/
def push (f : SseFramer) (bytes : List UInt8) : SseFramer × Except SseFrameError (List String) :=
  { f with buffer := f.buffer ++ bytes }.drain []

def pendingBytes (f : SseFramer) : Nat := f.buffer.length

/-- Push chunk after chunk and collect the frames, as long as no push fails. -/
def pushAll (f : SseFramer) : List (List UInt8) → Option (SseFramer × List String)
  | [] => some (f, [])
  | chunk :: chunks =>
    match f.push chunk with
    | (f, .ok frames) => (pushAll f chunks).map fun r => (r.1, frames ++ r.2)
    | (_, .error _) => none

end SseFramer
end Kinetix.Sse
