import Kinetix.Library.Piecewise
import Kinetix.Outbound.Redirects

/-!
# What redaction removes

`redact` looks at what stands between white space, quotation marks and equality signs, and at that
only from its first to its last character that is no comma or brace. A key with other characters
around it is not found.
-/

namespace Kinetix.Outbound
open Piecewise

/-! ## Keys and words -/

/-- A character of a key. -/
def isKeyChar (c : Char) : Bool := c.isAlphanum || c == '.' || c == '_' || c == '-'

def keyPrefixes : List String := ["sk-", "AIza", "AQ.", "gsk_", "sk-ant", "ya29."]

/-- A maximal run of key characters. -/
structure IsRun (text run : List Char) : Prop where
  chars : ∀ c ∈ run, isKeyChar c = true
  maximal : ∃ before after, text = before ++ run ++ after ∧
    (∀ c ∈ before.getLast?, isKeyChar c = false) ∧ ∀ c ∈ after.head?, isKeyChar c = false

/-- A run that begins as a key does. -/
structure IsKey (text run : List Char) : Prop extends IsRun text run where
  known : ∃ start ∈ keyPrefixes, start.toList <+: run
  long : 12 < run.length

structure IsLongRun (text run : List Char) : Prop extends IsRun text run where
  long : 40 ≤ run.length

/-- A word of a text, with what stands before and behind it. -/
structure IsWord (before word after : String) : Prop where
  solid : ∀ c ∈ word.toList, Text.isWhitespace c = false
  starts : ∀ c ∈ before.toList.getLast?, Text.isWhitespace c = true
  ends : ∀ c ∈ after.toList.head?, Text.isWhitespace c = true

/-- A word in which there is nothing to be removed. -/
structure IsPlain (word : String) : Prop where
  keys : ∀ run, ¬ IsKey word.toList run
  long : ∀ run, ¬ IsLongRun word.toList run

/-- The keys of a text are removed and its plain words are kept, and there is nothing left to be
done. -/
structure Redacted (text : String) : Prop where
  removed : ∀ run, IsKey text.toList run → ¬ run <:+: (redact text).toList
  kept : ∀ before word after, text = before ++ word ++ after → IsWord before word after →
    IsPlain word → redact text = redact before ++ word ++ redact after
  stable : redact (redact text) = redact text

/-! ## Piece by piece -/

/-- What ends a token. -/
def endsToken (c : Char) : Bool := Text.isWhitespace c || c == '"' || c == '\'' || c == '='

/-- What is trimmed from a token. -/
def isTrimmed (c : Char) : Bool := endsToken c || c == ',' || c == '{' || c == '}'

/-- A piece between two ends of tokens is taken for a secret: what is left of it when it is trimmed
starts like a key and has more than 12 bytes, or has 40 bytes and 36 letters and digits. -/
def isTaken (piece : List Char) : Bool :=
  let word := trimMatches isTrimmed piece
  let bytes := (String.ofList word).utf8ByteSize
  (keyPrefixes.any (Text.startsWith (String.ofList word)) && 12 < bytes) ||
    (40 ≤ bytes && 36 ≤ word.countP (·.isAlphanum))

/-- The pieces between the ends of tokens. -/
def pieces (text : String) : List (List Char) := text.toList.splitOnP endsToken

/-- The keys stand where they are looked for, and nothing is taken for a secret in a plain word. -/
structure Exposed (text : String) : Prop where
  keys : ∀ run piece, IsKey text.toList run → piece ∈ pieces text → run <:+: piece →
    isTaken piece = true
  words : ∀ before word after, text = before ++ word ++ after → IsWord before word after →
    IsPlain word → ∀ piece ∈ pieces word, isTaken piece = false

def redactPiece (piece : List Char) : List Char :=
  if isTaken piece then "[REDACTED]".toList else piece

def redactToken (token : List Char) : List Char :=
  if isTaken token then "[REDACTED]".toList ++ (token.getLast?.filter endsToken).toList else token

def redactChars (cs : List Char) : List Char := (splitInclusive endsToken cs).flatMap redactToken

theorem toList_redact (text : String) : (redact text).toList = redactChars text.toList := by
  rw [redact, String.toList_ofList]
  rfl

/-- What stands for a removed piece is neither taken for a secret nor cut. -/
theorem mark_inert : isTaken "[REDACTED]".toList = false ∧ isTaken [] = false ∧
    "[REDACTED]".toList.all (fun c => !endsToken c) = true := by decide +kernel

theorem redactPiece_nil : redactPiece [] = [] := by
  rw [redactPiece, mark_inert.2.1]
  rfl

variable {piece : List Char} {c : Char}

theorem splitInclusive_cons {p : Char → Bool} {piece cs : List Char} (hpiece : Free p piece)
    (hc : p c = true) :
    splitInclusive p (piece ++ c :: cs) = (piece ++ [c]) :: splitInclusive p cs := by
  induction piece with
  | nil => rw [List.nil_append, splitInclusive, if_pos hc, List.nil_append]
  | cons d piece ih =>
    have hd : p d = false := hpiece d List.mem_cons_self
    rw [List.cons_append, splitInclusive, hd,
      ih fun c hmem => hpiece c (List.mem_cons_of_mem _ hmem)]
    rfl

theorem splitInclusive_of_free {p : Char → Bool} {d : Char} (hpiece : Free p (d :: piece)) :
    splitInclusive p (d :: piece) = [d :: piece] := by
  induction piece generalizing d with
  | nil =>
    have hd : p d = false := hpiece d List.mem_cons_self
    rw [splitInclusive, hd]
    rfl
  | cons e piece ih =>
    have hd : p d = false := hpiece d List.mem_cons_self
    rw [splitInclusive, hd, ih fun c hmem => hpiece c (List.mem_cons_of_mem _ hmem)]
    rfl

/-- What ends a token is no part of what is looked at. -/
theorem isTaken_concat (hc : endsToken c = true) : isTaken (piece ++ [c]) = isTaken piece := by
  have htrim : isTrimmed c = true := by rw [isTrimmed, hc]; rfl
  have htrimmed : trimMatches isTrimmed (piece ++ [c]) = trimMatches isTrimmed piece := by
    rw [trimMatches, trimMatches, List.dropWhile_append]
    split
    next hempty =>
      rw [List.isEmpty_iff.mp hempty, List.dropWhile_cons_of_pos htrim]
      rfl
    next hempty =>
      rw [List.reverse_append, List.reverse_singleton, List.singleton_append,
        List.dropWhile_cons_of_pos htrim]
  rw [isTaken, htrimmed, isTaken]

/-- Redaction changes the pieces. -/
theorem maps_redactChars : Maps endsToken redactPiece redactChars where
  piece {a} ha := by
    cases a with
    | nil => rw [redactPiece_nil]; rfl
    | cons d a =>
      have hlast : ((d :: a).getLast?.filter endsToken).toList = [] := by
        cases hl : (d :: a).getLast? with
        | none => rfl
        | some c => rw [Option.filter_some, ha c (List.mem_of_getLast? hl)]; rfl
      rw [redactChars, splitInclusive_of_free ha, List.flatMap_singleton, redactToken, hlast,
        List.append_nil, redactPiece]
  cons {a c b} ha hc := by
    have hlast : ((a ++ [c]).getLast?.filter endsToken).toList = [c] := by
      rw [List.getLast?_concat, Option.filter_some, hc]
      rfl
    rw [redactChars, splitInclusive_cons ha hc, List.flatMap_cons, redactToken, hlast,
      isTaken_concat hc, redactPiece]
    split
    · rw [List.append_assoc]
      rfl
    · rw [List.append_assoc]
      rfl

theorem free_redactPiece (h : Free endsToken piece) : Free endsToken (redactPiece piece) := by
  rw [redactPiece]
  split
  · intro c hc
    rw [← Bool.not_eq_true', List.all_eq_true.mp mark_inert.2.2 c hc]
  · exact h

theorem redactPiece_eq_self_iff : redactPiece piece = piece ↔ isTaken piece = false := by
  rw [redactPiece]
  split
  next h =>
    refine iff_of_false (fun heq => ?_) (by simp [h])
    rw [← heq, mark_inert.1] at h
    cases h
  next h => exact iff_of_true rfl (by simpa using h)

theorem redactPiece_redactPiece (piece : List Char) :
    redactPiece (redactPiece piece) = redactPiece piece := by
  rw [redactPiece_eq_self_iff, redactPiece]
  split
  · exact mark_inert.1
  next h => simpa using h

/-! ## Exactly when -/

theorem redact_redact (text : String) : redact (redact text) = redact text := by
  rw [← String.toList_inj, toList_redact, toList_redact]
  exact maps_redactChars.idempotent (fun _ => free_redactPiece) fun a _ => redactPiece_redactPiece a

theorem isAlpha_iff :
    c.isAlpha = true ↔ (65 ≤ c.toNat ∧ c.toNat ≤ 90) ∨ (97 ≤ c.toNat ∧ c.toNat ≤ 122) := by
  have hunfold : c.isAlpha = (decide (c.val ≥ 'A'.val ∧ c.val ≤ 'Z'.val) ||
      (c.val ≥ 'a'.val && c.val ≤ 'z'.val)) := rfl
  have hval : c.toNat = c.val.toNat := rfl
  simp only [hunfold, hval, Bool.or_eq_true, Bool.and_eq_true, decide_eq_true_eq, ge_iff_le,
    UInt32.le_iff_toNat_le, Char.reduceVal, UInt32.reduceToNat]

theorem toNat_of_isKeyChar (h : isKeyChar c = true) :
    (45 ≤ c.toNat ∧ c.toNat ≤ 57) ∨ (65 ≤ c.toNat ∧ c.toNat ≤ 122) := by
  have hval : c.toNat = c.val.toNat := rfl
  simp only [isKeyChar, Char.isAlphanum, isAlpha_iff, Char.isDigit, Bool.or_eq_true,
    Bool.and_eq_true, decide_eq_true_eq, beq_iff_eq, ge_iff_le,
    UInt32.le_iff_toNat_le, Char.reduceVal, UInt32.reduceToNat] at h
  obtain ((((h | h) | h) | rfl) | rfl) | rfl := h
  · omega
  · omega
  · omega
  all_goals decide

theorem endsToken_of_isKeyChar (h : isKeyChar c = true) : endsToken c = false := by
  have hrange := toNat_of_isKeyChar h
  have hne (d : Char) (hd : d.toNat < 45 ∨ d.toNat = 61) : (c == d) = false := by
    rw [beq_eq_false_iff_ne]
    rintro rfl
    omega
  have hspace : Text.isWhitespace c = false := by
    simp [Text.isWhitespace]
    omega
  simp [endsToken, hspace, hne '"' (by decide), hne '\'' (by decide), hne '=' (by decide)]

/-- A key is left exactly if it is in a piece that is not taken for a secret. -/
theorem key_infix_redact_iff {text : String} {run : List Char} (h : IsKey text.toList run) :
    run <:+: (redact text).toList ↔
      ∃ piece ∈ pieces text, run <:+: piece ∧ isTaken piece = false := by
  have hfree : Free endsToken run := fun c hc => endsToken_of_isKeyChar (h.chars c hc)
  rw [toList_redact, maps_redactChars.infix_iff hfree]
  refine exists_congr fun piece => and_congr_right fun _ => ?_
  rw [redactPiece]
  split
  next htaken =>
    refine iff_of_false (fun hinfix => ?_) (by simp [htaken])
    have hlength : run.length ≤ 10 := hinfix.length_le
    have hlong := h.long
    omega
  next htaken => simp [htaken]

theorem redact_word {before word after : String} (h : IsWord before word after) :
    redact (before ++ word ++ after) = redact before ++ redact word ++ redact after := by
  have hends {c : Char} (hc : Text.isWhitespace c = true) : endsToken c = true := by
    rw [endsToken, hc]
    rfl
  simp only [← String.toList_inj, String.toList_append, toList_redact]
  rw [maps_redactChars.append_of_head redactPiece_nil fun c hc => hends (h.ends c hc),
    maps_redactChars.append_of_getLast redactPiece_nil fun c hc => hends (h.starts c hc)]

/-- A word is kept exactly if nothing in it is taken for a secret. -/
theorem redact_eq_self_iff {word : String} :
    redact word = word ↔ ∀ piece ∈ pieces word, isTaken piece = false := by
  rw [← String.toList_inj, toList_redact,
    maps_redactChars.eq_self_iff fun _ => free_redactPiece]
  simp only [redactPiece_eq_self_iff, pieces]

/-- Redaction does what it is for exactly if the text's keys are where they are looked for, and none
of its plain words looks like one. -/
theorem redacted_iff_exposed (text : String) : Redacted text ↔ Exposed text := by
  constructor
  · intro h
    constructor
    · intro run piece hkey hpiece hinfix
      by_contra htaken
      refine h.removed run hkey ((key_infix_redact_iff hkey).mpr ⟨piece, hpiece, hinfix, ?_⟩)
      simpa using htaken
    · rintro before word after rfl hword hplain
      have hkept := h.kept before word after rfl hword hplain
      rw [redact_word hword, String.append_left_inj, String.append_right_inj] at hkept
      exact redact_eq_self_iff.mp hkept
  · intro h
    constructor
    · intro run hkey hinfix
      obtain ⟨piece, hpiece, hrun, htaken⟩ := (key_infix_redact_iff hkey).mp hinfix
      rw [h.keys run piece hkey hpiece hrun] at htaken
      cases htaken
    · rintro before word after rfl hword hplain
      rw [redact_word hword, redact_eq_self_iff.mpr (h.words before word after rfl hword hplain)]
    · exact redact_redact text

/-- A key in parentheses is not removed. -/
theorem key_in_parentheses : ¬ ∀ text, Redacted text := by
  intro h
  obtain ⟨hchars, hwhole, hknown, hlong, hkept⟩ :
      "sk-0123456789abcdef".toList.all isKeyChar = true ∧
      "(sk-0123456789abcdef)".toList = ['('] ++ "sk-0123456789abcdef".toList ++ [')'] ∧
      "sk-".toList <+: "sk-0123456789abcdef".toList ∧ 12 < "sk-0123456789abcdef".toList.length ∧
      "sk-0123456789abcdef".toList <:+: (redact "(sk-0123456789abcdef)").toList := by
    decide +kernel
  have hkey : IsKey "(sk-0123456789abcdef)".toList "sk-0123456789abcdef".toList :=
    { chars := List.all_eq_true.mp hchars
      maximal := ⟨['('], [')'], hwhole, by simp [isKeyChar], by simp [isKeyChar]⟩
      known := ⟨"sk-", List.mem_cons_self, hknown⟩
      long := hlong }
  exact (h _).removed _ hkey hkept

end Kinetix.Outbound
