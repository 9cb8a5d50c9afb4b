import Mathlib.Tactic.Common

/-!
# Strings

The operations of `str` that the code uses, where Lean's own differ: Rust trims Unicode white space.
-/

namespace Kinetix.Text

/-- `char::is_whitespace`. -/
def isWhitespace (c : Char) : Bool :=
  let n := c.toNat
  (9 ≤ n && n ≤ 13) || n == 32 || n == 133 || n == 160 || n == 5760 || (8192 ≤ n && n ≤ 8202) ||
    n == 8232 || n == 8233 || n == 8239 || n == 8287 || n == 12288

/-- `str::trim`. -/
def trim (s : String) : String :=
  String.ofList ((s.toList.dropWhile isWhitespace).reverse.dropWhile isWhitespace).reverse

variable {c : Char} {s : String}

/-- A text without white space is left as it is. -/
theorem trim_eq_self (h : ∀ c ∈ s.toList, isWhitespace c = false) : trim s = s := by
  have keep : ∀ l : List Char, (∀ c ∈ l, isWhitespace c = false) →
      l.dropWhile isWhitespace = l := by
    intro l hl
    cases l with
    | nil => rfl
    | cons c l => rw [List.dropWhile_cons_of_neg (by simp [hl c List.mem_cons_self])]
  rw [trim, keep _ h, keep _ fun c hc => h c (List.mem_reverse.mp hc), List.reverse_reverse,
    String.ofList_toList]

/-- What is no white space is not trimmed away. -/
theorem mem_trim (hc : isWhitespace c = false) (h : c ∈ s.toList) : c ∈ (trim s).toList := by
  have keep : ∀ l : List Char, c ∈ l → c ∈ l.dropWhile isWhitespace := by
    intro l hl
    induction l with
    | nil => exact hl
    | cons d l ih =>
      rw [List.dropWhile_cons]
      split
      next hd =>
        refine ih ((List.mem_cons.mp hl).resolve_left ?_)
        rintro rfl
        exact Bool.noConfusion (hc.symm.trans hd)
      next => exact hl
  rw [trim, String.toList_ofList, List.mem_reverse]
  exact keep _ (List.mem_reverse.mpr (keep _ h))

/-- `str::to_ascii_lowercase`. -/
def toAsciiLowercase (s : String) : String := s.map Char.toLower

/-- `str::eq_ignore_ascii_case`. -/
def eqIgnoreAsciiCase (s t : String) : Bool := toAsciiLowercase s == toAsciiLowercase t

/-- `str::strip_suffix` of one character. -/
def stripSuffix (s : String) (c : Char) : Option String :=
  if s.toList.getLast? = some c then some (String.ofList s.toList.dropLast) else none

/-- `str::strip_prefix`. -/
def stripPrefix (s start : String) : Option String :=
  if start.toList.isPrefixOf s.toList then some (String.ofList (s.toList.drop start.length))
  else none

/-- `str::starts_with`. -/
def startsWith (s start : String) : Bool := start.toList.isPrefixOf s.toList

/-- `str::ends_with`. -/
def endsWith (s stop : String) : Bool := stop.toList.isSuffixOf s.toList

/-- `str::split` at a character. -/
def splitAt (s : String) (c : Char) : List String := (s.toList.splitOn c).map String.ofList

/-- `str::contains`. -/
def contains (s part : String) : Bool := s.toList.tails.any part.toList.isPrefixOf

/-- `str::lines`: a line ends with a line feed, before which one carriage return is dropped; what
comes after the last line feed is a line if there is anything. -/
def lines (s : String) : List String :=
  let parts := s.toList.splitOn '\n'
  let ended := parts.dropLast.map fun line =>
    if line.getLast? = some '\r' then line.dropLast else line
  (ended ++ (parts.getLast?.filter (· ≠ [])).toList).map String.ofList

/-- The characters that the first `n` bytes of a text encode, if they end between two
characters. -/
def sliceChars : List Char → Nat → Option (List Char)
  | _, 0 => some []
  | [], _ + 1 => none
  | c :: cs, n + 1 =>
    if c.utf8Size ≤ n + 1 then (sliceChars cs (n + 1 - c.utf8Size)).map (c :: ·) else none

/-- `&s[..n]`, which panics off a character boundary. -/
def sliceTo (s : String) (n : Nat) : Option String := (sliceChars s.toList n).map String.ofList

/-- The bytes that encode some characters. -/
def utf8Length : List Char → Nat
  | [] => 0
  | c :: cs => c.utf8Size + utf8Length cs

/-- `str::is_char_boundary`. -/
def IsCharBoundary (s : String) (n : Nat) : Prop :=
  ∃ start, start <+: s.toList ∧ utf8Length start = n

theorem sliceChars_isSome_iff {cs : List Char} {n : Nat} :
    (sliceChars cs n).isSome ↔ ∃ start, start <+: cs ∧ utf8Length start = n := by
  induction cs, n using sliceChars.induct with
  | case1 cs =>
    exact iff_of_true (by rw [sliceChars]; rfl) ⟨[], List.nil_prefix, rfl⟩
  | case2 n =>
    refine iff_of_false Bool.false_ne_true ?_
    rintro ⟨start, hs, hn⟩
    rw [List.prefix_nil.mp hs] at hn
    cases hn
  | case3 c cs n h ih =>
    rw [sliceChars, if_pos h, Option.isSome_map, ih]
    constructor
    · rintro ⟨start, hs, hn⟩
      refine ⟨c :: start, (List.prefix_cons_inj c).mpr hs, ?_⟩
      rw [utf8Length]
      omega
    · rintro ⟨start, hs, hn⟩
      cases start with
      | nil => cases hn
      | cons d start =>
        obtain ⟨rfl, htail⟩ := List.cons_prefix_cons.mp hs
        rw [utf8Length] at hn
        exact ⟨start, htail, by omega⟩
  | case4 c cs n h =>
    rw [sliceChars, if_neg h]
    refine iff_of_false Bool.false_ne_true ?_
    rintro ⟨start, hs, hn⟩
    cases start with
    | nil => cases hn
    | cons d start =>
      obtain ⟨rfl, htail⟩ := List.cons_prefix_cons.mp hs
      rw [utf8Length] at hn
      omega

theorem sliceTo_isSome_iff {n : Nat} : (sliceTo s n).isSome ↔ IsCharBoundary s n := by
  rw [sliceTo, Option.isSome_map]
  exact sliceChars_isSome_iff

theorem stripPrefix_eq_some {s start rest : String} :
    stripPrefix s start = some rest ↔ s = start ++ rest := by
  rw [stripPrefix, ← String.toList_inj, String.toList_append]
  split
  next h =>
    obtain ⟨tail, htail⟩ := List.isPrefixOf_iff_prefix.mp h
    rw [← htail, ← String.length_toList, List.drop_left, Option.some.injEq,
      List.append_cancel_left_eq]
    exact ⟨fun heq => heq ▸ String.toList_ofList.symm, fun heq => heq ▸ String.ofList_toList⟩
  next h =>
    refine ⟨fun heq => absurd heq (Option.some_ne_none rest).symm, fun heq => ?_⟩
    exact absurd (List.isPrefixOf_iff_prefix.mpr ⟨_, heq.symm⟩) h

theorem stripSuffix_eq_some {s start : String} :
    stripSuffix s c = some start ↔ s.toList = start.toList ++ [c] := by
  rw [stripSuffix]
  split
  · rename_i hlast
    obtain ⟨front, hfront⟩ := List.getLast?_eq_some_iff.mp hlast
    rw [hfront, List.dropLast_concat]
    constructor
    · intro h
      rw [← Option.some.inj h, String.toList_ofList]
    · intro h
      rw [List.append_cancel_right h, String.ofList_toList]
  · rename_i hlast
    constructor
    · intro h
      cases h
    · intro h
      exact absurd (by rw [h]; simp) hlast

/-- `str::contains` of one character. -/
theorem contains_char {s part : String} (h : part.toList = [c]) :
    contains s part = true ↔ c ∈ s.toList := by
  rw [contains, h]
  induction s.toList with
  | nil => simp [List.isPrefixOf]
  | cons d cs ih =>
    rw [List.tails, List.any_cons, Bool.or_eq_true, ih, List.mem_cons]
    simp only [List.isPrefixOf, Bool.and_true, beq_iff_eq]

/-- What stands before the first separator, and what stands behind it. -/
theorem append_cons_inj {α : Type} {a : α} {x y u v : List α} (hx : a ∉ x) (hy : a ∉ y)
    (h : x ++ a :: u = y ++ a :: v) : x = y ∧ u = v := by
  induction x generalizing y with
  | nil =>
    cases y with
    | nil => exact ⟨rfl, (List.cons.inj h).2⟩
    | cons c y => exact absurd ((List.cons.inj h).1 ▸ List.mem_cons_self) hy
  | cons c x ih =>
    cases y with
    | nil => exact absurd ((List.cons.inj h).1 ▸ List.mem_cons_self) hx
    | cons d y =>
      obtain ⟨rfl, htail⟩ := List.cons.inj h
      obtain ⟨rfl, huv⟩ := ih (fun hc => hx (List.mem_cons_of_mem _ hc))
        (fun hc => hy (List.mem_cons_of_mem _ hc)) htail
      exact ⟨rfl, huv⟩

/-- A character of joined texts is one of them or the separator. -/
theorem mem_intercalate {c d : Char} {texts : List String}
    (h : d ∈ ((String.singleton c).intercalate texts).toList) :
    d = c ∨ ∃ s ∈ texts, d ∈ s.toList := by
  induction texts with
  | nil => simp at h
  | cons s texts ih =>
    by_cases hnil : texts = []
    · subst hnil
      exact .inr ⟨s, List.mem_singleton_self s, by simpa using h⟩
    · rw [String.intercalate_cons_of_ne_nil hnil, String.toList_append, String.toList_append,
        List.mem_append, List.mem_append] at h
      obtain (h | h) | h := h
      · exact .inr ⟨s, List.mem_cons_self, h⟩
      · exact .inl (by simpa using h)
      · obtain hc | ⟨t, ht, hd⟩ := ih h
        · exact .inl hc
        · exact .inr ⟨t, List.mem_cons_of_mem s ht, hd⟩

/-- The first of some texts is in what they are joined to. -/
theorem mem_intercalate_cons {d : Char} {sep text : String} {texts : List String}
    (h : d ∈ text.toList) : d ∈ (sep.intercalate (text :: texts)).toList := by
  by_cases hnil : texts = []
  · subst hnil
    simpa using h
  · rw [String.intercalate_cons_of_ne_nil hnil, String.toList_append, String.toList_append]
    exact List.mem_append_left _ (List.mem_append_left _ h)

/-- Lists of texts without the separator are told apart by what they are joined to. -/
theorem intercalate_inj {as bs : List String} (ha : ∀ s ∈ as, c ∉ s.toList)
    (hb : ∀ s ∈ bs, c ∉ s.toList) (hane : as ≠ []) (hbne : bs ≠ [])
    (h : (String.singleton c).intercalate as = (String.singleton c).intercalate bs) : as = bs := by
  have hsplit := congrArg (fun s : String => (s.split c).toList.map String.Slice.copy) h
  simp only [String.toList_split_intercalate ha, String.toList_split_intercalate hb] at hsplit
  simpa [hane, hbne] using hsplit

end Kinetix.Text
