import Kinetix.Foundation.Clock
import Kinetix.Library.FixedWidth
import Mathlib.Data.String.Basic

/-!
# The texts of instants

`DateTime::to_rfc3339` and the `Display` of a `NaiveDate`. The table columns that hold times are
texts, and SQLite compares them as such: the texts of two instants of the years 0 to 9999 compare as
the instants do, and the text of an instant of an earlier or a later year starts with a sign.
-/

namespace Kinetix.Clock
open FixedWidth

/-- `NaiveDate::year`. -/
def yearOfDay (day : Int) : Int := (monthIndex day + 2) / 12

/-- `NaiveDate::month`. -/
def monthOfDay (day : Int) : Int := (monthIndex day + 2) % 12 + 1

/-- `NaiveDate::day`. -/
def dayOfMonth (day : Int) : Int := day - withDay1 day + 1

def secondOfDay (t : Int) : Nat := (t / 1000000000 % 86400).toNat

/-- `timestamp_subsec_nanos`. -/
def nanosecond (t : Int) : Nat := (t % 1000000000).toNat

/-- A year that is written without a sign. -/
def PlainYear (day : Int) : Prop := 0 ≤ yearOfDay day ∧ yearOfDay day ≤ 9999

instance (day : Int) : Decidable (PlainYear day) := inferInstanceAs (Decidable (_ ∧ _))

/-- Four digits, or a sign and at least four. -/
def yearText (year : Int) : List Char :=
  if 0 ≤ year ∧ year ≤ 9999 then padded 4 year.toNat
  else (if year < 0 then '-' else '+') :: (Nat.toDigits 10 year.natAbs).leftpad 4 '0'

/-- The `Display` of a `NaiveDate`. -/
def dateText (day : Int) : List Char :=
  yearText (yearOfDay day) ++
    '-' :: padded 2 (monthOfDay day).toNat ++ '-' :: padded 2 (dayOfMonth day).toNat

def timeText (second : Nat) : List Char :=
  padded 2 (second / 3600) ++ ':' :: padded 2 (second / 60 % 60) ++ ':' :: padded 2 (second % 60)

/-- `SecondsFormat::AutoSi`. -/
def fractionText (nanos : Nat) : List Char :=
  if nanos = 0 then []
  else if nanos % 1000000 = 0 then '.' :: padded 3 (nanos / 1000000)
  else if nanos % 1000 = 0 then '.' :: padded 6 (nanos / 1000)
  else '.' :: padded 9 nanos

/-- The text up to the seconds. -/
def dateTimeText (day : Int) (second : Nat) : List Char := dateText day ++ 'T' :: timeText second

/-- `DateTime::to_rfc3339`. -/
def toRfc3339 (t : Int) : String :=
  String.ofList (dateTimeText (dateNaive t) (secondOfDay t) ++ (fractionText (nanosecond t) ++
    ['+', '0', '0', ':', '0', '0']))

/-! ## The parts -/

variable {d e t u : Int} {m n : Nat}

theorem dayOfMonth_range (day : Int) : 1 ≤ dayOfMonth day ∧ dayOfMonth day ≤ 31 := by
  have hfirst := withDay1_self_le day
  have hlast := sub_withDay1_lt day
  unfold dayOfMonth
  omega

theorem secondOfDay_lt (t : Int) : secondOfDay t < 86400 := by
  unfold secondOfDay
  omega

theorem nanosecond_lt (t : Int) : nanosecond t < 1000000000 := by
  unfold nanosecond
  omega

theorem lt_iff_parts : t < u ↔ dateNaive t < dateNaive u ∨ dateNaive t = dateNaive u ∧
    (secondOfDay t < secondOfDay u ∨
      secondOfDay t = secondOfDay u ∧ nanosecond t < nanosecond u) := by
  unfold dateNaive secondOfDay nanosecond
  omega

theorem yearText_plain (h : PlainYear d) :
    yearText (yearOfDay d) = padded 4 (yearOfDay d).toNat := if_pos h

theorem yearText_signed (h : ¬ PlainYear d) :
    ∃ c ≤ '/', ∃ rest, yearText (yearOfDay d) = c :: rest :=
  ⟨if yearOfDay d < 0 then '-' else '+', by split_ifs <;> decide, _, if_neg h⟩

theorem length_dateText (h : PlainYear d) : (dateText d).length = 10 := by
  simp [dateText, yearText_plain h]

@[simp] theorem length_timeText (n : Nat) : (timeText n).length = 8 := by
  simp [timeText]

/-! ## The order of the texts -/

/-- The later of two days has the greater text. -/
theorem dateText_lt (hd : PlainYear d) (he : PlainYear e) (h : d < e) :
    dateText d < dateText e := by
  have hmonth := monthIndex_mono h.le
  have hyear : padded 4 (yearOfDay d).toNat < padded 4 (yearOfDay e).toNat ↔
      (yearOfDay d).toNat < (yearOfDay e).toNat :=
    padded_lt_padded (by have := hd.2; omega) (by have := he.2; omega)
  have hmonths : padded 2 (monthOfDay d).toNat < padded 2 (monthOfDay e).toNat ↔
      (monthOfDay d).toNat < (monthOfDay e).toNat :=
    padded_lt_padded (by unfold monthOfDay; omega) (by unfold monthOfDay; omega)
  have hdays : padded 2 (dayOfMonth d).toNat < padded 2 (dayOfMonth e).toNat ↔
      (dayOfMonth d).toNat < (dayOfMonth e).toNat :=
    padded_lt_padded (by have := dayOfMonth_range d; omega) (by have := dayOfMonth_range e; omega)
  simp only [dateText, yearText_plain hd, yearText_plain he, List.append_assoc, List.cons_append]
  rw [append_lt_append_iff (by simp), hyear, List.cons_lt_cons_self]
  rcases hmonth.lt_or_eq with hlt | heq
  · have hyears : yearOfDay d < yearOfDay e ∨
        yearOfDay d = yearOfDay e ∧ monthOfDay d < monthOfDay e := by
      unfold yearOfDay monthOfDay
      omega
    rcases hyears with hlt | ⟨heq, hlt⟩
    · have h₀ := hd.1
      exact .inl (by omega)
    · refine .inr ⟨by rw [heq], append_lt_append_of_lt (by simp) (hmonths.mpr ?_)⟩
      unfold monthOfDay at hlt ⊢
      omega
  · have hfirst := withDay1_congr heq
    refine .inr ⟨by rw [yearOfDay, yearOfDay, heq], ?_⟩
    rw [monthOfDay, monthOfDay, heq, append_lt_append_left_iff, List.cons_lt_cons_self, hdays]
    have hrange := dayOfMonth_range d
    unfold dayOfMonth at hrange ⊢
    omega

theorem timeText_lt (hm : m < 86400) (hn : n < 86400) (h : m < n) : timeText m < timeText n := by
  have hpart : ∀ i < 60, ∀ j < 60, padded 2 i < padded 2 j ↔ i < j := fun i hi j hj =>
    padded_lt_padded (hi.trans (by decide)) (hj.trans (by decide))
  simp only [timeText, List.append_assoc, List.cons_append]
  rw [append_lt_append_iff (by simp), hpart _ (by omega) _ (by omega), List.cons_lt_cons_self]
  by_cases hhour : m / 3600 < n / 3600
  · exact .inl hhour
  · have heq : m / 3600 = n / 3600 := by omega
    refine .inr ⟨by rw [heq], ?_⟩
    rw [append_lt_append_iff (by simp), hpart _ (by omega) _ (by omega), List.cons_lt_cons_self]
    by_cases hminute : m / 60 % 60 < n / 60 % 60
    · exact .inl hminute
    · have heq : m / 60 % 60 = n / 60 % 60 := by omega
      refine .inr ⟨by rw [heq], (hpart _ (by omega) _ (by omega)).mpr ?_⟩
      omega

theorem dateTimeText_length (hd : PlainYear d) (n : Nat) : (dateTimeText d n).length = 19 := by
  simp [dateTimeText, length_dateText hd]

/-- The texts up to the seconds compare as the days and the seconds of the day do. -/
theorem dateTimeText_lt (hd : PlainYear d) (he : PlainYear e) (hm : m < 86400) (hn : n < 86400)
    (h : d < e ∨ d = e ∧ m < n) : dateTimeText d m < dateTimeText e n := by
  rcases h with h | ⟨rfl, h⟩
  · exact append_lt_append_of_lt (by rw [length_dateText hd, length_dateText he])
      (dateText_lt hd he h)
  · rw [dateTimeText, dateTimeText, append_lt_append_left_iff]
    exact List.cons_lt_cons_self.mpr (timeText_lt hm hn h)

/-- A fraction is cut where only zeros follow. -/
theorem fractionText_cut (h : n ≠ 0) :
    ∃ w v, w + v = 9 ∧ 10 ^ v ∣ n ∧ fractionText n = '.' :: padded w (n / 10 ^ v) := by
  unfold fractionText
  rw [if_neg h]
  split_ifs with h₁ h₂
  · exact ⟨3, 6, rfl, Nat.dvd_of_mod_eq_zero h₁, rfl⟩
  · exact ⟨6, 3, rfl, Nat.dvd_of_mod_eq_zero h₂, rfl⟩
  · exact ⟨9, 0, rfl, one_dvd n, by rw [pow_zero, Nat.div_one]⟩

/-- Fractions compare as their texts do, whatever digits are cut. -/
theorem fractionText_lt (hn : n < 1000000000) (h : m < n) (rest : List Char) :
    fractionText m ++ '+' :: rest < fractionText n ++ '+' :: rest := by
  obtain ⟨w', v', hwidth', hcut', htext'⟩ := fractionText_cut (Nat.ne_of_gt (Nat.zero_lt_of_lt h))
  rw [htext']
  by_cases hm : m = 0
  · subst hm
    exact cons_lt_cons_of_lt (by decide)
  obtain ⟨w, v, hwidth, hcut, htext⟩ := fractionText_cut hm
  rw [htext, List.cons_append, List.cons_append, List.cons_lt_cons_self]
  exact cut_lt_cut (by decide) rest hwidth hwidth' hcut hcut' h hn

/-- An instant of the years 0 to 9999. -/
def Plain (t : Int) : Prop := PlainYear (dateNaive t)

instance (t : Int) : Decidable (Plain t) := inferInstanceAs (Decidable (PlainYear _))

/-- The later of two instants has the greater text. -/
theorem toRfc3339_lt (ht : Plain t) (hu : Plain u) (h : t < u) : toRfc3339 t < toRfc3339 u := by
  rw [toRfc3339, toRfc3339, String.lt_iff_toList_lt, String.toList_ofList, String.toList_ofList,
    append_lt_append_iff (by rw [dateTimeText_length ht, dateTimeText_length hu])]
  have hdateTime := dateTimeText_lt ht hu (secondOfDay_lt t) (secondOfDay_lt u)
  rcases lt_iff_parts.mp h with hday | ⟨hday, hsecond | ⟨hsecond, hnano⟩⟩
  · exact .inl (hdateTime (.inl hday))
  · exact .inl (hdateTime (.inr ⟨hday, hsecond⟩))
  · exact .inr ⟨by rw [hday, hsecond], fractionText_lt (nanosecond_lt u) hnano _⟩

/-- The texts of instants of the years 0 to 9999 compare as the instants do. -/
theorem toRfc3339_le_iff (ht : Plain t) (hu : Plain u) : toRfc3339 t ≤ toRfc3339 u ↔ t ≤ u := by
  constructor
  · intro h
    by_contra hlt
    exact absurd (toRfc3339_lt hu ht (not_le.mp hlt)) (not_lt.mpr h)
  · intro h
    rcases h.lt_or_eq with hlt | rfl
    · exact (toRfc3339_lt ht hu hlt).le
    · exact le_rfl

/-- The text of an instant of a later year starts with a sign, and that of an earlier year too. -/
theorem toRfc3339_lt_of_not_plain (ht : ¬ Plain t) (hu : Plain u) :
    toRfc3339 t < toRfc3339 u := by
  obtain ⟨c, hc, rest, hsign⟩ := yearText_signed ht
  rw [toRfc3339, toRfc3339, String.lt_iff_toList_lt, String.toList_ofList, String.toList_ofList]
  simp only [dateTimeText, dateText, yearText_plain hu, hsign, List.append_assoc,
    List.cons_append]
  exact cons_lt_padded_append hc _ 3 _

theorem yearOfDay_mono (h : d ≤ e) : yearOfDay d ≤ yearOfDay e := by
  have hmonth := monthIndex_mono h
  unfold yearOfDay
  omega

/-- Before the year 10000 the signs do no harm: a negative year is less than any other. -/
theorem toRfc3339_le_iff_of_year (ht : yearOfDay (dateNaive t) ≤ 9999) (hu : Plain u) :
    toRfc3339 t ≤ toRfc3339 u ↔ t ≤ u := by
  by_cases hplain : Plain t
  · exact toRfc3339_le_iff hplain hu
  · have hyear : yearOfDay (dateNaive t) < yearOfDay (dateNaive u) :=
      lt_of_not_ge fun h => hplain ⟨hu.1.trans h, ht⟩
    refine iff_of_true (toRfc3339_lt_of_not_plain hplain hu).le (le_of_not_gt fun h => ?_)
    exact absurd (yearOfDay_mono (dateNaive_mono h.le)) (not_le.mpr hyear)

/-! ## Midnight -/

/-- `format!("{day}T00:00:00Z")`. -/
def midnightText (day : Int) : String :=
  String.ofList (dateTimeText day 0 ++ ['Z'])

/-- An instant whose text is less than that of a midnight can be up to a second later: both a `+`
and a point are less than a `Z`. -/
theorem toRfc3339_lt_midnightText_iff (ht : Plain t) (hd : PlainYear d) :
    toRfc3339 t < midnightText d ↔
      dateNaive t < d ∨ dateNaive t = d ∧ secondOfDay t = 0 := by
  rw [toRfc3339, midnightText, String.lt_iff_toList_lt, String.toList_ofList, String.toList_ofList,
    append_lt_append_iff (by rw [dateTimeText_length ht, dateTimeText_length hd])]
  have hrest : fractionText (nanosecond t) ++ ['+', '0', '0', ':', '0', '0'] < ['Z'] := by
    by_cases hn : nanosecond t = 0
    · rw [hn]
      decide
    · obtain ⟨w, v, -, -, htext⟩ := fractionText_cut hn
      rw [htext]
      exact cons_lt_cons_of_lt (by decide)
  have hdateTime := dateTimeText_lt ht hd (secondOfDay_lt t) (by decide : 0 < 86400)
  have hdateTime' := dateTimeText_lt hd ht (by decide : 0 < 86400) (secondOfDay_lt t)
  constructor
  · intro h
    by_contra hnot
    have hlater : d < dateNaive t ∨ d = dateNaive t ∧ 0 < secondOfDay t := by omega
    rcases h with h | ⟨h, -⟩
    · exact lt_asymm h (hdateTime' hlater)
    · exact (hdateTime' hlater).ne h.symm
  · rintro (hlt | ⟨heq, hzero⟩)
    · exact .inl (hdateTime (.inl hlt))
    · exact .inr ⟨by rw [heq, hzero], hrest⟩

end Kinetix.Clock
