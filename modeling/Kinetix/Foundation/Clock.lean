import Mathlib.Tactic

/-!
# Clocks and the calendar

A `DateTime<Utc>` is an `Int`, the nanoseconds since the Unix epoch, and so is a difference of two.
Its calendar is the proleptic Gregorian one that `date_naive`, `year` and `month` read off it. An
`Instant` is a `Nat`, the nanoseconds since the origin of the monotonic clock.

## Implementation notes

The calendar counts years from the first of March, so that the leap day is the last of its year,
and splits a day number into 400-year eras, centuries, four-year groups and years. The month key
never decreases: this is all that the code relies on when it starts a new accounting period.
-/

namespace Kinetix.Clock

/-- `chrono::Duration::seconds`. -/
def seconds (n : Int) : Int := n * 1000000000

/-- `TimeDelta::num_seconds`: whole seconds, rounded towards zero. -/
def numSeconds (d : Int) : Int := d.tdiv 1000000000

/-- `chrono::Duration::try_seconds`: a duration holds no more than `i64::MAX` milliseconds. -/
def trySeconds (n : Int) : Option Int :=
  if |n| ≤ 9223372036854775 then some (seconds n) else none

/-- `DateTime::checked_add_signed`: the years of a `DateTime<Utc>` end with 262142. -/
def checkedAdd (t d : Int) : Option Int :=
  if seconds (-8334601228800) ≤ t + d ∧ t + d < seconds 8210266876800 then some (t + d) else none

/-- `now + Duration::seconds(n)`, which panics where the duration or the sum is out of range. -/
def addSeconds (now n : Int) : Option Int := (trySeconds n).bind (checkedAdd now)

/-- A value that `Utc::now` can return: chrono keeps the seconds of an instant in an `i64`. -/
structure Reading where
  value : Int
  lower : seconds (-9223372036854775808) ≤ value
  upper : value < seconds 9223372036854775808

/-- The reading a number of whole seconds after the epoch. -/
def Reading.ofSeconds (n : Nat) (h : n < 9223372036854775808) : Reading where
  value := seconds n
  lower := by
    simp only [seconds]
    omega
  upper := by
    simp only [seconds]
    omega

/-- The days from the first of March of the year 0 to the epoch. -/
def epochShift : Int := 719468

/-- `date_naive`: the UTC day, counted from the first of March of the year 0. -/
def dateNaive (t : Int) : Int := t / 86400000000000 + epochShift

/-- The century of a 400-year era in which a day of that era lies. -/
def centuryOfEra (doe : Int) : Int := min (doe / 36524) 3

/-- The four-year group of a century in which a day of that century lies. -/
def groupOfCentury (doc : Int) : Int := min (doc / 1461) 24

/-- The year of a four-year group in which a day of that group lies. -/
def yearOfGroup (dog : Int) : Int := min (dog / 365) 3

/-- The month of a year counted from March, for a day of that year. -/
def monthOfYear (doy : Int) : Int := (5 * doy + 2) / 153

/-- The months from March of the year 0 to the month of a day. -/
def monthIndex (day : Int) : Int :=
  let era := day / 146097
  let doe := day % 146097
  let doc := doe - 36524 * centuryOfEra doe
  let dog := doc - 1461 * groupOfCentury doc
  let doy := dog - 365 * yearOfGroup dog
  12 * (400 * era + 100 * centuryOfEra doe + 4 * groupOfCentury doc + yearOfGroup dog) +
    monthOfYear doy

/-- `(year, month)` of an instant, the month counted from 1. -/
def yearMonth (t : Int) : Int × Int :=
  let index := monthIndex (dateNaive t) + 2
  (index / 12, index % 12 + 1)

theorem dateNaive_mono {t u : Int} (h : t ≤ u) : dateNaive t ≤ dateNaive u := by
  unfold dateNaive
  omega

variable (day : Int) {d e : Int}

/-- Within one year the later day is not in an earlier month. -/
theorem monthOfYear_mono (h : d ≤ e) : monthOfYear d ≤ monthOfYear e := by
  unfold monthOfYear
  omega

theorem monthOfYear_range {d : Int} (h₀ : 0 ≤ d) (h₁ : d ≤ 365) :
    0 ≤ monthOfYear d ∧ monthOfYear d ≤ 11 := by
  unfold monthOfYear
  omega

/-- The months of a four-year group up to a day of the group. -/
def monthsInGroup (dog : Int) : Int :=
  12 * yearOfGroup dog + monthOfYear (dog - 365 * yearOfGroup dog)

/-- The months of a century up to a day of the century. -/
def monthsInCentury (doc : Int) : Int :=
  48 * groupOfCentury doc + monthsInGroup (doc - 1461 * groupOfCentury doc)

/-- The months of an era up to a day of the era. -/
def monthsInEra (doe : Int) : Int :=
  1200 * centuryOfEra doe + monthsInCentury (doe - 36524 * centuryOfEra doe)

theorem monthsInGroup_spec (h₀ : 0 ≤ d) (h : d ≤ e) (h₁ : e ≤ 1460) :
    0 ≤ monthsInGroup d ∧ monthsInGroup d ≤ monthsInGroup e ∧ monthsInGroup e < 48 := by
  have hd := monthOfYear_range (d := d - 365 * yearOfGroup d)
    (by unfold yearOfGroup; omega) (by unfold yearOfGroup; omega)
  have he := monthOfYear_range (d := e - 365 * yearOfGroup e)
    (by unfold yearOfGroup; omega) (by unfold yearOfGroup; omega)
  have hy : 0 ≤ yearOfGroup d ∧ yearOfGroup d ≤ yearOfGroup e ∧ yearOfGroup e ≤ 3 := by
    unfold yearOfGroup
    omega
  unfold monthsInGroup
  rcases eq_or_lt_of_le hy.2.1 with heq | hlt
  · rw [heq] at hd ⊢
    have hm := monthOfYear_mono (d := d - 365 * yearOfGroup e)
      (e := e - 365 * yearOfGroup e) (by omega)
    omega
  · omega

theorem monthsInCentury_spec (h₀ : 0 ≤ d) (h : d ≤ e) (h₁ : e ≤ 36524) :
    0 ≤ monthsInCentury d ∧ monthsInCentury d ≤ monthsInCentury e ∧
      monthsInCentury e < 1200 := by
  have hg : 0 ≤ groupOfCentury d ∧ groupOfCentury d ≤ groupOfCentury e ∧
      groupOfCentury e ≤ 24 := by
    unfold groupOfCentury
    omega
  have hd := monthsInGroup_spec (d := d - 1461 * groupOfCentury d)
    (by unfold groupOfCentury; omega) le_rfl (by unfold groupOfCentury; omega)
  have he := monthsInGroup_spec (d := e - 1461 * groupOfCentury e)
    (by unfold groupOfCentury; omega) le_rfl (by unfold groupOfCentury; omega)
  unfold monthsInCentury
  rcases eq_or_lt_of_le hg.2.1 with heq | hlt
  · have hm := monthsInGroup_spec (d := d - 1461 * groupOfCentury d)
      (e := e - 1461 * groupOfCentury e) (by unfold groupOfCentury; omega) (by omega)
      (by unfold groupOfCentury; omega)
    omega
  · omega

theorem monthsInEra_spec (h₀ : 0 ≤ d) (h : d ≤ e) (h₁ : e < 146097) :
    0 ≤ monthsInEra d ∧ monthsInEra d ≤ monthsInEra e ∧ monthsInEra e < 4800 := by
  have hc : 0 ≤ centuryOfEra d ∧ centuryOfEra d ≤ centuryOfEra e ∧ centuryOfEra e ≤ 3 := by
    unfold centuryOfEra
    omega
  have hd := monthsInCentury_spec (d := d - 36524 * centuryOfEra d)
    (by unfold centuryOfEra; omega) le_rfl (by unfold centuryOfEra; omega)
  have he := monthsInCentury_spec (d := e - 36524 * centuryOfEra e)
    (by unfold centuryOfEra; omega) le_rfl (by unfold centuryOfEra; omega)
  unfold monthsInEra
  rcases eq_or_lt_of_le hc.2.1 with heq | hlt
  · have hm := monthsInCentury_spec (d := d - 36524 * centuryOfEra d)
      (e := e - 36524 * centuryOfEra e) (by unfold centuryOfEra; omega) (by omega)
      (by unfold centuryOfEra; omega)
    omega
  · omega

theorem monthIndex_eq : monthIndex day = 4800 * (day / 146097) + monthsInEra (day % 146097) := by
  simp only [monthIndex, monthsInEra, monthsInCentury, monthsInGroup]
  ring

theorem monthIndex_mono (h : d ≤ e) : monthIndex d ≤ monthIndex e := by
  rw [monthIndex_eq, monthIndex_eq]
  have hd := monthsInEra_spec (d := d % 146097) (by omega) le_rfl (by omega)
  have he := monthsInEra_spec (d := e % 146097) (by omega) le_rfl (by omega)
  rcases eq_or_lt_of_le (Int.ediv_le_ediv (by omega : (0 : Int) < 146097) h) with heq | hlt
  · have hm := monthsInEra_spec (d := d % 146097) (e := e % 146097)
      (by omega) (by omega) (by omega)
    omega
  · omega

/-- A month that lies between two instants of one month is that month. -/
theorem yearMonth_between {t u v : Int} (htu : t ≤ u) (huv : u ≤ v)
    (h : yearMonth t = yearMonth v) : yearMonth u = yearMonth t := by
  have h₁ := monthIndex_mono (dateNaive_mono htu)
  have h₂ := monthIndex_mono (dateNaive_mono huv)
  simp only [yearMonth, Prod.mk.injEq] at h ⊢
  omega

/-- A day that lies between two instants of one day is that day. -/
theorem dateNaive_between {t u v : Int} (htu : t ≤ u) (huv : u ≤ v)
    (h : dateNaive t = dateNaive v) : dateNaive u = dateNaive t := by
  have h₁ := dateNaive_mono htu
  have h₂ := dateNaive_mono huv
  omega

/-! ## The first day of a month -/

def dayOfCentury (day : Int) : Int := day % 146097 - 36524 * centuryOfEra (day % 146097)

def dayOfGroup (day : Int) : Int :=
  dayOfCentury day - 1461 * groupOfCentury (dayOfCentury day)

/-- The day of the year, counted from the first of March. -/
def dayOfYear (day : Int) : Int := dayOfGroup day - 365 * yearOfGroup (dayOfGroup day)

/-- The day of the year on which a month counted from March begins. -/
def firstOfMonth (month : Int) : Int := (153 * month + 2) / 5

/-- `with_day(1)`. -/
def withDay1 (day : Int) : Int :=
  day - dayOfYear day + firstOfMonth (monthOfYear (dayOfYear day))

theorem firstOfMonth_le (doy : Int) : firstOfMonth (monthOfYear doy) ≤ doy := by
  unfold firstOfMonth monthOfYear
  omega

theorem dayOfCentury_range : 0 ≤ dayOfCentury day ∧ dayOfCentury day ≤ 36524 := by
  unfold dayOfCentury centuryOfEra
  omega

theorem dayOfGroup_range : 0 ≤ dayOfGroup day ∧ dayOfGroup day ≤ 1460 := by
  have h := dayOfCentury_range day
  unfold dayOfGroup groupOfCentury
  omega

theorem dayOfYear_range : 0 ≤ dayOfYear day ∧ dayOfYear day ≤ 365 := by
  have h := dayOfGroup_range day
  unfold dayOfYear yearOfGroup
  omega

theorem monthsInGroup_dayOfGroup : monthsInGroup (dayOfGroup day) =
    12 * yearOfGroup (dayOfGroup day) + monthOfYear (dayOfYear day) := rfl

theorem monthsInCentury_dayOfCentury : monthsInCentury (dayOfCentury day) =
    48 * groupOfCentury (dayOfCentury day) + monthsInGroup (dayOfGroup day) := rfl

theorem monthsInEra_mod : monthsInEra (day % 146097) =
    1200 * centuryOfEra (day % 146097) + monthsInCentury (dayOfCentury day) := rfl

/-- The days of one month have one first day. -/
theorem withDay1_congr (h : monthIndex d = monthIndex e) : withDay1 d = withDay1 e := by
  rw [monthIndex_eq, monthIndex_eq] at h
  -- The parts of the two days agree one after the other, each being in its range.
  have hera : d / 146097 = e / 146097 ∧ monthsInEra (d % 146097) = monthsInEra (e % 146097) := by
    have hd := monthsInEra_spec (d := d % 146097) (by omega) le_rfl (by omega)
    have he := monthsInEra_spec (d := e % 146097) (by omega) le_rfl (by omega)
    omega
  rw [monthsInEra_mod, monthsInEra_mod] at hera
  have hcentury : centuryOfEra (d % 146097) = centuryOfEra (e % 146097) ∧
      monthsInCentury (dayOfCentury d) = monthsInCentury (dayOfCentury e) := by
    have hd := monthsInCentury_spec (dayOfCentury_range d).1 le_rfl (dayOfCentury_range d).2
    have he := monthsInCentury_spec (dayOfCentury_range e).1 le_rfl (dayOfCentury_range e).2
    omega
  rw [monthsInCentury_dayOfCentury, monthsInCentury_dayOfCentury] at hcentury
  have hgroup : groupOfCentury (dayOfCentury d) = groupOfCentury (dayOfCentury e) ∧
      monthsInGroup (dayOfGroup d) = monthsInGroup (dayOfGroup e) := by
    have hd := monthsInGroup_spec (dayOfGroup_range d).1 le_rfl (dayOfGroup_range d).2
    have he := monthsInGroup_spec (dayOfGroup_range e).1 le_rfl (dayOfGroup_range e).2
    omega
  rw [monthsInGroup_dayOfGroup, monthsInGroup_dayOfGroup] at hgroup
  have hmonth : yearOfGroup (dayOfGroup d) = yearOfGroup (dayOfGroup e) ∧
      monthOfYear (dayOfYear d) = monthOfYear (dayOfYear e) := by
    have hd := monthOfYear_range (dayOfYear_range d).1 (dayOfYear_range d).2
    have he := monthOfYear_range (dayOfYear_range e).1 (dayOfYear_range e).2
    omega
  have hday : d - dayOfYear d = e - dayOfYear e := by
    unfold dayOfYear dayOfGroup dayOfCentury at *
    omega
  unfold withDay1
  rw [hday, hmonth.2]

theorem withDay1_self_le : withDay1 day ≤ day := by
  have h := firstOfMonth_le (dayOfYear day)
  unfold withDay1
  omega

/-- A month begins before each of its days. -/
theorem withDay1_le (h : monthIndex d = monthIndex e) : withDay1 e ≤ d :=
  (withDay1_congr h).symm.trans_le (withDay1_self_le d)

/-- A month has no more than 31 days. -/
theorem sub_withDay1_lt : day - withDay1 day < 31 := by
  have h := dayOfYear_range day
  unfold withDay1 firstOfMonth monthOfYear
  omega

/-- A day of the same year is in the same era, century, group and year. -/
theorem dayOfYear_add {day k : Int} (h₀ : 0 ≤ k) (hk : k ≤ dayOfYear day) :
    monthIndex (day - dayOfYear day + k) = monthIndex day - monthOfYear (dayOfYear day) +
      monthOfYear k := by
  have hera : (day - dayOfYear day + k) / 146097 = day / 146097 := by
    unfold dayOfYear dayOfGroup dayOfCentury centuryOfEra groupOfCentury yearOfGroup at *
    omega
  have hcenturies : centuryOfEra ((day - dayOfYear day + k) % 146097) =
      centuryOfEra (day % 146097) := by
    unfold dayOfYear dayOfGroup dayOfCentury centuryOfEra groupOfCentury yearOfGroup at *
    omega
  have hcentury : dayOfCentury (day - dayOfYear day + k) =
      dayOfCentury day - dayOfYear day + k := by
    unfold dayOfCentury
    omega
  have hgroup : groupOfCentury (dayOfCentury (day - dayOfYear day + k)) =
      groupOfCentury (dayOfCentury day) := by
    rw [hcentury]
    unfold dayOfYear dayOfGroup groupOfCentury yearOfGroup at *
    omega
  have hday : dayOfGroup (day - dayOfYear day + k) = dayOfGroup day - dayOfYear day + k := by
    unfold dayOfGroup
    rw [hgroup, hcentury]
    omega
  have hyear : yearOfGroup (dayOfGroup (day - dayOfYear day + k)) =
      yearOfGroup (dayOfGroup day) := by
    rw [hday]
    unfold dayOfYear yearOfGroup at *
    omega
  have hfirst : dayOfYear (day - dayOfYear day + k) = k := by
    rw [dayOfYear, hyear, hday, dayOfYear]
    omega
  rw [monthIndex_eq, monthIndex_eq, monthsInEra_mod, monthsInEra_mod, monthsInCentury_dayOfCentury,
    monthsInCentury_dayOfCentury, monthsInGroup_dayOfGroup, monthsInGroup_dayOfGroup, hera,
    hcenturies, hgroup, hyear, hfirst]
  omega

theorem monthOfYear_firstOfMonth (m : Int) : monthOfYear (firstOfMonth m) = m := by
  unfold monthOfYear firstOfMonth
  omega

/-- The first day of a month is in that month. -/
theorem monthIndex_withDay1 : monthIndex (withDay1 day) = monthIndex day := by
  have hdoy := dayOfYear_range day
  have hm := monthOfYear_range hdoy.1 hdoy.2
  rw [withDay1, dayOfYear_add _ (firstOfMonth_le _), monthOfYear_firstOfMonth]
  · omega
  · unfold firstOfMonth
    omega

theorem withDay1_le_iff (h : d ≤ e) : withDay1 e ≤ d ↔ monthIndex d = monthIndex e := by
  constructor
  · intro hle
    have h₁ := monthIndex_mono hle
    have h₂ := monthIndex_mono h
    rw [monthIndex_withDay1] at h₁
    omega
  · exact withDay1_le
/-- The epoch, a leap day, the last day of a leap century and the day after it. -/
example : yearMonth 0 = (1970, 1) ∧ yearMonth (seconds 951825600) = (2000, 2) ∧
    yearMonth (seconds 978220800) = (2000, 12) ∧ yearMonth (seconds 978307200) = (2001, 1) := by
  decide

end Kinetix.Clock
