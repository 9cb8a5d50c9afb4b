import Kinetix.Account.Events
import Kinetix.Foundation.ClockText

/-!
# The soft quota of an account

The soft quota check of the attempt loop. It adds up what the account has spent in the current
window, from the start of the UTC day or month or over the last seconds. When the limit is reached
it takes the account out for a time that is counted from the check, and not to the end of the
window: until then the account is passed over whatever the window has spent.

## Implementation notes

A request reads an account from the snapshot that it holds, which can be older than the table. The
other writers of the row are any writers. Costs are rationals; a check that cannot read the database
is left out.
-/

namespace Kinetix.Account
open Clock StateMachine

/-- `now - Duration::seconds(n)`, which panics where the duration or the difference is out of
range. -/
def subSeconds (now n : Int) : Option Int := (trySeconds n).bind fun d => checkedAdd now (-d)

/-- `and_hms_opt(0, 0, 0)`. -/
def startOfDay (day : Int) : Int := (day - epochShift) * 86400000000000

/-- `pool::window_start`, before it is written as a text. -/
def windowStart (quotaType : String) (windowSecs : Option Int) (now : Int) : Option Int :=
  if quotaType = "daily" then some (startOfDay (dateNaive now))
  else if quotaType = "monthly" then some (startOfDay (withDay1 (dateNaive now)))
  else if quotaType = "rolling" then subSeconds now (windowSecs.getD 86400)
  else subSeconds now 86400

/-- A row of `usage_logs` that the account served. -/
structure UsageRow where
  time : Int
  costUsd : Option ℚ

def UsageRow.ts (r : UsageRow) : String := toRfc3339 r.time

/-- `db::account_spend_since`. -/
def accountSpendSince (usage : List UsageRow) (since : String) : ℚ :=
  ((usage.filter fun r => since ≤ r.ts).filterMap UsageRow.costUsd).sum

/-- The row of an account as it was at some time. -/
structure Version where
  row : AccountRow
  softQuotaUsd : Option ℚ
  /-- The time until which the soft quota check has taken the account out. -/
  outUntil : Option Int := none

/-- `pool::soft_quota_reached`; `none` is a panic. -/
def softQuotaReached (v : Version) (usage : List UsageRow) (now : Int) : Option Bool :=
  match v.softQuotaUsd with
  | none => some false
  | some limit =>
    if limit ≤ 0 then some false
    else
      (windowStart v.row.quotaType v.row.quotaWindowS now).map fun start =>
        decide (limit ≤ accountSpendSince usage (toRfc3339 start))

/-- What becomes of a candidate. -/
inductive Outcome where
  | passedOver
  | goesOn
  | panicked
  deriving DecidableEq

/-- The table, with all that a request can still hold. -/
structure QuotaState where
  table : Version
  versions : List Version
  usage : List UsageRow := []
  now : Int

def QuotaState.put (s : QuotaState) (v : Version) : QuotaState :=
  { s with table := v, versions := v :: s.versions }

inductive QuotaAction where
  /-- The usage of a request is recorded. -/
  | recorded (r : UsageRow) (now : Int)
  /-- Some other writer leaves this row. -/
  | written (row : AccountRow) (softQuotaUsd : Option ℚ)
  /-- The account comes up in the attempt loop of a request that holds one of its versions. -/
  | considered (held : Nat) (now : Int)

/-- chrono's texts, with what `parse_dt` makes of a text. -/
def chrono (parseDt : String → Option Int) : Rfc3339 := ⟨toRfc3339, parseDt⟩

section Model
variable (parseDt : String → Option Int)

/-- The health check and the soft quota check of the attempt loop, with the time until which the
account is taken out. -/
def Version.consider (held : Version) (usage : List UsageRow) (now : Int) :
    Outcome × Option Int :=
  if held.row.effectiveStatus (chrono parseDt) now ≠ .healthy ∧
      held.row.shouldProbe (chrono parseDt) now = false then
    (.passedOver, none)
  else
    match softQuotaReached held usage now with
    | none => (.panicked, none)
    | some false => (.goesOn, none)
    | some true =>
      match AccountRow.exhaustedUntil none held.row.defaultQuotaWindow now with
      | none => (.panicked, none)
      | some reset => (.passedOver, some reset)

/-- `mark_exhausted`. -/
def Version.takeOut (v : Version) (reset : Int) : Version where
  row := v.row.setAccountStatus .exhausted none (some (toRfc3339 reset))
  softQuotaUsd := v.softQuotaUsd
  outUntil := some reset

/-- Another write that keeps the status and its end keeps what they mean. -/
def Version.write (v : Version) (row : AccountRow) (softQuotaUsd : Option ℚ) : Version where
  row
  softQuotaUsd
  outUntil :=
    if row.status = v.row.status ∧ row.quotaResetAt = v.row.quotaResetAt then v.outUntil else none

def QuotaState.act (s : QuotaState) : QuotaAction → Option QuotaState
  | .recorded r now =>
    if s.now ≤ now ∧ r.time ≤ now then some { s with usage := s.usage ++ [r], now } else none
  | .written row softQuotaUsd => some (s.put (s.table.write row softQuotaUsd))
  | .considered held now =>
    if s.now ≤ now then
      s.versions[held]?.map fun v =>
        match (v.consider parseDt s.usage now).2 with
        | some reset => { s.put (s.table.takeOut reset) with now }
        | none => { s with now }
    else none

/-- An account from the time at which its row is the given one, for another reason than its soft
quota. -/
def softQuota (row : AccountRow) (softQuotaUsd : Option ℚ) (now : Int) :
    Machine QuotaState QuotaAction where
  start := ⟨⟨row, softQuotaUsd, none⟩, [⟨row, softQuotaUsd, none⟩], [], now⟩
  step s a := s.act parseDt a

end Model

/-! ## The window -/

/-- The window of an instant, as far as that instant. -/
def Contains (quotaType : String) (windowSecs : Option Int) (now t : Int) : Prop :=
  if quotaType = "daily" then dateNaive t = dateNaive now
  else if quotaType = "monthly" then yearMonth t = yearMonth now
  else if quotaType = "rolling" then now - seconds (windowSecs.getD 86400) ≤ t
  else now - seconds 86400 ≤ t

instance (quotaType : String) (windowSecs : Option Int) (now t : Int) :
    Decidable (Contains quotaType windowSecs now t) :=
  inferInstanceAs (Decidable (ite _ _ _))

namespace Version

/-- The recorded spend in the window of an instant. -/
def spent (v : Version) (usage : List UsageRow) (now : Int) : ℚ :=
  ((usage.filter fun r => Contains v.row.quotaType v.row.quotaWindowS now r.time).filterMap
    UsageRow.costUsd).sum

/-- The soft quota is exceeded. -/
def Exceeded (v : Version) (usage : List UsageRow) (now : Int) : Prop :=
  ∃ limit, v.softQuotaUsd = some limit ∧ limit ≤ v.spent usage now

end Version

variable {quotaType : String} {windowSecs : Option Int} {now t d start : Int}

theorem startOfDay_le_iff : startOfDay d ≤ t ↔ d ≤ dateNaive t := by
  unfold dateNaive startOfDay
  omega

theorem yearMonth_eq_iff {u : Int} :
    yearMonth t = yearMonth u ↔ monthIndex (dateNaive t) = monthIndex (dateNaive u) := by
  simp only [yearMonth, Prod.mk.injEq]
  omega

theorem subSeconds_eq_some {n : Int} (h : subSeconds now n = some start) :
    start = now - seconds n := by
  obtain ⟨d, hd, hstart⟩ := Option.bind_eq_some_iff.mp h
  unfold trySeconds at hd
  unfold checkedAdd at hstart
  split_ifs at hd hstart
  cases hd
  cases hstart
  omega

/-- The window is what comes after its start. -/
theorem windowStart_le_iff (h : windowStart quotaType windowSecs now = some start)
    (ht : t ≤ now) : start ≤ t ↔ Contains quotaType windowSecs now t := by
  have hday := dateNaive_mono ht
  unfold windowStart at h
  unfold Contains
  split_ifs at h ⊢
  · obtain rfl := Option.some.inj h
    rw [startOfDay_le_iff]
    omega
  · obtain rfl := Option.some.inj h
    rw [startOfDay_le_iff, yearMonth_eq_iff, withDay1_le_iff hday]
  · rw [subSeconds_eq_some h]
  · rw [subSeconds_eq_some h]

variable {v : Version} {usage : List UsageRow}

/-- The rows whose text is not less than that of the window's start are those of the window. -/
theorem accountSpendSince_eq
    (h : windowStart v.row.quotaType v.row.quotaWindowS now = some start)
    (hyear : yearOfDay (dateNaive start) ≤ 9999)
    (husage : ∀ r ∈ usage, Plain r.time ∧ r.time ≤ now) :
    accountSpendSince usage (toRfc3339 start) = v.spent usage now := by
  have hrows : (usage.filter fun r => toRfc3339 start ≤ r.ts) =
      usage.filter fun r => Contains v.row.quotaType v.row.quotaWindowS now r.time := by
    refine List.filter_congr fun r hr => decide_eq_decide.mpr ?_
    rw [UsageRow.ts, toRfc3339_le_iff_of_year hyear (husage r hr).1,
      windowStart_le_iff h (husage r hr).2]
  rw [accountSpendSince, hrows, Version.spent]

/-! ## What a request does -/

section Check
variable (parseDt : String → Option Int)

/-- The row without what the soft quota check has written. -/
def Version.lifted (v : Version) : AccountRow :=
  if v.outUntil.isSome then { v.row with status := "healthy", quotaResetAt := none } else v.row

/-- No other reason makes the account unavailable. -/
def Version.Unhindered (v : Version) (now : Int) : Prop :=
  v.lifted.isAvailable (chrono parseDt) now = true

/-- The time until which the check has taken the account out is in its row. -/
def Version.Consistent (v : Version) : Prop :=
  ∀ reset, v.outUntil = some reset →
    v.row.status = "exhausted" ∧ v.row.quotaResetAt = some (toRfc3339 reset) ∧ Plain reset

/-- A request finds the window and the end of an exclusion in range, a limit that is positive or not
reached, and the account out only while the window has spent the limit. -/
structure Version.LinesUp (v : Version) (usage : List UsageRow) (now : Int) : Prop where
  plain : Plain now
  positive : ∀ limit, v.softQuotaUsd = some limit → limit ≤ v.spent usage now → 0 < limit
  start : ∀ limit, v.softQuotaUsd = some limit → 0 < limit →
    ∃ start, windowStart v.row.quotaType v.row.quotaWindowS now = some start ∧
      yearOfDay (dateNaive start) ≤ 9999
  reset : v.Exceeded usage now →
    ∃ reset, AccountRow.exhaustedUntil none v.row.defaultQuotaWindow now = some reset ∧ Plain reset
  out : ∀ reset, v.Unhindered parseDt now → v.outUntil = some reset → now < reset →
    v.Exceeded usage now

variable {parseDt}

theorem softQuotaReached_eq (h : v.LinesUp parseDt usage now)
    (husage : ∀ r ∈ usage, Plain r.time ∧ r.time ≤ now) :
    ∃ reached, softQuotaReached v usage now = some reached ∧
      (reached = true ↔ v.Exceeded usage now) := by
  unfold softQuotaReached Version.Exceeded
  cases hlimit : v.softQuotaUsd with
  | none => exact ⟨false, rfl, by simp⟩
  | some limit =>
    by_cases hpos : limit ≤ 0
    · refine ⟨false, if_pos hpos, iff_of_false Bool.false_ne_true ?_⟩
      rintro ⟨_, hsome, hle⟩
      cases hsome
      exact absurd (h.positive limit hlimit hle) (not_lt.mpr hpos)
    · obtain ⟨start, hstart, hyear⟩ := h.start limit hlimit (not_le.mp hpos)
      refine ⟨decide (limit ≤ v.spent usage now), ?_, by simp⟩
      dsimp only
      rw [if_neg hpos, hstart, Option.map_some, accountSpendSince_eq hstart hyear husage]

/-- A request that finds the account healthy and its soft quota exceeded takes it out. -/
theorem consider_of_exceeded {reset : Int} (h : v.LinesUp parseDt usage now)
    (husage : ∀ r ∈ usage, Plain r.time ∧ r.time ≤ now)
    (hhealthy : v.row.effectiveStatus (chrono parseDt) now = .healthy)
    (hexceeded : v.Exceeded usage now)
    (hreset : AccountRow.exhaustedUntil none v.row.defaultQuotaWindow now = some reset) :
    v.consider parseDt usage now = (.passedOver, some reset) := by
  obtain ⟨reached, hreached, hiff⟩ := softQuotaReached_eq h husage
  obtain rfl : reached = true := hiff.mpr hexceeded
  rw [Version.consider, if_neg (fun hc => hc.1 hhealthy), hreached]
  simp only [hreset]

/-- What a request that finds the account healthy does. -/
theorem consider_of_healthy (h : v.LinesUp parseDt usage now)
    (husage : ∀ r ∈ usage, Plain r.time ∧ r.time ≤ now)
    (hhealthy : v.row.effectiveStatus (chrono parseDt) now = .healthy) :
    (v.consider parseDt usage now).1 ≠ .panicked ∧
      ((v.consider parseDt usage now).1 = .passedOver ↔ v.Exceeded usage now) := by
  by_cases hexceeded : v.Exceeded usage now
  · obtain ⟨reset, hreset, -⟩ := h.reset hexceeded
    rw [consider_of_exceeded h husage hhealthy hexceeded hreset]
    simp [hexceeded]
  · obtain ⟨reached, hreached, hiff⟩ := softQuotaReached_eq h husage
    obtain rfl : reached = false := Bool.eq_false_iff.mpr fun hr => hexceeded (hiff.mp hr)
    rw [Version.consider, if_neg (fun hc => hc.1 hhealthy), hreached]
    simp [hexceeded]

variable (reads : ∀ t, Plain t → parseDt (toRfc3339 t) = some t)
include reads

theorem effectiveStatus_of_out {reset : Int} (hc : v.Consistent) (hout : v.outUntil = some reset)
    (hfree : v.Unhindered parseDt now) :
    v.row.effectiveStatus (chrono parseDt) now =
      if reset ≤ now then .healthy else .exhausted := by
  obtain ⟨hstatus, hreset, hplain⟩ := hc reset hout
  have hclosed : v.row.circuitOpenUntil = none := by
    rw [Version.Unhindered, AccountRow.isAvailable_iff, Version.lifted, hout] at hfree
    by_contra hopen
    have hsome := Option.isSome_iff_ne_none.mpr hopen
    simp [AccountRow.effectiveStatus, AccountRow.circuitStatus, AccountStatus.parse, hsome] at hfree
  have helapsed : AccountRow.elapsed (chrono parseDt) v.row.quotaResetAt now =
      decide (reset ≤ now) := by
    rw [AccountRow.elapsed, hreset]
    simp [chrono, reads reset hplain]
  simp [AccountRow.effectiveStatus, AccountRow.circuitStatus, AccountStatus.parse, hstatus,
    helapsed, hclosed]

/-- An account without another reason to be unavailable is passed over exactly while its soft quota
is exceeded. -/
theorem consider_spec (hc : v.Consistent) (h : v.LinesUp parseDt usage now)
    (husage : ∀ r ∈ usage, Plain r.time ∧ r.time ≤ now) (hfree : v.Unhindered parseDt now) :
    (v.consider parseDt usage now).1 ≠ .panicked ∧
      ((v.consider parseDt usage now).1 = .passedOver ↔ v.Exceeded usage now) := by
  cases hout : v.outUntil with
  | none =>
    refine consider_of_healthy h husage ?_
    rwa [Version.Unhindered, AccountRow.isAvailable_iff, Version.lifted, hout] at hfree
  | some reset =>
    have hstatus := effectiveStatus_of_out reads hc hout hfree
    by_cases helapsed : reset ≤ now
    · exact consider_of_healthy h husage (hstatus.trans (if_pos helapsed))
    · rw [if_neg helapsed] at hstatus
      have hexceeded := h.out reset hfree hout (not_le.mp helapsed)
      have hnoprobe : v.row.shouldProbe (chrono parseDt) now = false := by
        simp [AccountRow.shouldProbe, AccountStatus.parse, (hc reset hout).1]
      rw [Version.consider, if_pos ⟨by rw [hstatus]; decide, hnoprobe⟩]
      simp [hexceeded]

end Check

/-! ## Runs -/

variable (parseDt : String → Option Int) (row : AccountRow) (softQuotaUsd : Option ℚ) (begin : Int)

/-- At each time at which a request considers the account and nothing else makes it unavailable, the
check completes, and the account is passed over just if the spend in the window is at the limit. -/
def Exact (as : List QuotaAction) : Prop :=
  ∀ pre held now post s v, as = pre ++ .considered held now :: post →
    (softQuota parseDt row softQuotaUsd begin).run pre = some s → s.now ≤ now →
      s.versions[held]? = some v → v.Unhindered parseDt now →
        (v.consider parseDt s.usage now).1 ≠ .panicked ∧
          ((v.consider parseDt s.usage now).1 = .passedOver ↔ v.Exceeded s.usage now)

/-- The times that are recorded are in range, and so is each request. -/
def QuotaState.LinesUp (s : QuotaState) : QuotaAction → Prop
  | .recorded r _ => Plain r.time
  | .written _ _ => True
  | .considered held now =>
    s.now ≤ now → ∀ v, s.versions[held]? = some v → v.LinesUp parseDt s.usage now

/-- What is true after every run. -/
structure QuotaState.Sound (s : QuotaState) : Prop where
  table : s.table.Consistent
  versions : ∀ v ∈ s.versions, v.Consistent
  usage : ∀ r ∈ s.usage, Plain r.time ∧ r.time ≤ s.now

variable {parseDt row softQuotaUsd begin} {s s' : QuotaState} {a : QuotaAction}

theorem QuotaState.Sound.put (h : s.Sound) {v : Version} (hv : v.Consistent) (hnow : s.now ≤ now) :
    ({ s.put v with now } : QuotaState).Sound where
  table := hv
  versions := List.forall_mem_cons.mpr ⟨hv, h.versions⟩
  usage r hr := ⟨(h.usage r hr).1, (h.usage r hr).2.trans hnow⟩

theorem Version.Consistent.takeOut {reset : Int} (v : Version) (hreset : Plain reset) :
    (v.takeOut reset).Consistent := by
  intro u hu
  obtain rfl : reset = u := Option.some.inj hu
  exact ⟨rfl, rfl, hreset⟩

theorem Version.Consistent.write (h : v.Consistent) (row : AccountRow)
    (softQuotaUsd : Option ℚ) : (v.write row softQuotaUsd).Consistent := by
  intro u hu
  simp only [Version.write] at hu ⊢
  split_ifs at hu with hkeep
  rw [hkeep.1, hkeep.2]
  exact h u hu

/-- A request takes the account out until the end that the check computes. -/
theorem consider_reset {reset : Int} (h : (v.consider parseDt usage now).2 = some reset) :
    softQuotaReached v usage now = some true ∧
      AccountRow.exhaustedUntil none v.row.defaultQuotaWindow now = some reset := by
  unfold Version.consider at h
  split_ifs at h with hskip
  cases hreached : softQuotaReached v usage now with
  | none => simp [hreached] at h
  | some reached =>
    cases reached with
    | false => simp [hreached] at h
    | true =>
      cases hend : AccountRow.exhaustedUntil none v.row.defaultQuotaWindow now with
      | none => simp [hreached, hend] at h
      | some u =>
        simp only [hreached, hend, Option.some.injEq] at h
        exact ⟨rfl, congrArg some h⟩

/-- A step whose times are in range keeps what is true. -/
theorem QuotaState.Sound.step (h : s.Sound) (ha : s.LinesUp parseDt a)
    (hstep : s.act parseDt a = some s') : s'.Sound := by
  cases a with
  | recorded r now =>
    simp only [QuotaState.act] at hstep
    split_ifs at hstep with hnow
    obtain rfl := Option.some.inj hstep
    refine ⟨h.table, h.versions, ?_⟩
    rw [List.forall_mem_append, List.forall_mem_singleton]
    exact ⟨fun r hr => ⟨(h.usage r hr).1, (h.usage r hr).2.trans hnow.1⟩, ha, hnow.2⟩
  | written row softQuotaUsd =>
    obtain rfl := Option.some.inj hstep
    exact h.put (h.table.write row softQuotaUsd) le_rfl
  | considered held now =>
    simp only [QuotaState.act] at hstep
    split_ifs at hstep with hnow
    obtain ⟨v, hv, rfl⟩ := Option.map_eq_some_iff.mp hstep
    have husage := fun r hr => And.intro (h.usage r hr).1 ((h.usage r hr).2.trans hnow)
    have hlines := ha hnow v hv
    cases hout : (v.consider parseDt s.usage now).2 with
    | none => exact ⟨h.table, h.versions, husage⟩
    | some reset =>
      obtain ⟨hreached, hend⟩ := consider_reset hout
      obtain ⟨reached, hreached', hexceeded⟩ := softQuotaReached_eq hlines husage
      obtain rfl : true = reached := Option.some.inj (hreached.symm.trans hreached')
      obtain ⟨u, hu, hplain⟩ := hlines.reset (hexceeded.mp rfl)
      obtain rfl : u = reset := Option.some.inj (hu.symm.trans hend)
      exact h.put (.takeOut _ hplain) hnow

/-- In each run whose times are in range, and in which no request comes between the end of the
window that has spent the limit and the end of the exclusion, the soft quota is exact. -/
theorem soft_quota_exact (reads : ∀ t, Plain t → parseDt (toRfc3339 t) = some t)
    {as : List QuotaAction}
    (h : (softQuota parseDt row softQuotaUsd begin).Meets
      (fun _ s a => s.LinesUp parseDt a) as) : Exact parseDt row softQuotaUsd begin as := by
  intro pre held now post s v he hrun hnow hv hfree
  have hpre := h
  rw [he] at hpre
  have hsound : s.Sound := by
    refine (softQuota parseDt row softQuotaUsd begin).run_induction_of_meets
      (I := fun _ s => s.Sound) ?_ ?_ pre s (hpre.of_append _) hrun
    · have hfirst : ({ row, softQuotaUsd } : Version).Consistent := fun _ hu => nomatch hu
      exact ⟨hfirst, List.forall_mem_singleton.mpr hfirst, fun _ hr => absurd hr List.not_mem_nil⟩
    · exact fun _ _ _ _ hs hc hstep => hs.step hc hstep
  exact consider_spec reads (hsound.versions v (List.mem_of_getElem? hv))
    (h pre _ post s he hrun hnow v hv)
    (fun r hr => ⟨(hsound.usage r hr).1, (hsound.usage r hr).2.trans hnow⟩) hfree

/-! ## A limit of a dollar a day -/

open Classical in
/-- What the text of an instant is read as. -/
noncomputable def readBack (text : String) : Option Int :=
  if h : ∃ t, Plain t ∧ toRfc3339 t = text then some h.choose else none

theorem readBack_toRfc3339 (t : Int) (ht : Plain t) : readBack (toRfc3339 t) = some t := by
  have h : ∃ u, Plain u ∧ toRfc3339 u = toRfc3339 t := ⟨t, ht, rfl⟩
  rw [readBack, dif_pos h]
  obtain ⟨hplain, htext⟩ := h.choose_spec
  have hle := (toRfc3339_le_iff hplain ht).mp htext.le
  have hge := (toRfc3339_le_iff ht hplain).mp htext.ge
  exact congrArg some (le_antisymm hle hge)

def dailyRow : AccountRow where
  quotaType := "daily"

/-- A dollar is spent at noon of the first day. -/
def noonUsage : UsageRow := ⟨seconds 43200, some 1⟩

theorem exceeded_at_noon :
    ({ row := dailyRow, softQuotaUsd := some 1 } : Version).Exceeded [noonUsage] (seconds 43200) :=
  ⟨1, rfl, by decide +kernel⟩

theorem linesUp_at_noon :
    ({ row := dailyRow, softQuotaUsd := some 1 } : Version).LinesUp readBack [noonUsage]
      (seconds 43200) where
  plain := by decide
  positive := by
    rintro limit hlimit -
    obtain rfl : 1 = limit := Option.some.inj hlimit
    exact one_pos
  start _ _ _ := ⟨0, rfl, by decide⟩
  reset _ := ⟨seconds 129600, rfl, by decide⟩
  out _ _ hout := nomatch hout

/-- The run of a request at noon, just after the dollar was spent. -/
theorem soft_quota_exact_at_noon : Exact readBack dailyRow (some 1) 0
    [.recorded noonUsage (seconds 43200), .considered 0 (seconds 43200)] := by
  refine soft_quota_exact readBack_toRfc3339 (Machine.Along.meets _ ⟨?_, ?_, ?_⟩)
  · exact (by decide : Plain (seconds 43200))
  · rintro - v hv
    obtain rfl := Option.some.inj hv
    exact linesUp_at_noon
  · split <;> trivial

/-- Half an hour into the next day the account is still out. -/
theorem daily_exclusion_outlasts_the_day : ¬ ∀ (parseDt : String → Option Int)
    (_ : ∀ t, Plain t → parseDt (toRfc3339 t) = some t) (row : AccountRow)
    (softQuotaUsd : Option ℚ) (begin : Int) (as : List QuotaAction),
    Exact parseDt row softQuotaUsd begin as := by
  intro h
  let first : Version := ⟨dailyRow, some 1, none⟩
  let out := first.takeOut (seconds 129600)
  have hconsider : first.consider readBack [noonUsage] (seconds 43200) =
      (.passedOver, some (seconds 129600)) := by
    refine consider_of_exceeded linesUp_at_noon ?_ rfl exceeded_at_noon rfl
    rintro r hr
    obtain rfl := List.mem_singleton.mp hr
    exact ⟨by decide, le_rfl⟩
  have hrun : (softQuota readBack dailyRow (some 1) 0).run
      [.recorded noonUsage (seconds 43200), .considered 0 (seconds 43200)] =
        some ⟨out, [out, first], [noonUsage], seconds 43200⟩ := by
    let recorded : QuotaState := ⟨first, [first], [noonUsage], seconds 43200⟩
    have hact : recorded.act readBack (.considered 0 (seconds 43200)) =
        some ⟨out, [out, first], [noonUsage], seconds 43200⟩ := by
      rw [QuotaState.act, if_pos le_rfl]
      simp only [recorded, List.getElem?_cons_zero, Option.map_some, hconsider]
      rfl
    exact (@Machine.run_snoc_eq_some _ _ (softQuota readBack dailyRow (some 1) 0) [_] _ _).mpr
      ⟨recorded, rfl, hact⟩
  have hfree : out.Unhindered readBack (seconds 88200) := rfl
  have hexact := h readBack readBack_toRfc3339 dailyRow (some 1) 0 _ _ 0 (seconds 88200) [] _ out
    rfl hrun (by decide) rfl hfree
  have hstatus := effectiveStatus_of_out readBack_toRfc3339
    (Version.Consistent.takeOut first (by decide)) rfl hfree
  have hskip : (out.consider readBack [noonUsage] (seconds 88200)).1 = .passedOver := by
    rw [Version.consider, if_pos ⟨by rw [hstatus]; decide, rfl⟩]
  obtain ⟨limit, hlimit, hle⟩ := hexact.2.mp hskip
  obtain rfl : 1 = limit := Option.some.inj hlimit
  exact absurd hle (by decide +kernel)

end Kinetix.Account
