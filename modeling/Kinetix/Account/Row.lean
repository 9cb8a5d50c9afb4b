import Kinetix.Foundation.Clock

/-!
# The health columns of an account

`pool.rs` and the statements of `db.rs` on the `accounts` table: what is derived from a row at an
instant, and what each statement writes. Times are stored as text.

## Implementation notes

The text of a time and its reading are chrono's and a parameter. A row has only the columns that
decide whether the account is used; `consecutive_failures` is SQLite's integer.
-/

namespace Kinetix.Account
open Clock

/-- chrono's RFC 3339 text of an instant, and its reading. -/
structure Rfc3339 where
  /-- `DateTime::to_rfc3339`. -/
  toRfc3339 : Int → String
  /-- `db::parse_dt`. -/
  parseDt : String → Option Int

/-- The status of an account. -/
inductive AccountStatus where
  | healthy
  | cooldown
  | exhausted
  | disabled
  | circuitOpen
  deriving DecidableEq, Repr

namespace AccountStatus

def parse (s : String) : AccountStatus :=
  if s = "cooldown" then .cooldown
  else if s = "exhausted" then .exhausted
  else if s = "disabled" then .disabled
  else if s = "circuit_open" then .circuitOpen
  else .healthy

def asStr : AccountStatus → String
  | .healthy => "healthy"
  | .cooldown => "cooldown"
  | .exhausted => "exhausted"
  | .disabled => "disabled"
  | .circuitOpen => "circuit_open"

/-- A status is read back as it was written. -/
@[simp] theorem parse_asStr (s : AccountStatus) : parse s.asStr = s := by
  cases s <;> decide

end AccountStatus

/-- What the health logic reads of an account. -/
structure AccountRow where
  status : String := "healthy"
  cooldownUntil : Option String := none
  quotaResetAt : Option String := none
  quotaType : String := "none"
  quotaWindowS : Option Int := none
  lastProbeAt : Option String := none
  circuitOpenUntil : Option String := none
  consecutiveFailures : Int := 0
  deriving DecidableEq

namespace AccountRow
variable (R : Rfc3339)

/-- Whether a stored time has come: a time that is missing or does not parse never does. -/
def elapsed (column : Option String) (now : Int) : Bool :=
  match column.bind R.parseDt with
  | some t => decide (t ≤ now)
  | none => false

/-- A circuit stays open until a probe succeeds and clears it. -/
def circuitStatus (a : AccountRow) : AccountStatus :=
  if a.circuitOpenUntil.isSome ∨ AccountStatus.parse a.status = .circuitOpen then .circuitOpen
  else .healthy

/-- `effective_status`: a time that has passed holds nothing. -/
def effectiveStatus (a : AccountRow) (now : Int) : AccountStatus :=
  match AccountStatus.parse a.status with
  | .disabled => .disabled
  | .cooldown => if elapsed R a.cooldownUntil now then a.circuitStatus else .cooldown
  | .exhausted => if elapsed R a.quotaResetAt now then a.circuitStatus else .exhausted
  | .healthy => a.circuitStatus
  | .circuitOpen => a.circuitStatus

/-- `HALF_OPEN_PROBE_MIN_GAP_SECS`. -/
def halfOpenProbeMinGapSecs : Int := 2

/-- `should_probe`: when the circuit may be tried again. -/
def shouldProbe (a : AccountRow) (now : Int) : Bool :=
  match AccountStatus.parse a.status with
  | .disabled => false
  | .cooldown => false
  | .exhausted => false
  | .healthy | .circuitOpen =>
    elapsed R a.circuitOpenUntil now &&
      match a.lastProbeAt.bind R.parseDt with
      | some last => decide (last + seconds halfOpenProbeMinGapSecs ≤ now)
      | none => true

def isAvailable (a : AccountRow) (now : Int) : Bool := a.effectiveStatus R now == .healthy

/-- The time at which `soonest_recovery` expects the account back. -/
def recoveryTime (a : AccountRow) : Option Int :=
  (match AccountStatus.parse a.status with
    | .cooldown => a.cooldownUntil.bind R.parseDt
    | .exhausted => a.quotaResetAt.bind R.parseDt
    | .healthy | .disabled | .circuitOpen => none).or (a.circuitOpenUntil.bind R.parseDt)

/-- The loop body of `soonest_recovery`. -/
def sooner (soonest t : Option Int) : Option Int :=
  match t, soonest with
  | some t, some cur => some (if cur < t then cur else t)
  | some t, none => some t
  | none, soonest => soonest

/-- `pool::soonest_recovery`. -/
def soonestRecovery (accounts : List AccountRow) : Option Int :=
  (accounts.map (recoveryTime R)).foldl sooner none

/-! ## Statements -/

/-- `db::set_account_status`: a healthy status is a recovery and clears the circuit. -/
def setAccountStatus (a : AccountRow) (status : AccountStatus)
    (cooldownUntil quotaResetAt : Option String) : AccountRow :=
  if status = .healthy then
    { a with
      status := status.asStr
      cooldownUntil
      quotaResetAt
      circuitOpenUntil := none
      consecutiveFailures := 0 }
  else
    { a with status := status.asStr, cooldownUntil, quotaResetAt }

/-- The first statement of `db::record_account_failure`. -/
def bumpFailures (a : AccountRow) : AccountRow :=
  { a with consecutiveFailures := a.consecutiveFailures + 1 }

/-- The last statement of `db::record_account_failure`. -/
def openCircuit (a : AccountRow) (deadline : Int) : AccountRow :=
  { a with circuitOpenUntil := some (R.toRfc3339 deadline) }

/-- `db::reset_account_failures`. -/
def resetAccountFailures (a : AccountRow) : AccountRow :=
  { a with consecutiveFailures := 0, circuitOpenUntil := none }

/-- `db::touch_probe_at`. -/
def touchProbeAt (a : AccountRow) (now : Int) : AccountRow :=
  { a with lastProbeAt := some (R.toRfc3339 now) }

/-! ## When a row recovers -/

/-- With no further events there is a time from which the account is available or may be probed. -/
def Recovers (a : AccountRow) : Prop :=
  ∃ t, ∀ now, t ≤ now → a.isAvailable R now ∨ a.shouldProbe R now

/-- A stored time can be read. -/
def Readable (column : Option String) : Prop := (column.bind R.parseDt).isSome

theorem elapsed_of_readable {column : Option String} (h : Readable R column) :
    ∃ t, ∀ now, t ≤ now → elapsed R column now = true := by
  obtain ⟨t, ht⟩ := Option.isSome_iff_exists.mp h
  refine ⟨t, fun now hnow => ?_⟩
  simp [elapsed, ht, hnow]

theorem elapsed_of_not_readable {column : Option String} (h : ¬ Readable R column) (now : Int) :
    elapsed R column now = false := by
  rw [Readable, Option.not_isSome_iff_eq_none] at h
  simp [elapsed, h]

/-- What each status needs for its account to come back: a cooldown or an exhaustion has to end, and
must not leave an open circuit behind, since only the other accounts are probed. -/
def Recoverable (a : AccountRow) : Prop :=
  match AccountStatus.parse a.status with
  | .disabled => False
  | .cooldown => Readable R a.cooldownUntil ∧ a.circuitOpenUntil = none
  | .exhausted => Readable R a.quotaResetAt ∧ a.circuitOpenUntil = none
  | .healthy => a.circuitOpenUntil = none ∨ Readable R a.circuitOpenUntil
  | .circuitOpen => Readable R a.circuitOpenUntil

variable {a : AccountRow}

theorem shouldProbe_of_readable
    (hs : AccountStatus.parse a.status = .healthy ∨ AccountStatus.parse a.status = .circuitOpen)
    (h : Readable R a.circuitOpenUntil) : ∃ t, ∀ now, t ≤ now → a.shouldProbe R now = true := by
  obtain ⟨t, ht⟩ := elapsed_of_readable R h
  cases hlast : a.lastProbeAt.bind R.parseDt with
  | none =>
    refine ⟨t, fun now hnow => ?_⟩
    rcases hs with hs | hs <;> simp [shouldProbe, hs, hlast, ht now hnow]
  | some last =>
    refine ⟨max t (last + seconds halfOpenProbeMinGapSecs), fun now hnow => ?_⟩
    have hopen := ht now ((le_max_left _ _).trans hnow)
    have hgap := (le_max_right _ _).trans hnow
    rcases hs with hs | hs <;> simp [shouldProbe, hs, hlast, hopen, hgap]

theorem isAvailable_iff {now : Int} :
    a.isAvailable R now = true ↔ a.effectiveStatus R now = .healthy := by
  simp [isAvailable]

/-- A row that cannot recover is at no time available, and is never probed. -/
theorem stuck_of_not_recoverable (h : ¬ a.Recoverable R) (now : Int) :
    ¬ a.isAvailable R now ∧ ¬ a.shouldProbe R now := by
  rw [isAvailable_iff]
  cases hs : AccountStatus.parse a.status with
  | disabled => simp [effectiveStatus, shouldProbe, hs]
  | cooldown | exhausted =>
    simp only [Recoverable, hs, not_and_or] at h
    rcases h with h | h
    · simp [effectiveStatus, shouldProbe, hs, elapsed_of_not_readable R h]
    · have hopen := Option.isSome_iff_ne_none.mpr h
      simp only [effectiveStatus, shouldProbe, hs]
      split <;> simp [circuitStatus, hopen]
  | healthy =>
    simp only [Recoverable, hs, not_or] at h
    have hopen := Option.isSome_iff_ne_none.mpr h.1
    simp [effectiveStatus, shouldProbe, hs, circuitStatus, hopen, elapsed_of_not_readable R h.2]
  | circuitOpen =>
    simp only [Recoverable, hs] at h
    simp [effectiveStatus, shouldProbe, hs, circuitStatus, elapsed_of_not_readable R h]

theorem recovers_of_recoverable (h : a.Recoverable R) : a.Recovers R := by
  cases hs : AccountStatus.parse a.status with
  | disabled =>
    simp only [Recoverable, hs] at h
  | cooldown | exhausted =>
    simp only [Recoverable, hs] at h
    obtain ⟨t, ht⟩ := elapsed_of_readable R h.1
    refine ⟨t, fun now hnow => .inl ?_⟩
    simp [isAvailable, effectiveStatus, hs, ht now hnow, circuitStatus, h.2]
  | healthy =>
    simp only [Recoverable, hs] at h
    rcases h with h | h
    · refine ⟨0, fun now _ => .inl ?_⟩
      simp [isAvailable, effectiveStatus, hs, circuitStatus, h]
    · obtain ⟨t, ht⟩ := shouldProbe_of_readable R (.inl hs) h
      exact ⟨t, fun now hnow => .inr (ht now hnow)⟩
  | circuitOpen =>
    simp only [Recoverable, hs] at h
    obtain ⟨t, ht⟩ := shouldProbe_of_readable R (.inr hs) h
    exact ⟨t, fun now hnow => .inr (ht now hnow)⟩

/-- Whether an account comes back by itself can be read off its row. -/
theorem recovers_iff : a.Recovers R ↔ a.Recoverable R := by
  constructor
  · rintro ⟨t, ht⟩
    by_contra h
    obtain ⟨hunavailable, hunprobed⟩ := stuck_of_not_recoverable R h t
    exact (ht t le_rfl).elim hunavailable hunprobed
  · exact recovers_of_recoverable R

end AccountRow
end Kinetix.Account
