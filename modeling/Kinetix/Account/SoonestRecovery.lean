import Mathlib.Order.Bounds.Basic
import Kinetix.Account.Row

/-!
# The time promised to a client

`pool::soonest_recovery`, from which `Retry-After` is taken, beside the two predicates that decide
whether an account is used. It reads the times of a row in its own way: it also counts the accounts
that are disabled or that keep an open circuit behind a cooldown, and it leaves the gap between two
probes out. So the promised time is never late, and it is right exactly if the earliest of the times
belongs to an account that is back at that time.
-/

namespace Kinetix.Account
open Clock

namespace AccountRow
variable (R : Rfc3339) {a : AccountRow} {accounts : List AccountRow} {now t : Int}

/-- The account is used at `t`, for a request or for a probe. -/
def Dispatchable (a : AccountRow) (t : Int) : Prop := a.isAvailable R t ∨ a.shouldProbe R t

/-- The instants at which, with no further events, some account is used. -/
def dispatchTimes (accounts : List AccountRow) : Set Int :=
  {t | ∃ a ∈ accounts, a.Dispatchable R t}

/-- The promised time is the earliest at which an account is used, and none is promised if there is
no such time. -/
def PromiseExact (accounts : List AccountRow) : Prop :=
  match soonestRecovery R accounts with
  | some t => IsLeast (dispatchTimes R accounts) t
  | none => dispatchTimes R accounts = ∅

/-! ## The instant at which a row is back -/

/-- The earliest instant at which an open circuit lets a probe through. -/
def probeAt (a : AccountRow) : Option Int :=
  (a.circuitOpenUntil.bind R.parseDt).map fun t =>
    match a.lastProbeAt.bind R.parseDt with
    | some last => max t (last + seconds halfOpenProbeMinGapSecs)
    | none => t

/-- The earliest instant at which a row that is not available is used. -/
def backAt (a : AccountRow) : Option Int :=
  match AccountStatus.parse a.status with
  | .disabled => none
  | .cooldown => if a.circuitOpenUntil = none then a.cooldownUntil.bind R.parseDt else none
  | .exhausted => if a.circuitOpenUntil = none then a.quotaResetAt.bind R.parseDt else none
  | .healthy | .circuitOpen => a.probeAt R

variable {column : Option String}

theorem elapsed_iff : elapsed R column t = true ↔ ∃ s, column.bind R.parseDt = some s ∧ s ≤ t := by
  cases h : column.bind R.parseDt <;> simp [elapsed, h]

theorem circuitStatus_eq_healthy_iff :
    a.circuitStatus = .healthy ↔
      a.circuitOpenUntil = none ∧ AccountStatus.parse a.status ≠ .circuitOpen := by
  cases h : a.circuitOpenUntil <;> simp [circuitStatus, h]

/-- A row that waits for a stored time, and not for its circuit, is back when that time has come. -/
theorem back_of_column {s : AccountStatus} (hs : s ≠ .healthy)
    (hopen : AccountStatus.parse a.status ≠ .circuitOpen) :
    (if elapsed R column t then a.circuitStatus else s) = .healthy ↔
      ∃ f, (if a.circuitOpenUntil = none then column.bind R.parseDt else none) = some f ∧
        f ≤ t := by
  have hcircuit := circuitStatus_eq_healthy_iff (a := a)
  by_cases hclosed : a.circuitOpenUntil = none
  · rw [if_pos hclosed]
    rw [← elapsed_iff]
    split
    · simp_all
    · simp_all
  · rw [if_neg hclosed]
    split <;> simp_all

theorem shouldProbe_iff
    (hs : AccountStatus.parse a.status = .healthy ∨ AccountStatus.parse a.status = .circuitOpen) :
    a.shouldProbe R t = true ↔ ∃ f, a.probeAt R = some f ∧ f ≤ t := by
  have hprobe : a.shouldProbe R t = true ↔ elapsed R a.circuitOpenUntil t = true ∧
      ∀ last, a.lastProbeAt.bind R.parseDt = some last →
        last + seconds halfOpenProbeMinGapSecs ≤ t := by
    rcases hs with hs | hs <;> simp only [shouldProbe, hs] <;>
      cases a.lastProbeAt.bind R.parseDt <;> simp
  rw [hprobe, elapsed_iff]
  cases hopen : a.circuitOpenUntil.bind R.parseDt with
  | none => simp [probeAt, hopen]
  | some s =>
    cases hlast : a.lastProbeAt.bind R.parseDt with
    | none | some last => simp [probeAt, hopen, hlast]

/-- Unless it is available at all times, a row is used from the instant at which it is back, and
never if there is none. -/
theorem dispatchable_iff (h : a.isAvailable R now = false) :
    a.Dispatchable R t ↔ ∃ f, a.backAt R = some f ∧ f ≤ t := by
  rw [Dispatchable, isAvailable_iff]
  rw [← Bool.not_eq_true, isAvailable_iff] at h
  cases hs : AccountStatus.parse a.status with
  | disabled => simp [effectiveStatus, shouldProbe, backAt, hs]
  | cooldown | exhausted =>
    simp only [effectiveStatus, shouldProbe, backAt, hs]
    rw [back_of_column R (by decide) (by simp [hs])]
    simp
  | healthy =>
    -- Without a circuit the account would be available now, and with one it never is.
    have hunavailable : ¬ a.effectiveStatus R t = .healthy := by
      simpa [effectiveStatus, hs] using h
    rw [shouldProbe_iff R (.inl hs), or_iff_right hunavailable]
    simp [backAt, hs]
  | circuitOpen =>
    have hunavailable : ¬ a.effectiveStatus R t = .healthy := by
      simpa [effectiveStatus, hs] using h
    rw [shouldProbe_iff R (.inr hs), or_iff_right hunavailable]
    simp [backAt, hs]

/-! ## The promised time -/

/-- The row's time for the client is `t`: a cooldown or an exhaustion has its own, and a time that
is missing or cannot be read is replaced by the circuit's. -/
def PromisedAt (a : AccountRow) (t : Int) : Prop :=
  match AccountStatus.parse a.status with
  | .cooldown =>
    a.cooldownUntil.bind R.parseDt = some t ∨
      ¬ Readable R a.cooldownUntil ∧ a.circuitOpenUntil.bind R.parseDt = some t
  | .exhausted =>
    a.quotaResetAt.bind R.parseDt = some t ∨
      ¬ Readable R a.quotaResetAt ∧ a.circuitOpenUntil.bind R.parseDt = some t
  | .healthy | .disabled | .circuitOpen => a.circuitOpenUntil.bind R.parseDt = some t

/-- The row is back at the time that it gives to the client: it is enabled, its circuit is closed if
it cools down or is exhausted, and its last probe is far enough in the past otherwise. -/
def Timely (a : AccountRow) : Prop :=
  match AccountStatus.parse a.status with
  | .disabled => False
  | .cooldown => Readable R a.cooldownUntil ∧ a.circuitOpenUntil = none
  | .exhausted => Readable R a.quotaResetAt ∧ a.circuitOpenUntil = none
  | .healthy | .circuitOpen =>
    ∀ t last, a.circuitOpenUntil.bind R.parseDt = some t →
      a.lastProbeAt.bind R.parseDt = some last → last + seconds halfOpenProbeMinGapSecs ≤ t

/-- No account gives a time, or the earliest one is given by an account that is back then. -/
def FirstTimely (accounts : List AccountRow) : Prop :=
  (∀ a ∈ accounts, ∀ t, ¬ a.PromisedAt R t) ∨
    ∃ a ∈ accounts, a.Timely R ∧ ∃ t, a.PromisedAt R t ∧
      ∀ b ∈ accounts, ∀ s, b.PromisedAt R s → t ≤ s

theorem or_eq_some_iff_readable {other : Option Int} : (column.bind R.parseDt).or other = some t ↔
      column.bind R.parseDt = some t ∨ ¬ Readable R column ∧ other = some t := by
  cases h : column.bind R.parseDt <;> simp [Readable, h]

theorem recoveryTime_eq_some_iff : a.recoveryTime R = some t ↔ a.PromisedAt R t := by
  cases hs : AccountStatus.parse a.status <;>
    simp only [recoveryTime, PromisedAt, hs, or_eq_some_iff_readable, Option.none_or]

/-- A probe waits for the circuit's own time. -/
theorem exists_le_probeAt {f : Int} (h : a.probeAt R = some f) :
    ∃ t, a.circuitOpenUntil.bind R.parseDt = some t ∧ t ≤ f := by
  simp only [probeAt, Option.map_eq_some_iff] at h
  obtain ⟨t, ht, rfl⟩ := h
  refine ⟨t, ht, ?_⟩
  split
  · exact le_max_left _ _
  · exact le_rfl

theorem probeAt_eq_iff (h : a.circuitOpenUntil.bind R.parseDt = some t) :
    a.probeAt R = some t ↔
      ∀ s last, a.circuitOpenUntil.bind R.parseDt = some s →
        a.lastProbeAt.bind R.parseDt = some last → last + seconds halfOpenProbeMinGapSecs ≤ s := by
  simp only [probeAt, h, Option.map_some, Option.some.injEq]
  cases hlast : a.lastProbeAt.bind R.parseDt <;> simp

theorem column_eq_iff (h : column.bind R.parseDt = some t ∨
      ¬ Readable R column ∧ a.circuitOpenUntil.bind R.parseDt = some t) :
    (if a.circuitOpenUntil = none then column.bind R.parseDt else none) = some t ↔
      Readable R column ∧ a.circuitOpenUntil = none := by
  rw [Option.ite_none_right_eq_some]
  constructor
  · rintro ⟨hopen, hread⟩
    exact ⟨Option.isSome_of_eq_some hread, hopen⟩
  · rintro ⟨hread, hopen⟩
    exact ⟨hopen, h.resolve_right fun hcircuit => hcircuit.1 hread⟩

/-- A row is not back before the time that it gives. -/
theorem exists_promisedAt_of_backAt {f : Int} (h : a.backAt R = some f) :
    ∃ t, a.PromisedAt R t ∧ t ≤ f := by
  cases hs : AccountStatus.parse a.status with
  | disabled => simp [backAt, hs] at h
  | cooldown | exhausted =>
    simp only [backAt, hs, Option.ite_none_right_eq_some] at h
    exact ⟨f, by simp [PromisedAt, hs, h.2], le_rfl⟩
  | healthy | circuitOpen =>
    simp only [backAt, hs] at h
    simpa only [PromisedAt, hs] using exists_le_probeAt R h

/-- A row is back at the time that it gives exactly if it is timely. -/
theorem backAt_eq_iff_timely (h : a.PromisedAt R t) : a.backAt R = some t ↔ a.Timely R := by
  cases hs : AccountStatus.parse a.status with
  | disabled => simp [backAt, Timely, hs]
  | cooldown | exhausted =>
    simp only [PromisedAt, hs] at h
    simpa only [backAt, Timely, hs] using column_eq_iff R h
  | healthy | circuitOpen =>
    simp only [PromisedAt, hs] at h
    simpa only [backAt, Timely, hs] using probeAt_eq_iff R h

/-! ## The loop -/

/-- The loop keeps the least of the times it has seen. -/
def LeastSeen (times : List (Option Int)) (soonest : Option Int) : Prop :=
  match soonest with
  | some t => IsLeast {s | some s ∈ times} t
  | none => ∀ s, some s ∉ times

theorem sooner_leastSeen {seen : List (Option Int)} {soonest : Option Int}
    (h : LeastSeen seen soonest) (next : Option Int) :
    LeastSeen (seen ++ [next]) (sooner soonest next) := by
  cases next with
  | none => cases soonest <;> simpa [LeastSeen, sooner] using h
  | some t =>
    cases soonest with
    | none =>
      refine ⟨by simp, fun s hs => ?_⟩
      rcases List.mem_append.mp hs with hs | hs
      · exact absurd hs (h s)
      · obtain rfl : s = t := by simpa using hs
        exact le_rfl
    | some cur =>
      have hleast : IsLeast {s | some s ∈ seen ++ [some t]} (min cur t) := by
        have hsplit : {s | some s ∈ seen ++ [some t]} = {s | some s ∈ seen} ∪ {t} := by
          ext s
          simp [or_comm]
        rw [hsplit]
        exact h.union isLeast_singleton
      by_cases hlt : cur < t
      · simpa [LeastSeen, sooner, hlt, min_eq_left hlt.le] using hleast
      · simpa [LeastSeen, sooner, hlt, min_eq_right (not_lt.mp hlt)] using hleast

theorem foldl_sooner_leastSeen (times seen : List (Option Int)) (soonest : Option Int)
    (h : LeastSeen seen soonest) : LeastSeen (seen ++ times) (times.foldl sooner soonest) := by
  induction times generalizing seen soonest with
  | nil => simpa using h
  | cons next times ih =>
    have hnext := ih (seen ++ [next]) (sooner soonest next) (sooner_leastSeen h next)
    rwa [List.append_assoc, List.singleton_append] at hnext

/-- What is promised is the least of the times that the rows give. -/
theorem soonestRecovery_spec (accounts : List AccountRow) :
    LeastSeen (accounts.map (recoveryTime R)) (soonestRecovery R accounts) := by
  refine foldl_sooner_leastSeen _ [] none ?_
  intro s hs
  exact List.not_mem_nil hs

/-! ## Exactness -/

theorem mem_dispatchTimes_iff (h : ∀ a ∈ accounts, a.isAvailable R now = false) :
    t ∈ dispatchTimes R accounts ↔ ∃ a ∈ accounts, ∃ f, a.backAt R = some f ∧ f ≤ t := by
  constructor
  · rintro ⟨a, ha, hat⟩
    exact ⟨a, ha, (dispatchable_iff R (h a ha)).mp hat⟩
  · rintro ⟨a, ha, hat⟩
    exact ⟨a, ha, (dispatchable_iff R (h a ha)).mpr hat⟩

/-- No account is used before some account gives that time to the client. -/
theorem exists_promisedAt_le (h : ∀ a ∈ accounts, a.isAvailable R now = false)
    (ht : t ∈ dispatchTimes R accounts) : ∃ a ∈ accounts, ∃ s, a.PromisedAt R s ∧ s ≤ t := by
  obtain ⟨a, ha, f, hf, hft⟩ := (mem_dispatchTimes_iff R h).mp ht
  obtain ⟨s, hs, hsf⟩ := exists_promisedAt_of_backAt R hf
  exact ⟨a, ha, s, hs, hsf.trans hft⟩

/-- If no account is available now, the promised time is the earliest one exactly if the earliest of
the times that the accounts give belongs to an account that is back then. -/
theorem soonest_recovery_exact (accounts : List AccountRow) (now : Int)
    (h : ∀ a ∈ accounts, a.isAvailable R now = false) :
    PromiseExact R accounts ↔ FirstTimely R accounts := by
  have hspec := soonestRecovery_spec R accounts
  cases hsoonest : soonestRecovery R accounts with
  | none =>
    rw [hsoonest] at hspec
    have hnone : ∀ a ∈ accounts, ∀ t, ¬ a.PromisedAt R t := by
      intro a ha t ht
      exact hspec t (List.mem_map.mpr ⟨a, ha, (recoveryTime_eq_some_iff R).mpr ht⟩)
    simp only [PromiseExact, hsoonest]
    refine iff_of_true (Set.eq_empty_iff_forall_notMem.mpr fun t ht => ?_) (.inl hnone)
    obtain ⟨a, ha, s, hs, -⟩ := exists_promisedAt_le R h ht
    exact hnone a ha s hs
  | some t =>
    rw [hsoonest] at hspec
    obtain ⟨hmem, hle⟩ := hspec
    have hlower : ∀ a ∈ accounts, ∀ s, a.PromisedAt R s → t ≤ s := fun a ha s hs =>
      hle (List.mem_map.mpr ⟨a, ha, (recoveryTime_eq_some_iff R).mpr hs⟩)
    obtain ⟨first, hfirst, htime⟩ := List.mem_map.mp hmem
    rw [recoveryTime_eq_some_iff] at htime
    simp only [PromiseExact, hsoonest]
    constructor
    · rintro ⟨hused, -⟩
      -- The account that is used then is back then, and gives no earlier time.
      obtain ⟨a, ha, f, hf, hft⟩ := (mem_dispatchTimes_iff R h).mp hused
      obtain ⟨s, hs, hsf⟩ := exists_promisedAt_of_backAt R hf
      have hts := hlower a ha s hs
      obtain rfl : s = t := le_antisymm (hsf.trans hft) hts
      obtain rfl : f = s := le_antisymm hft hsf
      exact .inr ⟨a, ha, (backAt_eq_iff_timely R hs).mp hf, f, hs, hlower⟩
    · rintro (hnone | ⟨a, ha, htimely, s, hs, hleast⟩)
      · exact absurd htime (hnone first hfirst t)
      · obtain rfl : s = t := le_antisymm (hleast first hfirst t htime) (hlower a ha s hs)
        have hback := (backAt_eq_iff_timely R hs).mpr htimely
        refine ⟨(mem_dispatchTimes_iff R h).mpr ⟨a, ha, s, hback, le_rfl⟩, fun u hu => ?_⟩
        obtain ⟨b, hb, r, hr, hru⟩ := exists_promisedAt_le R h hu
        exact (hlower b hb r hr).trans hru

end AccountRow

open AccountRow

/-- Two instants and their texts. -/
def wallTimes : Rfc3339 where
  toRfc3339 t := if t = seconds 30 then "1970-01-01T00:00:30+00:00" else "1970-01-01T00:00:40+00:00"
  parseDt s :=
    if s = "1970-01-01T00:00:30+00:00" then some (seconds 30)
    else if s = "1970-01-01T00:00:40+00:00" then some (seconds 40)
    else none

/-- An account that cools down with a closed circuit. -/
def coolingAccount : AccountRow where
  status := "cooldown"
  cooldownUntil := some "1970-01-01T00:00:40+00:00"

/-- A rate limit that opened the circuit as well. -/
def trippedAccount : AccountRow where
  status := "cooldown"
  cooldownUntil := some "1970-01-01T00:00:30+00:00"
  circuitOpenUntil := some "1970-01-01T00:00:40+00:00"
  consecutiveFailures := 4

theorem soonest_recovery_exact_cooling : PromiseExact wallTimes [coolingAccount] := by
  refine (soonest_recovery_exact wallTimes [coolingAccount] 0 (by decide)).mpr (.inr ?_)
  refine ⟨coolingAccount, by simp, ⟨rfl, rfl⟩, seconds 40, .inl rfl, ?_⟩
  intro b hb s hs
  obtain rfl : b = coolingAccount := by simpa using hb
  have hread : coolingAccount.recoveryTime wallTimes = some s :=
    (recoveryTime_eq_some_iff wallTimes).mpr hs
  obtain rfl : seconds 40 = s := Option.some.inj hread
  exact le_rfl

/-- A tripped account is promised for the end of its cooldown, after which its circuit is still open
and it is not probed; the other account comes back ten seconds later. -/
theorem soonest_recovery_early : ¬ ∀ (R : Rfc3339) (accounts : List AccountRow) (now : Int),
    accounts ≠ [] → (∀ a ∈ accounts, a.isAvailable R now = false) → PromiseExact R accounts := by
  intro hall
  have hexact := hall wallTimes [trippedAccount, coolingAccount] 0 (by simp) (by decide)
  have hsoonest : soonestRecovery wallTimes [trippedAccount, coolingAccount] = some (seconds 30) :=
    rfl
  simp only [PromiseExact, hsoonest] at hexact
  have hunused : ∀ a ∈ [trippedAccount, coolingAccount],
      (a.isAvailable wallTimes (seconds 30) || a.shouldProbe wallTimes (seconds 30)) = false := by
    decide
  obtain ⟨a, ha, hused⟩ := hexact.1
  rw [Dispatchable, ← Bool.or_eq_true] at hused
  exact absurd hused (by simpa using hunused a ha)

end Kinetix.Account
