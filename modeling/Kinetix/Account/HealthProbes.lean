import Kinetix.Account.Events

/-!
# A cycle of health probes

`run_plugin_health_probes` over all providers and accounts. An observation can exhaust the account,
and otherwise its state decides: only the time of an exhausted account is guarded, and a degraded
account is made healthy, whatever the data path has found. What each observation has to be for the
cycle to do as it is documented is read off the observation and the row.

## Implementation notes

The row that an update finds can be another one than was listed: other writers act in between. Only
the columns of the row are followed; the evidence that is kept for routing is left out. A panic
ends the cycle.
-/

namespace Kinetix.Account
open Clock Words

/-- An account that comes up in a cycle. -/
structure Probed where
  id : String
  /-- The row when the accounts of the provider were listed. -/
  listed : AccountRow
  /-- The row that the update finds. -/
  found : AccountRow
  /-- What the plugin returns, if it does not fail. -/
  obs : Option HealthObservation
  /-- The two readings of the clock. -/
  now : Int
  later : Int

structure ProbedProvider where
  /-- The credential mode refers to a plugin. -/
  hasPlugin : Bool
  /-- The plugin is enabled and provides health probes. -/
  resolved : Bool
  /-- The accounts, if they can be listed. -/
  accounts : Option (List Probed)

def ProbedProvider.probed (p : ProbedProvider) : List Probed :=
  if p.hasPlugin ∧ p.resolved then p.accounts.getD [] else []

namespace Probed
variable (R : Rfc3339) (F : ParseF64)

/-- The observation says that the quota is exhausted; until when, if it says so. -/
def exhausted (obs : HealthObservation) : Option (Option Int) :=
  match observePlugin R F obs with
  | some (true, resetAt) => some resetAt
  | some (false, _) | none => none

/-- The match on the state of an observation. -/
def byState (x : Probed) (obs : HealthObservation) : Option AccountRow :=
  if obs.state = "healthy" then
    some (if x.listed.status ≠ "healthy" then x.found.setAccountStatus .healthy none none
      else x.found)
  else if obs.state = "degraded" then
    some (x.found.setAccountStatus .healthy none none)
  else if obs.state = "unavailable" then
    (unavailableUntil R obs x.now).map fun deadline =>
      x.found.setAccountStatus .cooldown deadline none
  else
    some x.found

/-- The body of the inner loop; `none` is a panic. -/
def probe (x : Probed) : Option AccountRow :=
  if x.listed.status = "disabled" then some x.found
  else
    match x.obs with
    | none => some x.found
    | some obs =>
      match exhausted R F obs with
      | some resetAt =>
        x.found.markExhausted R (pluginQuotaResetAt resetAt obs.retryAfter x.now) 3600 x.later
      | none => x.byState R obs

end Probed

section Cycle
variable (R : Rfc3339) (F : ParseF64)

/-- The rows that the probes leave, or a panic. -/
def probeAll : List Probed → Option (List (Probed × AccountRow))
  | [] => some []
  | x :: xs =>
    match x.probe R F with
    | none => none
    | some row => (probeAll xs).map ((x, row) :: ·)

/-- `run_plugin_health_probes`; the providers may not be read. -/
def runPluginHealthProbes (providers : Option (List ProbedProvider)) :
    Option (List (Probed × AccountRow)) :=
  match providers with
  | none => some []
  | some providers => probeAll R F (providers.flatMap ProbedProvider.probed)

end Cycle

/-! ## What is documented -/

/-- The columns that an advisory observation must leave alone. -/
structure AccountRow.SameHealth (a b : AccountRow) : Prop where
  status : a.status = b.status
  cooldownUntil : a.cooldownUntil = b.cooldownUntil
  quotaResetAt : a.quotaResetAt = b.quotaResetAt
  circuitOpenUntil : a.circuitOpenUntil = b.circuitOpenUntil
  consecutiveFailures : a.consecutiveFailures = b.consecutiveFailures
  lastProbeAt : a.lastProbeAt = b.lastProbeAt

section Documented
variable (R : Rfc3339) (F : ParseF64)

/-- What an observation may leave: a time that can be read if the account is exhausted or
unavailable, and otherwise, if it is not healthy either, the row as it was. -/
def HealthObservation.Documented (obs : HealthObservation) (found left : AccountRow) : Prop :=
  if (Probed.exhausted R F obs).isSome then AccountRow.Readable R left.quotaResetAt
  else if obs.state = "unavailable" then AccountRow.Readable R left.cooldownUntil
  else if obs.state = "healthy" then True
  else left.SameHealth found

/-- The cycle ends, and each observation of an account that is probed is handled as documented. -/
def Handled (providers : Option (List ProbedProvider)) : Prop :=
  ∃ left, runPluginHealthProbes R F providers = some left ∧
    ∀ r ∈ left, r.1.listed.status ≠ "disabled" → ∀ obs, r.1.obs = some obs →
      obs.Documented R F r.1.found r.2

/-! ## What it takes -/

/-- A row on which nothing stands that a recovery clears. -/
structure AccountRow.Clear (a : AccountRow) : Prop where
  status : a.status = "healthy"
  cooldownUntil : a.cooldownUntil = none
  quotaResetAt : a.quotaResetAt = none
  circuitOpenUntil : a.circuitOpenUntil = none
  consecutiveFailures : a.consecutiveFailures = 0

/-- The instant until which an exhausted account is out is in range, and its text can be read. -/
def ResetFits (resetAt : Option Int) (retryAfter : Option Nat) (now later : Int) : Prop :=
  ∃ reset, (pluginQuotaResetAt resetAt retryAfter now).or (addSeconds later 3600) = some reset ∧
    AccountRow.Readable R (some (R.toRfc3339 reset))

/-- An unavailable account comes with a text that can be read, or else with a number of seconds
after which there is an instant whose text can be read. -/
def DeadlineFits (resetAt : Option String) (retryAfter : Option Nat) (now : Int) : Prop :=
  match resetAt, retryAfter with
  | some reset, _ => AccountRow.Readable R (some reset)
  | none, some secs =>
    ∃ deadline, addSeconds now (asI64 secs) = some deadline ∧
      AccountRow.Readable R (some (R.toRfc3339 deadline))
  | none, none => False

/-- What an observation and the row that its update finds have to be. -/
def HealthObservation.Fits (obs : HealthObservation) (x : Probed) : Prop :=
  match Probed.exhausted R F obs with
  | some resetAt => ResetFits R resetAt obs.retryAfter x.now x.later
  | none =>
    (obs.state = "unavailable" → DeadlineFits R obs.resetAt obs.retryAfter x.now) ∧
      (obs.state = "degraded" → x.found.Clear)

end Documented

variable {R : Rfc3339} {F : ParseF64} {x : Probed} {obs : HealthObservation} {a : AccountRow}

theorem AccountRow.SameHealth.refl (a : AccountRow) : a.SameHealth a :=
  ⟨rfl, rfl, rfl, rfl, rfl, rfl⟩

/-- A recovery changes nothing just if there is nothing to clear. -/
theorem AccountRow.sameHealth_recovered_iff :
    (a.setAccountStatus .healthy none none).SameHealth a ↔ a.Clear := by
  constructor
  · intro h
    exact ⟨h.status.symm, h.cooldownUntil.symm, h.quotaResetAt.symm, h.circuitOpenUntil.symm,
      h.consecutiveFailures.symm⟩
  · intro h
    exact ⟨h.status.symm, h.cooldownUntil.symm, h.quotaResetAt.symm, h.circuitOpenUntil.symm,
      h.consecutiveFailures.symm, rfl⟩

theorem exhaustedUntil_eq (resetAt : Option Int) (now : Int) :
    AccountRow.exhaustedUntil resetAt 3600 now = resetAt.or (addSeconds now 3600) := by
  cases resetAt <;> rfl

/-- An exhausted account is left with a time that can be read just if the instant fits. -/
theorem markExhausted_documented_iff (resetAt : Option Int) (now : Int) :
    (∃ left, a.markExhausted R resetAt 3600 now = some left ∧
      AccountRow.Readable R left.quotaResetAt) ↔
      ∃ reset, resetAt.or (addSeconds now 3600) = some reset ∧
        AccountRow.Readable R (some (R.toRfc3339 reset)) := by
  rw [AccountRow.markExhausted, exhaustedUntil_eq]
  constructor
  · rintro ⟨left, hleft, hread⟩
    obtain ⟨reset, hreset, rfl⟩ := Option.map_eq_some_iff.mp hleft
    exact ⟨reset, hreset, hread⟩
  · rintro ⟨reset, hreset, hread⟩
    exact ⟨_, Option.map_eq_some_iff.mpr ⟨reset, hreset, rfl⟩, hread⟩

theorem unavailableUntil_readable_iff (now : Int) :
    (∃ deadline, unavailableUntil R obs now = some deadline ∧ AccountRow.Readable R deadline) ↔
      DeadlineFits R obs.resetAt obs.retryAfter now := by
  unfold unavailableUntil DeadlineFits
  cases hreset : obs.resetAt with
  | some reset => simp
  | none =>
    cases hretry : obs.retryAfter with
    | some secs => simp
    | none => simp [AccountRow.Readable]

/-- What the state of an observation leaves is as documented just if the observation fits. -/
theorem byState_documented_iff :
    (∃ left, x.byState R obs = some left ∧
      (if obs.state = "unavailable" then AccountRow.Readable R left.cooldownUntil
        else if obs.state = "healthy" then True else left.SameHealth x.found)) ↔
      (obs.state = "unavailable" → DeadlineFits R obs.resetAt obs.retryAfter x.now) ∧
        (obs.state = "degraded" → x.found.Clear) := by
  unfold Probed.byState
  by_cases hhealthy : obs.state = "healthy"
  · simp [hhealthy]
  by_cases hdegraded : obs.state = "degraded"
  · simp [hdegraded, AccountRow.sameHealth_recovered_iff]
  by_cases hunavailable : obs.state = "unavailable"
  · simp only [hunavailable, ← unavailableUntil_readable_iff]
    simp [AccountRow.setAccountStatus]
  · simp [hhealthy, hdegraded, hunavailable, AccountRow.SameHealth.refl]

/-- A probe of an account that is not disabled. -/
theorem probe_documented_iff (hlisted : x.listed.status ≠ "disabled") (hobs : x.obs = some obs) :
    (∃ left, x.probe R F = some left ∧ obs.Documented R F x.found left) ↔ obs.Fits R F x := by
  rw [Probed.probe, if_neg hlisted, hobs]
  unfold HealthObservation.Documented HealthObservation.Fits
  dsimp only
  cases Probed.exhausted R F obs with
  | some resetAt => exact markExhausted_documented_iff _ _
  | none => exact byState_documented_iff

/-- Each account of a provider with a plugin is either passed over or has a fitting observation. -/
def Probed.Fits (R : Rfc3339) (F : ParseF64) (x : Probed) : Prop :=
  x.listed.status ≠ "disabled" → ∀ obs, x.obs = some obs → obs.Fits R F x

theorem probe_handled_iff :
    (∃ left, x.probe R F = some left ∧
      (x.listed.status ≠ "disabled" → ∀ obs, x.obs = some obs →
        obs.Documented R F x.found left)) ↔ x.Fits R F := by
  by_cases hlisted : x.listed.status = "disabled"
  · simp [Probed.probe, Probed.Fits, hlisted]
  cases hobs : x.obs with
  | none => simp [Probed.probe, Probed.Fits, hlisted, hobs]
  | some obs =>
    have hiff := probe_documented_iff (R := R) (F := F) hlisted hobs
    simpa [Probed.Fits, hlisted, hobs] using hiff

/-- A cycle ends with rows of a kind just if each probe does. -/
theorem probeAll_iff (P : Probed → AccountRow → Prop) (xs : List Probed) :
    (∃ left, probeAll R F xs = some left ∧ ∀ r ∈ left, P r.1 r.2) ↔
      ∀ x ∈ xs, ∃ left, x.probe R F = some left ∧ P x left := by
  induction xs with
  | nil => simp [probeAll]
  | cons x xs ih =>
    rw [List.forall_mem_cons, ← ih, probeAll]
    cases x.probe R F with
    | none => simp
    | some row =>
      constructor
      · rintro ⟨left, hleft, hall⟩
        obtain ⟨rest, hrest, rfl⟩ := Option.map_eq_some_iff.mp hleft
        rw [List.forall_mem_cons] at hall
        exact ⟨⟨row, rfl, hall.1⟩, rest, hrest, hall.2⟩
      · rintro ⟨⟨left, hleft, hfirst⟩, rest, hrest, hall⟩
        cases hleft
        exact ⟨_, Option.map_eq_some_iff.mpr ⟨rest, hrest, rfl⟩,
          List.forall_mem_cons.mpr ⟨hfirst, hall⟩⟩

/-- A cycle is handled as documented just if each observation of an account that is probed fits. -/
theorem handled_iff (R : Rfc3339) (F : ParseF64) (providers : Option (List ProbedProvider)) :
    Handled R F providers ↔
      ∀ p ∈ providers.getD [], ∀ x ∈ p.probed, x.Fits R F := by
  cases providers with
  | none => simp [Handled, runPluginHealthProbes]
  | some providers =>
    have hall := probeAll_iff (R := R) (F := F)
      (fun x left => x.listed.status ≠ "disabled" → ∀ obs, x.obs = some obs →
        obs.Documented R F x.found left) (providers.flatMap ProbedProvider.probed)
    simp only [probe_handled_iff, List.mem_flatMap, forall_exists_index, and_imp] at hall
    rw [Handled, runPluginHealthProbes, hall]
    exact ⟨fun h p hp x hx => h x p hp hx, fun h x p hp hx => h p hp x hx⟩

/-- An account that cools down until a time that can be read. -/
def coolingRow : AccountRow where
  status := "cooldown"
  cooldownUntil := some "1970-01-01T01:00:00+00:00"

def degradedObservation : HealthObservation := ⟨"degraded", none, none, none⟩

/-- A plugin that calls a cooling account degraded puts it back in rotation. -/
theorem degraded_ends_cooldown : ¬ ∃ (R : Rfc3339) (F : ParseF64), Handled R F
    (some
      [⟨true, true, some [⟨"a", coolingRow, coolingRow, some degradedObservation, 0, 0⟩]⟩]) := by
  rintro ⟨R, F, h⟩
  have hfits := (handled_iff _ _ _).mp h _ List.mem_cons_self _ List.mem_cons_self (by decide)
    degradedObservation rfl
  have hclear := hfits.2 rfl
  exact absurd hclear.cooldownUntil (Option.some_ne_none _)

end Kinetix.Account
