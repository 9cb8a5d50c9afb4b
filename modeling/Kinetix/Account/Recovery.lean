import Kinetix.Account.Events

/-!
# Accounts that come back by themselves

An account that is taken out of rotation for some time comes back, or may be probed, if the time can
be read and its circuit is closed. The circuit opens with the fourth account failure in a row, and
each such failure takes the account out of rotation as well: then the account is neither available
nor probed, however much time passes.
-/

namespace Kinetix.Account
open Clock StateMachine Kinetix.Types

variable {R : Rfc3339} {F : ParseF64} {a : AccountRow} {e : Event}

namespace AccountRow

/-- The circuit is closed, and the next failure does not open it. -/
def BelowThreshold (a : AccountRow) : Prop :=
  a.circuitOpenUntil = none ∧ a.consecutiveFailures + 1 < circuitThreshold

/-- If an instant is written, its text can be read. -/
def WritesReadable (R : Rfc3339) (t : Option Int) : Prop :=
  ∀ t', t = some t' → Readable R (some (R.toRfc3339 t'))

/-- A plugin that calls the account unavailable finds the circuit closed and gives a time. -/
def KeepsTime (R : Rfc3339) (a : AccountRow) (obs : HealthObservation) (now : Int) : Prop :=
  obs.state = "unavailable" → a.circuitOpenUntil = none ∧
    ∀ deadline, unavailableUntil R obs now = some deadline → Readable R deadline

/-- The events that take an account out of rotation for some time find its circuit closed, do not
open it, and write a time that can be read. -/
def Temporary (R : Rfc3339) (F : ParseF64) (a : AccountRow) : Event → Prop
  | .keyFailure failure now _ =>
    match failure.kind with
    | .rateLimit =>
      a.BelowThreshold ∧ WritesReadable R (addSeconds now (rateLimitCooldown failure))
    | .quotaExhausted =>
      a.BelowThreshold ∧
        WritesReadable R (exhaustedUntil failure.quotaResetAt a.defaultQuotaWindow now)
    | .authError | .serverError | .connectionError | .timeout | .targetError | .badRequest => True
  | .softQuota now =>
    a.circuitOpenUntil = none ∧ WritesReadable R (exhaustedUntil none a.defaultQuotaWindow now)
  | .refreshFailed retryAfterSecs retryable now =>
    a.circuitOpenUntil = none ∧
      WritesReadable R (addSeconds now (refreshCooldown retryAfterSecs retryable))
  | .healthProbe obs now =>
    match observePlugin R F obs with
    | some (true, resetAt) =>
      a.circuitOpenUntil = none ∧ WritesReadable R
        (exhaustedUntil (pluginQuotaResetAt resetAt obs.retryAfter now) 3600 now)
    | some (false, _) => a.KeepsTime R obs now
    | none => a.KeepsTime R obs now
  | .credentialInvalid | .probing _ | .validated => True

/-- An account can come back by itself or is disabled; no statement stores that its circuit is
open as its status. -/
def Sound (R : Rfc3339) (a : AccountRow) : Prop :=
  (a.Recoverable R ∧ AccountStatus.parse a.status ≠ .circuitOpen) ∨
    AccountStatus.parse a.status = .disabled

theorem parse_setAccountStatus (s : AccountStatus) (c q : Option String) :
    AccountStatus.parse (a.setAccountStatus s c q).status = s := by
  simp only [setAccountStatus]
  split <;> simp

theorem sound_healthy (c q : Option String) : (a.setAccountStatus .healthy c q).Sound R := by
  left
  simp [Recoverable, setAccountStatus]

theorem sound_disabled (c q : Option String) : (a.setAccountStatus .disabled c q).Sound R := by
  right
  exact parse_setAccountStatus _ c q

theorem sound_cooldown {deadline : Option String} (hopen : a.circuitOpenUntil = none)
    (h : Readable R deadline) : (a.setAccountStatus .cooldown deadline none).Sound R := by
  left
  simp [Recoverable, setAccountStatus, hopen, h]

theorem sound_exhausted {reset : Option String} (hopen : a.circuitOpenUntil = none)
    (h : Readable R reset) : (a.setAccountStatus .exhausted none reset).Sound R := by
  left
  simp [Recoverable, setAccountStatus, hopen, h]

/-- A failure below the threshold is only counted. -/
theorem sound_failure {now : Int} (h : a.Sound R)
    (hcount : a.consecutiveFailures + 1 < circuitThreshold) :
    (a.recordAccountFailure R now).Sound R := by
  have hbelow : ¬ circuitThreshold ≤ a.bumpFailures.consecutiveFailures := not_le.mpr hcount
  simp only [recordAccountFailure]
  rw [if_neg hbelow]
  exact h

theorem recordAccountFailure_status (now : Int) :
    (a.recordAccountFailure R now).status = a.status := by
  simp only [recordAccountFailure]
  split
  · split <;> rfl
  · rfl

theorem handleKeyFailure_sound {failure : UpstreamFailure} {now later : Int} (ha : a.Sound R)
    (h : a.Temporary R F (.keyFailure failure now later)) :
    (a.handleKeyFailure R failure now later).Sound R := by
  cases hk : failure.kind with
  | rateLimit =>
    simp only [Temporary, hk] at h
    obtain ⟨⟨hopen, hcount⟩, hread⟩ := h
    simp only [handleKeyFailure, hk, markRateLimited]
    cases ht : addSeconds now (rateLimitCooldown failure) with
    | none => exact ha
    | some t =>
      exact sound_failure (sound_cooldown hopen (hread t ht)) hcount
  | quotaExhausted =>
    simp only [Temporary, hk] at h
    obtain ⟨⟨hopen, hcount⟩, hread⟩ := h
    simp only [handleKeyFailure, hk, markExhausted]
    cases ht : exhaustedUntil failure.quotaResetAt a.defaultQuotaWindow now with
    | none => exact ha
    | some t =>
      exact sound_failure (sound_exhausted hopen (hread t ht)) hcount
  | authError =>
    right
    simp only [handleKeyFailure, hk]
    rw [recordAccountFailure_status]
    exact parse_setAccountStatus _ none none
  | serverError | connectionError | timeout | targetError | badRequest =>
    simpa only [handleKeyFailure, hk] using ha

theorem observeState_sound {obs : HealthObservation} {now : Int} (ha : a.Sound R)
    (h : a.KeepsTime R obs now) : (a.observeState R obs now).Sound R := by
  simp only [observeState]
  split_ifs with hhealthy hchanged hdegraded hunavailable
  · exact sound_healthy none none
  · exact ha
  · exact sound_healthy none none
  · obtain ⟨hopen, hread⟩ := h hunavailable
    cases ht : unavailableUntil R obs now with
    | none => exact ha
    | some deadline => exact sound_cooldown hopen (hread deadline ht)
  · exact ha

theorem healthProbe_sound {obs : HealthObservation} {now : Int} (ha : a.Sound R)
    (h : a.Temporary R F (.healthProbe obs now)) : (a.healthProbe R F obs now).Sound R := by
  simp only [healthProbe]
  split_ifs with hdisabled
  · exact ha
  · simp only [Temporary] at h
    generalize observePlugin R F obs = observed at h ⊢
    cases observed with
    | none => exact observeState_sound ha h
    | some observed =>
      obtain ⟨exhausted, resetAt⟩ := observed
      cases exhausted with
      | false => exact observeState_sound ha h
      | true =>
        simp only [markExhausted]
        cases ht : exhaustedUntil (pluginQuotaResetAt resetAt obs.retryAfter now) 3600 now with
        | none => exact ha
        | some t => exact sound_exhausted h.1 (h.2 t ht)

/-- An event that takes an account out of rotation only for a time, or not at all, leaves it able to
come back, or disabled. -/
theorem handle_sound (ha : a.Sound R) (h : a.Temporary R F e) : (a.handle R F e).Sound R := by
  cases e with
  | keyFailure failure now later => exact handleKeyFailure_sound ha h
  | softQuota now =>
    simp only [handle, markExhausted]
    cases ht : exhaustedUntil none a.defaultQuotaWindow now with
    | none => exact ha
    | some t => exact sound_exhausted h.1 (h.2 t ht)
  | refreshFailed retryAfterSecs retryable now =>
    simp only [handle, markRateLimited]
    cases ht : addSeconds now (refreshCooldown retryAfterSecs retryable) with
    | none => exact ha
    | some t => exact sound_cooldown h.1 (h.2 t ht)
  | credentialInvalid => exact sound_disabled none none
  | probing now => exact ha
  | validated =>
    rcases ha with ⟨ha, hs⟩ | hs
    · left
      refine ⟨?_, hs⟩
      simp only [Recoverable] at ha
      simp only [handle, Recoverable, resetAccountFailures]
      split at ha
      · exact ha
      · exact ⟨ha.1, trivial⟩
      · exact ⟨ha.1, trivial⟩
      · exact .inl trivial
      · rename_i hopen
        exact absurd hopen hs
    · exact .inr hs
  | healthProbe obs now => exact healthProbe_sound ha h

theorem sound_start (quotaType : String) (quotaWindowS : Option Int) :
    ({ quotaType, quotaWindowS } : AccountRow).Sound R :=
  .inl ⟨.inl rfl, by simp [AccountStatus.parse]⟩

end AccountRow

/-- If every event that takes the account out of rotation for some time finds the circuit closed,
does not open it and writes a time that can be read, then the account is disabled or comes back. -/
theorem account_recovers (R : Rfc3339) (F : ParseF64) (quotaType : String)
    (quotaWindowS : Option Int) {as : List Event} {a : AccountRow}
    (h : (account R F quotaType quotaWindowS).Meets (fun _ a e => a.Temporary R F e) as)
    (hrun : (account R F quotaType quotaWindowS).run as = some a)
    (henabled : AccountStatus.parse a.status ≠ .disabled) : a.Recovers R := by
  have hsound : a.Sound R := by
    refine (account R F quotaType quotaWindowS).run_induction_of_meets
      (I := fun _ a => a.Sound R) (AccountRow.sound_start quotaType quotaWindowS) ?_ as a h hrun
    intro as a e a' ha hc hstep
    cases hstep
    exact AccountRow.handle_sound ha hc
  rw [AccountRow.recovers_iff]
  exact (hsound.resolve_right henabled).1

/-- The texts of two instants. -/
def exampleRfc3339 : Rfc3339 where
  toRfc3339 t := if t = seconds 30 then "1970-01-01T00:00:30+00:00" else "1970-01-01T01:00:00+00:00"
  parseDt s :=
    if s = "1970-01-01T00:00:30+00:00" then some (seconds 30)
    else if s = "1970-01-01T01:00:00+00:00" then some (seconds 3600)
    else none

/-- A rate limit without a time to retry after. -/
def exampleRateLimit : UpstreamFailure where
  kind := .rateLimit
  status := some 429
  retryAfterSecs := none
  message := "slow down"
  quotaResetAt := none

/-- A rate limit, a success, and a plugin that calls the account unavailable for an hour. -/
def exampleEvents : List Event :=
  [.keyFailure exampleRateLimit 0 0, .validated,
    .healthProbe ⟨"unavailable", none, some 3600, none⟩ 0]

theorem account_recovers_after_rate_limit :
    ∃ a, (account exampleRfc3339 (fun _ => none) "none" none).run exampleEvents = some a ∧
      a.status = "cooldown" ∧ a.Recovers exampleRfc3339 := by
  have hmeets : (account exampleRfc3339 (fun _ => none) "none" none).Meets
      (fun _ a e => a.Temporary exampleRfc3339 (fun _ => none) e) exampleEvents := by
    refine Machine.Along.meets _ ⟨⟨⟨rfl, by decide⟩, ?_⟩, trivial, ⟨?_, trivial⟩⟩
    · intro t ht
      have hwritten : addSeconds 0 (AccountRow.rateLimitCooldown exampleRateLimit) =
          some (seconds 30) := by decide
      obtain rfl : seconds 30 = t := Option.some.inj (hwritten.symm.trans ht)
      rfl
    · intro _
      refine ⟨rfl, fun deadline hd => ?_⟩
      obtain rfl : some "1970-01-01T01:00:00+00:00" = deadline := Option.some.inj hd
      rfl
  exact ⟨_, rfl, rfl,
    account_recovers exampleRfc3339 (fun _ => none) "none" none hmeets rfl (by decide)⟩

/-- With the fourth rate limit in a row the circuit opens while the account cools down. When the
cooldown has ended the circuit is still open, and an account that cools down is not probed. -/
theorem circuit_opened_in_cooldown : ¬ ∀ (R : Rfc3339) (F : ParseF64) (quotaType : String)
    (quotaWindowS : Option Int) (as : List Event) (a : AccountRow),
    (account R F quotaType quotaWindowS).run as = some a →
      AccountStatus.parse a.status ≠ .disabled → a.Recovers R := by
  intro hall
  have hrecovers := hall exampleRfc3339 (fun _ => none) "none" none
    (List.replicate 4 (.keyFailure exampleRateLimit 0 0)) _ rfl (by decide)
  rw [AccountRow.recovers_iff] at hrecovers
  have hopen : ∀ a : AccountRow, a.Recoverable exampleRfc3339 → a.status = "cooldown" →
      a.circuitOpenUntil = none := by
    intro a ha hs
    simp only [AccountRow.Recoverable, hs] at ha
    exact ha.2
  exact absurd (hopen _ hrecovers rfl) (by decide)

end Kinetix.Account
