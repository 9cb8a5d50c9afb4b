import Kinetix.Pipeline.Bounds

/-!
# Where fallback stops

What comes of a candidate is a kind of failure with an error for the client, or nothing. A kind for
which fallback is denied ends the request with that error; after any other the loop takes the
remaining candidates in order. At the end the client should get the error of the last attempt that
failed. It does unless a later candidate was passed over with an error of its own, which takes the
place of the other.

## Implementation notes

A request that is refused for one candidate counts as a bad request: it is a request-level failure,
never retried. A dispatch whose credential was refreshed is not a failed attempt, since the attempt
goes on with the retry.
-/

namespace Kinetix.Pipeline
open Account StateMachine Kinetix.Types

/-! ## What comes of a candidate -/

/-- The account may be used, by itself or for a probe. -/
def Turn.Usable (R : Rfc3339) (target : ResolvedTarget) (t : Turn) : Prop :=
  target.account.effectiveStatus R t.now = .healthy ∨ target.account.shouldProbe R t.later = true

/-- The checks before the request is prepared. -/
structure Turn.Available (R : Rfc3339) (target : ResolvedTarget) (t : Turn) : Prop where
  usable : t.Usable R target
  quota : t.softQuotaReached = false
  profile : t.executionProfile = .ok ()
  adapter : t.adapter = .ok ()
  capabilities : target.providerStrict = true → t.satisfiesNeeds = true
  circuit : t.circuitRejects = none
  credential : t.credentialResolves = true

/-- All that a candidate needs for its dispatch. -/
structure Turn.Eligible (R : Rfc3339) (target : ResolvedTarget) (t : Turn) : Prop where
  available : t.Available R target
  request : t.requestError = none
  capacity : t.saturated = none
  attempt : t.attemptRejects = none

namespace Loop
variable (R : Rfc3339) (cfg : Config) (m : Nat)

/-- The candidate of a turn: its logical target is not left out. -/
structure Candidate (s : Loop) (target : ResolvedTarget) (rest : List ResolvedTarget) : Prop where
  pending : s.pendingTargets = target :: rest
  kept : ¬ (s.skipLogicalTarget.isSome ∧ s.skipLogicalTarget = target.routeTargetId)

/-- The attempt budget and the deadline last. -/
def Lasts (s : Loop) (t : Turn) : Prop := s.attemptsDone < m ∧ t.deadlinePassed = false

/-- The failure of an attempt; a refreshed credential is none. -/
def failedAttempt (s : Loop) (target : ResolvedTarget) :
    Upstream → Option (FailureKind × ProxyError)
  | .validated => none
  | .failed failure => some (failure.kind, failureToError failure target)
  | .invalid failure => some (failure.kind, failureToError failure target)
  | .rejected failure rotation =>
    if failure.kind = .authError ∧ target.accountId ∉ s.authRetriedAccounts then
      match rotation with
      | .refreshed => none
      | .failed cooldown => some (.authError,
          .allUnavailable "credential refresh temporarily unavailable" (some cooldown))
      | .unchanged => some (failure.kind, failureToError failure target)
      | .invalidCredential => some (failure.kind, failureToError failure target)
    else some (failure.kind, failureToError failure target)

/-- What comes of a candidate that is not passed over. -/
inductive Outcome (s : Loop) (target : ResolvedTarget) (t : Turn) :
    FailureKind → ProxyError → Prop where
  | softQuota (husable : t.Usable R target) (hquota : t.softQuotaReached = true) :
      Outcome s target t .quotaExhausted (.rateLimited "account soft quota reached" none)
  | refused (havailable : t.Available R target) {error : ProxyError}
      (hrequest : t.requestError = some error) : Outcome s target t .badRequest error
  | attempt (heligible : t.Eligible R target) (htime : t.budgetSpent = false)
      {kind : FailureKind} {error : ProxyError}
      (hfailed : s.failedAttempt target t.upstream = some (kind, error)) :
      Outcome s target t kind error

/-! ## Checks -/

/-- What the checks of a turn answer. -/
inductive CheckResult (target : ResolvedTarget) (t : Turn) : Except Leave Unit → Prop where
  | unusable (h : ¬ t.Usable R target) : CheckResult target t (.error (.skip none))
  | quotaAllowed (husable : t.Usable R target) (hquota : t.softQuotaReached = true)
      (hcan : cfg.canFallback .quotaExhausted = true) : CheckResult target t (.error (.skip none))
  | quotaDenied (husable : t.Usable R target) (hquota : t.softQuotaReached = true)
      (hcan : cfg.canFallback .quotaExhausted = false) :
      CheckResult target t (.error (.fail (.rateLimited "account soft quota reached" none)))
  | unavailable (husable : t.Usable R target) (h : ¬ t.Available R target)
      (hquota : t.softQuotaReached = false) (error : ProxyError) :
        CheckResult target t (.error (.skip (some error)))
  | refused (havailable : t.Available R target) {error : ProxyError}
      (hrequest : t.requestError = some error) : CheckResult target t (.error (.fail error))
  | ineligible (havailable : t.Available R target) (hrequest : t.requestError = none)
      (h : t.saturated ≠ none ∨ t.budgetSpent = false ∧ t.attemptRejects ≠ none)
      (error : ProxyError) : CheckResult target t (.error (.skip (some error)))
  | late (havailable : t.Available R target) (hrequest : t.requestError = none)
      (hcapacity : t.saturated = none) (htime : t.budgetSpent = true) :
      CheckResult target t (.error .stop)
  | passed (heligible : t.Eligible R target) (htime : t.budgetSpent = false) :
      CheckResult target t (.ok ())

/-- The checks from the soft quota on. -/
theorem checkResult_of_usable {target : ResolvedTarget} {t : Turn} (husable : t.Usable R target)
    {result : Except Leave Unit} (hresult : check R cfg target t = result) :
    CheckResult R cfg target t result := by
  have hfirst : ¬ (target.account.effectiveStatus R t.now ≠ .healthy ∧
      (!target.account.shouldProbe R t.later) = true) := by
    rintro ⟨hstatus, hprobe⟩
    rcases husable with h | h
    · exact hstatus h
    · simp [h] at hprobe
  replace hresult := (if_neg hfirst).symm.trans hresult
  obtain ⟨_, _, _, quota, profile, adapter, needs, circuit, credential, request, saturated, spent,
    attempt, _⟩ := t
  obtain ⟨_, _, _, _, strict⟩ := target
  -- the checks in the order of the code, each failed and then passed
  rcases quota with _ | _
  · rcases profile with e | _
    · exact hresult ▸ .unavailable husable (fun h => by cases h.profile) rfl e
    rcases adapter with e | _
    · exact hresult ▸ .unavailable husable (fun h => by cases h.adapter) rfl e
    by_cases hneeds : strict = true ∧ (!needs) = true
    · replace hresult := (if_pos hneeds).symm.trans hresult
      refine hresult ▸ .unavailable husable (fun h => ?_) rfl _
      have hneeded : needs = true := h.capabilities hneeds.1
      simp [hneeded] at hneeds
    have hcapabilities : strict = true → needs = true := by
      intro hstrict
      rwa [Bool.not_eq_true', not_and, Bool.not_eq_false, forall_prop_of_true hstrict] at hneeds
    replace hresult := (if_neg hneeds).symm.trans hresult
    rcases circuit with _ | secs
    · rcases credential with _ | _
      · exact hresult ▸ .unavailable husable (fun h => by cases h.credential) rfl _
      have havailable := Turn.Available.mk husable rfl rfl rfl hcapabilities rfl rfl
      rcases request with _ | e
      · rcases saturated with _ | detail
        · rcases spent with _ | _
          · rcases attempt with _ | secs
            · exact hresult ▸ .passed ⟨havailable, rfl, rfl, rfl⟩ rfl
            · exact hresult ▸ .ineligible havailable rfl (.inr ⟨rfl, by simp⟩) _
          · exact hresult ▸ .late havailable rfl rfl rfl
        · exact hresult ▸ .ineligible havailable rfl (.inl (by simp)) _
      · exact hresult ▸ .refused havailable rfl
    · exact hresult ▸ .unavailable husable (fun h => by cases h.circuit) rfl _
  · cases hcan : cfg.canFallback .quotaExhausted with
    | true =>
      replace hresult := (if_pos hcan).symm.trans hresult
      exact hresult ▸ .quotaAllowed husable rfl hcan
    | false =>
      replace hresult := (if_neg (Bool.eq_false_iff.mp hcan)).symm.trans hresult
      exact hresult ▸ .quotaDenied husable rfl hcan

/-- The checks of a turn. -/
theorem check_result (target : ResolvedTarget) (t : Turn) :
    CheckResult R cfg target t (check R cfg target t) := by
  by_cases husable : t.Usable R target
  · exact checkResult_of_usable R cfg husable rfl
  · have hfirst : target.account.effectiveStatus R t.now ≠ .healthy ∧
        (!target.account.shouldProbe R t.later) = true := by
      simpa [Turn.Usable] using husable
    have hskip : check R cfg target t = .error (.skip none) := if_pos hfirst
    rw [hskip]
    exact .unusable husable

section
variable {R cfg} {target : ResolvedTarget} {t : Turn} {result : Except Leave Unit}

theorem CheckResult.of_softQuota (h : CheckResult R cfg target t result)
    (husable : t.Usable R target) (hquota : t.softQuotaReached = true) :
    (cfg.canFallback .quotaExhausted = true → result = .error (.skip none)) ∧
      (cfg.canFallback .quotaExhausted = false →
        result = .error (.fail (.rateLimited "account soft quota reached" none))) := by
  cases h with
  | unusable h => exact absurd husable h
  | quotaAllowed _ _ hcan => exact ⟨fun _ => rfl, fun h => by simp [hcan] at h⟩
  | quotaDenied _ _ hcan => exact ⟨fun h => by simp [hcan] at h, fun _ => rfl⟩
  | unavailable _ _ hno _ => simp [hquota] at hno
  | refused havailable _ | ineligible havailable _ _ _ | late havailable _ _ _ =>
    simp [havailable.quota] at hquota
  | passed heligible _ => simp [heligible.available.quota] at hquota

theorem CheckResult.of_available (h : CheckResult R cfg target t result)
    (havailable : t.Available R target) :
    (∃ error, t.requestError = some error ∧ result = .error (.fail error)) ∨
      t.requestError = none ∧
        (((t.saturated ≠ none ∨ t.budgetSpent = false ∧ t.attemptRejects ≠ none) ∧
          ∃ error, result = .error (.skip (some error))) ∨
        (t.saturated = none ∧ t.budgetSpent = true ∧ result = .error .stop) ∨
        (t.Eligible R target ∧ t.budgetSpent = false ∧ result = .ok ())) := by
  cases h with
  | unusable h => exact absurd havailable.usable h
  | quotaAllowed _ hquota _ | quotaDenied _ hquota _ => simp [havailable.quota] at hquota
  | unavailable _ h _ _ => exact absurd havailable h
  | refused _ hrequest => exact .inl ⟨_, hrequest, rfl⟩
  | ineligible _ hrequest h error => exact .inr ⟨hrequest, .inl ⟨h, error, rfl⟩⟩
  | late _ hrequest hcapacity htime => exact .inr ⟨hrequest, .inr (.inl ⟨hcapacity, htime, rfl⟩)⟩
  | passed heligible htime => exact .inr ⟨heligible.request, .inr (.inr ⟨heligible, htime, rfl⟩)⟩

theorem check_of_refused (havailable : t.Available R target) {error : ProxyError}
    (hrequest : t.requestError = some error) : check R cfg target t = .error (.fail error) := by
  rcases (check_result R cfg target t).of_available havailable with ⟨e, he, h⟩ | ⟨h, _⟩
  · rwa [Option.some.inj (hrequest.symm.trans he)]
  · cases hrequest.symm.trans h

theorem check_of_eligible (heligible : t.Eligible R target) (htime : t.budgetSpent = false) :
    check R cfg target t = .ok () := by
  rcases (check_result R cfg target t).of_available heligible.available with
    ⟨e, he, _⟩ | ⟨_, ⟨h, _⟩ | ⟨_, h, _⟩ | ⟨_, _, h⟩⟩
  · cases heligible.request.symm.trans he
  · exact absurd h (by simp [heligible.capacity, heligible.attempt])
  · cases htime.symm.trans h
  · exact h

end

/-! ## Turns -/

section
variable {R cfg m} {s d : Loop} {target : ResolvedTarget} {rest : List ResolvedTarget} {t : Turn}

/-- The loop with a candidate taken off its list. -/
def taken (s : Loop) (target : ResolvedTarget) (rest : List ResolvedTarget) : Loop :=
  { s with pendingTargets := rest, allAccounts := s.allAccounts ++ [target.account] }

theorem turn_of_leave {leave : Leave} (hc : s.Candidate target rest) (hl : s.Lasts m t)
    (hcheck : check R cfg target t = .error leave) :
    (∀ error, leave = .skip error → s.turn R cfg m t =
      (.inl { s.taken target rest with lastError := error.or s.lastError }, none)) ∧
    (leave = .stop → s.turn R cfg m t =
      (.inr (.failed (allTargetsUnavailable R cfg (s.taken target rest) t.now)), none)) ∧
    ∀ error, leave = .fail error → s.turn R cfg m t = (.inr (.failed error), none) := by
  have hlasts : ¬ (m ≤ s.attemptsDone ∨ t.deadlinePassed = true) := by
    simp [hl.1, hl.2]
  refine ⟨?_, ?_, ?_⟩
  · rintro error rfl
    simp only [turn, hc.pending, if_neg hc.kept, if_neg hlasts, hcheck]
    rfl
  · rintro rfl
    simp only [turn, hc.pending, if_neg hc.kept, if_neg hlasts, hcheck]
    rfl
  · rintro error rfl
    simp only [turn, hc.pending, if_neg hc.kept, if_neg hlasts, hcheck]

theorem turn_of_dispatch (hc : s.Candidate target rest) (hl : s.Lasts m t)
    (hcheck : check R cfg target t = .ok ()) :
    s.turn R cfg m t =
      ({ s.taken target rest with attemptsDone := s.attemptsDone + 1 }.afterDispatch cfg target
        t.upstream, some target.accountId) := by
  have hlasts : ¬ (m ≤ s.attemptsDone ∨ t.deadlinePassed = true) := by
    simp [hl.1, hl.2]
  simp only [turn, hc.pending, if_neg hc.kept, if_neg hlasts, hcheck]
  rfl

theorem turn_of_not_kept (hp : s.pendingTargets = target :: rest)
    (hskip : s.skipLogicalTarget.isSome ∧ s.skipLogicalTarget = target.routeTargetId) :
    s.turn R cfg m t = (.inl { s with pendingTargets := rest }, none) := by
  simp only [turn, hp, if_pos hskip]

/-- What a failed attempt leaves behind if another candidate is tried. -/
structure Continues (d next : Loop) (error : ProxyError) : Prop where
  pending : next.pendingTargets = d.pendingTargets
  error : next.lastError = some error

/-- A failed attempt ends the request with its error, or the loop goes on. -/
theorem fallback_of_failed (kind : FailureKind) (error : ProxyError) :
    (cfg.canFallback kind = false → d.fallback cfg kind error = .inr (.failed error)) ∧
      (cfg.canFallback kind = true →
        ∃ next, d.fallback cfg kind error = .inl next ∧ d.Continues next error) := by
  constructor
  · intro hcan
    exact if_neg (Bool.eq_false_iff.mp hcan)
  · intro hcan
    exact ⟨_, if_pos hcan, rfl, rfl⟩

theorem skipTarget_of_failed (kind kind' : FailureKind) (error : ProxyError) :
    (cfg.canFallback kind = false →
      (d.skipTarget target kind').fallback cfg kind error = .inr (.failed error)) ∧
    (cfg.canFallback kind = true → ∃ next,
      (d.skipTarget target kind').fallback cfg kind error = .inl next ∧
        d.Continues next error) := by
  obtain ⟨hdenied, hallowed⟩ := fallback_of_failed (d := d.skipTarget target kind')
    kind error
  refine ⟨hdenied, fun hcan => ?_⟩
  obtain ⟨next, hnext, hcontinues⟩ := hallowed hcan
  exact ⟨next, hnext, hcontinues.pending.trans (skipTarget_eq d target kind').1, hcontinues.error⟩

/-- Each of the exits of a failed attempt decides in the same way. -/
theorem afterDispatch_of_failed {u : Upstream} {kind : FailureKind} {error : ProxyError}
    (h : d.failedAttempt target u = some (kind, error)) :
    (cfg.canFallback kind = false → d.afterDispatch cfg target u = .inr (.failed error)) ∧
      (cfg.canFallback kind = true →
        ∃ next, d.afterDispatch cfg target u = .inl next ∧ d.Continues next error) := by
  cases u with
  | validated => cases h
  | failed failure =>
    cases h
    exact fallback_of_failed _ _
  | invalid failure =>
    cases h
    exact skipTarget_of_failed _ _ _
  | rejected failure rotation =>
    simp only [afterDispatch]
    simp only [failedAttempt] at h
    by_cases hauth : failure.kind = .authError ∧ target.accountId ∉ d.authRetriedAccounts
    · rw [if_pos hauth] at h ⊢
      cases rotation with
      | refreshed => cases h
      | failed cooldown =>
        cases h
        exact fallback_of_failed _ _
      | unchanged | invalidCredential =>
        cases h
        exact skipTarget_of_failed _ _ _
    · rw [if_neg hauth] at h ⊢
      cases h
      exact skipTarget_of_failed _ _ _

/-- A dispatch that did not fail was committed, or its credential was refreshed. -/
theorem afterDispatch_of_not_failed {u : Upstream} (h : d.failedAttempt target u = none) :
    d.afterDispatch cfg target u = .inr (.committed target) ∨
      d.afterDispatch cfg target u = .inl { d with
        authRetriedAccounts := target.accountId :: d.authRetriedAccounts
        attemptsDone := d.attemptsDone - 1
        pendingTargets := target :: d.pendingTargets } := by
  cases u with
  | validated => exact .inl rfl
  | failed failure | invalid failure => cases h
  | rejected failure rotation =>
    simp only [failedAttempt] at h
    by_cases hauth : failure.kind = .authError ∧ target.accountId ∉ d.authRetriedAccounts
    · rw [if_pos hauth] at h
      cases rotation with
      | refreshed =>
        refine .inr ?_
        simp only [afterDispatch, if_pos hauth]
      | failed cooldown | unchanged | invalidCredential => cases h
    · rw [if_neg hauth] at h
      cases h

/-- What comes of a candidate decides how the loop goes on, and only that. -/
theorem turn_of_outcome (hc : s.Candidate target rest) (hl : s.Lasts m t) {kind : FailureKind}
    {error : ProxyError} (ho : s.Outcome R target t kind error) :
    (cfg.canFallback kind = false → (s.turn R cfg m t).1 = .inr (.failed error)) ∧
      (cfg.canFallback kind = true →
        ∃ next, (s.turn R cfg m t).1 = .inl next ∧ next.pendingTargets = rest) := by
  cases ho with
  | softQuota husable hquota =>
    obtain ⟨hallowed, hdenied⟩ := (check_result R cfg target t).of_softQuota husable hquota
    refine ⟨fun hcan => ?_, fun hcan => ?_⟩
    · rw [(turn_of_leave hc hl (hdenied hcan)).2.2 _ rfl]
    · rw [(turn_of_leave hc hl (hallowed hcan)).1 _ rfl]
      exact ⟨_, rfl, rfl⟩
  | refused havailable hrequest =>
    refine ⟨fun _ => ?_, fun hcan => ?_⟩
    · rw [(turn_of_leave hc hl (check_of_refused havailable hrequest)).2.2 _ rfl]
    · simp [Config.canFallback, routeAllowsFallback, FailureKind.isRetryable] at hcan
  | attempt heligible htime hfailed =>
    rw [turn_of_dispatch hc hl (check_of_eligible heligible htime)]
    obtain ⟨hdenied, hallowed⟩ := afterDispatch_of_failed
      (d := { s.taken target rest with attemptsDone := s.attemptsDone + 1 }) hfailed
    refine ⟨hdenied, fun hcan => ?_⟩
    obtain ⟨next, hnext, hcontinues⟩ := hallowed hcan
    exact ⟨next, hnext, hcontinues.pending⟩

/-- Exactly the eligible candidates are dispatched while there is time. -/
theorem turn_sent (hc : s.Candidate target rest) (hl : s.Lasts m t) :
    (t.Eligible R target ∧ t.budgetSpent = false →
      (s.turn R cfg m t).2 = some target.accountId) ∧
    (¬ (t.Eligible R target ∧ t.budgetSpent = false) → (s.turn R cfg m t).2 = none) := by
  refine ⟨fun h => ?_, fun h => ?_⟩
  · rw [turn_of_dispatch hc hl (check_of_eligible h.1 h.2)]
  · have hresult := check_result R cfg target t
    generalize hcheck : check R cfg target t = result at hresult
    have hleave : ∀ leave, check R cfg target t = .error leave → (s.turn R cfg m t).2 = none := by
      intro leave hleave
      obtain ⟨hskip, hstop, hfail⟩ := turn_of_leave hc hl hleave
      cases leave with
      | skip error => rw [hskip error rfl]
      | stop => rw [hstop rfl]
      | fail error => rw [hfail error rfl]
    cases hresult with
    | passed heligible htime => exact absurd ⟨heligible, htime⟩ h
    | unusable _ | quotaAllowed _ _ _ | quotaDenied _ _ _ | unavailable _ _ _ _ | refused _ _
    | ineligible _ _ _ _ | late _ _ _ _ => exact hleave _ hcheck

/-- A dispatch goes to an eligible candidate. -/
theorem eligible_of_sent {id : String} (h : (s.turn R cfg m t).2 = some id) :
    ∃ target rest, s.Candidate target rest ∧ s.Lasts m t ∧ t.Eligible R target ∧
      t.budgetSpent = false := by
  cases hp : s.pendingTargets with
  | nil => simp [turn, hp] at h
  | cons target rest =>
    by_cases hskip : s.skipLogicalTarget.isSome ∧ s.skipLogicalTarget = target.routeTargetId
    · rw [turn_of_not_kept hp hskip] at h
      cases h
    · by_cases hl : s.Lasts m t
      · refine ⟨target, rest, ⟨hp, hskip⟩, hl, ?_⟩
        by_contra hne
        rw [(turn_sent ⟨hp, hskip⟩ hl).2 hne] at h
        cases h
      · have hover : m ≤ s.attemptsDone ∨ t.deadlinePassed = true := by
          simpa [Lasts, imp_iff_not_or] using hl
        simp [turn, hp, hskip, hover] at h

/-- A candidate of which nothing comes makes room for the next. -/
theorem turn_passes_over (hc : s.Candidate target rest) (hl : s.Lasts m t)
    (htime : t.budgetSpent = false) (hne : ¬ t.Eligible R target)
    (hno : ∀ kind error, ¬ s.Outcome R target t kind error) :
    ∃ next, (s.turn R cfg m t).1 = .inl next ∧ next.pendingTargets = rest := by
  have hskip : ∀ error, check R cfg target t = .error (.skip error) →
      ∃ next, (s.turn R cfg m t).1 = .inl next ∧ next.pendingTargets = rest := by
    intro error hcheck
    rw [(turn_of_leave hc hl hcheck).1 error rfl]
    exact ⟨_, rfl, rfl⟩
  have hresult := check_result R cfg target t
  generalize hcheck : check R cfg target t = result at hresult
  cases hresult with
  | unusable _ | unavailable _ _ _ error | ineligible _ _ _ error => exact hskip _ hcheck
  | quotaAllowed husable hquota _ | quotaDenied husable hquota _ =>
    exact absurd (.softQuota husable hquota) (hno _ _)
  | refused havailable hrequest => exact absurd (.refused havailable hrequest) (hno _ _)
  | late _ _ _ hspent => cases htime.symm.trans hspent
  | passed heligible _ => exact absurd heligible hne

end

/-- No candidate can be dispatched any more. -/
def Exhausted (R : Rfc3339) (m : Nat) (s : Loop) (t : Turn) : Prop :=
  s.pendingTargets = [] ∨ ∃ target rest, s.Candidate target rest ∧
    (¬ s.Lasts m t ∨
      t.Available R target ∧ t.requestError = none ∧ t.saturated = none ∧ t.budgetSpent = true)

theorem turn_of_exhausted {R : Rfc3339} {cfg : Config} {m : Nat} {s : Loop} {t : Turn}
    (h : s.Exhausted R m t) : ∃ d : Loop, d.lastError = s.lastError ∧
      s.turn R cfg m t = (.inr (.failed (allTargetsUnavailable R cfg d t.now)), none) := by
  rcases h with hp | ⟨target, rest, hc, h⟩
  · refine ⟨s, rfl, ?_⟩
    simp only [turn, hp]
  · by_cases hl : s.Lasts m t
    · obtain ⟨havailable, hrequest, hcapacity, htime⟩ := h.resolve_left (not_not.mpr hl)
      have hcheck : check R cfg target t = .error .stop := by
        rcases (check_result R cfg target t).of_available havailable with
          ⟨e, he, _⟩ | ⟨_, ⟨h, _⟩ | ⟨_, _, h⟩ | ⟨_, h, _⟩⟩
        · cases hrequest.symm.trans he
        · exact absurd h (by simp [hcapacity, htime])
        · exact h
        · cases htime.symm.trans h
      exact ⟨s.taken target rest, rfl, (turn_of_leave hc hl hcheck).2.1 rfl⟩
    · have hover : m ≤ s.attemptsDone ∨ t.deadlinePassed = true := by
        simpa [Lasts, imp_iff_not_or] using hl
      refine ⟨{ s with pendingTargets := rest }, rfl, ?_⟩
      simp only [turn, hc.pending, if_neg hc.kept, if_pos hover]

/-- The error of the attempt that failed in a turn. -/
def failedTurn (R : Rfc3339) (cfg : Config) (m : Nat) (s : Loop) (t : Turn) : Option ProxyError :=
  match s.pendingTargets with
  | [] => none
  | target :: _ =>
    if (s.turn R cfg m t).2.isSome then (s.failedAttempt target t.upstream).map Prod.snd else none

theorem failedTurn_of_not_sent {R : Rfc3339} {cfg : Config} {m : Nat} {s : Loop} {t : Turn}
    (h : (s.turn R cfg m t).2 = none) : s.failedTurn R cfg m t = none := by
  rw [failedTurn]
  split
  · rfl
  · rw [if_neg (by simp [h])]

end Loop

/-- What a turn fails with in a state of the loop. -/
def State.failed (R : Rfc3339) (cfg : Config) (m : Nat) (s : State) (t : Turn) : List ProxyError :=
  s.progress.elim (fun loop => (loop.failedTurn R cfg m t).toList) fun _ => []

/-- The errors of the attempts of a run that failed. -/
def failures (R : Rfc3339) (cfg : Config) (targets : List ResolvedTarget) :
    List Turn → List ProxyError :=
  (attemptLoop R cfg targets).emitted (State.failed R cfg (cfg.maxAttempts targets.length))

/-- The candidate is not passed over with an error of its own, only for the state of its account. -/
structure Turn.Silent (R : Rfc3339) (target : ResolvedTarget) (t : Turn) : Prop where
  available : t.Usable R target → t.softQuotaReached = false → t.Available R target
  capacity : t.Available R target → t.requestError = none → t.saturated = none
  attempt : t.Available R target → t.requestError = none → t.budgetSpent = false →
    t.attemptRejects = none

theorem Turn.Silent.check_ne {R : Rfc3339} {cfg : Config} {target : ResolvedTarget} {t : Turn}
    (h : t.Silent R target) (error : ProxyError) :
    Loop.check R cfg target t ≠ .error (.skip (some error)) := by
  intro hcheck
  have hresult := Loop.check_result R cfg target t
  rw [hcheck] at hresult
  cases hresult with
  | unavailable husable hno hquota => exact hno (h.available husable hquota)
  | ineligible havailable hrequest hno =>
    rcases hno with hno | ⟨htime, hno⟩
    · exact hno (h.capacity havailable hrequest)
    · exact hno (h.attempt havailable hrequest htime)

section
variable {R : Rfc3339} {cfg : Config} {targets : List ResolvedTarget} {m : Nat}

/-- After a failed attempt, candidates are passed over silently. -/
def KeepsError (R : Rfc3339) (cfg : Config) (targets : List ResolvedTarget) (pre : List Turn)
    (s : State) (t : Turn) : Prop :=
  failures R cfg targets pre ≠ [] → ∀ loop target rest, s.progress = .inl loop →
    loop.Candidate target rest → loop.Lasts (cfg.maxAttempts targets.length) t → t.Silent R target

/-- The last error is that of the last failed attempt, if there was one. -/
def LastErrorKept (R : Rfc3339) (cfg : Config) (targets : List ResolvedTarget) (ts : List Turn)
    (s : State) : Prop :=
  ∀ loop, s.progress = .inl loop → ∀ error, (failures R cfg targets ts).getLast? = some error →
    loop.lastError = some error

variable {t : Turn} {s : State}

/-- What a turn does to the last error. -/
theorem Loop.turn_lastError {s next : Loop} (h : (s.turn R cfg m t).1 = .inl next) :
    (s.failedTurn R cfg m t = none ∧ (next.lastError = s.lastError ∨ ∃ target rest error,
      s.Candidate target rest ∧ s.Lasts m t ∧
        check R cfg target t = .error (.skip (some error)))) ∨
    ∃ error, s.failedTurn R cfg m t = some error ∧ next.lastError = some error := by
  cases hp : s.pendingTargets with
  | nil => simp [turn, hp] at h
  | cons target rest =>
    by_cases hskip : s.skipLogicalTarget.isSome ∧ s.skipLogicalTarget = target.routeTargetId
    · have hturn := @turn_of_not_kept R cfg m s target rest t hp hskip
      refine .inl ⟨failedTurn_of_not_sent (by rw [hturn]), .inl ?_⟩
      rw [hturn] at h
      cases h
      rfl
    · have hc : s.Candidate target rest := ⟨hp, hskip⟩
      by_cases hl : s.Lasts m t
      · cases hcheck : check R cfg target t with
        | error leave =>
          obtain ⟨hleave, hstop, hfail⟩ := turn_of_leave hc hl hcheck
          cases leave with
          | skip error =>
            have hturn := hleave error rfl
            refine .inl ⟨failedTurn_of_not_sent (by rw [hturn]), ?_⟩
            rw [hturn] at h
            cases h
            cases error with
            | none => exact .inl rfl
            | some error => exact .inr ⟨target, rest, error, hc, hl, hcheck⟩
          | stop =>
            rw [hstop rfl] at h
            cases h
          | fail error =>
            rw [hfail error rfl] at h
            cases h
        | ok _ =>
          have hturn := turn_of_dispatch hc hl hcheck
          have hfailed : s.failedTurn R cfg m t =
              (s.failedAttempt target t.upstream).map Prod.snd := by
            simp [failedTurn, hp, hturn]
          rw [hturn] at h
          rw [hfailed]
          cases hf : s.failedAttempt target t.upstream with
          | none =>
            refine .inl ⟨rfl, .inl ?_⟩
            rcases afterDispatch_of_not_failed
              (d := { s.taken target rest with attemptsDone := s.attemptsDone + 1 }) hf
              with hcommitted | hrefreshed
            · rw [hcommitted] at h
              cases h
            · rw [hrefreshed] at h
              cases h
              rfl
          | some failed =>
            obtain ⟨kind, error⟩ := failed
            obtain ⟨hdenied, hallowed⟩ := afterDispatch_of_failed
              (d := { s.taken target rest with attemptsDone := s.attemptsDone + 1 }) hf
            refine .inr ⟨error, rfl, ?_⟩
            cases hcan : cfg.canFallback kind with
            | false =>
              rw [hdenied hcan] at h
              cases h
            | true =>
              obtain ⟨next', hnext, hcontinues⟩ := hallowed hcan
              rw [hnext] at h
              cases h
              exact hcontinues.error
      · have hover : m ≤ s.attemptsDone ∨ t.deadlinePassed = true := by
          simpa [Lasts, imp_iff_not_or] using hl
        simp [turn, hp, hskip, hover] at h

/-- A step of the machine is a turn of its loop. -/
theorem State.step_eq_some {s s' : State} (h : s.step R cfg m t = some s') :
    ∃ loop, s.progress = .inl loop ∧ s'.progress = (loop.turn R cfg m t).1 ∧
      s'.dispatched = (loop.turn R cfg m t).2.toList ++ s.dispatched := by
  cases hs : s.progress with
  | inr e => simp [State.step, hs] at h
  | inl loop =>
    simp only [State.step, hs, Option.some.injEq] at h
    subst h
    exact ⟨loop, rfl, rfl, rfl⟩

/-- The run leads to a turn of the loop. -/
def Reaches (R : Rfc3339) (cfg : Config) (targets : List ResolvedTarget) (ts : List Turn)
    (loop : Loop) : Prop :=
  ∃ s, (attemptLoop R cfg targets).run ts = some s ∧ s.progress = .inl loop

theorem failures_snoc {ts : List Turn} {loop : Loop} (h : Reaches R cfg targets ts loop)
    (hrun : (attemptLoop R cfg targets).run (ts ++ [t]) = some s) :
    failures R cfg targets (ts ++ [t]) = failures R cfg targets ts ++
      (loop.failedTurn R cfg (cfg.maxAttempts targets.length) t).toList := by
  obtain ⟨before, hbefore, hloop⟩ := h
  obtain ⟨before', hbefore', hstep⟩ := (attemptLoop R cfg targets).run_snoc_eq_some.mp hrun
  cases hbefore.symm.trans hbefore'
  rw [failures, (attemptLoop R cfg targets).emitted_snoc _ hbefore hstep, State.failed, hloop]
  rfl

theorem lastErrorKept_of_run {ts : List Turn}
    (hmeets : (attemptLoop R cfg targets).Meets (KeepsError R cfg targets) ts)
    (hrun : (attemptLoop R cfg targets).run ts = some s) : LastErrorKept R cfg targets ts s := by
  refine ((attemptLoop R cfg targets).run_induction_of_meets
    (I := fun ts s => (attemptLoop R cfg targets).run ts = some s ∧
      LastErrorKept R cfg targets ts s)
    ?_ ?_ ts s hmeets hrun).2
  · refine ⟨rfl, fun loop _ error herror => ?_⟩
    cases herror
  · rintro ts s t s' ⟨hrun, hkept⟩ hcond hstep
    refine ⟨(attemptLoop R cfg targets).run_snoc_eq_some.mpr ⟨s, hrun, hstep⟩, ?_⟩
    intro next hnext error herror
    obtain ⟨loop, hs, hprogress, -⟩ := State.step_eq_some hstep
    have hturn := hprogress.symm.trans hnext
    rw [failures_snoc ⟨s, hrun, hs⟩
      ((attemptLoop R cfg targets).run_snoc_eq_some.mpr ⟨s, hrun, hstep⟩)] at herror
    rcases Loop.turn_lastError hturn with ⟨hfailed, hlast⟩ | ⟨e, hfailed, hlast⟩
    · rw [hfailed, Option.toList_none, List.append_nil] at herror
      have hsome : failures R cfg targets ts ≠ [] := by
        rintro hnil
        simp [hnil] at herror
      rcases hlast with hlast | ⟨target, rest, e, hc, hl, hcheck⟩
      · exact hlast.trans (hkept loop hs error herror)
      · exact absurd hcheck ((hcond hsome loop target rest hs hc hl).check_ne e)
    · rw [hfailed, Option.toList_some, List.getLast?_concat] at herror
      exact hlast.trans herror

/-! ## Runs -/

/-- Fallback stops exactly when it must: in every turn of a run that takes a candidate while the
budget and the deadline last, and at its end. -/
structure StopsWhenItMust (R : Rfc3339) (cfg : Config) (targets : List ResolvedTarget)
    (ts : List Turn) (s : State) : Prop where
  /-- After an outcome for which fallback is denied the client gets its error, and nothing else is
  dispatched. -/
  denied : ∀ pre t post loop target rest kind error, ts = pre ++ t :: post →
    Reaches R cfg targets pre loop → loop.Candidate target rest →
    loop.Lasts (cfg.maxAttempts targets.length) t → loop.Outcome R target t kind error →
    cfg.canFallback kind = false → post = [] ∧ s.progress = .inr (.failed error)
  /-- After any other outcome the next candidates follow. -/
  allowed : ∀ pre t post loop target rest kind error, ts = pre ++ t :: post →
    Reaches R cfg targets pre loop → loop.Candidate target rest →
    loop.Lasts (cfg.maxAttempts targets.length) t → loop.Outcome R target t kind error →
    cfg.canFallback kind = true →
    ∃ next, Reaches R cfg targets (pre ++ [t]) next ∧ next.pendingTargets = rest
  /-- A candidate is dispatched exactly if it is eligible and there is time. -/
  dispatched : ∀ pre t post loop target rest before after, ts = pre ++ t :: post →
    (attemptLoop R cfg targets).run pre = some before → before.progress = .inl loop →
    (attemptLoop R cfg targets).run (pre ++ [t]) = some after → loop.Candidate target rest →
    loop.Lasts (cfg.maxAttempts targets.length) t →
    (t.Eligible R target ∧ t.budgetSpent = false →
      after.dispatched = target.accountId :: before.dispatched) ∧
    (¬ (t.Eligible R target ∧ t.budgetSpent = false) → after.dispatched = before.dispatched)
  /-- A candidate that is not eligible, and of which nothing else comes, makes room for the next. -/
  passedOver : ∀ pre t post loop target rest, ts = pre ++ t :: post →
    Reaches R cfg targets pre loop → loop.Candidate target rest →
    loop.Lasts (cfg.maxAttempts targets.length) t → t.budgetSpent = false →
    ¬ t.Eligible R target → (∀ kind error, ¬ loop.Outcome R target t kind error) →
    ∃ next, Reaches R cfg targets (pre ++ [t]) next ∧ next.pendingTargets = rest
  /-- So does a candidate of the logical target that failed last, without an error of its own. -/
  leftOut : ∀ pre t post loop target rest, ts = pre ++ t :: post →
    Reaches R cfg targets pre loop → loop.pendingTargets = target :: rest →
    loop.skipLogicalTarget.isSome ∧ loop.skipLogicalTarget = target.routeTargetId →
    ∃ next, Reaches R cfg targets (pre ++ [t]) next ∧ next.pendingTargets = rest ∧
      next.lastError = loop.lastError
  /-- After the refresh of a credential the same candidate is next, and the attempt is
  given back. -/
  refreshed : ∀ pre t post loop target rest failure, ts = pre ++ t :: post →
    Reaches R cfg targets pre loop → loop.Candidate target rest →
    loop.Lasts (cfg.maxAttempts targets.length) t → t.Eligible R target → t.budgetSpent = false →
    t.upstream = .rejected failure .refreshed → failure.kind = .authError →
    target.accountId ∉ loop.authRetriedAccounts →
    ∃ next, Reaches R cfg targets (pre ++ [t]) next ∧ next.pendingTargets = target :: rest ∧
      next.attemptsDone = loop.attemptsDone
  /-- A credential is refreshed once for each account. -/
  once : s.refreshed.Nodup
  /-- When the candidates are used up, the client gets the error of the last failed attempt. -/
  exhausted : ∀ pre t loop error, ts = pre ++ [t] → Reaches R cfg targets pre loop →
    loop.Exhausted R (cfg.maxAttempts targets.length) t →
    (failures R cfg targets ts).getLast? = some error → s.progress = .inr (.failed error)

/-- The turn that a run takes where it leads to. -/
theorem Reaches.turn {pre post : List Turn} {loop : Loop} (h : Reaches R cfg targets pre loop)
    (hrun : (attemptLoop R cfg targets).run (pre ++ t :: post) = some s) :
    ∃ after, (attemptLoop R cfg targets).run (pre ++ [t]) = some after ∧
      (attemptLoop R cfg targets).runFrom after post = some s ∧
      after.progress = (loop.turn R cfg (cfg.maxAttempts targets.length) t).1 := by
  obtain ⟨before, hbefore, hloop⟩ := h
  rw [← List.singleton_append, ← List.append_assoc] at hrun
  obtain ⟨after, hafter, hrest⟩ := (attemptLoop R cfg targets).run_of_append hrun
  refine ⟨after, hafter, hrest, ?_⟩
  obtain ⟨before', hbefore', hstep⟩ := (attemptLoop R cfg targets).run_snoc_eq_some.mp hafter
  cases hbefore.symm.trans hbefore'
  obtain ⟨loop', hloop', hprogress, -⟩ := State.step_eq_some hstep
  cases hloop.symm.trans hloop'
  exact hprogress

/-- Nothing follows the end of the loop. -/
theorem nil_of_ended {s s' : State} {post : List Turn} {e : Ending} (hs : s.progress = .inr e)
    (h : (attemptLoop R cfg targets).runFrom s post = some s') : post = [] ∧ s' = s := by
  cases post with
  | nil =>
    cases h
    exact ⟨rfl, rfl⟩
  | cons t post => simp [Machine.runFrom, attemptLoop, State.step, hs] at h

/-- A run in which candidates are passed over silently after a failed attempt stops exactly when it
must. -/
theorem fallback_stops_when_it_must (R : Rfc3339) (cfg : Config) (targets : List ResolvedTarget)
    (ts : List Turn) (s : State) (hrun : (attemptLoop R cfg targets).run ts = some s)
    (hmeets : (attemptLoop R cfg targets).Meets (KeepsError R cfg targets) ts) :
    StopsWhenItMust R cfg targets ts s where
  denied pre t post loop target rest kind error hts hreach hc hl ho hcan := by
    subst hts
    obtain ⟨after, _, hrest, hprogress⟩ := hreach.turn hrun
    rw [(Loop.turn_of_outcome hc hl ho).1 hcan] at hprogress
    obtain ⟨hpost, rfl⟩ := nil_of_ended hprogress hrest
    exact ⟨hpost, hprogress⟩
  allowed pre t post loop target rest kind error hts hreach hc hl ho hcan := by
    subst hts
    obtain ⟨after, hafter, _, hprogress⟩ := hreach.turn hrun
    obtain ⟨next, hnext, hpending⟩ := (Loop.turn_of_outcome hc hl ho).2 hcan
    exact ⟨next, ⟨after, hafter, hprogress.trans hnext⟩, hpending⟩
  dispatched pre t post loop target rest before after hts hbefore hloop hafter hc hl := by
    obtain ⟨before', hbefore', hstep⟩ := (attemptLoop R cfg targets).run_snoc_eq_some.mp hafter
    cases hbefore.symm.trans hbefore'
    obtain ⟨loop', hloop', -, hsent⟩ := State.step_eq_some hstep
    cases hloop.symm.trans hloop'
    obtain ⟨heligible, hnot⟩ := Loop.turn_sent hc hl
    refine ⟨fun h => ?_, fun h => ?_⟩
    · rw [hsent, heligible h]
      rfl
    · rw [hsent, hnot h]
      rfl
  passedOver pre t post loop target rest hts hreach hc hl htime hne hno := by
    subst hts
    obtain ⟨after, hafter, _, hprogress⟩ := hreach.turn hrun
    obtain ⟨next, hnext, hpending⟩ := Loop.turn_passes_over hc hl htime hne hno
    exact ⟨next, ⟨after, hafter, hprogress.trans hnext⟩, hpending⟩
  leftOut pre t post loop target rest hts hreach hpending hskip := by
    subst hts
    obtain ⟨after, hafter, _, hprogress⟩ := hreach.turn hrun
    rw [Loop.turn_of_not_kept hpending hskip] at hprogress
    exact ⟨_, ⟨after, hafter, hprogress⟩, rfl, rfl⟩
  refreshed pre t post loop target rest failure hts hreach hc hl heligible htime hupstream hkind
      hnew := by
    subst hts
    obtain ⟨after, hafter, _, hprogress⟩ := hreach.turn hrun
    rw [Loop.turn_of_dispatch hc hl (Loop.check_of_eligible heligible htime),
      hupstream] at hprogress
    have hauth : failure.kind = .authError ∧
        target.accountId ∉ (loop.taken target rest).authRetriedAccounts := ⟨hkind, hnew⟩
    simp only [Loop.afterDispatch, if_pos hauth] at hprogress
    exact ⟨_, ⟨after, hafter, hprogress⟩, rfl, Nat.add_sub_cancel _ _⟩
  once := (counted_of_run hrun).nodup
  exhausted pre t loop error hts hreach hexhausted herror := by
    subst hts
    obtain ⟨after, hafter, hrest, hprogress⟩ := hreach.turn hrun
    cases hafter.symm.trans hrun
    obtain ⟨d, hd, hturn⟩ := Loop.turn_of_exhausted hexhausted
    have hfailures := failures_snoc hreach hrun
    rw [Loop.failedTurn_of_not_sent (by rw [hturn]), Option.toList_none,
      List.append_nil] at hfailures
    obtain ⟨before, hbefore, hloop⟩ := hreach
    have hlast := lastErrorKept_of_run (hmeets.of_append _) hbefore loop hloop error
      (hfailures ▸ herror)
    rw [hprogress, hturn]
    simp only [allTargetsUnavailable, hd, hlast]

end

/-- A rate limit of an account. -/
def exampleRateLimited : UpstreamFailure where
  kind := .rateLimit
  status := some 429
  retryAfterSecs := some 7
  message := "slow down"
  quotaResetAt := none

theorem exampleTurn_silent (upstream : Upstream) (target : ResolvedTarget) :
    (exampleTurn upstream).Silent exampleTimes target :=
  ⟨fun husable _ => ⟨husable, rfl, rfl, rfl, fun _ => rfl, rfl, rfl⟩, fun _ _ => rfl,
    fun _ _ _ => rfl⟩

/-- Two accounts that are rate limited, and the client that gets the second one's error. -/
theorem fallback_stops_after_rate_limits :
    ∃ s, (attemptLoop exampleTimes ⟨none, "m", true⟩ [exampleTarget "a", exampleTarget "b"]).run
        [exampleTurn (.failed exampleAuthError), exampleTurn (.failed exampleRateLimited),
          exampleTurn .validated] = some s ∧
      s.progress = .inr (.failed (.rateLimited "slow down" (some 7))) ∧
      StopsWhenItMust exampleTimes ⟨none, "m", true⟩ [exampleTarget "a", exampleTarget "b"]
        [exampleTurn (.failed exampleAuthError), exampleTurn (.failed exampleRateLimited),
          exampleTurn .validated] s := by
  refine ⟨_, rfl, rfl, fallback_stops_when_it_must _ _ _ _ _ rfl ?_⟩
  intro pre t post s hts _ _ loop target rest _ _ _
  have hmem : t ∈ [exampleTurn (.failed exampleAuthError),
      exampleTurn (.failed exampleRateLimited), exampleTurn .validated] := by
    rw [hts]
    simp
  simp only [List.mem_cons, List.not_mem_nil, or_false] at hmem
  obtain rfl | rfl | rfl := hmem <;> exact exampleTurn_silent _ _

/-- The first account is rate limited and the provider circuit of the second is open: the client is
told of the circuit, not of the rate limit. -/
theorem circuit_reject_hides_rate_limit :
    ∃ s, (attemptLoop exampleTimes ⟨none, "m", true⟩ [exampleTarget "a", exampleTarget "b"]).run
        [exampleTurn (.failed exampleRateLimited),
          { exampleTurn .validated with circuitRejects := some 30 }, exampleTurn .validated] =
        some s ∧
      ¬ StopsWhenItMust exampleTimes ⟨none, "m", true⟩ [exampleTarget "a", exampleTarget "b"]
        [exampleTurn (.failed exampleRateLimited),
          { exampleTurn .validated with circuitRejects := some 30 }, exampleTurn .validated] s := by
  refine ⟨_, rfl, fun h => ?_⟩
  have hlast := h.exhausted [exampleTurn (.failed exampleRateLimited),
    { exampleTurn .validated with circuitRejects := some 30 }] (exampleTurn .validated) _
    (.rateLimited "slow down" (some 7)) rfl ⟨_, rfl, rfl⟩ (.inl rfl) rfl
  cases hlast

end Kinetix.Pipeline
