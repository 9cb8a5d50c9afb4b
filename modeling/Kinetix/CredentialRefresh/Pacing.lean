import Kinetix.CredentialRefresh.Schedule

/-!
# The pace of the renewals

What every order of accesses to the map of schedules keeps, at instants of any order. A successful
rotation puts the next attempt in the future. A claim holds for a minute as long as nothing is
learnt about the lease: a success, a failure, another secret or other timing hints make it stale,
and an account that is removed or whose credential has no times has no schedule at all. The delay
after a failure and the number of failures outlast every observation of a credential that has times.
-/

namespace Kinetix.CredentialRefresh
open Clock

variable (env : Env) {schedules : Schedules} {key : CredentialKey} {e : LeaseSchedule}

/-- An access to the map of schedules, at the instant that it reads. -/
inductive Access where
  | observe (key : CredentialKey) (credential : ResolvedCredential) (now : Int)
  | observeRefreshed (key : CredentialKey) (credential : ResolvedCredential) (now : Int)
  | observeSuccessfulRotation (key : CredentialKey) (credential : ResolvedCredential) (now : Int)
  | recordFailure (key : CredentialKey) (error : CredentialRotationError) (now : Int)
  | claimDue (now : Int)
  | forget (key : CredentialKey)

def Access.apply (s : Schedules) : Access → Schedules
  | .observe key credential now => s.observe env key credential now
  | .observeRefreshed key credential now => s.observeRefreshed env key credential now
  | .observeSuccessfulRotation key credential now =>
    s.observeSuccessfulRotation env key credential now
  | .recordFailure key error now => s.recordFailure key error now
  | .claimDue now => s.claimDue now
  | .forget key => Function.update s key none

/-- The map after some accesses. -/
def Schedules.after (s : Schedules) (accesses : List Access) : Schedules :=
  accesses.foldl (Access.apply env) s

/-- The account that an access is about, if it is about one. -/
def Access.key? : Access → Option CredentialKey
  | .observe key _ _ | .observeRefreshed key _ _ | .observeSuccessfulRotation key _ _
  | .recordFailure key _ _ | .forget key => some key
  | .claimDue _ => none

/-! ## What an access leaves alone -/

theorem storeSchedule_of_ne {other : CredentialKey} (h : other ≠ key)
    (credential : ResolvedCredential) (resetFailures : Bool) (now : Int) (notBefore : Option Int) :
    schedules.storeSchedule env other credential resetFailures now notBefore key =
      schedules key := by
  unfold Schedules.storeSchedule
  cases scheduleFromCredential env credential now with
  | none | some schedule => exact Function.update_of_ne h.symm _ _

variable {credential : ResolvedCredential} {identity : LeaseIdentity} {t now : Int} {a : Access}

/-- An access about another account leaves the schedule of an account as it is. -/
theorem apply_of_ne {other : CredentialKey} (hother : a.key? = some other) (h : other ≠ key) :
    a.apply env schedules key = schedules key := by
  cases a with
  | claimDue now => cases hother
  | forget k | recordFailure k error now =>
    obtain rfl := Option.some.inj hother
    exact Function.update_of_ne h.symm _ _
  | observe k credential now | observeRefreshed k credential now
  | observeSuccessfulRotation k credential now =>
    obtain rfl := Option.some.inj hother
    exact storeSchedule_of_ne env h ..

/-- A property of the schedule of an account that each access keeps holds after any number of
them. -/
theorem after_keeps {P : LeaseSchedule → Prop} {accesses : List Access}
    (hstep : ∀ a ∈ accesses, ∀ (s : Schedules) (e : LeaseSchedule), s key = some e → P e →
      ∃ e', a.apply env s key = some e' ∧ P e')
    (he : schedules key = some e) (hP : P e) :
    ∃ e', schedules.after env accesses key = some e' ∧ P e' := by
  induction accesses generalizing schedules e with
  | nil => exact ⟨e, he, hP⟩
  | cons a accesses ih =>
    obtain ⟨e', he', hP'⟩ := hstep a List.mem_cons_self schedules e he hP
    exact ih (fun b hb => hstep b (List.mem_cons_of_mem a hb)) he' hP'

/-! ## The floor -/

theorem le_applyMinimumRetryFloor (now floor : Int) :
    e.nextAttemptAt ≤ (e.applyMinimumRetryFloor now floor).nextAttemptAt := by
  unfold LeaseSchedule.applyMinimumRetryFloor
  split
  · exact le_rfl
  · exact le_max_left _ _

/-- A floor in the future puts the next attempt there. -/
theorem lt_applyMinimumRetryFloor {now floor : Int} (h : now < floor) :
    now < (e.applyMinimumRetryFloor now floor).nextAttemptAt := by
  unfold LeaseSchedule.applyMinimumRetryFloor
  split
  · assumption
  · refine lt_of_lt_of_le ?_ (le_max_right _ _)
    split
    · split
      · exact lt_min h (by assumption)
      · exact h
    · exact h

theorem applyMinimumRetryFloor_keeps (now floor : Int) :
    (e.applyMinimumRetryFloor now floor).failures = e.failures ∧
      (e.applyMinimumRetryFloor now floor).leaseIdentity = e.leaseIdentity ∧
        (e.applyMinimumRetryFloor now floor).claimUntil = e.claimUntil := by
  unfold LeaseSchedule.applyMinimumRetryFloor
  split <;> exact ⟨rfl, rfl, rfl⟩

/-- After a successful rotation the next attempt is in the future. -/
theorem lt_nextAttemptAt_of_rotation {now : Int}
    (h : schedules.observeSuccessfulRotation env key credential now key = some e) :
    now < e.nextAttemptAt := by
  have hfloor : now < now + seconds minSuccessfulRefreshIntervalSecs :=
    lt_add_of_pos_right now (by decide)
  unfold Schedules.observeSuccessfulRotation Schedules.storeSchedule at h
  cases hs : scheduleFromCredential env credential now with
  | none => simp [hs] at h
  | some schedule =>
    simp only [hs, Option.isSome_some, Bool.or_true, if_true, Option.getD_some,
      Function.update_self, Option.some.injEq] at h
    rw [← h]
    exact lt_applyMinimumRetryFloor hfloor

/-! ## Observation -/

/-- The times of a credential can be read: it has a schedule. -/
def Tracked (credential : ResolvedCredential) : Prop :=
  (credential.refreshAfter.bind env.parseDt).isSome ∨
    (credential.expiresAt.bind env.parseDt).isSome

/-- What identifies the lease of a credential. -/
def leaseIdentity (credential : ResolvedCredential) : LeaseIdentity where
  expiresAt := credential.expiresAt.bind env.parseDt
  refreshAfter := credential.refreshAfter.bind env.parseDt
  secretFingerprint := env.sha.hex credential.secret

/-- A credential has a schedule exactly if one of its times can be read. -/
theorem scheduleFromCredential_isSome_iff (credential : ResolvedCredential) (now : Int) :
    (scheduleFromCredential env credential now).isSome ↔ Tracked env credential := by
  unfold scheduleFromCredential Tracked
  cases credential.refreshAfter.bind env.parseDt <;>
    cases credential.expiresAt.bind env.parseDt <;> simp

theorem scheduleFromCredential_leaseIdentity {now : Int} {schedule : LeaseSchedule}
    (h : scheduleFromCredential env credential now = some schedule) :
    schedule.leaseIdentity = leaseIdentity env credential := by
  simp only [scheduleFromCredential, Option.map_eq_some_iff] at h
  obtain ⟨requested, -, rfl⟩ := h
  rfl

/-- An ordinary observation merges the schedule of the credential with the one that is there, and
may apply the floor to it. -/
theorem observe_self (now : Int) (ht : Tracked env credential) (he : schedules key = some e) :
    ∃ schedule, scheduleFromCredential env credential now = some schedule ∧
      schedules.observe env key credential now key =
        some (if (schedule.merge e false).2 then
          (schedule.merge e false).1.applyMinimumRetryFloor now
            (now + seconds minSuccessfulRefreshIntervalSecs)
        else (schedule.merge e false).1) := by
  obtain ⟨schedule, hs⟩ := Option.isSome_iff_exists.mp
    ((scheduleFromCredential_isSome_iff env credential now).mpr ht)
  refine ⟨schedule, hs, ?_⟩
  simp [Schedules.observe, Schedules.storeSchedule, hs, he]

/-! ## Claims -/

/-- An access that tells nothing new about the lease of an account: it is about another account, it
claims what is due, or it observes a credential with the secret and the times of the lease. -/
def Access.Confirms (key : CredentialKey) (identity : LeaseIdentity) (a : Access) : Prop :=
  match a with
  | .claimDue _ => True
  | .observe k credential _ =>
    k = key → Tracked env credential ∧ leaseIdentity env credential = identity
  | .observeRefreshed k _ _ | .observeSuccessfulRotation k _ _ | .recordFailure k _ _
  | .forget k => k ≠ key

/-- The lease is the same, and is claimed until an instant or later. -/
def ClaimedUntil (identity : LeaseIdentity) (t : Int) (e : LeaseSchedule) : Prop :=
  e.leaseIdentity = identity ∧ ∃ u, e.claimUntil = some u ∧ t ≤ u

theorem merge_claimUntil {schedule : LeaseSchedule}
    (h : schedule.leaseIdentity = e.leaseIdentity) :
    schedule.merge e false = ({ schedule with
      nextAttemptAt := e.nextAttemptAt, failures := e.failures, claimUntil := e.claimUntil },
        false) := by
  simp [LeaseSchedule.merge, h]

theorem observe_claimedUntil (ht : Tracked env credential)
    (hidentity : leaseIdentity env credential = identity) (he : schedules key = some e)
    (h : ClaimedUntil identity t e) :
    ∃ e', schedules.observe env key credential now key = some e' ∧ ClaimedUntil identity t e' := by
  obtain ⟨hsame, u, hu, htu⟩ := h
  obtain ⟨schedule, hs, hobserve⟩ := observe_self env now ht he
  have hlease := (scheduleFromCredential_leaseIdentity env hs).trans hidentity
  rw [merge_claimUntil (hlease.trans hsame.symm)] at hobserve
  exact ⟨_, hobserve, hlease, u, hu, htu⟩

theorem claimDue_claimedUntil (he : schedules key = some e) (h : ClaimedUntil identity t e) :
    ∃ e', schedules.claimDue now key = some e' ∧ ClaimedUntil identity t e' := by
  obtain ⟨hsame, u, hu, htu⟩ := h
  refine ⟨if e.due now then { e with claimUntil := some (now + seconds claimGraceSecs) } else e,
    by simp [Schedules.claimDue, he], ?_⟩
  split
  · -- Another claim is only made when the earlier one has ended.
    rename_i hdue
    have hended : ¬ now < u := by
      simp only [LeaseSchedule.due, hu, Option.any_some, Bool.and_eq_true] at hdue
      simpa using hdue.2
    have hlater : now ≤ now + seconds claimGraceSecs := le_add_of_nonneg_right (by decide)
    exact ⟨hsame, _, rfl, htu.trans ((not_lt.mp hended).trans hlater)⟩
  · exact ⟨hsame, u, hu, htu⟩

theorem apply_claimedUntil {t : Int} (ha : a.Confirms env key identity)
    (he : schedules key = some e) (h : ClaimedUntil identity t e) :
    ∃ e', a.apply env schedules key = some e' ∧ ClaimedUntil identity t e' := by
  have hother : ∀ k, a.key? = some k → k ≠ key →
      ∃ e', a.apply env schedules key = some e' ∧ ClaimedUntil identity t e' :=
    fun k hk hne => ⟨e, (apply_of_ne env hk hne).trans he, h⟩
  cases a with
  | claimDue now => exact claimDue_claimedUntil he h
  | observe k credential now =>
    by_cases hk : k = key
    · subst hk
      obtain ⟨ht, hidentity⟩ := ha rfl
      exact observe_claimedUntil env ht hidentity he h
    · exact hother k rfl hk
  | observeRefreshed k credential now | observeSuccessfulRotation k credential now
  | recordFailure k error now | forget k => exact hother k rfl ha

/-- A claim makes a lease claimed for a minute. -/
theorem claimDue_of_due {now : Int} (he : schedules key = some e) (h : e.due now) :
    ∃ e', schedules.claimDue now key = some e' ∧
      ClaimedUntil e.leaseIdentity (now + seconds claimGraceSecs) e' := by
  refine ⟨{ e with claimUntil := some (now + seconds claimGraceSecs) },
    by simp [Schedules.claimDue, he, h], rfl, _, rfl, le_rfl⟩

/-- After a successful rotation the next attempt is in the future, and between two claims of a lease
of which nothing new is learnt a minute passes. -/
theorem scheduled_refresh_paced (schedules : Schedules) (key : CredentialKey) :
    (∀ (credential : ResolvedCredential) (now : Int) (e : LeaseSchedule),
      schedules.observeSuccessfulRotation env key credential now key = some e →
        now < e.nextAttemptAt) ∧
    ∀ (first second : Int) (accesses : List Access) (e e' : LeaseSchedule),
      schedules key = some e → e.due first →
      (∀ a ∈ accesses, a.Confirms env key e.leaseIdentity) →
      (schedules.claimDue first).after env accesses key = some e' → e'.due second →
        first + seconds 60 ≤ second := by
  constructor
  · intro credential now e h
    exact lt_nextAttemptAt_of_rotation env h
  · intro first second accesses e e' he hdue hconfirms he' hdue'
    obtain ⟨claimed, hclaimed, huntil⟩ := claimDue_of_due he hdue
    obtain ⟨last, hlast, -, u, hu, hle⟩ := after_keeps env
      (fun a ha s e he hP => apply_claimedUntil env (hconfirms a ha) he hP) hclaimed huntil
    obtain rfl := Option.some.inj (hlast.symm.trans he')
    simp only [LeaseSchedule.due, hu, Option.any_some, Bool.and_eq_true] at hdue'
    have hended : u ≤ second := by simpa using hdue'.2
    exact hle.trans hended

/-- Digests and times of the examples. -/
def pacingEnv : Env where
  sha := .ofTable
    { digests := [("secret", "2bb80d537b1da3e38bd30361aa855686bde0eacd7162fef6a25fe97bf527a25b")]
      injective := by decide
      hex := by decide
      nonempty := by decide }
  parseDt s :=
    if s = "1970-01-01T00:00:00Z" then some 0
    else if s = "1970-01-01T00:00:10Z" then some (seconds 10)
    else none

def pacingKey : CredentialKey := ⟨"p1", "a1"⟩

/-- A credential that is to be refreshed after a time. -/
def refreshableAfter (time : String) : ResolvedCredential := ⟨"secret", none, some time, false⟩

/-- A lease that has been due from the start. -/
def dueLease : Schedules :=
  Schedules.after pacingEnv (fun _ => none)
    [.observe pacingKey (refreshableAfter "1970-01-01T00:00:00Z") 0]

theorem scheduled_refresh_paced_due : (0 : Int) + seconds 60 ≤ seconds 60 :=
  (scheduled_refresh_paced pacingEnv dueLease pacingKey).2 0 (seconds 60)
    [.observe pacingKey (refreshableAfter "1970-01-01T00:00:00Z") (seconds 5),
      .claimDue (seconds 9)]
    _ _ rfl rfl
    (by
      intro a ha
      rcases List.mem_pair.mp ha with rfl | rfl
      · exact fun _ => ⟨.inl rfl, rfl⟩
      · trivial)
    rfl rfl

/-- An observation with another time to refresh after makes the claim stale: the lease is claimed
again after ten seconds, with the same secret. -/
theorem claimed_again_within_lease : ¬ ∀ (env : Env) (schedules : Schedules) (key : CredentialKey)
    (first second : Int) (accesses : List Access) (e e' : LeaseSchedule),
    schedules key = some e → e.due first →
    (∀ a ∈ accesses, ∃ credential now, a = .observe key credential now ∧
      (leaseIdentity env credential).secretFingerprint = e.leaseIdentity.secretFingerprint) →
    (schedules.claimDue first).after env accesses key = some e' → e'.due second →
      first + seconds 60 ≤ second := by
  intro hall
  have hlease := hall pacingEnv dueLease pacingKey 0 (seconds 10)
    [.observe pacingKey (refreshableAfter "1970-01-01T00:00:10Z") (seconds 1)] _ _ rfl rfl
    (by
      intro a ha
      obtain rfl := List.mem_singleton.mp ha
      exact ⟨_, _, rfl, rfl⟩)
    rfl rfl
  exact absurd hlease (by decide)

/-! ## Failures -/

/-- An access that is no success and no failure of an account and does not remove its schedule: it
is about another account, it claims what is due, or it observes a credential with times. -/
def Access.Observes (key : CredentialKey) (a : Access) : Prop :=
  match a with
  | .claimDue _ => True
  | .observe k credential _ => k = key → Tracked env credential
  | .observeRefreshed k _ _ | .observeSuccessfulRotation k _ _ | .recordFailure k _ _
  | .forget k => k ≠ key

/-- The failures are still counted, and the next attempt is no earlier than it was. -/
def BacksOff (failures : Nat) (t : Int) (e : LeaseSchedule) : Prop :=
  e.failures = failures ∧ t ≤ e.nextAttemptAt

theorem merge_backsOff {failures : Nat} {t : Int} (schedule : LeaseSchedule) (hpos : 0 < failures)
    (h : BacksOff failures t e) : BacksOff failures t (schedule.merge e false).1 := by
  obtain ⟨hfailures, ht⟩ := h
  have hcounted : 0 < e.failures := hfailures ▸ hpos
  unfold LeaseSchedule.merge
  by_cases hsame : e.leaseIdentity.expiresAt = schedule.leaseIdentity.expiresAt ∧
      e.leaseIdentity.refreshAfter = schedule.leaseIdentity.refreshAfter
  · simp only [hsame, and_self, if_true]
    exact ⟨hfailures, ht⟩
  · rw [if_neg hsame]
    simp only [Bool.not_false, Bool.true_and, decide_eq_true_eq, hcounted, if_true]
    exact ⟨hfailures, ht.trans (le_max_right _ _)⟩

theorem observe_backsOff {failures : Nat} (hpos : 0 < failures) (ht : Tracked env credential)
    (he : schedules key = some e) (h : BacksOff failures t e) :
    ∃ e', schedules.observe env key credential now key = some e' ∧ BacksOff failures t e' := by
  obtain ⟨schedule, -, hobserve⟩ := observe_self env now ht he
  obtain ⟨hfailures, hnext⟩ := merge_backsOff schedule hpos h
  refine ⟨_, hobserve, ?_⟩
  split
  · exact ⟨(applyMinimumRetryFloor_keeps _ _).1.trans hfailures,
      hnext.trans (le_applyMinimumRetryFloor _ _)⟩
  · exact ⟨hfailures, hnext⟩

theorem apply_backsOff {failures : Nat} {t : Int} (hpos : 0 < failures) (ha : a.Observes env key)
    (he : schedules key = some e) (h : BacksOff failures t e) :
    ∃ e', a.apply env schedules key = some e' ∧ BacksOff failures t e' := by
  have hother : ∀ k, a.key? = some k → k ≠ key →
      ∃ e', a.apply env schedules key = some e' ∧ BacksOff failures t e' :=
    fun k hk hne => ⟨e, (apply_of_ne env hk hne).trans he, h⟩
  cases a with
  | claimDue now =>
    refine ⟨if e.due now then { e with claimUntil := some (now + seconds claimGraceSecs) } else e,
      by simp [Access.apply, Schedules.claimDue, he], ?_⟩
    split <;> exact h
  | observe k credential now =>
    by_cases hk : k = key
    · subst hk
      exact observe_backsOff env hpos (ha rfl) he h
    · exact hother k rfl hk
  | observeRefreshed k credential now | observeSuccessfulRotation k credential now
  | recordFailure k error now | forget k => exact hother k rfl ha

/-- No observation of a credential with times lowers the number of failures or brings the next
attempt forward, in any order with claims and with what happens to other accounts. -/
theorem refresh_backoff_kept (he : schedules key = some e) (hfailed : 0 < e.failures)
    (accesses : List Access) (h : ∀ a ∈ accesses, a.Observes env key) :
    ∃ e', schedules.after env accesses key = some e' ∧ e'.failures = e.failures ∧
      e.nextAttemptAt ≤ e'.nextAttemptAt :=
  after_keeps env (fun a ha _ _ he hP => apply_backsOff env hfailed (h a ha) he hP) he
    ⟨rfl, le_rfl⟩

/-- A refresh that the upstream could not answer. -/
def unavailable : CredentialRotationError := ⟨"upstream_unavailable", "temporary", true, none⟩

/-- The lease after its first failure. -/
def failedLease : LeaseSchedule where
  nextAttemptAt := seconds 5
  failures := 1
  leaseIdentity := leaseIdentity pacingEnv (refreshableAfter "1970-01-01T00:00:00Z")
  claimUntil := none

theorem refresh_backoff_kept_due :
    ∃ e', ((dueLease.recordFailure pacingKey unavailable 0).after pacingEnv
        [.observe pacingKey (refreshableAfter "1970-01-01T00:00:10Z") (seconds 1)]) pacingKey =
          some e' ∧ e'.failures = 1 ∧ seconds 5 ≤ e'.nextAttemptAt :=
  refresh_backoff_kept pacingEnv (e := failedLease) rfl (by decide) _ (by
    intro a ha
    obtain rfl := List.mem_singleton.mp ha
    exact fun _ => .inl rfl)

/-- A failure is also recorded for a credential without times, and forgotten when it is observed. -/
theorem refresh_backoff_untracked : ¬ ∀ (env : Env) (schedules : Schedules) (key : CredentialKey)
    (e : LeaseSchedule) (credential : ResolvedCredential) (instants : List Int),
    schedules key = some e → 0 < e.failures → credential.rotated = false →
    ∃ e', schedules.after env (instants.map fun now => .observe key credential now) key =
      some e' ∧ e.failures ≤ e'.failures ∧ e.nextAttemptAt ≤ e'.nextAttemptAt := by
  intro hall
  obtain ⟨e', he', -⟩ := hall pacingEnv
    (Schedules.recordFailure (fun _ => none) pacingKey unavailable 0) pacingKey _
    ⟨"secret", none, none, false⟩ [seconds 1] rfl (by decide) rfl
  exact Option.some_ne_none e' he'.symm

end Kinetix.CredentialRefresh
