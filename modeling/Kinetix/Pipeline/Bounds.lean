import Mathlib.Data.Finset.Card
import Kinetix.Pipeline.AttemptLoop

/-!
# Bounds of the attempt loop

A turn takes the first target off the list, except that a target whose credential was refreshed is
put back, once for each account. So the targets that are left, and the accounts among them whose
credential can still be refreshed, bound the turns; and every dispatch uses up an attempt or the
refresh of an account.
-/

namespace Kinetix.Pipeline
open Account StateMachine Kinetix.Types

variable {R : Rfc3339} {cfg : Config} {m : Nat} {s s' : Loop} {target : ResolvedTarget}

/-- What a turn does to the targets, the attempts and the refreshed accounts. -/
inductive TurnEffect (m : Nat) (s : Loop) : (Loop ⊕ Ending) × Option String → Prop
  /-- The target is passed over. -/
  | passed (target : ResolvedTarget) (s' : Loop)
    (hp : s.pendingTargets = target :: s'.pendingTargets)
      (hd : s'.attemptsDone = s.attemptsDone)
      (ha : s'.authRetriedAccounts = s.authRetriedAccounts) : TurnEffect m s (.inl s', none)
  /-- The loop ends without a dispatch. -/
  | stopped (error : ProxyError) : TurnEffect m s (.inr (.failed error), none)
  /-- The loop ends with a dispatch. -/
  | finished (target : ResolvedTarget) (e : Ending) (hlt : s.attemptsDone < m) :
      TurnEffect m s (.inr e, some target.accountId)
  /-- The attempt failed. -/
  | attempted (target : ResolvedTarget) (s' : Loop) (hlt : s.attemptsDone < m)
      (hp : s.pendingTargets = target :: s'.pendingTargets)
      (hd : s'.attemptsDone = s.attemptsDone + 1)
      (ha : s'.authRetriedAccounts = s.authRetriedAccounts) :
      TurnEffect m s (.inl s', some target.accountId)
  /-- The credential was refreshed, and the target is tried again. -/
  | retried (target : ResolvedTarget) (rest : List ResolvedTarget) (s' : Loop)
      (hlt : s.attemptsDone < m) (hp : s.pendingTargets = target :: rest)
      (hp' : s'.pendingTargets = target :: rest) (hd : s'.attemptsDone = s.attemptsDone)
      (hnew : target.accountId ∉ s.authRetriedAccounts)
      (ha : s'.authRetriedAccounts = target.accountId :: s.authRetriedAccounts) :
      TurnEffect m s (.inl s', some target.accountId)

namespace Loop

/-- What follows a failed dispatch: the attempt counts, or the loop ends. -/
theorem fallback_effect {d : Loop} {kind : FailureKind} {error : ProxyError}
    (hlt : s.attemptsDone < m) (hp : s.pendingTargets = target :: d.pendingTargets)
    (hd : d.attemptsDone = s.attemptsDone + 1)
    (ha : d.authRetriedAccounts = s.authRetriedAccounts) :
    TurnEffect m s (d.fallback cfg kind error, some target.accountId) := by
  simp only [fallback]
  split
  · exact .attempted target _ hlt hp hd ha
  · exact .finished target _ hlt

theorem skipTarget_eq (s : Loop) (target : ResolvedTarget) (kind : FailureKind) :
    (s.skipTarget target kind).pendingTargets = s.pendingTargets ∧
      (s.skipTarget target kind).attemptsDone = s.attemptsDone ∧
      (s.skipTarget target kind).authRetriedAccounts = s.authRetriedAccounts := by
  simp only [skipTarget]
  split
  · exact ⟨rfl, rfl, rfl⟩
  · exact ⟨rfl, rfl, rfl⟩

theorem afterDispatch_effect {d : Loop} (u : Upstream) (hlt : s.attemptsDone < m)
    (hp : s.pendingTargets = target :: d.pendingTargets)
    (hd : d.attemptsDone = s.attemptsDone + 1)
    (ha : d.authRetriedAccounts = s.authRetriedAccounts) :
    TurnEffect m s (d.afterDispatch cfg target u, some target.accountId) := by
  have skipped : ∀ kind error, TurnEffect m s
      ((d.skipTarget target kind).fallback cfg kind error, some target.accountId) := by
    intro kind error
    obtain ⟨hp', hd', ha'⟩ := d.skipTarget_eq target kind
    exact fallback_effect hlt (hp'.symm ▸ hp) (hd'.trans hd) (ha'.trans ha)
  cases u with
  | validated => exact .finished target _ hlt
  | failed failure => exact fallback_effect hlt hp hd ha
  | invalid failure => exact skipped _ _
  | rejected failure rotation =>
    simp only [afterDispatch]
    split
    · rename_i hauth
      cases rotation with
      | refreshed =>
        refine .retried target d.pendingTargets _ hlt hp rfl ?_ (ha ▸ hauth.2) ?_
        · exact Nat.sub_eq_of_eq_add hd
        · exact congrArg (target.accountId :: ·) ha
      | unchanged | invalidCredential => exact skipped _ _
      | failed cooldown => exact fallback_effect hlt hp hd ha
    · exact skipped _ _

theorem turn_effect (s : Loop) (t : Turn) : TurnEffect m s (s.turn R cfg m t) := by
  cases hp : s.pendingTargets with
  | nil =>
    simp only [turn, hp]
    exact .stopped _
  | cons target rest =>
    simp only [turn, hp]
    split
    · exact .passed target _ hp rfl rfl
    · split
      · exact .stopped _
      · rename_i hgo
        cases check R cfg target t with
        | error leave =>
          cases leave with
          | skip error => exact .passed target _ hp rfl rfl
          | stop | fail error => exact .stopped _
        | ok _ => exact afterDispatch_effect t.upstream (by omega) hp rfl rfl

/-! ## Termination -/

/-- The accounts of the pending targets whose credential was not refreshed. -/
def refreshable (s : Loop) : Finset String :=
  (s.pendingTargets.map ResolvedTarget.accountId).toFinset \ s.authRetriedAccounts.toFinset

/-- What is left to do. -/
def remaining (s : Loop) : Nat := s.pendingTargets.length + s.refreshable.card

theorem remaining_of_pop (hp : s.pendingTargets = target :: s'.pendingTargets)
    (ha : s'.authRetriedAccounts = s.authRetriedAccounts) : s'.remaining < s.remaining := by
  have hsub : s'.refreshable ⊆ s.refreshable := by
    intro a
    simp only [refreshable, hp, ha, List.map_cons, List.toFinset_cons, Finset.mem_sdiff,
      Finset.mem_insert]
    tauto
  have hcard := Finset.card_le_card hsub
  simp only [remaining, hp, List.length_cons]
  omega

theorem remaining_of_refresh {rest : List ResolvedTarget}
    (hp : s.pendingTargets = target :: rest) (hp' : s'.pendingTargets = target :: rest)
    (hnew : target.accountId ∉ s.authRetriedAccounts)
    (ha : s'.authRetriedAccounts = target.accountId :: s.authRetriedAccounts) :
    s'.remaining < s.remaining := by
  have hsub : s'.refreshable ⊂ s.refreshable := by
    rw [Finset.ssubset_iff_of_subset]
    · refine ⟨target.accountId, ?_, ?_⟩
      · simp [refreshable, hp, hnew]
      · simp [refreshable, ha]
    · intro a
      simp only [refreshable, hp, hp', ha, List.toFinset_cons, Finset.mem_sdiff,
        Finset.mem_insert]
      tauto
  have hcard := Finset.card_lt_card hsub
  simp only [remaining, hp, hp']
  omega

/-- Every turn that does not end the loop leaves less to do. -/
theorem turn_remaining {t : Turn} {sent : Option String} (h : s.turn R cfg m t = (.inl s', sent)) :
    s'.remaining < s.remaining := by
  have heffect : TurnEffect m s (.inl s', sent) := h ▸ turn_effect s t
  cases heffect with
  | passed target _ hp hd ha | attempted target _ hlt hp hd ha => exact remaining_of_pop hp ha
  | retried target rest _ hlt hp hp' hd hnew ha => exact remaining_of_refresh hp hp' hnew ha

end Loop

/-- The loop has ended. -/
def State.Ended (s : State) : Prop := ∃ e, s.progress = .inr e

/-- What is left to do in a state. -/
def State.remaining (s : State) : Nat := s.progress.elim Loop.remaining fun _ => 0

theorem State.progress_step (s : State) (t : Turn) (h : ¬ s.Ended) :
    ∃ s', s.step R cfg m t = some s' ∧ (s'.Ended ∨ s'.remaining < s.remaining) := by
  cases hs : s.progress with
  | inr e => exact absurd ⟨e, hs⟩ h
  | inl loop =>
    simp only [State.step, hs]
    refine ⟨_, rfl, ?_⟩
    cases hturn : loop.turn R cfg m t with
    | mk progress sent =>
      cases progress with
      | inr e => exact .inl ⟨e, rfl⟩
      | inl next =>
        right
        simpa [remaining, hs] using Loop.turn_remaining hturn

/-- The loop ends, after no more turns than twice the targets and one. -/
theorem loop_ends (R : Rfc3339) (cfg : Config) (targets : List ResolvedTarget) (turns : ℕ → Turn) :
    ∃ n s, n ≤ 2 * targets.length + 1 ∧
      (attemptLoop R cfg targets).run ((List.range n).map turns) = some s ∧ s.Ended := by
  obtain ⟨n, s, hn, hrun, hs⟩ := (attemptLoop R cfg targets).ends_of_measure State.remaining
    (fun s t h => State.progress_step s t h) (attemptLoop R cfg targets).start turns
  refine ⟨n, s, hn.trans ?_, hrun, hs⟩
  have hcard : (Loop.refreshable { pendingTargets := targets }).card ≤ targets.length := by
    calc (Loop.refreshable { pendingTargets := targets }).card
        ≤ ((targets.map ResolvedTarget.accountId).toFinset).card :=
          Finset.card_le_card Finset.sdiff_subset
      _ ≤ (targets.map ResolvedTarget.accountId).length := List.toFinset_card_le _
      _ = targets.length := List.length_map ..
  simp only [State.remaining, attemptLoop, Sum.elim_inl, Loop.remaining]
  omega

/-! ## Dispatches -/

/-- Every dispatch used up an attempt or the refresh of an account. -/
structure Counted (m : Nat) (s : State) : Prop where
  nodup : s.refreshed.Nodup
  le : s.dispatched.length ≤ m + s.refreshed.length
  /-- While the loop goes on, the attempts that were used up are known. -/
  running : ∀ loop, s.progress = .inl loop → loop.authRetriedAccounts = s.refreshed ∧
    loop.attemptsDone ≤ m ∧ s.dispatched.length = loop.attemptsDone + s.refreshed.length

theorem Counted.step {s s' : State} {t : Turn} (h : Counted m s)
    (hstep : s.step R cfg m t = some s') : Counted m s' := by
  cases hs : s.progress with
  | inr e => simp [State.step, hs] at hstep
  | inl loop =>
    obtain ⟨hauth, hle, hcount⟩ := h.running loop hs
    have heffect : TurnEffect m loop (loop.turn R cfg m t) := loop.turn_effect t
    simp only [State.step, hs, Option.some.injEq] at hstep
    subst hstep
    generalize hr : loop.turn R cfg m t = r at heffect
    cases heffect with
    | passed target next hp hd ha =>
      constructor
      · exact (ha.trans hauth).symm ▸ h.nodup
      · simp only [ha, hauth]
        exact h.le
      · intro loop' hl
        cases hl
        simp only [ha, hauth, hd]
        exact ⟨trivial, hle, hcount⟩
    | stopped error =>
      refine ⟨h.nodup, h.le, ?_⟩
      intro loop' hl
      cases hl
    | finished target e hlt =>
      refine ⟨h.nodup, ?_, ?_⟩
      · simp only [Option.toList, List.cons_append, List.length_cons, List.nil_append]
        omega
      · intro loop' hl
        cases hl
    | attempted target next hlt hp hd ha =>
      constructor
      · exact (ha.trans hauth).symm ▸ h.nodup
      · simp only [ha, hauth, Option.toList, List.cons_append, List.length_cons,
          List.nil_append]
        omega
      · intro loop' hl
        cases hl
        simp only [ha, hauth, hd, Option.toList, List.cons_append, List.length_cons,
          List.nil_append]
        exact ⟨trivial, hlt, by omega⟩
    | retried target rest next hlt hp hp' hd hnew ha =>
      constructor
      · simp only [ha, List.nodup_cons]
        exact ⟨hnew, hauth ▸ h.nodup⟩
      · simp only [ha, hauth, Option.toList, List.cons_append, List.length_cons,
          List.nil_append]
        omega
      · intro loop' hl
        cases hl
        simp only [ha, hauth, hd, Option.toList, List.cons_append, List.length_cons,
          List.nil_append]
        exact ⟨trivial, hle, by omega⟩

theorem counted_of_run {targets : List ResolvedTarget} {ts : List Turn} {s : State}
    (h : (attemptLoop R cfg targets).run ts = some s) :
    Counted (cfg.maxAttempts targets.length) s := by
  refine (attemptLoop R cfg targets).invariant ?_ (fun _ _ _ hs hstep => hs.step hstep) h
  refine ⟨List.nodup_nil, Nat.zero_le _, ?_⟩
  intro loop hl
  cases hl
  exact ⟨rfl, Nat.zero_le _, rfl⟩

/-- The bounds of the attempt loop over the targets of a plan. -/
structure Bounded (R : Rfc3339) (cfg : Config) (targets : List ResolvedTarget) : Prop where
  /-- Whatever the turns get to know, the loop ends. -/
  ends : ∀ turns : ℕ → Turn, ∃ n s, n ≤ 2 * targets.length + 1 ∧
    (attemptLoop R cfg targets).run ((List.range n).map turns) = some s ∧ s.Ended
  /-- No more requests are sent than the attempts, and one for each refreshed account. -/
  dispatches : ∀ ts s, (attemptLoop R cfg targets).run ts = some s →
    s.refreshed.Nodup ∧
      s.dispatched.length ≤ cfg.maxAttempts targets.length + s.refreshed.length
  /-- Nothing is sent after a response was committed. -/
  committed : ∀ ts s target, (attemptLoop R cfg targets).run ts = some s →
    s.progress = .inr (.committed target) →
    ∀ t rest, (attemptLoop R cfg targets).run (ts ++ t :: rest) = none

/-- For every route, plan and behaviour of the upstreams, the attempt loop is bounded. -/
theorem attempt_loop_bounded (R : Rfc3339) (cfg : Config) (targets : List ResolvedTarget) :
    Bounded R cfg targets where
  ends := loop_ends R cfg targets
  dispatches _ _ h := ⟨(counted_of_run h).nodup, (counted_of_run h).le⟩
  committed ts s target h hc t rest := by
    have hstep : (attemptLoop R cfg targets).step s t = none := by
      simp [attemptLoop, State.step, hc]
    simp [Machine.run_append, h, Machine.runFrom, hstep]

/-- A target of the account. -/
def exampleTarget (accountId : String) : ResolvedTarget where
  routeTargetId := none
  accountId
  account := {}
  providerName := "p"
  providerStrict := false

/-- A turn that passes every check. -/
def exampleTurn (upstream : Upstream) : Turn where
  deadlinePassed := false
  now := 0
  later := 0
  softQuotaReached := false
  executionProfile := .ok ()
  adapter := .ok ()
  satisfiesNeeds := true
  circuitRejects := none
  credentialResolves := true
  requestError := none
  saturated := none
  budgetSpent := false
  attemptRejects := none
  upstream

/-- A rejected credential. -/
def exampleAuthError : UpstreamFailure where
  kind := .authError
  status := some 401
  retryAfterSecs := none
  message := "bad key"
  quotaResetAt := none

/-- The times of a database in which no time is stored. -/
def exampleTimes : Rfc3339 where
  toRfc3339 _ := ""
  parseDt _ := none

/-- With one attempt, the refresh of a credential leads to a second dispatch, which is committed. -/
theorem attempt_loop_bounded_refresh :
    ∃ s, (attemptLoop exampleTimes ⟨none, "m", true⟩ [exampleTarget "a"]).run
        [exampleTurn (.rejected exampleAuthError .refreshed), exampleTurn .validated] = some s ∧
      s.dispatched = ["a", "a"] ∧ s.refreshed = ["a"] ∧
      s.dispatched.length ≤ 1 + s.refreshed.length :=
  ⟨_, rfl, rfl, rfl,
    ((attempt_loop_bounded exampleTimes ⟨none, "m", true⟩ [exampleTarget "a"]).dispatches
      [exampleTurn (.rejected exampleAuthError .refreshed), exampleTurn .validated] _ rfl).2⟩

end Kinetix.Pipeline
