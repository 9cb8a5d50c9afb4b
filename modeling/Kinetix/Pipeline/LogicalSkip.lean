import Kinetix.Pipeline.Affinity

/-!
# Skipping a logical target

After a target error the loop leaves out the other candidates of the same logical target. It
remembers one logical target, so this is complete as long as no other target error takes the place
of one that still has candidates; in a list that keeps the candidates of a logical target together
it never does, but the promotion of a session's candidate rotates the list and may split them. A
target error before there is a response is not remembered at all.
-/

namespace Kinetix.Pipeline
open Account Kinetix.Types

variable {R : Rfc3339} {cfg : Config} {m : Nat} {s s' : Loop} {t u : Turn} {L : String}
  {target : ResolvedTarget} {rest : List ResolvedTarget}

namespace Upstream

/-- The attempt is classified as a target error. -/
def isTargetError : Upstream → Bool
  | .failed failure => failure.kind == .targetError
  | .validated => false
  | .invalid failure => failure.kind == .targetError
  | .rejected failure _ => failure.kind == .targetError

/-- There is no response. -/
def isFailed : Upstream → Bool
  | .failed _ => true
  | _ => false

end Upstream

/-- The turn dispatches the first pending target. -/
structure Loop.Sends (R : Rfc3339) (cfg : Config) (m : Nat) (s : Loop) (t : Turn)
    (target : ResolvedTarget) (rest : List ResolvedTarget) : Prop where
  candidate : s.Candidate target rest
  lasts : s.Lasts m t
  checked : check R cfg target t = .ok ()

/-- The turn dispatches a target. -/
def State.Sends (R : Rfc3339) (cfg : Config) (m : Nat) (s : State) (t : Turn)
    (target : ResolvedTarget) : Prop :=
  ∃ loop rest, s.progress = .inl loop ∧ loop.Sends R cfg m t target rest

/-- After a target error no candidate of the same logical target is dispatched. -/
def SkipComplete (R : Rfc3339) (cfg : Config) (targets : List ResolvedTarget) (ts : List Turn) :
    Prop :=
  ∀ pre t mid u post, ts = pre ++ t :: mid ++ u :: post → ∀ s s' a b L,
    (attemptLoop R cfg targets).run pre = some s →
    s.Sends R cfg (cfg.maxAttempts targets.length) t a → t.upstream.isTargetError = true →
    a.routeTargetId = some L →
    (attemptLoop R cfg targets).run (pre ++ t :: mid) = some s' →
    s'.Sends R cfg (cfg.maxAttempts targets.length) u b → b.routeTargetId ≠ some L

/-- A target error after which the loop goes on: if there is no response, no candidate of its
logical target is left, and if there is one, none is left of the logical target that is remembered.
-/
def Remembers (R : Rfc3339) (cfg : Config) (m : Nat) (s : State) (t : Turn) : Prop :=
  ∀ loop target rest, s.progress = .inl loop → loop.Sends R cfg m t target rest →
    t.upstream.isTargetError = true → cfg.canFallback .targetError = true →
    if t.upstream.isFailed then
      ∀ b ∈ rest, ∀ L, target.routeTargetId = some L → b.routeTargetId ≠ some L
    else
      ∀ b ∈ rest, ∀ L, loop.skipLogicalTarget = some L → b.routeTargetId ≠ some L

/-! ## What a turn does to the targets and to the skip -/

/-- What follows a dispatch, if the loop goes on. -/
inductive DispatchEffect (cfg : Config) (d : Loop) (target : ResolvedTarget) (u : Upstream) :
    Loop ⊕ Ending → Prop
  | ended (e : Ending) : DispatchEffect cfg d target u (.inr e)
  /-- The credential was refreshed, and the target is tried again. -/
  | retried (s' : Loop) (hu : u.isTargetError = false)
      (hp : s'.pendingTargets = target :: d.pendingTargets)
      (hs : s'.skipLogicalTarget = d.skipLogicalTarget) : DispatchEffect cfg d target u (.inl s')
  /-- The target failed for another reason than itself. -/
  | failed (s' : Loop) (hu : u.isTargetError = false) (hp : s'.pendingTargets = d.pendingTargets)
      (hs : s'.skipLogicalTarget = d.skipLogicalTarget) : DispatchEffect cfg d target u (.inl s')
  /-- A target error, which is remembered if there is a response. -/
  | targetError (s' : Loop) (hu : u.isTargetError = true) (hc : cfg.canFallback .targetError = true)
      (hp : s'.pendingTargets = d.pendingTargets)
      (hs : s'.skipLogicalTarget =
        if u.isFailed then d.skipLogicalTarget else target.routeTargetId) :
      DispatchEffect cfg d target u (.inl s')

namespace Loop

/-- A failure of a response is remembered if it is a target error. -/
theorem handled_effect {d : Loop} {u : Upstream} {kind : FailureKind} {error : ProxyError}
    (hu : u.isTargetError = (kind == .targetError)) (hf : u.isFailed = false) :
    DispatchEffect cfg d target u ((d.skipTarget target kind).fallback cfg kind error) := by
  rw [fallback]
  split
  next hc =>
    by_cases hk : kind = .targetError
    · subst hk
      refine .targetError _ hu hc (d.skipTarget_eq target _).1 ?_
      rw [hf]
      rfl
    · refine .failed _ (hu.trans (beq_false_of_ne hk)) (d.skipTarget_eq target _).1 ?_
      rw [skipTarget, if_neg hk]
  next => exact .ended _

theorem dispatch_effect (d : Loop) (target : ResolvedTarget) (u : Upstream) :
    DispatchEffect cfg d target u (d.afterDispatch cfg target u) := by
  cases u with
  | validated => exact .ended _
  | failed failure =>
    rw [afterDispatch, fallback]
    split
    next hc =>
      by_cases hk : failure.kind = .targetError
      · exact .targetError _ (beq_iff_eq.mpr hk) (hk ▸ hc) rfl rfl
      · exact .failed _ (beq_false_of_ne hk) rfl rfl
    next => exact .ended _
  | invalid failure => exact handled_effect rfl rfl
  | rejected failure rotation =>
    simp only [afterDispatch]
    split
    next hauth =>
      have hu : (Upstream.rejected failure rotation).isTargetError = false := by
        rw [Upstream.isTargetError, hauth.1]
        rfl
      cases rotation with
      | refreshed => exact .retried _ hu rfl rfl
      | unchanged | invalidCredential => exact handled_effect rfl rfl
      | failed cooldown =>
        simp only [fallback]
        split
        · exact .failed _ hu rfl rfl
        · exact .ended _
    next => exact handled_effect rfl rfl

/-- The loop of a dispatch. -/
def dispatching (s : Loop) (target : ResolvedTarget) (rest : List ResolvedTarget) : Loop :=
  { s.taken target rest with attemptsDone := s.attemptsDone + 1 }

/-- A turn that dispatches nothing passes over the first target, if the loop goes on. -/
theorem turn_of_not_sends (h : ¬ ∃ target rest, s.Sends R cfg m t target rest)
    (hturn : (s.turn R cfg m t).1 = .inl s') :
    (∃ target, s.pendingTargets = target :: s'.pendingTargets) ∧
      s'.skipLogicalTarget = s.skipLogicalTarget := by
  cases hp : s.pendingTargets with
  | nil =>
    simp only [turn, hp] at hturn
    cases hturn
  | cons target rest =>
    simp only [turn, hp] at hturn
    split at hturn
    next =>
      cases hturn
      exact ⟨⟨target, rfl⟩, rfl⟩
    next hskip =>
      split at hturn
      next => cases hturn
      next htime =>
        cases hcheck : check R cfg target t with
        | error leave =>
          rw [hcheck] at hturn
          cases leave with
          | skip error =>
            cases hturn
            exact ⟨⟨target, rfl⟩, rfl⟩
          | stop | fail error => cases hturn
        | ok _ =>
          have hlasts : s.Lasts m t := by simpa [Lasts] using htime
          exact absurd ⟨target, rest, ⟨hp, hskip⟩, hlasts, hcheck⟩ h

end Loop

/-! ## What is left out -/

/-- Nothing of a logical target will be dispatched: it is remembered, or no candidate is left. -/
def Loop.LeavesOut (s : Loop) (L : String) : Prop :=
  s.skipLogicalTarget = some L ∨ ∀ b ∈ s.pendingTargets, b.routeTargetId ≠ some L

def State.LeavesOut (s : State) (L : String) : Prop :=
  ∀ loop, s.progress = .inl loop → loop.LeavesOut L

namespace Loop

theorem LeavesOut.not_sent (h : s.LeavesOut L) (hsends : s.Sends R cfg m t target rest) :
    target.routeTargetId ≠ some L := by
  intro hL
  rcases h with h | h
  · exact hsends.candidate.kept ⟨by rw [h]; rfl, h.trans hL.symm⟩
  · exact h target (hsends.candidate.pending ▸ List.mem_cons_self) hL

/-- Fewer candidates and the same skip leave out as much. -/
theorem LeavesOut.of_subset (h : s.LeavesOut L) (hp : s'.pendingTargets ⊆ s.pendingTargets)
    (hs : s'.skipLogicalTarget = s.skipLogicalTarget) : s'.LeavesOut L :=
  h.imp hs.trans fun hall b hb => hall b (hp hb)

end Loop

variable {st st' : State}

theorem State.step_progress (hs : st.progress = .inl s) (h : st.step R cfg m t = some st') :
    st'.progress = (s.turn R cfg m t).1 := by
  simp only [State.step, hs, Option.some.injEq] at h
  rw [← h]

/-- A step that dispatches a target, and after which the loop goes on. -/
theorem State.dispatch_effect (hs : st.progress = .inl s) (hs' : st'.progress = .inl s')
    (hsends : s.Sends R cfg m t target rest) (h : st.step R cfg m t = some st') :
    DispatchEffect cfg (s.dispatching target rest) target t.upstream (.inl s') := by
  have heffect : DispatchEffect cfg (s.dispatching target rest) target t.upstream
      ((s.dispatching target rest).afterDispatch cfg target t.upstream) :=
    (s.dispatching target rest).dispatch_effect target t.upstream
  have hturn := (State.step_progress hs h).symm.trans hs'
  rw [Loop.turn_of_dispatch hsends.candidate hsends.lasts hsends.checked] at hturn
  exact hturn ▸ heffect

/-- A step leaves out what was left out before. -/
theorem leavesOut_step (h : st.LeavesOut L) (hr : Remembers R cfg m st t)
    (hstep : st.step R cfg m t = some st') : st'.LeavesOut L := by
  intro s' hs'
  cases hs : st.progress with
  | inr e => simp [State.step, hs] at hstep
  | inl s =>
    by_cases hsends : ∃ target rest, s.Sends R cfg m t target rest
    · obtain ⟨target, rest, hsends⟩ := hsends
      have hrest : rest ⊆ s.pendingTargets :=
        hsends.candidate.pending ▸ List.subset_cons_self target rest
      cases State.dispatch_effect hs hs' hsends hstep with
      | retried _ hu hp hskip =>
        refine (h s hs).of_subset ?_ hskip
        rw [hp, hsends.candidate.pending]
        exact List.Subset.refl _
      | failed _ hu hp hskip => exact (h s hs).of_subset (hp ▸ hrest) hskip
      | targetError _ hu hc hp hskip =>
        have hremembers := hr s target rest hs hsends hu hc
        split at hremembers
        next hfailed =>
          rw [if_pos hfailed] at hskip
          exact (h s hs).of_subset (hp ▸ hrest) hskip
        next hfailed =>
          -- The logical target that was remembered has no candidate left.
          rcases h s hs with hL | hall
          · exact .inr (hp ▸ fun b hb => hremembers b hb L hL)
          · exact .inr (hp ▸ fun b hb => hall b (hrest hb))
    · have hturn := (State.step_progress hs hstep).symm.trans hs'
      obtain ⟨⟨target, hp⟩, hskip⟩ := Loop.turn_of_not_sends hsends hturn
      refine (h s hs).of_subset ?_ hskip
      rw [hp]
      exact List.subset_cons_self _ _

/-- A target error leaves out its logical target. -/
theorem leavesOut_of_targetError {a : ResolvedTarget} (hsends : st.Sends R cfg m t a)
    (hu : t.upstream.isTargetError = true) (hL : a.routeTargetId = some L)
    (hr : Remembers R cfg m st t) (hstep : st.step R cfg m t = some st') : st'.LeavesOut L := by
  obtain ⟨s, rest, hs, hsends⟩ := hsends
  intro s' hs'
  cases State.dispatch_effect hs hs' hsends hstep with
  | retried _ hu' hp hskip | failed _ hu' hp hskip => exact Bool.noConfusion (hu.symm.trans hu')
  | targetError _ _ hc hp hskip =>
    have hremembers := hr s a rest hs hsends hu hc
    split at hremembers
    next hfailed => exact .inr (hp ▸ fun b hb => hremembers b hb L hL)
    next hfailed =>
      rw [if_neg hfailed] at hskip
      exact .inl (hskip.trans hL)

/-- From a target error on, its logical target is left out. -/
theorem leavesOut_run {targets : List ResolvedTarget} {pre mid : List Turn} {a : ResolvedTarget}
    (h : (attemptLoop R cfg targets).Meets
      (fun _ => Remembers R cfg (cfg.maxAttempts targets.length)) (pre ++ t :: mid))
    (hpre : (attemptLoop R cfg targets).run pre = some st)
    (ha : st.Sends R cfg (cfg.maxAttempts targets.length) t a)
    (hu : t.upstream.isTargetError = true) (hL : a.routeTargetId = some L)
    (hmid : (attemptLoop R cfg targets).run (pre ++ t :: mid) = some st') : st'.LeavesOut L := by
  induction mid using List.reverseRecOn generalizing st' with
  | nil =>
    rw [(attemptLoop R cfg targets).run_snoc, hpre, Option.bind_some] at hmid
    exact leavesOut_of_targetError ha hu hL (h.last _ hpre) hmid
  | append_singleton mid x ih =>
    rw [← List.cons_append, ← List.append_assoc] at h hmid
    obtain ⟨s₁, hs₁, hstep⟩ := (attemptLoop R cfg targets).run_snoc_eq_some.mp hmid
    exact leavesOut_step (ih (h.of_append _) hs₁) (h.last _ hs₁) hstep

/-- In a run in which every target error is remembered, and forgets none that still has candidates,
the skip is complete. -/
theorem skip_complete (R : Rfc3339) (cfg : Config) (targets : List ResolvedTarget)
    (ts : List Turn) (h : (attemptLoop R cfg targets).Meets
      (fun _ => Remembers R cfg (cfg.maxAttempts targets.length)) ts) :
    SkipComplete R cfg targets ts := by
  rintro pre t mid u post rfl s s' a b L hs ha hu hL hs' ⟨loop, rest, hloop, hb⟩
  have hleft : s'.LeavesOut L := leavesOut_run (h.of_append _) hs ha hu hL hs'
  exact (hleft loop hloop).not_sent hb

/-! ## Lists that keep a logical target together -/

/-- Between two candidates of a logical target there are only candidates of it. -/
def Together (targets : List ResolvedTarget) : Prop :=
  ∀ before target after, targets = before ++ target :: after → ∀ a ∈ before, ∀ b ∈ after, ∀ L,
    a.routeTargetId = some L → b.routeTargetId = some L → target.routeTargetId = some L

/-- The pending targets are the end of the list, and the logical target that is remembered had a
candidate before them. -/
def State.Remaining (targets : List ResolvedTarget) (s : State) : Prop :=
  ∀ loop, s.progress = .inl loop → ∃ before, targets = before ++ loop.pendingTargets ∧
    ∀ L, loop.skipLogicalTarget = some L → ∃ a ∈ before, a.routeTargetId = some L

variable {targets : List ResolvedTarget}

/-- One more candidate is taken, and the skip stays or becomes its logical target. -/
theorem Remaining.take {s s' : Loop} {before : List ResolvedTarget}
    (hp : targets = before ++ target :: s'.pendingTargets)
    (hskip : ∀ L, s.skipLogicalTarget = some L → ∃ a ∈ before, a.routeTargetId = some L)
    (hs : s'.skipLogicalTarget = s.skipLogicalTarget ∨
      s'.skipLogicalTarget = target.routeTargetId) :
    ∃ before, targets = before ++ s'.pendingTargets ∧
      ∀ L, s'.skipLogicalTarget = some L → ∃ a ∈ before, a.routeTargetId = some L := by
  refine ⟨before ++ [target], by rw [hp, List.append_assoc, List.singleton_append], ?_⟩
  intro L hL
  rcases hs with hs | hs
  · obtain ⟨a, ha, haL⟩ := hskip L (hs ▸ hL)
    exact ⟨a, List.mem_append_left _ ha, haL⟩
  · exact ⟨target, List.mem_append_right _ List.mem_cons_self, hs ▸ hL⟩

theorem remaining_step (h : st.Remaining targets) (hstep : st.step R cfg m t = some st') :
    st'.Remaining targets := by
  intro s' hs'
  cases hs : st.progress with
  | inr e => simp [State.step, hs] at hstep
  | inl s =>
    obtain ⟨before, hbefore, hskip⟩ := h s hs
    by_cases hsends : ∃ target rest, s.Sends R cfg m t target rest
    · obtain ⟨target, rest, hsends⟩ := hsends
      rw [hsends.candidate.pending] at hbefore
      cases State.dispatch_effect hs hs' hsends hstep with
      | retried _ hu hp hs =>
        refine ⟨before, by rw [hp]; exact hbefore, fun L hL => hskip L ?_⟩
        rw [← hL, hs]
        rfl
      | failed _ hu hp hs =>
        exact Remaining.take (by rw [hp]; exact hbefore) hskip (.inl hs)
      | targetError _ hu hc hp hs =>
        refine Remaining.take (by rw [hp]; exact hbefore) hskip ?_
        split at hs
        · exact .inl hs
        · exact .inr hs
    · have hturn := (State.step_progress hs hstep).symm.trans hs'
      obtain ⟨⟨target, hp⟩, hs⟩ := Loop.turn_of_not_sends hsends hturn
      exact Remaining.take (by rw [← hp]; exact hbefore) hskip (.inl hs)

/-- In such a list every target error of a response is remembered, and forgets none that still has
candidates. -/
theorem meets_of_together (htogether : Together targets) {ts : List Turn}
    (hresponse : ∀ t ∈ ts, t.upstream.isTargetError = true → t.upstream.isFailed = false) :
    (attemptLoop R cfg targets).Meets
      (fun _ => Remembers R cfg (cfg.maxAttempts targets.length)) ts := by
  rintro pre t post st rfl hrun loop target rest hloop hsends hu -
  rw [if_neg (by simp [hresponse t (by simp) hu])]
  intro b hb L hL hbL
  have hremaining : st.Remaining targets := by
    refine (attemptLoop R cfg targets).invariant ?_ (fun _ _ _ h hstep => remaining_step h hstep)
      hrun
    intro loop hloop
    cases hloop
    exact ⟨[], rfl, fun L hL => by cases hL⟩
  obtain ⟨before, hbefore, hskip⟩ := hremaining loop hloop
  obtain ⟨a, ha, haL⟩ := hskip L hL
  rw [hsends.candidate.pending] at hbefore
  have hsame := htogether before target rest hbefore a ha b hb L haL hbL
  exact hsends.candidate.kept ⟨by rw [hL]; rfl, hL.trans hsame.symm⟩

/-! ## A rotated list -/

/-- A candidate of a logical target. -/
def logicalTarget (routeTargetId accountId : String) : ResolvedTarget :=
  { stickyTarget accountId with routeTargetId := some routeTargetId }

/-- An upstream that does not know the model. -/
def notFound : Turn := exampleTurn (.rejected
  { kind := .targetError
    status := some 404
    retryAfterSecs := none
    message := "no such model"
    quotaResetAt := none } .unchanged)

/-- A request whose plan has one candidate of one logical target and two of another. -/
def groupedRequest : SessionRequest :=
  { sessionRequest "key_a" "a" with
    targets := [logicalTarget "tgt_u" "acc_u", logicalTarget "tgt_t" "acc_1",
      logicalTarget "tgt_t" "acc_2"] }

/-- Without a session's candidate the second one of the logical target is left out. -/
theorem skip_complete_grouped :
    let cfg : Config := ⟨some stickyRoute.toRouteRow, "fast", true⟩
    let targets := [logicalTarget "tgt_t" "acc_1", logicalTarget "tgt_t" "acc_2",
      logicalTarget "tgt_u" "acc_u"]
    (∃ s, (attemptLoop exampleTimes cfg targets).run
        [notFound, notFound, exampleTurn .validated] = some s ∧
      s.dispatched = ["acc_u", "acc_1"]) ∧
    SkipComplete exampleTimes cfg targets [notFound, notFound, exampleTurn .validated] := by
  intro cfg targets
  refine ⟨⟨_, rfl, rfl⟩, skip_complete exampleTimes cfg targets _ (meets_of_together ?_ ?_)⟩
  · intro before target after h a ha b hb L haL hbL
    rcases before with _ | ⟨x, _ | ⟨y, before⟩⟩
    · cases ha
    · simp only [targets, List.cons_append, List.nil_append, List.cons.injEq] at h
      rw [← h.2.1]
      simp only [← h.1, List.mem_singleton] at ha
      rw [ha] at haL
      exact haL
    · simp only [targets, List.cons_append, List.cons.injEq] at h
      have hlength := congrArg List.length h.2.2
      have hafter : after = [] := by
        apply List.eq_nil_of_length_eq_zero
        simp only [List.length_append, List.length_cons, List.length_nil] at hlength
        omega
      rw [hafter] at hb
      cases hb
  · simp [notFound, exampleTurn, Upstream.isFailed, Upstream.isTargetError]

/-- The candidate of the session is put in front with those behind it, so the logical target of the
first attempt is tried again after another target error. -/
theorem skip_not_complete :
    ¬ ∀ (R : Rfc3339) (r : SessionRequest) (originKey : Option String) (ts : List Turn),
      SkipComplete R (r.portabilityConfig originKey).attempt (r.promotedTargets originKey) ts := by
  intro h
  have hcomplete := h exampleTimes groupedRequest (some "rte_1|acc_2|mod_1")
    [notFound, notFound, notFound]
  have hpromoted : groupedRequest.promotedTargets (some "rte_1|acc_2|mod_1") =
      [logicalTarget "tgt_t" "acc_2", logicalTarget "tgt_u" "acc_u",
        logicalTarget "tgt_t" "acc_1"] := rfl
  rw [hpromoted] at hcomplete
  refine hcomplete [] notFound [notFound] notFound [] rfl _ _ _ (logicalTarget "tgt_t" "acc_1")
    "tgt_t" rfl ⟨_, _, rfl, ⟨rfl, ?_⟩, ⟨?_, rfl⟩, rfl⟩ rfl rfl rfl
    ⟨_, _, rfl, ⟨rfl, ?_⟩, ⟨?_, rfl⟩, rfl⟩ rfl
  all_goals decide

end Kinetix.Pipeline
