import Kinetix.Library.Machine
import Kinetix.Library.TaskList
import Kinetix.UpstreamTraffic.Controller

/-!
# Permits of one upstream target

`acquire` and `TrafficPermit` of `upstream_traffic.rs` for any number of calls on one target. A call
of `acquire` is refused, is cancelled while it waits, or holds a permit; the owner of a permit calls
`mark_first_event` and `finish` on it from any task and drops it when no such call is left.

What a step can do is said once: it grants, records or releases one permit, or it changes nothing
that the controller counts. The same is said of an action on one permit first.

## Implementation notes

A section under the lock of the controller is one action, and so is the swap of an atomic flag
before it; between the two any other action can be taken. A waiting call may be woken at any time:
which waiter `Notify` chooses, and whether there was a notification, only restricts the runs. The
flags of a permit are read off the calls on it: one that won the swap of the flag has begun.
-/

namespace Kinetix.UpstreamTraffic
open StateMachine

/-- The call of `mark_first_event` that found no event recorded. -/
inductive Marking where
  /-- No event was reported. -/
  | idle
  /-- The call is about to lock the controller. -/
  | pending (ttft : Nat)
  | recorded
  /-- The permit was finished before the call locked the controller. -/
  | skipped
  deriving DecidableEq

/-- What ends a permit. -/
inductive Ending where
  | finish (outcome : TrafficOutcome)
  | drop
  deriving DecidableEq

/-- The call of `finish`, or the drop, that found the permit not finished. -/
inductive Release where
  | none
  /-- The call is about to lock the controller. -/
  | pending (ending : Ending)
  | done
  deriving DecidableEq

/-- A permit and the calls on it. -/
structure TrafficPermit where
  inflightAtStart : Nat
  marking : Marking
  provisionalId : Nat
  release : Release
  dropped : Bool
  /-- A permit has an identifier from its first event until it is released. -/
  tagged : provisionalId ≠ 0 ↔ marking = .recorded ∧ release ≠ .done

/-- What happens to a permit. -/
inductive PermitAction where
  /-- `mark_first_event` swaps its flag. -/
  | mark (ttft : Nat)
  /-- `mark_first_event` runs its section under the lock. -/
  | marked
  /-- `finish` swaps its flag. -/
  | finish (outcome : TrafficOutcome)
  /-- The owner drops the permit: no call on it is left. -/
  | drop
  /-- `finish` or the drop runs its section under the lock. -/
  | released
  deriving DecidableEq

namespace TrafficPermit
variable (F : Floats)

/-- The permit that `acquire` returns. -/
def granted (inflightAtStart : Nat) : TrafficPermit where
  inflightAtStart
  marking := .idle
  provisionalId := 0
  release := .none
  dropped := false
  tagged := by simp

/-- Neither `mark_first_event` nor `finish` has won its swap and still to lock the controller. -/
def quiet (p : TrafficPermit) : Bool :=
  match p.marking, p.release with
  | .pending _, _ => false
  | _, .pending _ => false
  | _, _ => true

/-- `mark_first_event` won the swap of `first_event_recorded`. -/
def beginMark (p : TrafficPermit) (ttft : Nat) (h : p.marking = .idle) : TrafficPermit :=
  { p with
    marking := .pending ttft
    tagged := by simp [p.tagged, h] }

/-- The section of `mark_first_event` under the lock. -/
def recordFirstEvent (p : TrafficPermit) (ttft : Nat) (h : p.marking = .pending ttft)
    (c : Controller) (now : Nat) : Controller × TrafficPermit :=
  if hr : p.release = .none then
    let c := c.recordTtft F p.inflightAtStart ttft now
    (c.beginProvisionalHealthy now,
      { p with
        marking := .recorded
        provisionalId := c.freshProvisionalId
        tagged := by simp [hr, c.freshProvisionalId_ne_zero] })
  else
    (c, { p with
      marking := .skipped
      tagged := by simp [p.tagged, h] })

/-- `finish`, or the drop, won the swap of `finished`. -/
def beginRelease (p : TrafficPermit) (ending : Ending) (h : p.release = .none) : TrafficPermit :=
  { p with
    release := .pending ending
    tagged := by simp [p.tagged, h] }

/-- The permit's stream no longer counts as healthy. -/
def endProvisional (p : TrafficPermit) (c : Controller) : Controller :=
  if p.provisionalId ≠ 0 then c.endProvisionalHealthy p.provisionalId else c

/-- The section of `finish` and of the drop under the lock. -/
def giveBack (p : TrafficPermit) (ending : Ending) (c : Controller) (now : Nat) :
    Controller × TrafficPermit :=
  (match ending with
    | .finish outcome => (p.endProvisional c).complete F p.inflightAtStart outcome now
    | .drop => (p.endProvisional c).release,
    { p with
      provisionalId := 0
      release := .done
      tagged := by simp })

def act (p : TrafficPermit) (c : Controller) (now : Nat) :
    PermitAction → Option (Controller × TrafficPermit)
  | .mark ttft =>
    if p.dropped then
      none
    else if h : p.marking = .idle then
      some (c, p.beginMark ttft h)
    else
      some (c, p)
  | .marked =>
    match h : p.marking with
    | .pending ttft => some (p.recordFirstEvent F ttft h c now)
    | .idle | .recorded | .skipped => none
  | .finish outcome =>
    if p.dropped then
      none
    else if h : p.release = .none then
      some (c, p.beginRelease (.finish outcome) h)
    else
      some (c, p)
  | .drop =>
    if p.dropped || !p.quiet then
      none
    else if h : p.release = .none then
      some (c, { p.beginRelease .drop h with dropped := true })
    else
      some (c, { p with dropped := true })
  | .released =>
    match p.release with
    | .pending ending => some (p.giveBack F ending c now)
    | .none | .done => none

end TrafficPermit

/-- A call of `acquire`. -/
inductive Call where
  /-- About to lock the controller. -/
  | trying (wait deadline : Nat)
  | waiting (wait deadline : Nat)
  | refused (snapshot : TrafficSnapshot)
  /-- Dropped while it waited. -/
  | cancelled
  | holding (permit : TrafficPermit)

/-- How far a call is with its permit. -/
inductive Phase where
  /-- The call holds none. -/
  | absent
  /-- The permit was not given back. -/
  | live
  | returned
  deriving DecidableEq

def Call.phase : Call → Phase
  | .holding p => if p.release = .done then .returned else .live
  | .trying _ _ | .waiting _ _ | .refused _ | .cancelled => .absent

/-- The identifier under which the call's permit counts as healthy, and 0 if it has none. -/
def Call.provisionalId : Call → Nat
  | .holding p => p.provisionalId
  | .trying _ _ | .waiting _ _ | .refused _ | .cancelled => 0

/-- A controller and the calls of its target. -/
structure TargetState where
  now : Nat := 0
  controller : Controller := {}
  calls : Nat → Option Call := fun _ => none

/-- A step of a call. -/
inductive Action where
  /-- Time passes. -/
  | tick (d : Nat)
  /-- A call of `acquire` with a wait. -/
  | acquire (call wait : Nat)
  /-- A call locks the controller: it is granted a permit, refused, or begins to wait. -/
  | attempt (call : Nat)
  /-- A waiting call is notified. -/
  | wake (call : Nat)
  /-- The wait of a call times out. -/
  | expire (call : Nat)
  /-- The future of a waiting call is dropped. -/
  | cancel (call : Nat)
  /-- Something happens to the permit that a call was granted. -/
  | permit (call : Nat) (a : PermitAction)
  deriving DecidableEq

/-- A call of `mark_first_event` runs its section. -/
def Action.isMarked : Action → Bool
  | .permit _ .marked => true
  | _ => false

namespace TargetState
variable (F : Floats)

def setCall (s : TargetState) (i : Nat) (call : Call) : TargetState :=
  { s with calls := Function.update s.calls i (some call) }

/-- The section of `acquire` under the lock. -/
def attempt (s : TargetState) (i wait deadline : Nat) : TargetState :=
  if s.controller.inflight < s.controller.capacity then
    let controller := { s.controller with inflight := s.controller.inflight + 1 }
    { s with controller }.setCall i (.holding (.granted controller.inflight))
  else if wait = 0 then
    s.setCall i (.refused (s.controller.snapshotAt F s.now))
  else
    s.setCall i (.waiting wait deadline)

def step (s : TargetState) : Action → Option TargetState
  | .tick d => some { s with now := s.now + d }
  | .acquire i wait =>
    match s.calls i with
    | none => some (s.setCall i (.trying wait (s.now + wait)))
    | some _ => none
  | .attempt i =>
    match s.calls i with
    | some (.trying wait deadline) => some (s.attempt F i wait deadline)
    | _ => none
  | .wake i =>
    match s.calls i with
    | some (.waiting wait deadline) => some (s.setCall i (.trying wait deadline))
    | _ => none
  | .expire i =>
    match s.calls i with
    | some (.waiting _ deadline) =>
      if deadline ≤ s.now then
        some (s.setCall i (.refused (s.controller.snapshotAt F s.now)))
      else
        none
    | _ => none
  | .cancel i =>
    match s.calls i with
    | some (.waiting _ _) => some (s.setCall i .cancelled)
    | _ => none
  | .permit i a =>
    match s.calls i with
    | some (.holding p) =>
      (p.act F s.controller s.now a).map fun (controller, p) =>
        { s with controller }.setCall i (.holding p)
    | _ => none

def phase (s : TargetState) (i : Nat) : Phase := (s.calls i).elim .absent Call.phase

/-- The identifier under which a call's permit counts as healthy, and 0 if it has none. -/
def provisionalId (s : TargetState) (i : Nat) : Nat := (s.calls i).elim 0 Call.provisionalId

/-- The calls that hold a permit that was not given back. -/
def live (s : TargetState) : Set Nat := {i | s.phase i = .live}

/-- The calls that hold a permit that recorded a first event and was not given back. -/
def healthy (s : TargetState) : Set Nat :=
  {i | ∃ p, s.calls i = some (.holding p) ∧ p.marking = .recorded ∧ p.release ≠ .done}

end TargetState

/-- The calls on one target, which begins with a controller that nothing has used. -/
def target (F : Floats) : Machine TargetState Action where
  start := {}
  step := TargetState.step F

variable {F : Floats} {s s' : TargetState} {i : Nat} {a : Action}

/-! ## What happens to one permit -/

/-- What an action on a permit does to the permit and the controller. -/
inductive PermitEffect (p : TrafficPermit) (c : Controller) :
    PermitAction → TrafficPermit → Controller → Prop
  /-- Neither the controller nor what counts for it changes. -/
  | quiet (a : PermitAction) (p' : TrafficPermit) (hid : p'.provisionalId = p.provisionalId)
      (hdone : p'.release = .done ↔ p.release = .done) (ha : a ≠ .released) :
      PermitEffect p c a p' c
  /-- The first event is recorded. -/
  | recorded (p' : TrafficPermit) (d : Controller) (now : Nat) (hopen : p.release = .none)
      (hnone : p.provisionalId = 0) (hrelease : p'.release = p.release)
      (hid : p'.provisionalId = d.freshProvisionalId) (hd : c.Adapts d) :
      PermitEffect p c .marked p' (d.beginProvisionalHealthy now)
  /-- The permit is given back. -/
  | released (p' : TrafficPermit) (d : Controller) (hlive : p.release ≠ .done)
      (hdone : p'.release = .done) (hid : p'.provisionalId = 0)
      (hd : (p.endProvisional c).Adapts d) :
      PermitEffect p c .released p' d.release

theorem TrafficPermit.recordFirstEvent_effect {p : TrafficPermit} {ttft : Nat}
    (h : p.marking = .pending ttft) (c : Controller) (now : Nat) :
    PermitEffect p c .marked (p.recordFirstEvent F ttft h c now).2
      (p.recordFirstEvent F ttft h c now).1 := by
  simp only [recordFirstEvent]
  split
  · rename_i hr
    refine .recorded _ _ now hr ?_ rfl rfl (c.recordTtft_adapts F p.inflightAtStart ttft now)
    by_contra hid
    exact absurd (h.symm.trans (p.tagged.mp hid).1) (by simp)
  · exact .quiet .marked _ rfl Iff.rfl (by simp)

theorem TrafficPermit.giveBack_effect {p : TrafficPermit} {ending : Ending}
    (h : p.release = .pending ending) (c : Controller) (now : Nat) :
    PermitEffect p c .released (p.giveBack F ending c now).2 (p.giveBack F ending c now).1 := by
  have hlive : p.release ≠ .done := by simp [h]
  cases ending with
  | finish outcome =>
    exact .released _ _ hlive rfl rfl (Controller.observeOutcome_adapts F _ _ outcome now)
  | drop => exact .released _ _ hlive rfl rfl (Controller.Adapts.refl _)

theorem TrafficPermit.act_effect {p p' : TrafficPermit} {c c' : Controller} {now : Nat}
    {a : PermitAction} (h : p.act F c now a = some (c', p')) : PermitEffect p c a p' c' := by
  cases a with
  | mark ttft =>
    simp only [act] at h
    split_ifs at h with hd hm
    · obtain ⟨rfl, rfl⟩ := h
      exact .quiet _ _ rfl Iff.rfl (by simp)
    · obtain ⟨rfl, rfl⟩ := h
      exact .quiet _ _ rfl Iff.rfl (by simp)
  | marked =>
    simp only [act] at h
    split at h
    · rename_i ttft hm
      have heffect := recordFirstEvent_effect (F := F) hm c now
      rwa [Option.some.inj h] at heffect
    all_goals cases h
  | finish outcome | drop =>
    simp only [act] at h
    split_ifs at h with hd hr
    · obtain ⟨rfl, rfl⟩ := h
      exact .quiet _ _ rfl (by simp [beginRelease, hr]) (by simp)
    · obtain ⟨rfl, rfl⟩ := h
      exact .quiet _ _ rfl Iff.rfl (by simp)
  | released =>
    simp only [act] at h
    split at h
    · rename_i ending hr
      have heffect := giveBack_effect (F := F) hr c now
      rwa [Option.some.inj h] at heffect
    all_goals cases h

/-- Once a permit is being given back, it is until its section has run. -/
theorem TrafficPermit.act_release_ne {p p' : TrafficPermit} {c c' : Controller} {now : Nat}
    {a : PermitAction} (h : p.act F c now a = some (c', p'))
    (ha : p.release ≠ .none ∨ (∃ o, a = .finish o) ∨ a = .drop) : p'.release ≠ .none := by
  cases a with
  | mark ttft =>
    have hp : p.release ≠ .none := by simpa using ha
    simp only [act] at h
    split_ifs at h with hd hm
    · obtain ⟨rfl, rfl⟩ := h
      exact hp
    · obtain ⟨rfl, rfl⟩ := h
      exact hp
  | marked =>
    have hp : p.release ≠ .none := by simpa using ha
    simp only [act] at h
    split at h
    · simp only [recordFirstEvent, hp, dif_neg, not_false_eq_true, Option.some.injEq,
        Prod.mk.injEq] at h
      rw [← h.2]
      exact hp
    all_goals cases h
  | finish outcome | drop =>
    simp only [act] at h
    split_ifs at h with hd hr
    · obtain ⟨rfl, rfl⟩ := h
      simp [beginRelease]
    · obtain ⟨rfl, rfl⟩ := h
      exact hr
  | released =>
    simp only [act] at h
    split at h
    · simp only [giveBack, Option.some.injEq, Prod.mk.injEq] at h
      rw [← h.2]
      simp
    all_goals cases h

/-! ## What happens to the target -/

/-- What an action does to what the controller counts. -/
inductive Effect (s s' : TargetState) : Action → Prop
  /-- Neither the controller nor what counts for it changes. -/
  | quiet (a : Action) (ha : ∀ i, a ≠ .permit i .released) (hc : s'.controller = s.controller)
      (hphase : s'.phase = s.phase) (hids : s'.provisionalId = s.provisionalId) : Effect s s' a
  /-- A call is granted a permit: the controller had room. -/
  | granted (i : Nat) (hroom : s.controller.inflight < s.controller.capacity)
      (hnew : s.phase i = .absent)
      (hc : s'.controller = { s.controller with inflight := s.controller.inflight + 1 })
      (hphase : s'.phase = Function.update s.phase i .live)
      (hids : s'.provisionalId = s.provisionalId) : Effect s s' (.attempt i)
  /-- A permit's first event is recorded. -/
  | recorded (i : Nat) (d : Controller) (now : Nat) (hd : s.controller.Adapts d)
      (hc : s'.controller = d.beginProvisionalHealthy now) (hphase : s'.phase = s.phase)
      (hnone : s.provisionalId i = 0)
      (hids : s'.provisionalId = Function.update s.provisionalId i d.freshProvisionalId) :
      Effect s s' (.permit i .marked)
  /-- A permit is given back. -/
  | released (i : Nat) (p : TrafficPermit) (hp : s.calls i = some (.holding p)) (d : Controller)
      (hd : (p.endProvisional s.controller).Adapts d) (hc : s'.controller = d.release)
      (hwas : s.phase i = .live) (hphase : s'.phase = Function.update s.phase i .returned)
      (hids : s'.provisionalId = Function.update s.provisionalId i 0) :
      Effect s s' (.permit i .released)

theorem Call.phase_holding_ne (p : TrafficPermit) : (Call.holding p).phase ≠ .absent := by
  rw [Call.phase]
  split_ifs
  · exact Phase.noConfusion
  · exact Phase.noConfusion

theorem Call.provisionalId_of_absent {call : Call} (h : call.phase = .absent) :
    call.provisionalId = 0 := by
  cases call with
  | holding p => exact absurd h (Call.phase_holding_ne p)
  | trying | waiting | refused | cancelled => rfl

namespace TargetState

/-- What a step does: time passes, a call without a permit moves on and gets none, a call is granted
a permit, or something happens to a permit. -/
inductive Transition (F : Floats) (s : TargetState) : Action → TargetState → Prop
  | tick (d : Nat) : Transition F s (.tick d) { s with now := s.now + d }
  | moved (a : Action) (i : Nat) (call : Call) (ha : ∀ j b, a ≠ .permit j b)
      (hs : s.phase i = .absent) (hcall : call.phase = .absent) :
      Transition F s a (s.setCall i call)
  | granted (i : Nat) (hroom : s.controller.inflight < s.controller.capacity)
      (hs : s.phase i = .absent) : Transition F s (.attempt i)
      ({ s with controller :=
          { s.controller with inflight := s.controller.inflight + 1 } }.setCall i
        (.holding (.granted (s.controller.inflight + 1))))
  | permit (i : Nat) (b : PermitAction) (p p' : TrafficPermit) (c : Controller)
      (hp : s.calls i = some (.holding p)) (hact : p.act F s.controller s.now b = some (c, p')) :
      Transition F s (.permit i b) ({ s with controller := c }.setCall i (.holding p'))

theorem phase_of_calls {o : Option Call} (h : s.calls i = o) :
    s.phase i = o.elim .absent Call.phase := by
  rw [phase, h]

theorem transition_of_step (h : s.step F a = some s') : Transition F s a s' := by
  cases a with
  | tick d =>
    cases h
    exact .tick d
  | acquire i wait | wake i | cancel i =>
    simp only [step] at h
    split at h
    · rename_i hcall
      cases h
      exact .moved _ i _ (by simp) (phase_of_calls hcall) rfl
    · cases h
  | attempt i =>
    simp only [step, attempt] at h
    split at h
    · rename_i hcall
      split_ifs at h with hroom
      · cases h
        exact .granted i hroom (phase_of_calls hcall)
      · cases h
        exact .moved _ i _ (by simp) (phase_of_calls hcall) rfl
      · cases h
        exact .moved _ i _ (by simp) (phase_of_calls hcall) rfl
    · cases h
  | expire i =>
    simp only [step] at h
    split at h
    · rename_i hcall
      split_ifs at h
      cases h
      exact .moved _ i _ (by simp) (phase_of_calls hcall) rfl
    · cases h
  | permit i b =>
    simp only [step] at h
    split at h
    · rename_i p hcall
      obtain ⟨⟨c, p'⟩, hact, rfl⟩ := Option.map_eq_some_iff.mp h
      exact .permit i b p p' c hcall hact
    · cases h

theorem provisionalId_of_absent (h : s.phase i = .absent) : s.provisionalId i = 0 := by
  unfold phase at h
  unfold provisionalId
  cases hcall : s.calls i with
  | none => rfl
  | some call =>
    rw [hcall] at h
    exact Call.provisionalId_of_absent h

theorem phase_setCall (s : TargetState) (i : Nat) (call : Call) :
    (s.setCall i call).phase = Function.update s.phase i call.phase := by
  funext j
  by_cases hj : j = i
  · simp [phase, setCall, hj]
  · simp [phase, setCall, hj]

theorem provisionalId_setCall (s : TargetState) (i : Nat) (call : Call) :
    (s.setCall i call).provisionalId = Function.update s.provisionalId i call.provisionalId := by
  funext j
  by_cases hj : j = i
  · simp [provisionalId, setCall, hj]
  · simp [provisionalId, setCall, hj]

/-- A call whose permit keeps its phase and its identifier changes nothing that counts. -/
theorem setCall_quiet {call : Call} (ha : ∀ i, a ≠ .permit i .released)
    (hphase : s.phase i = call.phase) (hid : s.provisionalId i = call.provisionalId) :
    Effect s (s.setCall i call) a := by
  refine .quiet a ha rfl ?_ ?_
  · rw [phase_setCall, ← hphase, Function.update_eq_self]
  · rw [provisionalId_setCall, ← hid, Function.update_eq_self]

theorem phase_of_holding {p : TrafficPermit} (h : s.calls i = some (.holding p)) :
    s.phase i = (Call.holding p).phase :=
  phase_of_calls h

theorem provisionalId_of_holding {p : TrafficPermit} (h : s.calls i = some (.holding p)) :
    s.provisionalId i = p.provisionalId := by
  simp [provisionalId, h, Call.provisionalId]

theorem permit_effect {p p' : TrafficPermit} {c : Controller} {a : PermitAction}
    (h : s.calls i = some (.holding p)) (hp : PermitEffect p s.controller a p' c) :
    Effect s ({ s with controller := c }.setCall i (.holding p')) (.permit i a) := by
  have hphase := phase_of_holding h
  have hid := provisionalId_of_holding h
  cases hp with
  | quiet _ _ hid' hdone ha =>
    refine setCall_quiet (by simpa using ha) ?_ ?_
    · simp [hphase, Call.phase, hdone]
    · simp [hid, Call.provisionalId, hid']
  | recorded _ d now hopen hnone hrelease hid' hd =>
    have hsame : (Call.holding p').phase = s.phase i := by simp [hphase, Call.phase, hrelease]
    refine .recorded i d now hd rfl ?_ (hid.trans hnone) ?_
    · rw [phase_setCall]
      exact Function.update_eq_self_iff.mpr hsame
    · rw [provisionalId_setCall]
      exact congrArg (Function.update s.provisionalId i) hid'
  | released _ d hlive hdone hid' hd =>
    refine .released i p h d hd rfl ?_ ?_ ?_
    · simp [hphase, Call.phase, hlive]
    · rw [phase_setCall]
      refine congrArg (Function.update s.phase i) ?_
      simp [Call.phase, hdone]
    · rw [provisionalId_setCall]
      exact congrArg (Function.update s.provisionalId i) hid'

/-- A step grants, records or releases one permit, or changes nothing that counts. -/
theorem step_effect (h : s.step F a = some s') : Effect s s' a := by
  cases transition_of_step h with
  | tick d => exact .quiet _ (by simp) rfl rfl rfl
  | moved _ i call ha hs hcall =>
    refine setCall_quiet (fun j => ha j _) (hs.trans hcall.symm) ?_
    rw [provisionalId_of_absent hs, Call.provisionalId_of_absent hcall]
  | granted i hroom hs =>
    refine .granted i hroom hs rfl ?_ ?_
    · rw [phase_setCall]
      rfl
    · rw [provisionalId_setCall]
      exact Function.update_eq_self_iff.mpr (provisionalId_of_absent hs).symm
  | permit i b p p' c hp hact => exact permit_effect hp (p.act_effect hact)

/-- A step acts on the permit that a call holds, or leaves the permit alone. -/
theorem holding_step {p : TrafficPermit} (hp : s.calls i = some (.holding p))
    (h : s.step F a = some s') :
    (∃ b c p', a = .permit i b ∧ p.act F s.controller s.now b = some (c, p') ∧
      s'.calls i = some (.holding p')) ∨
    (∀ b, a ≠ .permit i b) ∧ s'.calls i = some (.holding p) := by
  have other : ∀ {j call}, s.phase j = .absent →
      Function.update s.calls j (some call) i = some (.holding p) := by
    intro j call hj
    rw [Function.update_of_ne, hp]
    rintro rfl
    rw [phase_of_holding hp] at hj
    exact Call.phase_holding_ne p hj
  cases transition_of_step h with
  | tick d => exact .inr ⟨by simp, hp⟩
  | moved _ j call ha hs => exact .inr ⟨ha i, other hs⟩
  | granted j hroom hs => exact .inr ⟨by simp, other hs⟩
  | permit j b q q' c hq hact =>
    by_cases hij : i = j
    · subst hij
      cases hp.symm.trans hq
      exact .inl ⟨b, c, q', rfl, hact, by simp [setCall]⟩
    · refine .inr ⟨by simp [Ne.symm hij], ?_⟩
      simpa [setCall, hij] using hp

end TargetState
end Kinetix.UpstreamTraffic
