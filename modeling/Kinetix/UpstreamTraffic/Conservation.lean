import Kinetix.UpstreamTraffic.Permits

/-!
# Permits are conserved

In every run of the calls on a target the controller counts the permits that are live, keeps its
limit in range and grants no permit above it, and every permit that was ended is given back once.
The identifiers of the streams that count as healthy are tickets, given in order: the controller
holds those of the live permits that recorded a first event until the counter of identifiers wraps.
-/

namespace Kinetix.UpstreamTraffic
open StateMachine Tickets Words

variable {F : Floats} {s s' : TargetState} {i : Nat} {a : Action} {as : List Action}

/-! ## The count and the limit -/

namespace TargetState

/-- The controller counts the live permits, and its limit is in range. -/
structure Counted (s : TargetState) : Prop where
  inflight : s.live.encard = s.controller.inflight
  bounded : s.controller.Bounded

theorem counted_start : ({} : TargetState).Counted where
  inflight := by
    have hlive : ({} : TargetState).live = ∅ := Set.eq_empty_of_forall_notMem fun i h => by cases h
    rw [hlive, Set.encard_empty]
    rfl
  bounded := Controller.bounded_default

theorem endProvisional_eq (p : TrafficPermit) (c : Controller) :
    (p.endProvisional c).inflight = c.inflight ∧ (p.endProvisional c).limit = c.limit ∧
      (p.endProvisional c).nextProvisionalId = c.nextProvisionalId := by
  simp only [TrafficPermit.endProvisional]
  split <;> exact ⟨rfl, rfl, rfl⟩

theorem Counted.step (h : s.Counted) (he : Effect s s' a) : s'.Counted := by
  cases he with
  | quiet _ ha hc hphase hids =>
    constructor
    · rw [live, hphase, hc]
      exact h.inflight
    · rw [hc]
      exact h.bounded
  | granted i hroom hnew hc hphase hids =>
    constructor
    · rw [live, hphase, hc, encard_update_self (by simp [hnew])]
      exact congrArg (· + 1) h.inflight
    · rw [hc]
      exact h.bounded
  | recorded i d now hd hc hphase hnone hids =>
    constructor
    · rw [live, hphase, hc]
      exact h.inflight.trans (congrArg _ hd.inflight.symm)
    · rw [hc]
      exact hd.bounded h.bounded
  | released i p hp d hd hc hwas hphase hids =>
    obtain ⟨hin, hlimit, -⟩ := endProvisional_eq p s.controller
    constructor
    · have hcount : s'.live.encard + 1 = s.controller.inflight := by
        rw [live, hphase, encard_update_of_ne hwas (by simp)]
        exact h.inflight
      have hdin : s'.controller.inflight = s.controller.inflight - 1 := by
        rw [hc, Controller.release, hd.inflight, hin]
      rw [hdin]
      cases hn : s.controller.inflight with
      | zero =>
        rw [hn] at hcount
        exact absurd hcount (by simp)
      | succ n =>
        rw [hn, Nat.cast_add, Nat.cast_one] at hcount
        exact ENat.add_left_injective_of_ne_top ENat.one_ne_top hcount
    · rw [hc]
      refine hd.bounded ?_
      rw [Controller.Bounded, hlimit]
      exact h.bounded

end TargetState

/-- In every run the controller counts the live permits and keeps its limit in range. -/
theorem counted_of_run (h : (target F).run as = some s) : s.Counted :=
  (target F).invariant TargetState.counted_start
    (fun _ _ _ hs hstep => hs.step (TargetState.step_effect hstep)) h

/-! ## Giving back -/

/-- A permit was given back as often as its phase says. -/
theorem count_released : ∀ as s, (target F).run as = some s →
    ∀ i, as.count (.permit i .released) = if s.phase i = .returned then 1 else 0 := by
  refine (target F).run_induction (fun i => rfl) ?_
  intro as s a s' hrun ih hstep i
  have he : Effect s s' a := TargetState.step_effect hstep
  rw [List.count_append, ih i]
  cases he with
  | quiet _ ha hc hphase hids =>
    rw [hphase, List.count_eq_zero.mpr (by simpa using (ha i).symm), Nat.add_zero]
  | granted j hroom hnew hc hphase hids =>
    rw [hphase, List.count_eq_zero.mpr (by simp), Nat.add_zero]
    by_cases hij : i = j
    · simp [hij, hnew]
    · simp [hij]
  | recorded j d now hd hc hphase hnone hids =>
    rw [hphase, List.count_eq_zero.mpr (by simp), Nat.add_zero]
  | released j p hp d hd hc hwas hphase hids =>
    rw [hphase]
    by_cases hij : i = j
    · simp [hij, hwas]
    · simp [hij, Ne.symm hij]

namespace TargetState

/-- A call's permit is being given back or was given back. -/
def Ended (s : TargetState) (i : Nat) : Prop :=
  ∃ p, s.calls i = some (.holding p) ∧ p.release ≠ .none

theorem Ended.step (h : s.Ended i) (hstep : s.step F a = some s') : s'.Ended i := by
  obtain ⟨p, hp, hr⟩ := h
  rcases holding_step hp hstep with ⟨b, c, p', -, hact, hp'⟩ | ⟨-, hp'⟩
  · exact ⟨p', hp', TrafficPermit.act_release_ne hact (.inl hr)⟩
  · exact ⟨p, hp', hr⟩

theorem ended_of_step {b : PermitAction} (hb : (∃ o, b = .finish o) ∨ b = .drop)
    (hstep : s.step F (.permit i b) = some s') : s'.Ended i := by
  simp only [TargetState.step] at hstep
  split at hstep
  · rename_i p hcall
    obtain ⟨⟨c, p'⟩, hact, rfl⟩ := Option.map_eq_some_iff.mp hstep
    exact ⟨p', by simp [setCall], TrafficPermit.act_release_ne hact (.inr hb)⟩
  · cases hstep

/-- A permit that is being given back and was not given back yet can be. -/
theorem Ended.released_or_possible (h : s.Ended i) :
    s.phase i = .returned ∨ s.phase i = .live ∧ (s.step F (.permit i .released)).isSome := by
  obtain ⟨p, hp, hr⟩ := h
  cases hrel : p.release with
  | none => exact absurd hrel hr
  | pending ending =>
    right
    constructor
    · simp [phase_of_holding hp, Call.phase, hrel]
    · simp [TargetState.step, hp, TrafficPermit.act, hrel]
  | done =>
    left
    simp [phase_of_holding hp, Call.phase, hrel]

end TargetState

/-- A permit that was finished or dropped is being given back or was given back. -/
theorem ended_of_mem {b : PermitAction} (hb : (∃ o, b = .finish o) ∨ b = .drop) :
    ∀ as s, (target F).run as = some s → Action.permit i b ∈ as → s.Ended i := by
  refine (target F).run_induction (by simp) ?_
  intro as s a s' hrun ih hstep hmem
  rcases List.mem_append.mp hmem with hmem | hmem
  · exact (ih hmem).step hstep
  · obtain rfl := List.mem_singleton.mp hmem
    exact TargetState.ended_of_step hb hstep

/-! ## Granting -/

/-- A call that is granted a permit leaves no more permits in use than the capacity. -/
theorem TargetState.granted_within_capacity (h : s.step F (.attempt i) = some s')
    (hi : i ∈ s'.live) : s'.controller.inflight ≤ s'.controller.capacity ∧
      s'.controller.inflight = s.controller.inflight + 1 ∧
      s'.controller.capacity = s.controller.capacity := by
  simp only [step] at h
  split at h
  · rename_i wait deadline hcall
    cases h
    simp only [attempt] at hi ⊢
    split_ifs at hi ⊢ with hroom hwait
    · exact ⟨hroom, rfl, rfl⟩
    all_goals
      rw [live, phase_setCall, Set.mem_ofPred_eq, Function.update_self] at hi
      cases hi
  · cases h

/-! ## Streams that count as healthy -/

namespace Controller

/-- The identifiers of the streams that count as healthy. -/
def provisionalIds (c : Controller) : Set Nat := {k | k ∈ c.provisionalHealthy}

theorem provisionalIds_begin (c : Controller) (now : Nat) :
    (c.beginProvisionalHealthy now).provisionalIds =
      insert c.freshProvisionalId c.provisionalIds := by
  ext k
  simp [provisionalIds, beginProvisionalHealthy]

theorem provisionalIds_endProvisional {c : Controller} {p : TrafficPermit}
    (h : 0 ∉ c.provisionalIds) :
    (p.endProvisional c).provisionalIds = c.provisionalIds \ {p.provisionalId} := by
  simp only [TrafficPermit.endProvisional]
  split_ifs with hid
  · ext k
    simp [provisionalIds, endProvisionalHealthy, and_comm]
  · rw [not_not.mp hid, Set.sdiff_singleton_eq_self h]

theorem Adapts.provisionalIds {c d : Controller} (h : c.Adapts d) :
    d.provisionalIds = c.provisionalIds := by
  rw [Controller.provisionalIds, h.provisionalHealthy]
  rfl

end Controller

namespace TargetState

/-- The identifiers of the permits are registered with the controller. -/
def Matched (s : TargetState) : Prop :=
  Registered s.controller.nextProvisionalId s.provisionalId s.controller.provisionalIds

theorem Matched.step (h : s.Matched) (he : Effect s s' a)
    (hnext : a.isMarked → s.controller.nextProvisionalId < u64Max) :
    s'.Matched ∧ s'.controller.nextProvisionalId ≤
      s.controller.nextProvisionalId + if a.isMarked then 1 else 0 := by
  cases he with
  | quiet _ ha hc hphase hids | granted j hroom hnew hc hphase hids =>
    rw [Matched, hc, hids]
    exact ⟨h, Nat.le_add_right _ _⟩
  | recorded j d now hd hc hphase hnone hids =>
    have hlast : d.nextProvisionalId = s.controller.nextProvisionalId := hd.nextProvisionalId
    have hfresh : d.freshProvisionalId = s.controller.nextProvisionalId + 1 := by
      rw [Controller.freshProvisionalId_of_lt (hlast ▸ hnext rfl), hlast]
    have hnext' : s'.controller.nextProvisionalId = s.controller.nextProvisionalId + 1 := by
      rw [hc]
      exact hfresh
    refine ⟨?_, hnext'.le⟩
    rw [Matched, hnext', hids, hc, Controller.provisionalIds_begin, hd.provisionalIds, hfresh]
    exact h.issue hnone
  | released j p hp d hd hc hwas hphase hids =>
    obtain ⟨-, -, hlast⟩ := endProvisional_eq p s.controller
    have hnext' : s'.controller.nextProvisionalId = s.controller.nextProvisionalId := by
      rw [hc]
      exact hd.nextProvisionalId.trans hlast
    have hids' : s'.controller.provisionalIds =
        s.controller.provisionalIds \ {s.provisionalId j} := by
      rw [provisionalId_of_holding hp, hc,
        ← Controller.provisionalIds_endProvisional fun h0 => ((h.mem_iff 0).mp h0).1 rfl]
      exact hd.provisionalIds
    refine ⟨?_, hnext'.le⟩
    rw [Matched, hnext', hids, hids']
    exact h.retire

/-- A call's permit has an identifier when it counts as healthy. -/
theorem mem_healthy_iff : i ∈ s.healthy ↔ s.provisionalId i ≠ 0 := by
  constructor
  · rintro ⟨p, hp, hmark, hrel⟩
    rw [provisionalId_of_holding hp]
    exact p.tagged.mpr ⟨hmark, hrel⟩
  · intro hid
    cases hcall : s.calls i with
    | none => simp [provisionalId, hcall] at hid
    | some call =>
      cases call with
      | holding p =>
        rw [provisionalId_of_holding hcall] at hid
        exact ⟨p, hcall, p.tagged.mp hid⟩
      | trying wait deadline | waiting wait deadline | refused snapshot | cancelled =>
        simp [provisionalId, hcall, Call.provisionalId] at hid

theorem Matched.bijOn (h : s.Matched) :
    Set.BijOn s.provisionalId s.healthy s.controller.provisionalIds := by
  refine ⟨?_, ?_, ?_⟩
  · intro i hi
    exact (h.mem_iff _).mpr ⟨mem_healthy_iff.mp hi, i, rfl⟩
  · intro i hi j _ hij
    exact h.inj i j hij (mem_healthy_iff.mp hi)
  · intro k hk
    obtain ⟨hne, i, rfl⟩ := (h.mem_iff k).mp hk
    exact ⟨i, mem_healthy_iff.mpr hne, rfl⟩

end TargetState

/-- While fewer events were recorded than there are identifiers, the controller holds the
identifiers of the live permits that recorded one. -/
theorem matched_of_run : ∀ as s, (target F).run as = some s →
    as.countP Action.isMarked ≤ u64Max →
    s.Matched ∧ s.controller.nextProvisionalId ≤ as.countP Action.isMarked := by
  refine (target F).run_induction ?_ ?_
  · intro _
    have hids : ({} : Controller).provisionalIds = ∅ :=
      Set.eq_empty_of_forall_notMem fun k hk => absurd hk (AList.notMem_empty k)
    have hstart : Registered 0 (fun _ : Nat => 0) ({} : Controller).provisionalIds := by
      rw [hids]
      exact Registered.start
    exact ⟨hstart, Nat.zero_le _⟩
  · intro as s a s' hrun ih hstep hcount
    rw [List.countP_append, List.countP_singleton] at hcount ⊢
    obtain ⟨hmatched, hle⟩ := ih (by omega)
    have hnext : a.isMarked → s.controller.nextProvisionalId < u64Max := by
      intro ha
      rw [if_pos ha] at hcount
      omega
    obtain ⟨hmatched', hle'⟩ := hmatched.step (TargetState.step_effect hstep) hnext
    exact ⟨hmatched', hle'.trans (Nat.add_le_add_right hle _)⟩

/-- What the controller has in common with the permits after a run. -/
structure Conserved (F : Floats) (as : List Action) (s : TargetState) : Prop where
  inflight : s.live.encard = s.controller.inflight
  limit : 1 ≤ s.controller.limit ∧ s.controller.limit ≤ 64
  /-- No permit is given back twice. -/
  released : ∀ i, as.count (.permit i .released) = if s.phase i = .returned then 1 else 0
  /-- A permit that was finished or dropped was given back, or the call that ended it will. -/
  ended : ∀ i, (∃ o, Action.permit i (.finish o) ∈ as) ∨ Action.permit i .drop ∈ as →
    s.phase i = .returned ∨ s.phase i = .live ∧ (s.step F (.permit i .released)).isSome
  granted : ∀ i s', s.step F (.attempt i) = some s' → i ∈ s'.live →
    s'.controller.inflight ≤ s'.controller.capacity
  /-- The controller holds the identifiers of the live permits that recorded a first event. -/
  healthy : as.countP Action.isMarked ≤ u64Max →
    Set.BijOn s.provisionalId s.healthy s.controller.provisionalIds

/-- Permits are conserved in every run of the calls on a target. -/
theorem permits_conserved (F : Floats) {as : List Action} {s : TargetState}
    (h : (target F).run as = some s) : Conserved F as s where
  inflight := (counted_of_run h).inflight
  limit := (counted_of_run h).bounded
  released := count_released as s h
  ended i hi := by
    have hended : s.Ended i := by
      rcases hi with ⟨o, ho⟩ | hd
      · exact ended_of_mem (.inl ⟨o, rfl⟩) as s h ho
      · exact ended_of_mem (.inr rfl) as s h hd
    exact hended.released_or_possible
  granted i s' hstep hi := (TargetState.granted_within_capacity hstep hi).1
  healthy hcount := (matched_of_run as s h hcount).1.bijOn

/-- Exact arithmetic, with the exponential at 0. -/
def exampleFloats : Floats where
  round := id
  exp _ := 1

/-- Two permits are granted; one reports its first event and finishes. -/
theorem permits_conserved_two :
    ∃ s, (target exampleFloats).run
        [.acquire 0 0, .attempt 0, .acquire 1 0, .attempt 1, .permit 0 (.mark 100),
          .permit 0 .marked, .permit 0 (.finish .success), .permit 0 .released] = some s ∧
      Conserved exampleFloats
        [.acquire 0 0, .attempt 0, .acquire 1 0, .attempt 1, .permit 0 (.mark 100),
          .permit 0 .marked, .permit 0 (.finish .success), .permit 0 .released] s := by
  obtain ⟨s, hs⟩ := Option.isSome_iff_exists.mp
    (show ((target exampleFloats).run
        [.acquire 0 0, .attempt 0, .acquire 1 0, .attempt 1, .permit 0 (.mark 100),
          .permit 0 .marked, .permit 0 (.finish .success), .permit 0 .released]).isSome by decide)
  exact ⟨s, hs, permits_conserved exampleFloats hs⟩

/-- In every run a call that tries to take a permit is granted one exactly if fewer permits are
live than the capacity. -/
theorem attempt_granted_iff (h : (target F).run as = some s) {wait deadline : Nat}
    (hi : s.calls i = some (.trying wait deadline)) :
    (∃ s', s.step F (.attempt i) = some s' ∧ i ∈ s'.live) ↔
      s.live.encard < s.controller.capacity := by
  rw [(counted_of_run h).inflight, Nat.cast_lt]
  simp only [TargetState.step, hi, Option.some.injEq, exists_eq_left', TargetState.attempt,
    TargetState.live, Set.mem_ofPred_eq]
  split_ifs with hroom hwait <;> rw [TargetState.phase_setCall, Function.update_self]
  · exact iff_of_true rfl hroom
  · exact iff_of_false (fun h => by cases h) hroom
  · exact iff_of_false (fun h => by cases h) hroom

theorem attempt_granted_first : ∃ s, (target exampleFloats).run [.acquire 0 0] = some s ∧
    ∃ s', s.step exampleFloats (.attempt 0) = some s' ∧ 0 ∈ s'.live := by
  have hs : (target exampleFloats).run [.acquire 0 0] = some _ := rfl
  refine ⟨_, hs, (attempt_granted_iff hs rfl).mpr ?_⟩
  rw [(counted_of_run hs).inflight]
  decide

/-! ## When the identifiers wrap -/

/-- A call that is granted a permit, reports a first event and finishes. -/
def pulse (i : Nat) : List Action :=
  [.acquire i 0, .attempt i, .permit i (.mark 0), .permit i .marked, .permit i (.finish .neutral),
    .permit i .released]

namespace TargetState

theorem attempt_step {wait deadline : Nat} (hi : s.calls i = some (.trying wait deadline))
    (hroom : s.controller.inflight < s.controller.capacity) :
    s.step F (.attempt i) = some
      ({ s with
        controller := { s.controller with inflight := s.controller.inflight + 1 } }.setCall i
        (.holding (.granted (s.controller.inflight + 1)))) := by
  simp [step, attempt, hi, hroom]

theorem permit_step {p : TrafficPermit} {c : Controller} {b : PermitAction} (p' : TrafficPermit)
    (hp : s.calls i = some (.holding p)) (hact : p.act F s.controller s.now b = some (c, p')) :
    s.step F (.permit i b) = some ({ s with controller := c }.setCall i (.holding p')) := by
  simp [step, hp, hact]

end TargetState

/-- The controller after a pulse. -/
def Controller.afterPulse (F : Floats) (c : Controller) (now : Nat) : Controller :=
  let d := { c with inflight := c.inflight + 1 }.recordTtft F (c.inflight + 1) 0 now
  ((d.beginProvisionalHealthy now).endProvisionalHealthy d.freshProvisionalId).release

/-- The actions of a permit that reports a first event and finishes. -/
theorem permit_run {n : Nat} (hp : s.calls i = some (.holding (.granted n))) :
    ∃ s', (target F).runFrom s
        [.permit i (.mark 0), .permit i .marked, .permit i (.finish .neutral),
          .permit i .released] = some s' ∧
      s'.controller =
        (let d := s.controller.recordTtft F n 0 s.now
        ((d.beginProvisionalHealthy s.now).endProvisionalHealthy d.freshProvisionalId).release) ∧
      s'.now = s.now ∧ ∀ j ≠ i, s'.calls j = s.calls j := by
  let d := s.controller.recordTtft F n 0 s.now
  let p := TrafficPermit.beginMark (.granted n) 0 rfl
  let q := (p.recordFirstEvent F 0 rfl s.controller s.now).2
  let r := q.beginRelease (.finish .neutral) rfl
  have hended : r.endProvisional (d.beginProvisionalHealthy s.now) =
      (d.beginProvisionalHealthy s.now).endProvisionalHealthy d.freshProvisionalId :=
    if_pos d.freshProvisionalId_ne_zero
  rw [Machine.runFrom_cons_of_step _ (TargetState.permit_step p hp rfl),
    Machine.runFrom_cons_of_step _
      (TargetState.permit_step q (Function.update_self ..) rfl),
    Machine.runFrom_cons_of_step _
      (TargetState.permit_step r (Function.update_self ..) rfl),
    Machine.runFrom_cons_of_step _
      (TargetState.permit_step _ (Function.update_self ..) rfl)]
  refine ⟨_, rfl, congrArg Controller.release hended, rfl, ?_⟩
  intro j hj
  simp [TargetState.setCall, hj]

theorem pulse_run (hfree : s.calls i = none)
    (hroom : s.controller.inflight < s.controller.capacity) :
    ∃ s', (target F).runFrom s (pulse i) = some s' ∧
      s'.controller = s.controller.afterPulse F s.now ∧ s'.now = s.now ∧
      ∀ j ≠ i, s'.calls j = s.calls j := by
  have hacquire : (target F).step s (.acquire i 0) = some (s.setCall i (.trying 0 s.now)) := by
    simp [target, TargetState.step, hfree]
  have hattempt := TargetState.attempt_step (F := F) (s := s.setCall i (.trying 0 s.now)) (i := i)
    (Function.update_self ..) hroom
  rw [pulse, Machine.runFrom_cons_of_step _ hacquire, Machine.runFrom_cons_of_step _ hattempt]
  obtain ⟨s', hrun, hc, hnow, hcalls⟩ := permit_run (F := F) (i := i)
    (n := s.controller.inflight + 1)
    (s := { s with
      controller := { s.controller with inflight := s.controller.inflight + 1 }
      calls := Function.update (Function.update s.calls i (some (.trying 0 s.now))) i
        (some (.holding (.granted (s.controller.inflight + 1)))) }) (Function.update_self ..)
  refine ⟨s', hrun, hc, hnow, fun j hj => ?_⟩
  rw [hcalls j hj]
  simp [hj]

/-- At the instant 0 no limit update is due. -/
theorem Controller.recordTtft_limit (c : Controller) (inflightAtStart ttft : Nat) :
    (c.recordTtft F inflightAtStart ttft 0).limit = c.limit := by
  have hstale : c.dropStaleTtft 0 = c := by
    simp only [dropStaleTtft]
    split
    · simp [ttftStaleHorizon]
    · rfl
  simp only [recordTtft, hstale]
  split
  · rfl
  · simp [limitUpdateInterval]

theorem Controller.capacity_of_limit {c : Controller} (h : c.limit = 4) : c.capacity = 4 := by
  rw [capacity, h]
  rfl

/-- A pulse leaves the count and, at the instant 0, the limit as they were; its identifier is the
next one, and is gone. -/
theorem Controller.afterPulse_spec (c : Controller) :
    (c.afterPulse F 0).limit = c.limit ∧ (c.afterPulse F 0).inflight = c.inflight ∧
      (c.afterPulse F 0).nextProvisionalId = c.freshProvisionalId ∧
      (c.afterPulse F 0).provisionalIds = c.provisionalIds \ {c.freshProvisionalId} := by
  let d := { c with inflight := c.inflight + 1 }.recordTtft F (c.inflight + 1) 0 0
  have hd := recordTtft_adapts F { c with inflight := c.inflight + 1 } (c.inflight + 1) 0 0
  have hfresh : d.freshProvisionalId = c.freshProvisionalId := by
    rw [freshProvisionalId, hd.nextProvisionalId]
    rfl
  have hids : d.provisionalIds = c.provisionalIds := hd.provisionalIds
  refine ⟨recordTtft_limit _ _ _, ?_, hfresh, ?_⟩
  · rw [afterPulse, release]
    exact congrArg (· - 1) hd.inflight
  · calc (c.afterPulse F 0).provisionalIds
        = (d.beginProvisionalHealthy 0).provisionalIds \ {d.freshProvisionalId} := by
          ext k
          simp [afterPulse, release, provisionalIds, endProvisionalHealthy, and_comm, d]
      _ = c.provisionalIds \ {c.freshProvisionalId} := by
          rw [provisionalIds_begin, hfresh, hids]
          simp

/-- The first call holds a permit whose stream is open, under the identifier 1, and `n` more calls
have come and gone. -/
structure Looped (n : Nat) (s : TargetState) : Prop where
  now : s.now = 0
  first : 0 ∈ s.healthy
  id : s.provisionalId 0 = 1
  free : ∀ j, n < j → s.calls j = none
  limit : s.controller.limit = 4
  inflight : s.controller.inflight = 1

/-- One more pulse takes the next identifier off those that the controller holds. -/
theorem Looped.pulse {n : Nat} (h : Looped n s) :
    ∃ s', (target F).runFrom s (pulse (n + 1)) = some s' ∧ Looped (n + 1) s' ∧
      s'.controller.nextProvisionalId = s.controller.freshProvisionalId ∧
      s'.controller.provisionalIds =
        s.controller.provisionalIds \ {s.controller.freshProvisionalId} := by
  have hroom : s.controller.inflight < s.controller.capacity := by
    rw [h.inflight, Controller.capacity_of_limit h.limit]
    decide
  obtain ⟨s', hrun, hc, hnow, hcalls⟩ :=
    pulse_run (F := F) (h.free (n + 1) (Nat.lt_succ_self n)) hroom
  rw [h.now] at hc
  obtain ⟨hlimit, hinflight, hnext, hids⟩ := s.controller.afterPulse_spec (F := F)
  have hfirst : s'.calls 0 = s.calls 0 := hcalls 0 (Nat.succ_ne_zero n).symm
  refine ⟨s', hrun, ?_, hc ▸ hnext, hc ▸ hids⟩
  exact {
    now := hnow.trans h.now
    first := by
      simp only [TargetState.healthy, Set.mem_ofPred_eq, hfirst]
      exact h.first
    id := by
      rw [TargetState.provisionalId, hfirst]
      exact h.id
    free := fun j hj => by
      rw [hcalls j (by omega)]
      exact h.free j (by omega)
    limit := by
      rw [hc, hlimit]
      exact h.limit
    inflight := by
      rw [hc, hinflight]
      exact h.inflight }

/-- The first call's permit is granted and reports its first event. -/
theorem looped_first : ∃ s,
    (target F).run [.acquire 0 0, .attempt 0, .permit 0 (.mark 0), .permit 0 .marked] = some s ∧
      Looped 0 s ∧ s.controller.nextProvisionalId = 1 := by
  refine ⟨_, rfl, ?_, rfl⟩
  exact {
    now := rfl
    first := ⟨_, rfl, rfl, fun h => Release.noConfusion (show Release.none = Release.done from h)⟩
    id := rfl
    free := fun j hj => by
      have hne : j ≠ 0 := Nat.ne_of_gt hj
      change Function.update (Function.update (Function.update (Function.update
        (fun _ => none) 0 _) 0 _) 0 _) 0 _ j = none
      simp [hne]
    limit := rfl
    inflight := rfl }

/-- Any number of calls can come and go while the first call's stream is open. -/
theorem looped_run (n : Nat) (h : n < u64Max) : ∃ as s,
    (target F).run as = some s ∧ Looped n s ∧ s.controller.nextProvisionalId = n + 1 := by
  induction n with
  | zero =>
    obtain ⟨s, hrun, hs⟩ := looped_first (F := F)
    exact ⟨_, s, hrun, hs⟩
  | succ n ih =>
    obtain ⟨as, s, hrun, hs, hnext⟩ := ih (Nat.lt_of_succ_lt h)
    obtain ⟨s', hpulse, hs', hnext', -⟩ := hs.pulse (F := F)
    refine ⟨as ++ pulse (n + 1), s', ?_, hs', ?_⟩
    · rw [Machine.run_append, hrun]
      exact hpulse
    · rw [hnext', Controller.freshProvisionalId_of_lt (hnext ▸ h), hnext]

/-- When the counter of identifiers has wrapped, another stream takes the identifier of one that is
still open, and takes it away when it finishes. -/
theorem identifier_taken_twice : ¬ ∀ (F : Floats) as s, (target F).run as = some s →
    Set.BijOn s.provisionalId s.healthy s.controller.provisionalIds := by
  intro hall
  obtain ⟨as, s, hrun, hs, hnext⟩ := looped_run (F := exampleFloats) (u64Max - 1) (by decide)
  obtain ⟨s', hpulse, hs', -, hids⟩ := hs.pulse (F := exampleFloats)
  rw [Controller.freshProvisionalId_of_eq hnext] at hids
  have hrun' : (target exampleFloats).run (as ++ pulse (u64Max - 1 + 1)) = some s' := by
    rw [Machine.run_append, hrun]
    exact hpulse
  have hmem : s'.provisionalId 0 ∈ s'.controller.provisionalIds :=
    (hall exampleFloats _ s' hrun').mapsTo hs'.first
  rw [hs'.id, hids] at hmem
  exact hmem.2 rfl

end Kinetix.UpstreamTraffic
