import Kinetix.Library.RecentEvents
import Kinetix.ProviderCircuit.Lease

/-!
# The reference circuit breaker

What the circuit breaker is for, without its bounds: while the provider is in service the record of
qualifying failures is never shortened, epochs are natural numbers, and the circuit opens as soon as
the failures of the last thirty seconds come from two accounts, or from two targets where accounts
do not exist. The code's circuit, with its purged and capped queue and its wrapping generation,
steps together with this machine.
-/

namespace Kinetix.ProviderCircuit
open Clock Kinetix.Types Words StateMachine Slots RecentEvents

/-- The field of a failure that the policy correlates over. -/
def ProviderCorrelationPolicy.key : ProviderCorrelationPolicy → FailureEvidence → String
  | .distinctAccounts => (·.accountId)
  | .accountlessTargets => (·.targetId)

/-- The accounts, or targets, with a failure in the last thirty seconds. -/
def correlationSet (policy : ProviderCorrelationPolicy) (now : Int)
    (evidence : List FailureEvidence) : Finset String :=
  ((recent FailureEvidence.failedAt (now - seconds 30) evidence).map policy.key).toFinset

/-- In service with all failures since the record was last cleared, out of service until a time, or
probing with a lease that is taken or free. -/
inductive Mode
  | closed (evidence : List FailureEvidence)
  | cooling (retryAt : Int)
  | probing (leased : Bool)

/-- The state that a mode shows. -/
def Mode.state : Mode → ProviderCircuitState
  | .closed _ => .closed
  | .cooling _ => .opened
  | .probing _ => .halfOpen

/-- The reference machine's state. An attempt's generation is the epoch in which it began. -/
structure Reference where
  mode : Mode := .closed []
  epoch : Nat := 0
  attempts : Nat → Option ProviderAttempt := fun _ => none
  clock : Int := clockOrigin

namespace Reference

def put (t : Reference) (handle : Nat) (o : Option ProviderAttempt) : Reference :=
  { t with attempts := Function.update t.attempts handle o }

/-- Take the provider out of service and begin a new epoch. -/
def trip (t : Reference) (now : Int) : Reference :=
  { t with mode := .cooling (now + seconds 30), epoch := t.epoch + 1 }

/-- A success closes the circuit if it is the probe's, and clears the record of a closed circuit if
it is that of an ordinary attempt of this epoch. -/
def succeed (t : Reference) (a : ProviderAttempt) : Reference :=
  if a.probing then { t with mode := .closed [] }
  else
    match t.mode with
    | .closed _ =>
      if !a.finished && !a.halfOpenProbe && a.generation == t.epoch then
        { t with mode := .closed [] }
      else t
    | _ => t

/-- A failure counts if it qualifies and is the probe's, or that of an attempt of this epoch while
the circuit is closed. -/
def fail (policy : ProviderCorrelationPolicy) (t : Reference) (a : ProviderAttempt)
    (kind : FailureKind) (status : Option Nat) (now : Int) : Reference :=
  if a.probing then
    if qualifies kind status then t.trip now else { t with mode := .probing false }
  else
    match t.mode with
    | .closed evidence =>
      if !a.finished && a.generation == t.epoch && qualifies kind status then
        let evidence := evidence ++ [⟨now, a.accountId, a.targetId⟩]
        if 2 ≤ (correlationSet policy now evidence).card then t.trip now
        else { t with mode := .closed evidence }
      else t
    | _ => t

/-- A probe that ends without a verdict is repeated a second later. -/
def abandon (t : Reference) (a : ProviderAttempt) (now : Int) : Reference :=
  if a.probing then { t with mode := .cooling (now + seconds 1) } else t

def perform (policy : ProviderCorrelationPolicy) (t : Reference) : Action → Option Reference
  | .beginAttempt handle accountId targetId policy now =>
    match t.attempts handle with
    | some _ => none
    | none =>
      let join (t : Reference) (probe : Bool) : Option Reference :=
        some (t.put handle
          (some ⟨accountId, targetId, t.epoch, policy, probe, false, false⟩))
      match t.mode with
      | .closed _ => join t false
      | .cooling retryAt =>
        if now.value < retryAt then some t else join { t with mode := .probing true } true
      | .probing true => some t
      | .probing false => join { t with mode := .probing true } true
  | .checkAvailable _ | .snapshot _ => some t
  | .markValidatedSuccess handle _ =>
    (t.attempts handle).map fun a =>
      if a.probing then
        { t with mode := .closed [] }.put handle (some { a with validatedSuccess := true })
      else t
  | .finishSuccess handle _ =>
    (t.attempts handle).map fun a => (t.succeed a).put handle (some a.settled)
  | .finishFailure handle kind status now =>
    (t.attempts handle).map fun a =>
      (t.fail policy a kind status now.value).put handle (some a.settled)
  | .finishNeutral handle now =>
    (t.attempts handle).map fun a => (t.abandon a now.value).put handle (some a.settled)
  | .dropAttempt handle now =>
    (t.attempts handle).map fun a => (t.abandon a now.value).put handle none

def step (policy : ProviderCorrelationPolicy) (t : Reference) (a : Action) : Option Reference :=
  if t.clock ≤ a.now.value then { t with clock := a.now.value }.perform policy a else none

end Reference

/-- The reference machine of a provider whose attempts all correlate by one policy. -/
def reference (policy : ProviderCorrelationPolicy) : Machine Reference Action where
  start := {}
  step := Reference.step policy

/-- Attempts are begun under this policy only. -/
def Action.UsesPolicy (policy : ProviderCorrelationPolicy) : Action → Prop
  | .beginAttempt _ _ _ p _ => p = policy
  | _ => True

/-- The attempt that an operation is called on. -/
def Action.handle? : Action → Option Nat
  | .beginAttempt .. | .checkAvailable _ | .snapshot _ => none
  | .markValidatedSuccess handle _ | .finishSuccess handle _ | .finishFailure handle _ _ _
  | .finishNeutral handle _ | .dropAttempt handle _ => some handle

/-- The circuit is in the mode of the reference. In service, its queue tracks the reference's
record, whose recent part has not been diverse. -/
def ModeRel (policy : ProviderCorrelationPolicy) (c : Circuit) (clock : Int) : Mode → Prop
  | .closed evidence =>
    c.state = .closed ∧ (∀ f ∈ evidence, f.failedAt ≤ clock) ∧
    Tracks FailureEvidence.failedAt (clock - seconds 30) c.failures evidence ∧
    ¬ Diverse policy.key (recent FailureEvidence.failedAt (clock - seconds 30) evidence)
  | .cooling retryAt => c.state = .opened ∧ c.retryAt = some retryAt
  | .probing leased => c.state = .halfOpen ∧ c.halfOpenInflight = if leased then 1 else 0

/-- The circuit is in the mode and the epoch of the reference. -/
structure Matches (policy : ProviderCorrelationPolicy) (c : Circuit) (clock : Int)
    (t : Reference) : Prop where
  epoch : t.epoch = c.generation
  mode : ModeRel policy c clock t.mode

/-- The provider follows the reference. -/
structure Follows (policy : ProviderCorrelationPolicy) (s : Provider) (t : Reference) : Prop where
  clock : t.clock = s.clock
  attempts : t.attempts = s.attempts
  policies : ∀ {h a}, s.attempts h = some a → a.correlationPolicy = policy
  circuit : Matches policy s.circuit s.clock t
  lease : LeaseInv s.circuit s.attempts s.clock

theorem ModeRel.state {policy : ProviderCorrelationPolicy} {c : Circuit} {clock : Int} {m : Mode}
    (h : ModeRel policy c clock m) : m.state = c.state := by
  cases m <;> exact h.1.symm

namespace ModeRel
variable {policy : ProviderCorrelationPolicy} {c c' : Circuit} {clock : Int} {m : Mode}

/-- What is recent at a later time was recent before. -/
theorem later {clock' : Int} (h : ModeRel policy c clock m) (hle : clock ≤ clock') :
    ModeRel policy c clock' m := by
  cases m with
  | closed evidence =>
    obtain ⟨hs, hb, T, hd⟩ := h
    refine ⟨hs, fun f hf => (hb f hf).trans hle, T.later (by omega), fun hd' => hd ?_⟩
    exact hd'.mono (recent_subset (by omega))
  | cooling | probing => exact h

theorem purged (h : ModeRel policy c clock m) (P : Purged c c' clock) :
    ModeRel policy c' clock m := by
  cases m with
  | closed evidence =>
    obtain ⟨hs, hb, T, hd⟩ := h
    refine ⟨P.state.trans hs, hb, ?_, hd⟩
    rw [P.failures]
    exact T.purge le_rfl
  | cooling => exact ⟨P.state.trans h.1, P.retryAt.trans h.2⟩
  | probing => exact ⟨P.state.trans h.1, P.inflight.trans h.2⟩

end ModeRel

/-- The code's test for a correlated failure is the size of the set of correlated keys. -/
theorem correlated_iff (c : Circuit) (policy : ProviderCorrelationPolicy) :
    c.correlated policy ↔ Diverse policy.key c.failures := by
  rw [← two_le_card_iff, List.card_toFinset]
  cases policy <;> exact decide_eq_true_iff

theorem correlationSet_iff (policy : ProviderCorrelationPolicy) (now : Int)
    (evidence : List FailureEvidence) : 2 ≤ (correlationSet policy now evidence).card ↔
      Diverse policy.key (recent FailureEvidence.failedAt (now - seconds 30) evidence) :=
  two_le_card_iff

/-- Recording a failure in the purged and capped queue finds a second key exactly when the
reference's record does, and otherwise the queue keeps tracking the record. -/
theorem record_failure {policy : ProviderCorrelationPolicy} {c : Circuit} {now : Int}
    {evidence : List FailureEvidence} {f : FailureEvidence} (hf : f.failedAt = now)
    (h : ModeRel policy c now (.closed evidence)) :
    (((c.purgeOld now).pushFailure f).correlated policy ↔
      2 ≤ (correlationSet policy now (evidence ++ [f])).card) ∧
    (¬ 2 ≤ (correlationSet policy now (evidence ++ [f])).card →
      ModeRel policy ((c.purgeOld now).pushFailure f) now (.closed (evidence ++ [f]))) := by
  obtain ⟨hs, hb, T, hd⟩ := h
  have T' := T.purge (le_refl (now - seconds 30))
  have hpure : ∀ x ∈ (c.purgeOld now).failures, now - seconds 30 ≤ x.failedAt := by
    intro x hx
    rw [Circuit.purgeOld, correlationWindowSecs] at hx
    rw [dropWhile_eq_recent T.kept_sorted] at hx
    exact (mem_recent.mp hx).2
  have hnow : now - seconds 30 ≤ f.failedAt := by
    simp only [hf, seconds]
    omega
  refine ⟨?_, fun hn => ⟨(Circuit.recordFailure_control c f now).state.trans hs, ?_, ?_, ?_⟩⟩
  · rw [correlated_iff, correlationSet_iff, Circuit.pushFailure_failures]
    exact T'.diverse_push_iff (by decide) hpure hd hnow
  · intro x hx
    rcases List.mem_append.mp hx with hx | hx
    · exact hb x hx
    · rw [List.mem_singleton.mp hx, hf]
  · rw [Circuit.pushFailure_failures]
    exact T'.push (by decide) fun x hx => hf ▸ hb x hx
  · rwa [← correlationSet_iff]

namespace Matches
variable {policy : ProviderCorrelationPolicy} {c c' : Circuit} {now : Reading} {t : Reference}
  {live : Nat → Option ProviderAttempt} {h : Nat} {a : ProviderAttempt}

/-- Cleared evidence matches a cleared record. -/
theorem clear (M : Matches policy c now.value t) (hg : c'.generation = c.generation)
    (hs : c'.state = .closed) (hf : c'.failures = []) :
    Matches policy c' now.value { t with mode := .closed [] } where
  epoch := M.epoch.trans hg.symm
  mode := by
    refine ⟨hs, by simp, ?_, ?_⟩
    · rw [hf]
      exact Tracks.nil
    · rintro ⟨x, hx, -⟩
      cases hx

/-- An opened circuit matches a tripped reference, and its generation has not wrapped. -/
theorem trip (M : Matches policy c now.value t) (O : Opened c c' now.value)
    (hp : Paced c now.value) (hs : c.state ≠ .opened) :
    Matches policy c' now.value (t.trip now.value) where
  epoch := by
    rw [O.generation, wrappingAdd_of_le (hp.generation_lt hs), ← M.epoch]
    rfl
  mode := ⟨O.state, O.retryAt⟩

theorem succeed (M : Matches policy c now.value t) (I : LeaseInv c live now.value)
    (ha : live h = some a) :
    Matches policy (a.finishSuccess c now.value).2.2 now.value (t.succeed a) := by
  unfold Reference.succeed
  cases hp : a.probing with
  | true =>
    obtain ⟨hs, -, hg⟩ := I.holder ha hp
    rw [ProviderAttempt.finishSuccess_probing hp hs hg]
    exact M.clear rfl rfl rfl
  | false =>
    rw [ProviderAttempt.finishSuccess_quiet hp]
    have hm := M.mode
    cases hmode : t.mode with
    | closed evidence =>
      rw [hmode] at hm
      have hcond : (!a.finished && !a.halfOpenProbe && a.generation == c.generation &&
          c.state == .closed) =
          (!a.finished && !a.halfOpenProbe && a.generation == t.epoch) := by
        simp [M.epoch, hm.1]
      rw [hcond]
      simp only [Bool.false_eq_true, if_false]
      split_ifs
      · exact M.clear rfl hm.1 rfl
      · exact M
    | cooling | probing =>
      rw [hmode] at hm
      simpa [hm.1] using M

theorem fail {kind : FailureKind} {status : Option Nat} (M : Matches policy c now.value t)
    (I : LeaseInv c live now.value) (ha : live h = some a) (hpol : a.correlationPolicy = policy) :
    Matches policy (a.finishFailure c kind status now.value).2.2 now.value
      (t.fail policy a kind status now.value) := by
  unfold Reference.fail
  cases hp : a.probing with
  | true =>
    obtain ⟨hs, -, hg⟩ := I.holder ha hp
    rcases ProviderAttempt.finishFailure_probing kind status now.value hp hs hg with
      ⟨hq, hr⟩ | ⟨hq, O⟩
    · rw [hr, hq]
      exact ⟨M.epoch, hs, rfl⟩
    · rw [hq]
      exact M.trip O I.paced (by simp [hs])
  | false =>
    rw [ProviderAttempt.finishFailure_quiet hp (I.closed ha)]
    have hm := M.mode
    cases hmode : t.mode with
    | closed evidence =>
      rw [hmode] at hm
      have hrec := record_failure (f := ⟨now.value, a.accountId, a.targetId⟩) rfl hm
      have hctl := Circuit.recordFailure_control c ⟨now.value, a.accountId, a.targetId⟩ now.value
      have hcond : (!a.finished && a.generation == c.generation && c.state == .closed &&
          qualifies kind status) =
          (!a.finished && a.generation == t.epoch && qualifies kind status) := by
        simp [M.epoch, hm.1]
      rw [hcond, hpol]
      simp only [Bool.false_eq_true, if_false]
      split_ifs with hn hcor hcard hcard
      · exact M.trip (Circuit.trip_opened now.value hctl) I.paced (by simp [hm.1])
      · exact absurd (hrec.1.mp hcor) hcard
      · exact absurd (hrec.1.mpr hcard) hcor
      · exact ⟨M.epoch.trans hctl.generation.symm, hrec.2 hcard⟩
      · exact M
    | cooling | probing =>
      rw [hmode] at hm
      simpa [hm.1] using M

theorem abandon (M : Matches policy c now.value t) (I : LeaseInv c live now.value)
    (ha : live h = some a) :
    Matches policy (a.finishNeutral c now.value).2.2 now.value (t.abandon a now.value) := by
  unfold Reference.abandon
  cases hp : a.probing with
  | true =>
    obtain ⟨hs, -, hg⟩ := I.holder ha hp
    rw [ProviderAttempt.finishNeutral_probing hp hs hg]
    exact ⟨M.epoch, rfl, rfl⟩
  | false =>
    rw [ProviderAttempt.finishNeutral_quiet hp (I.closed ha)]
    exact M

end Matches

namespace Follows
variable {policy : ProviderCorrelationPolicy} {s : Provider} {t : Reference}

/-- Both sides store the same attempt. -/
theorem put {c' : Circuit} {h : Nat} {o : Option ProviderAttempt} {now : Int}
    (F : Follows policy s t) (t' : Reference) (hnow : s.clock = now)
    (frame : t'.clock = t.clock ∧ t'.attempts = t.attempts)
    (ho : ∀ a, o = some a → a.correlationPolicy = policy) (M : Matches policy c' now t')
    (L : LeaseInv c' (Function.update s.attempts h o) now) :
    Follows policy { s with circuit := c', attempts := Function.update s.attempts h o }
      (t'.put h o) := by
  subst hnow
  exact {
    clock := frame.1.trans F.clock
    attempts := by rw [Reference.put, frame.2, F.attempts]
    policies := by
      intro h' a hl
      rcases update_eq_some.mp hl with ⟨-, hl⟩ | ⟨-, hl⟩
      · exact ho a hl
      · exact F.policies hl
    circuit := ⟨M.epoch, M.mode⟩
    lease := L }

/-- Forgetting old evidence changes nothing for the reference. -/
theorem purged {c' : Circuit} (F : Follows policy s t) (P : Purged s.circuit c' s.clock) :
    Follows policy { s with circuit := c' } t :=
  { F with
    circuit := ⟨F.circuit.epoch.trans P.generation.symm, F.circuit.mode.purged P⟩
    lease := F.lease.same P.toSameControl }

/-- Both sides read the same clock. -/
theorem tick (F : Follows policy s t) {now : Int} (h : s.clock ≤ now) :
    Follows policy { s with clock := now } { t with clock := now } :=
  { F with
    clock := rfl
    circuit := ⟨F.circuit.epoch, F.circuit.mode.later h⟩
    lease := F.lease.later h }

theorem succeed_frame (t : Reference) (a : ProviderAttempt) :
    (t.succeed a).clock = t.clock ∧ (t.succeed a).attempts = t.attempts := by
  unfold Reference.succeed
  cases t.mode <;> dsimp only <;> split_ifs <;> exact ⟨rfl, rfl⟩

theorem fail_frame (t : Reference) (a : ProviderAttempt) (kind : FailureKind)
    (status : Option Nat) (now : Int) :
    (t.fail policy a kind status now).clock = t.clock ∧
      (t.fail policy a kind status now).attempts = t.attempts := by
  unfold Reference.fail
  cases t.mode <;> dsimp only <;> split_ifs <;> exact ⟨rfl, rfl⟩

theorem abandon_frame (t : Reference) (a : ProviderAttempt) (now : Int) :
    (t.abandon a now).clock = t.clock ∧ (t.abandon a now).attempts = t.attempts := by
  unfold Reference.abandon
  split_ifs <;> exact ⟨rfl, rfl⟩

section Perform
variable {now : Reading} {handle : Nat}

/-- Both sides refuse the attempt, or both grant it with the same lease. -/
theorem beginAttempt (providerId accountId targetId : String) (F : Follows policy s t)
    (hnow : s.clock = now.value) :
    Option.Rel (Follows policy)
      (s.perform providerId (.beginAttempt handle accountId targetId policy now))
      (t.perform policy (.beginAttempt handle accountId targetId policy now)) := by
  have hslot : t.attempts handle = s.attempts handle := by
    rw [F.attempts]
  have I : LeaseInv s.circuit s.attempts now.value := hnow ▸ F.lease
  have M : Matches policy s.circuit now.value t := hnow ▸ F.circuit
  have hmode := M.mode
  simp only [Provider.perform, Reference.perform, hslot]
  cases hn : s.attempts handle with
  | some a => exact Option.Rel.none
  | none =>
    have L := I.beginAttempt providerId accountId targetId policy hn
    dsimp only
    rcases s.circuit.beginAttemptWithPolicy_cases providerId accountId targetId policy
      now.value with ⟨hs, ⟨e, he⟩, Q⟩ | ⟨hs, hr⟩ | ⟨hs, hr⟩
    · rcases hb : s.circuit.beginAttemptWithPolicy providerId accountId targetId policy
        now.value with ⟨c', r⟩
      rw [hb] at he Q
      cases he
      have hF : Follows policy { s with circuit := c' } t := F.purged (hnow ▸ Q)
      cases hm : t.mode with
      | closed =>
        rw [hm] at hmode
        simp [hmode.1] at hs
      | cooling retryAt =>
        rw [hm] at hmode
        have hlt : now.value < retryAt := by
          simpa [hmode.1, hmode.2] using hs
        simp only [hlt, if_true]
        exact Option.Rel.some hF
      | probing leased =>
        rw [hm] at hmode
        cases leased with
        | true => exact Option.Rel.some hF
        | false => simp [hmode.1, hmode.2] at hs
    · rw [hr] at L ⊢
      have P := hmode.purged (s.circuit.purgeOld_purged now.value)
      cases hm : t.mode with
      | closed evidence =>
        rw [M.epoch]
        refine Option.Rel.some (F.put _ hnow ⟨rfl, rfl⟩ ?_ ⟨M.epoch, P⟩ L)
        rintro a ⟨⟩
        rfl
      | cooling | probing =>
        rw [hm] at hmode
        simp [hmode.1] at hs
    · rw [hr] at L ⊢
      dsimp only at L ⊢
      rw [← M.epoch] at L ⊢
      have M' : Matches policy (s.circuit.purgeOld now.value).leaseProbe now.value
          { t with mode := .probing true } := ⟨M.epoch, rfl, rfl⟩
      have hF := F.put { t with mode := .probing true } hnow ⟨rfl, rfl⟩ (by rintro a ⟨⟩; rfl) M' L
      cases hm : t.mode with
      | closed =>
        rw [hm] at hmode
        simp [hmode.1] at hs
      | cooling retryAt =>
        rw [hm] at hmode
        have hle : ¬ now.value < retryAt := by
          simpa [hmode.1, hmode.2] using hs
        simp only [hle, if_false]
        exact Option.Rel.some hF
      | probing leased =>
        rw [hm] at hmode
        cases leased with
        | true => simp [hmode.1, hmode.2] at hs
        | false => exact Option.Rel.some hF

/-- An operation on a live attempt is taken by both sides, or by neither if there is none. -/
theorem onAttempt (F : Follows policy s t) {f : ProviderAttempt → Provider}
    {g : ProviderAttempt → Reference}
    (h : ∀ a, s.attempts handle = some a → Follows policy (f a) (g a)) :
    Option.Rel (Follows policy) ((s.attempts handle).map f) ((t.attempts handle).map g) := by
  rw [F.attempts]
  cases ha : s.attempts handle with
  | none => exact Option.Rel.none
  | some a => exact Option.Rel.some (h a ha)

theorem markValidatedSuccess (F : Follows policy s t) (hnow : s.clock = now.value)
    {a : ProviderAttempt} (ha : s.attempts handle = some a) :
    Follows policy (s.settle handle (a.markValidatedSuccess s.circuit now.value))
      (if a.probing then
        { t with mode := .closed [] }.put handle (some { a with validatedSuccess := true })
      else t) := by
  have I : LeaseInv s.circuit s.attempts now.value := hnow ▸ F.lease
  have M : Matches policy s.circuit now.value t := hnow ▸ F.circuit
  have L := I.markValidatedSuccess ha
  unfold Provider.settle
  cases hp : a.probing with
  | true =>
    obtain ⟨hs, -, hg⟩ := I.holder ha hp
    rw [ProviderAttempt.markValidatedSuccess_probing hp hs hg] at L ⊢
    refine F.put _ hnow ⟨rfl, rfl⟩ ?_ (M.clear rfl rfl rfl) L
    rintro b ⟨⟩
    exact (F.policies ha : a.correlationPolicy = policy)
  | false =>
    rw [ProviderAttempt.markValidatedSuccess_quiet hp]
    have hup : Function.update s.attempts handle (some a) = s.attempts := by
      rw [← ha, Function.update_eq_self]
    rw [hup]
    exact F

theorem perform (providerId : String) {a : Action} (hp : a.UsesPolicy policy)
    (F : Follows policy s t) (hnow : s.clock = a.now.value) :
    Option.Rel (Follows policy) (s.perform providerId a) (t.perform policy a) := by
  have I : LeaseInv s.circuit s.attempts a.now.value := hnow ▸ F.lease
  have M : Matches policy s.circuit a.now.value t := hnow ▸ F.circuit
  cases a with
  | beginAttempt handle accountId targetId p now =>
    cases hp
    exact F.beginAttempt providerId accountId targetId hnow
  | checkAvailable now =>
    refine Option.Rel.some (F.purged ?_)
    rw [hnow]
    exact s.circuit.checkAvailable_purged providerId now.value
  | snapshot now =>
    refine Option.Rel.some (F.purged ?_)
    rw [hnow]
    exact s.circuit.snapshot_purged providerId now.value
  | markValidatedSuccess handle now =>
    exact F.onAttempt fun a ha => F.markValidatedSuccess hnow ha
  | finishSuccess handle now =>
    refine F.onAttempt fun a ha => ?_
    rw [Provider.settle, ProviderAttempt.finishSuccess_attempt]
    refine F.put _ hnow (succeed_frame t a) ?_ (M.succeed I ha) (I.finishSuccess ha)
    rintro b ⟨⟩
    exact (F.policies ha : a.correlationPolicy = policy)
  | finishFailure handle kind status now =>
    refine F.onAttempt fun a ha => ?_
    rw [Provider.settle, ProviderAttempt.finishFailure_attempt]
    refine F.put _ hnow (fail_frame t a kind status now.value) ?_ (M.fail I ha (F.policies ha))
      (I.finishFailure ha)
    rintro b ⟨⟩
    exact (F.policies ha : a.correlationPolicy = policy)
  | finishNeutral handle now =>
    refine F.onAttempt fun a ha => ?_
    rw [Provider.settle, ProviderAttempt.finishNeutral_attempt]
    refine F.put _ hnow (abandon_frame t a now.value) ?_ (M.abandon I ha)
      (I.finishNeutral ha ?_)
    · rintro b ⟨⟩
      exact (F.policies ha : a.correlationPolicy = policy)
    · rintro b ⟨⟩
      rfl
  | dropAttempt handle now =>
    refine F.onAttempt fun a ha => ?_
    rw [ProviderAttempt.drop_eq]
    refine F.put _ hnow (abandon_frame t a now.value) ?_ (M.abandon I ha)
      (I.finishNeutral ha ?_)
    · rintro b ⟨⟩
    · rintro b ⟨⟩

end Perform

/-- The code and the reference take the same actions, and an action keeps them together. -/
theorem step (providerId : String) {a : Action} (hp : a.UsesPolicy policy)
    (F : Follows policy s t) :
    Option.Rel (Follows policy) (s.step providerId a) (t.step policy a) := by
  unfold Provider.step Reference.step
  rw [F.clock]
  split_ifs with h
  · exact (F.tick h).perform providerId hp rfl
  · exact Option.Rel.none

end Follows

/-- The code and the reference stay in lockstep while one policy is in use. -/
theorem lockstep (providerId : String) (policy : ProviderCorrelationPolicy) :
    Lockstep (machine providerId) (reference policy) (Action.UsesPolicy policy)
      (Follows policy) where
  start := {
    clock := rfl
    attempts := rfl
    policies := by
      intro h a hl
      cases hl
    circuit := ⟨rfl, rfl, by simp, Tracks.nil, by
      rintro ⟨x, hx, -⟩
      cases hx⟩
    lease := leaseInv_start providerId }
  step := fun _ _ _ hp F => F.step providerId hp

/-- An operation on an attempt of another generation leaves the circuit as it is. -/
theorem Provider.step_stale {providerId : String} {s s' : Provider} {a : Action} {handle : Nat}
    {x : ProviderAttempt} (hh : a.handle? = some handle) (hx : s.attempts handle = some x)
    (hg : x.generation ≠ s.circuit.generation) (hs : s.step providerId a = some s') :
    s'.circuit = s.circuit := by
  unfold Provider.step at hs
  split at hs
  case isFalse => cases hs
  case isTrue =>
    cases a with
    | beginAttempt | checkAvailable | snapshot => cases hh
    | markValidatedSuccess h now =>
      cases hh
      simp only [Provider.perform, hx, Option.map_some, Option.some.injEq] at hs
      exact hs ▸ ProviderAttempt.markValidatedSuccess_stale hg
    | finishSuccess h now =>
      cases hh
      simp only [Provider.perform, hx, Option.map_some, Option.some.injEq] at hs
      exact hs ▸ ProviderAttempt.finishSuccess_stale hg
    | finishFailure h kind status now =>
      cases hh
      simp only [Provider.perform, hx, Option.map_some, Option.some.injEq] at hs
      exact hs ▸ ProviderAttempt.finishFailure_stale hg
    | finishNeutral h now =>
      cases hh
      simp only [Provider.perform, hx, Option.map_some, Option.some.injEq] at hs
      exact hs ▸ ProviderAttempt.finishNeutral_stale hg
    | dropAttempt h now =>
      cases hh
      simp only [Provider.perform, hx, Option.map_some, Option.some.injEq,
        ProviderAttempt.drop_eq] at hs
      exact hs ▸ ProviderAttempt.finishNeutral_stale hg

/-- What an observer of the circuit can compare with the reference. -/
structure Agrees (s : Provider) (t : Reference) : Prop where
  state : s.circuit.state = t.mode.state
  generation : s.circuit.generation = t.epoch
  attempts : s.attempts = t.attempts
  cooling : ∀ {retryAt}, t.mode = .cooling retryAt → s.circuit.retryAt = some retryAt
  probing : ∀ {leased}, t.mode = .probing leased →
    s.circuit.halfOpenInflight = if leased then 1 else 0

theorem Follows.agrees {policy : ProviderCorrelationPolicy} {s : Provider} {t : Reference}
    (F : Follows policy s t) : Agrees s t where
  state := F.circuit.mode.state.symm
  generation := F.circuit.epoch.symm
  attempts := F.attempts.symm
  cooling := by
    intro retryAt h
    have hm := F.circuit.mode
    rw [h] at hm
    exact hm.2
  probing := by
    intro leased h
    have hm := F.circuit.mode
    rw [h] at hm
    exact hm.2

/-- With one policy in use the code admits the runs of the reference machine and is in the
reference's state after each of them, so that it opens exactly when the reference does. What is
left of an earlier epoch's attempts never touches the circuit. -/
theorem circuit_refines_reference {providerId : String} {policy : ProviderCorrelationPolicy}
    {as : List Action} (h : ∀ a ∈ as, a.UsesPolicy policy) :
    Option.Rel Agrees ((machine providerId).run as) ((reference policy).run as) ∧
    ∀ s t a handle x s', (machine providerId).run as = some s →
      (reference policy).run as = some t → a.handle? = some handle →
      t.attempts handle = some x → x.generation < t.epoch →
      (machine providerId).step s a = some s' → s'.circuit = s.circuit := by
  have L := (lockstep providerId policy).run as h
  refine ⟨rel_imp Follows.agrees L, ?_⟩
  intro s t a handle x s' hs ht hh hx hlt hstep
  rw [hs, ht] at L
  cases L with
  | some F =>
    have hlt' : x.generation < s.circuit.generation := F.circuit.epoch ▸ hlt
    exact Provider.step_stale hh (F.attempts ▸ hx) hlt'.ne hstep

/-- Both machines open the circuit after the failures of two accounts, and both probe it later. -/
theorem circuit_refines_reference_probe :
    ∃ s t, (machine "p").run probeRun = some s ∧
      (reference .distinctAccounts).run probeRun = some t ∧
      t.mode = .probing true ∧ t.epoch = 1 ∧ Agrees s t := by
  have hp : ∀ a ∈ probeRun, a.UsesPolicy .distinctAccounts := by
    simp [probeRun, Action.UsesPolicy]
  have h : Option.Rel Agrees ((machine "p").run probeRun) _ := (circuit_refines_reference hp).1
  have hs : ∃ s, (machine "p").run probeRun = some s := ⟨_, rfl⟩
  have ht : ∃ t, (reference .distinctAccounts).run probeRun = some t ∧
      t.mode = .probing true ∧ t.epoch = 1 := ⟨_, rfl, rfl, rfl⟩
  obtain ⟨s, hs⟩ := hs
  obtain ⟨t, ht, hm, he⟩ := ht
  rw [hs, ht] at h
  cases h with
  | some A => exact ⟨s, t, hs, ht, hm, he, A⟩

end Kinetix.ProviderCircuit
