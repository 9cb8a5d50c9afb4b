import Mathlib.Data.List.DropRight
import Kinetix.ProviderCircuit.Circuit

/-!
# What the operations of an attempt can do

One lemma for each operation. A live half-open attempt is probing until it is validated or finished
and streaming from its validation to its end. What an operation does to the circuit depends on
which of these the attempt is.
-/

namespace Kinetix.ProviderCircuit
open Clock Kinetix.Types Words

/-- The parts of the circuit that decide who may be admitted. -/
structure SameControl (c c' : Circuit) : Prop where
  state : c'.state = c.state
  retryAt : c'.retryAt = c.retryAt
  inflight : c'.halfOpenInflight = c.halfOpenInflight
  generation : c'.generation = c.generation

theorem SameControl.refl (c : Circuit) : SameControl c c := ⟨rfl, rfl, rfl, rfl⟩

/-- Only old evidence and counters differ. -/
structure Purged (c c' : Circuit) (now : Int) : Prop extends SameControl c c' where
  failures : c'.failures = (c.purgeOld now).failures

/-- The circuit opened after a correlated failure. -/
structure Opened (c c' : Circuit) (now : Int) : Prop where
  state : c'.state = .opened
  retryAt : c'.retryAt = some (now + seconds openCooldownSecs)
  inflight : c'.halfOpenInflight = 0
  generation : c'.generation = wrappingAdd c.generation 1

namespace Circuit

variable (c : Circuit) (now : Int) (providerId : String)

@[simp] theorem purgeOld_state : (c.purgeOld now).state = c.state := rfl

@[simp] theorem purgeOld_retryAt : (c.purgeOld now).retryAt = c.retryAt := rfl

@[simp] theorem purgeOld_halfOpenInflight :
    (c.purgeOld now).halfOpenInflight = c.halfOpenInflight := rfl

@[simp] theorem purgeOld_generation : (c.purgeOld now).generation = c.generation := rfl

theorem purgeOld_purged : Purged c (c.purgeOld now) now :=
  ⟨⟨rfl, rfl, rfl, rfl⟩, rfl⟩

theorem snapshot_purged (now : Int) :
    Purged c (c.snapshot providerId now).1 now := c.purgeOld_purged now

theorem reject_purged (secs : Nat) (now : Int) :
    Purged c ((c.purgeOld now).reject providerId secs now).1 now :=
  ⟨⟨rfl, rfl, rfl, rfl⟩, List.dropWhile_idempotent _ c.failures⟩

theorem checkAvailable_purged (now : Int) : Purged c (c.checkAvailable providerId now).1 now := by
  unfold checkAvailable
  dsimp only
  split
  · next secs _ => exact c.reject_purged providerId secs now
  · exact c.purgeOld_purged now

theorem pushFailure_failures (failure : FailureEvidence) :
    (c.pushFailure failure).failures = (c.failures ++ [failure]).drop
      ((c.failures ++ [failure]).length - maxRecentFailures) := by
  simp only [pushFailure]

theorem recordFailure_control (failure : FailureEvidence) (now : Int) :
    SameControl c ((c.purgeOld now).pushFailure failure) := by
  constructor <;> simp only [pushFailure, purgeOld]

/-- Open the circuit and fence off the attempts that are live. -/
def trip (c : Circuit) (now : Int) : Circuit :=
  { (c.openCircuit now).2 with generation := wrappingAdd (c.openCircuit now).2.generation 1 }

theorem trip_opened {c d : Circuit} (S : SameControl c d) : Opened c (d.trip now) now where
  state := rfl
  retryAt := rfl
  inflight := rfl
  generation := congrArg (wrappingAdd · 1) S.generation

/-- Only the circuit's own half-open generation can reopen it. -/
theorem reopenAbandonedProbe_of_ne {c : Circuit} {generation : Nat}
    (h : generation = c.generation → c.state ≠ .halfOpen) :
    c.reopenAbandonedProbe generation now = c := by
  have hr : c.releaseProbeSlot generation = (false, c) := by
    unfold releaseProbeSlot
    rw [if_pos]
    by_cases hg : generation = c.generation
    · exact .inr (h hg)
    · exact .inl hg
  rw [reopenAbandonedProbe, hr]

theorem reopenAbandonedProbe_of_eq {c : Circuit} (h : c.state = .halfOpen) :
    c.reopenAbandonedProbe c.generation now = { c with
      halfOpenInflight := 0
      state := .opened
      retryAt := some (now + seconds abandonedProbeRetrySecs) } := by
  simp [reopenAbandonedProbe, releaseProbeSlot, h]

/-- An attempt is refused while an opened circuit cools down or the half-open lease is taken. An
admitted one joins a closed circuit, or takes the free lease of a circuit whose retry time has
come. -/
theorem beginAttemptWithPolicy_cases (c : Circuit) (providerId accountId targetId : String)
    (policy : ProviderCorrelationPolicy) (now : Int) :
    let r := c.beginAttemptWithPolicy providerId accountId targetId policy now
    (((∃ t, c.state = .opened ∧ c.retryAt = some t ∧ now < t) ∨
        (c.state = .halfOpen ∧ 0 < c.halfOpenInflight)) ∧
      (∃ e, r.2 = .error e) ∧ Purged c r.1 now) ∨
    (c.state = .closed ∧
      r = (c.purgeOld now,
        .ok ⟨accountId, targetId, c.generation, policy, false, false, false⟩)) ∨
    (((c.state = .opened ∧ ∀ t, c.retryAt = some t → t ≤ now) ∨
        (c.state = .halfOpen ∧ c.halfOpenInflight = 0)) ∧
      r = ((c.purgeOld now).leaseProbe,
        .ok ⟨accountId, targetId, c.generation, policy, true, false, false⟩)) := by
  dsimp only
  unfold beginAttemptWithPolicy
  cases hs : c.state with
  | closed => simp [hs]
  | opened =>
    cases hr : c.retryAt with
    | none => simp [hs, hr, leaseProbe]
    | some t =>
      by_cases ht : t > now
      · left
        refine ⟨.inl ⟨t, rfl, rfl, ht⟩, ?_⟩
        simp only [purgeOld_state, purgeOld_retryAt, hs, hr, ht, if_true]
        exact ⟨⟨_, rfl⟩, c.reject_purged providerId (retryAfter t now) now⟩
      · simp [hs, hr, ht, leaseProbe]
        omega
  | halfOpen =>
    by_cases hi : c.halfOpenInflight > 0
    · left
      refine ⟨.inr ⟨rfl, hi⟩, ?_⟩
      simp only [purgeOld_state, purgeOld_halfOpenInflight, hs, hi, if_true]
      exact ⟨⟨_, rfl⟩, c.reject_purged providerId 1 now⟩
    · simp [hs, hi, leaseProbe]
      omega

end Circuit

namespace ProviderAttempt

/-- A half-open attempt whose answer is still open. -/
def probing (a : ProviderAttempt) : Bool :=
  a.halfOpenProbe && !a.validatedSuccess && !a.finished

/-- A half-open attempt that was validated and whose stream has not ended. -/
def streaming (a : ProviderAttempt) : Bool :=
  a.halfOpenProbe && a.validatedSuccess && !a.finished

/-- The attempt after its end was recorded. -/
def settled (a : ProviderAttempt) : ProviderAttempt := { a with finished := true }

variable (a : ProviderAttempt) (c : Circuit) (now : Int)

@[simp] theorem settled_probing : a.settled.probing = false := by
  simp [settled, probing]

@[simp] theorem settled_streaming : a.settled.streaming = false := by
  simp [settled, streaming]

@[simp] theorem settled_generation : a.settled.generation = a.generation := rfl

theorem settled_of_finished {a : ProviderAttempt} (h : a.finished = true) : a.settled = a := by
  cases a
  simp_all [settled]

/-- Each of the three endings records the end of the attempt. -/
@[simp] theorem finishSuccess_attempt : (a.finishSuccess c now).2.1 = a.settled := by
  unfold finishSuccess
  split_ifs with h <;> first | rfl | exact (settled_of_finished h).symm

@[simp] theorem finishFailure_attempt (kind : FailureKind) (status : Option Nat) (now : Int) :
    (a.finishFailure c kind status now).2.1 = a.settled := by
  unfold finishFailure
  dsimp only
  split_ifs with h <;> first | rfl | exact (settled_of_finished h).symm

@[simp] theorem finishNeutral_attempt : (a.finishNeutral c now).2.1 = a.settled := by
  unfold finishNeutral
  by_cases h : a.finished = true
  · rw [if_pos h, settled_of_finished h]
  · rw [if_neg h]
    rfl

/-- Dropping an attempt does to the circuit what a neutral end does. -/
theorem drop_eq : a.drop c now = (a.finishNeutral c now).2.2 := by
  unfold drop finishNeutral
  split_ifs <;> rfl

section Probing
variable {a : ProviderAttempt} {c : Circuit} {now : Int}

theorem markValidatedSuccess_probing (hp : a.probing) (hs : c.state = .halfOpen)
    (hg : a.generation = c.generation) :
    (a.markValidatedSuccess c now).2 = ({ a with validatedSuccess := true }, c.recover now) := by
  simp_all [probing, markValidatedSuccess]

theorem finishSuccess_probing (hp : a.probing) (hs : c.state = .halfOpen)
    (hg : a.generation = c.generation) : (a.finishSuccess c now).2.2 = c.recover now := by
  simp_all [probing, finishSuccess]

/-- A failed probe opens the circuit if the failure is provider-wide and otherwise frees
the lease. -/
theorem finishFailure_probing (kind : FailureKind) (status : Option Nat) (now : Int)
    (hp : a.probing) (hs : c.state = .halfOpen) (hg : a.generation = c.generation) :
    (qualifies kind status = false ∧
      (a.finishFailure c kind status now).2.2 = { c with halfOpenInflight := 0 }) ∨
    (qualifies kind status = true ∧
      Opened c (a.finishFailure c kind status now).2.2 now) := by
  cases hq : qualifies kind status with
  | false =>
    left
    simp_all [probing, finishFailure, ownsState, Circuit.releaseProbeSlot]
  | true =>
    right
    have h := Circuit.trip_opened now
      (Circuit.recordFailure_control c ⟨now, a.accountId, a.targetId⟩ now)
    have ho : (((c.purgeOld now).pushFailure
        ⟨now, a.accountId, a.targetId⟩).openCircuit now).1 = true := by
      simp [Circuit.openCircuit, Circuit.pushFailure, hs]
    refine ⟨rfl, ?_⟩
    simp_all [probing, finishFailure, ownsState, Circuit.trip]

theorem finishNeutral_probing (hp : a.probing) (hs : c.state = .halfOpen)
    (hg : a.generation = c.generation) :
    (a.finishNeutral c now).2.2 = { c with
      halfOpenInflight := 0
      state := .opened
      retryAt := some (now + seconds abandonedProbeRetrySecs) } := by
  rw [← Circuit.reopenAbandonedProbe_of_eq now hs, ← hg]
  simp_all [probing, finishNeutral]

end Probing

section Quiet
variable {a : ProviderAttempt} {c : Circuit} {now : Int}

theorem markValidatedSuccess_quiet (hp : a.probing = false) :
    (a.markValidatedSuccess c now).2 = (a, c) := by
  unfold markValidatedSuccess
  simp only [probing] at hp
  split_ifs with h₁ h₂
  · rfl
  · rfl
  · simp_all

/-- A success of an attempt that does not probe can only clear the evidence. -/
theorem finishSuccess_quiet (hp : a.probing = false) :
    (a.finishSuccess c now).2.2 =
      if !a.finished && !a.halfOpenProbe && a.generation == c.generation && c.state == .closed
      then { c with failures := [] } else c := by
  unfold finishSuccess
  split_ifs
  all_goals first
    | rfl
    | simp_all [probing]

/-- A failure that is news to the circuit, from an attempt that does not probe, finds it closed. -/
theorem closed_of_ownsState (hp : a.probing = false) (hf : a.finished = false)
    (hc : a.streaming → a.generation = c.generation → c.state = .closed)
    (ho : a.ownsState c = true) : c.state = .closed := by
  simp only [ownsState, Bool.and_eq_true, beq_iff_eq] at ho
  cases hh : a.halfOpenProbe with
  | false => simpa [hh] using ho.2
  | true =>
    have hv : a.validatedSuccess = true := by simp_all [probing]
    exact hc (by simp [streaming, hh, hv, hf]) ho.1.symm

/-- A failure of an attempt that does not probe counts if it qualifies and the attempt was begun in
the current generation of a closed circuit, and then it may open the circuit. -/
theorem finishFailure_quiet {kind : FailureKind} {status : Option Nat} (hp : a.probing = false)
    (hc : a.streaming → a.generation = c.generation → c.state = .closed) :
    (a.finishFailure c kind status now).2.2 =
      let d := (c.purgeOld now).pushFailure ⟨now, a.accountId, a.targetId⟩
      if !a.finished && a.generation == c.generation && c.state == .closed &&
          qualifies kind status then
        if d.correlated a.correlationPolicy then d.trip now else d
      else c := by
  unfold finishFailure
  cases hf : a.finished with
  | true => rfl
  | false =>
    cases ho : a.ownsState c with
    | false =>
      have hn : ¬ (a.generation = c.generation ∧ c.state = .closed) := by
        rintro ⟨hg, hs⟩
        cases hh : a.halfOpenProbe <;> simp_all [ownsState, probing]
      simp_all
    | true =>
      have hs := closed_of_ownsState hp hf hc ho
      have hg : c.generation = a.generation := by
        simp only [ownsState, Bool.and_eq_true, beq_iff_eq] at ho
        exact ho.1
      have hu : (a.halfOpenProbe && !a.validatedSuccess) = false := by
        simpa [probing, hf] using hp
      have hr : (c.releaseProbeSlot a.generation).2 = c := by
        simp [Circuit.releaseProbeSlot, hs]
      have hd := (Circuit.recordFailure_control c ⟨now, a.accountId, a.targetId⟩ now).state
      generalize (c.purgeOld now).pushFailure ⟨now, a.accountId, a.targetId⟩ = d at hd
      have hopen : (d.openCircuit now).1 = true := by
        simp [Circuit.openCircuit, hd, hs]
      cases qualifies kind status with
      | false => simp [hr]
      | true =>
        simp only [hs, hg, hu, hopen, Circuit.trip, Bool.not_true, Bool.not_false,
          Bool.false_or, Bool.false_eq_true, if_false, if_true, beq_self_eq_true,
          Bool.and_self]
        split_ifs <;> rfl

/-- A failure of an attempt that does not probe can only open a closed circuit. -/
theorem finishFailure_quiet_control (kind : FailureKind) (status : Option Nat) (now : Int)
    (hp : a.probing = false)
    (hc : a.streaming → a.generation = c.generation → c.state = .closed) :
    SameControl c (a.finishFailure c kind status now).2.2 ∨
      c.state = .closed ∧ Opened c (a.finishFailure c kind status now).2.2 now := by
  rw [finishFailure_quiet hp hc]
  dsimp only
  split_ifs with hn hcor
  · simp only [Bool.and_eq_true, beq_iff_eq] at hn
    exact .inr ⟨hn.1.2, Circuit.trip_opened now (Circuit.recordFailure_control c _ now)⟩
  · exact .inl (Circuit.recordFailure_control c _ now)
  · exact .inl (SameControl.refl c)

theorem finishNeutral_quiet (hp : a.probing = false)
    (hc : a.streaming → a.generation = c.generation → c.state = .closed) :
    (a.finishNeutral c now).2.2 = c := by
  unfold finishNeutral
  split_ifs with hf hh
  · rfl
  · refine Circuit.reopenAbandonedProbe_of_ne now fun hg => ?_
    have hst : a.streaming := by
      simp_all [probing, streaming]
    simp [hc hst hg]
  · rfl

end Quiet

section Stale
variable {a : ProviderAttempt} {c : Circuit} {now : Int}

/-- An attempt of another generation leaves the circuit as it is, whatever becomes of it. -/
theorem markValidatedSuccess_stale (hg : a.generation ≠ c.generation) :
    (a.markValidatedSuccess c now).2.2 = c := by
  simp only [markValidatedSuccess, beq_false_of_ne hg.symm, Bool.false_and, Bool.false_eq_true,
    if_false]
  split_ifs <;> rfl

theorem finishSuccess_stale (hg : a.generation ≠ c.generation) :
    (a.finishSuccess c now).2.2 = c := by
  simp only [finishSuccess, beq_false_of_ne hg.symm, Bool.false_eq_true, if_false]
  split_ifs <;> rfl

theorem finishFailure_stale {kind : FailureKind} {status : Option Nat}
    (hg : a.generation ≠ c.generation) : (a.finishFailure c kind status now).2.2 = c := by
  simp only [finishFailure, ownsState, beq_false_of_ne hg.symm, Bool.false_and, Bool.not_false,
    if_true]
  split_ifs <;> rfl

theorem finishNeutral_stale (hg : a.generation ≠ c.generation) :
    (a.finishNeutral c now).2.2 = c := by
  unfold finishNeutral
  split_ifs
  · rfl
  · exact Circuit.reopenAbandonedProbe_of_ne now fun he => absurd he hg
  · rfl

end Stale
end ProviderAttempt
end Kinetix.ProviderCircuit
