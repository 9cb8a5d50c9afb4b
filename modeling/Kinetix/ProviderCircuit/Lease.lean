import Kinetix.Library.Machine
import Kinetix.Library.TaskList
import Kinetix.ProviderCircuit.Operations

/-!
# The half-open lease

The state of one provider is its circuit, the attempts that have not been dropped, and the last
reading of the wall clock. Every public operation is one action. An attempt is named by a handle,
which stands for the value that the caller owns; dropping the attempt frees the handle.

Only one attempt at a time probes a provider whose circuit is half open. The invariant ties the
circuit's `half_open_inflight` to the live attempts: a probe that is neither validated nor finished
holds the lease, and the lease is held by nobody else.

## Implementation notes

The generation is a wrapping `u64`. It grows by one each time the circuit opens, an opened circuit
stays open for thirty seconds, and the clock stays within the range of an `i64` of seconds; so the
generation never wraps, and an attempt of an earlier generation never looks current.
-/

namespace Kinetix.ProviderCircuit
open Clock Kinetix.Types Words StateMachine

/-- The circuit of a provider and its attempts. -/
structure Provider where
  circuit : Circuit := {}
  attempts : Nat → Option ProviderAttempt := fun _ => none
  clock : Int := seconds (-9223372036854775808)

/-- An operation on the circuit or an attempt. -/
inductive Action
  | beginAttempt (handle : Nat) (accountId targetId : String)
      (policy : ProviderCorrelationPolicy) (now : Reading)
  | checkAvailable (now : Reading)
  | snapshot (now : Reading)
  | markValidatedSuccess (handle : Nat) (now : Reading)
  | finishSuccess (handle : Nat) (now : Reading)
  | finishFailure (handle : Nat) (kind : FailureKind) (status : Option Nat) (now : Reading)
  | finishNeutral (handle : Nat) (now : Reading)
  | dropAttempt (handle : Nat) (now : Reading)

/-- The reading of `Utc::now` that the operation works with. -/
def Action.now : Action → Reading
  | .beginAttempt _ _ _ _ now | .checkAvailable now | .snapshot now
  | .markValidatedSuccess _ now | .finishSuccess _ now | .finishFailure _ _ _ now
  | .finishNeutral _ now | .dropAttempt _ now => now

namespace Provider

/-- Store what an operation of an attempt did. -/
def settle (s : Provider) (handle : Nat) (o : ProviderAttempt.Outcome) : Provider :=
  { s with circuit := o.2.2, attempts := Function.update s.attempts handle (some o.2.1) }

/-- Perform an operation at a time. A handle that is in use names no new attempt, and only an
attempt that is live can be operated on. -/
def perform (providerId : String) (s : Provider) : Action → Option Provider
  | .beginAttempt handle accountId targetId policy now =>
    match s.attempts handle with
    | some _ => none
    | none =>
      match s.circuit.beginAttemptWithPolicy providerId accountId targetId policy now.value with
      | (c, .ok a) =>
        some { s with circuit := c, attempts := Function.update s.attempts handle (some a) }
      | (c, .error _) => some { s with circuit := c }
  | .checkAvailable now =>
    some { s with circuit := (s.circuit.checkAvailable providerId now.value).1 }
  | .snapshot now => some { s with circuit := (s.circuit.snapshot providerId now.value).1 }
  | .markValidatedSuccess handle now =>
    (s.attempts handle).map fun a =>
      s.settle handle (a.markValidatedSuccess s.circuit now.value)
  | .finishSuccess handle now =>
    (s.attempts handle).map fun a => s.settle handle (a.finishSuccess s.circuit now.value)
  | .finishFailure handle kind status now =>
    (s.attempts handle).map fun a =>
      s.settle handle (a.finishFailure s.circuit kind status now.value)
  | .finishNeutral handle now =>
    (s.attempts handle).map fun a => s.settle handle (a.finishNeutral s.circuit now.value)
  | .dropAttempt handle now =>
    (s.attempts handle).map fun a =>
      { s with
        circuit := a.drop s.circuit now.value
        attempts := Function.update s.attempts handle none }

/-- An operation reads a clock that does not go backwards. -/
def step (providerId : String) (s : Provider) (a : Action) : Option Provider :=
  if s.clock ≤ a.now.value then { s with clock := a.now.value }.perform providerId a else none

end Provider

/-- The provider named `providerId`, from a closed circuit with no attempts. -/
def machine (providerId : String) : Machine Provider Action where
  start := {}
  step := Provider.step providerId

open Slots

/-- The earliest reading of the clock. -/
def clockOrigin : Int := seconds (-9223372036854775808)

/-- The circuit has opened at most once every thirty seconds. -/
def Paced (c : Circuit) (clock : Int) : Prop :=
  match c.state with
  | .opened => ∃ r, c.retryAt = some r ∧ seconds (30 * c.generation) ≤ r - clockOrigin
  | .closed | .halfOpen => seconds (30 * c.generation) ≤ clock - clockOrigin

/-- The circuit's lease and the live attempts agree. -/
structure LeaseInv (c : Circuit) (live : Nat → Option ProviderAttempt) (clock : Int) : Prop where
  idle : c.state ≠ .halfOpen → c.halfOpenInflight = 0
  single : c.halfOpenInflight ≤ 1
  held : c.halfOpenInflight = 1 → ∃ h a, live h = some a ∧ a.probing
  holder : ∀ {h a}, live h = some a → a.probing →
    c.state = .halfOpen ∧ c.halfOpenInflight = 1 ∧ a.generation = c.generation
  unique : ∀ {h a h' a'}, live h = some a → live h' = some a' → a.probing → a'.probing → h = h'
  bounded : ∀ {h a}, live h = some a → a.generation ≤ c.generation
  closed : ∀ {h a}, live h = some a → a.streaming → a.generation = c.generation →
    c.state = .closed
  paced : Paced c clock

theorem Paced.mono {c : Circuit} {t u : Int} (h : Paced c t) (htu : t ≤ u) : Paced c u := by
  unfold Paced at h ⊢
  cases hs : c.state <;> simp only [hs] at h ⊢
  · omega
  · exact h
  · omega

theorem Paced.same {c c' : Circuit} {t : Int} (S : SameControl c c') (h : Paced c t) :
    Paced c' t := by
  unfold Paced at h ⊢
  rw [S.state, S.retryAt, S.generation]
  exact h

/-- A paced circuit that is not open can open once more without its generation wrapping. -/
theorem Paced.generation_lt {c : Circuit} {now : Reading} (h : Paced c now.value)
    (hs : c.state ≠ .opened) : c.generation + 1 ≤ u64Max := by
  have hp : seconds (30 * c.generation) ≤ now.value - clockOrigin := by
    unfold Paced at h
    cases hc : c.state <;> simp_all
  have := now.upper
  simp only [seconds, clockOrigin, u64Max] at *
  omega

namespace LeaseInv
variable {c c' : Circuit} {live : Nat → Option ProviderAttempt} {t : Int}

/-- Nothing that the lease depends on is different at a later time. -/
theorem later {u : Int} (I : LeaseInv c live t) (h : t ≤ u) : LeaseInv c live u :=
  { I with paced := I.paced.mono h }

/-- An operation that leaves the control state alone keeps the invariant. -/
theorem same (I : LeaseInv c live t) (S : SameControl c c') : LeaseInv c' live t where
  idle := by
    rw [S.state, S.inflight]
    exact I.idle
  single := by
    rw [S.inflight]
    exact I.single
  held := by
    rw [S.inflight]
    exact I.held
  holder := by
    rw [S.state, S.inflight, S.generation]
    exact I.holder
  unique := I.unique
  bounded := by
    rw [S.generation]
    exact I.bounded
  closed := by
    rw [S.state, S.generation]
    exact I.closed
  paced := I.paced.same S

variable {a : ProviderAttempt} {o : Option ProviderAttempt} {h : Nat}

/-- Replacing or dropping an attempt that is not probing changes nothing for the others. -/
theorem fade (I : LeaseInv c live t) (S : SameControl c c') (ha : live h = some a)
    (hp : a.probing = false)
    (ho : ∀ a', o = some a' → a'.probing = false ∧ a'.generation = a.generation ∧
      (a'.streaming → a.streaming)) : LeaseInv c' (Function.update live h o) t := by
  have was : ∀ {h' a'}, Function.update live h o h' = some a' → a'.probing →
      live h' = some a' := by
    intro h' a' hl hp'
    rcases update_eq_some.mp hl with ⟨-, hl⟩ | ⟨-, hl⟩
    · simp [(ho a' hl).1] at hp'
    · exact hl
  refine LeaseInv.same (c := c) ?_ S
  exact {
    idle := I.idle
    single := I.single
    held := by
      intro hi
      obtain ⟨h', a', hl, hp'⟩ := I.held hi
      refine ⟨h', a', update_of_slot_ne ha hl ?_, hp'⟩
      rintro rfl
      simp [hp] at hp'
    holder := fun hl hp' => I.holder (was hl hp') hp'
    unique := fun hl₁ hl₂ hp₁ hp₂ => I.unique (was hl₁ hp₁) (was hl₂ hp₂) hp₁ hp₂
    bounded := by
      intro h' a' hl
      rcases update_eq_some.mp hl with ⟨-, hl⟩ | ⟨-, hl⟩
      · rw [(ho a' hl).2.1]
        exact I.bounded ha
      · exact I.bounded hl
    closed := by
      intro h' a' hl hs hg
      rcases update_eq_some.mp hl with ⟨-, hl⟩ | ⟨-, hl⟩
      · exact I.closed ha ((ho a' hl).2.2 hs) ((ho a' hl).2.1 ▸ hg)
      · exact I.closed hl hs hg
    paced := I.paced }

/-- The only attempt that may probe gives up its lease. -/
theorem vacate (I : LeaseInv c live t) (only : ∀ {h' a'}, live h' = some a' → a'.probing → h' = h)
    (slot : ∀ a', o = some a' → a'.probing = false ∧ a'.generation ≤ c.generation)
    (free : c'.halfOpenInflight = 0) (fence : c.generation ≤ c'.generation)
    (closed : ∀ {h' a'}, Function.update live h o h' = some a' → a'.streaming →
      a'.generation = c'.generation → c'.state = .closed) (paced : Paced c' t) :
    LeaseInv c' (Function.update live h o) t := by
  have calm : ∀ {h' a'}, Function.update live h o h' = some a' → a'.probing = false := by
    intro h' a' hl
    rcases update_eq_some.mp hl with ⟨-, hl⟩ | ⟨hne, hl⟩
    · exact (slot a' hl).1
    · exact Bool.eq_false_iff.mpr fun hp => hne (only hl hp)
  exact {
    idle := fun _ => free
    single := by omega
    held := by omega
    holder := by
      intro h' a' hl hp
      simp [calm hl] at hp
    unique := by
      intro h₁ a₁ h₂ a₂ hl₁ _ hp₁
      simp [calm hl₁] at hp₁
    bounded := by
      intro h' a' hl
      rcases update_eq_some.mp hl with ⟨-, hl⟩ | ⟨-, hl⟩
      · exact (slot a' hl).2.trans fence
      · exact (I.bounded hl).trans fence
    closed := closed
    paced := paced }

/-- A circuit that opens fences off every attempt that was live. -/
theorem opens {now : Reading} (I : LeaseInv c live now.value) (O : Opened c c' now.value)
    (hs : c.state ≠ .opened) (ha : live h = some a)
    (only : ∀ {h' a'}, live h' = some a' → a'.probing → h' = h)
    (ho : ∀ a', o = some a' → a'.probing = false ∧ a'.generation = a.generation) :
    LeaseInv c' (Function.update live h o) now.value := by
  have hg : c'.generation = c.generation + 1 := by
    rw [O.generation, wrappingAdd_of_le (I.paced.generation_lt hs)]
  refine I.vacate only ?_ O.inflight (by omega) ?_ ?_
  · intro a' h'
    exact ⟨(ho a' h').1, (ho a' h').2 ▸ I.bounded ha⟩
  · intro h' a' hl _ hgen
    have hle : a'.generation ≤ c.generation := by
      rcases update_eq_some.mp hl with ⟨-, hl⟩ | ⟨-, hl⟩
      · exact (ho a' hl).2 ▸ I.bounded ha
      · exact I.bounded hl
    omega
  · have hp := I.paced
    unfold Paced at hp ⊢
    simp only [O.state, O.retryAt, hg, Option.some.injEq, exists_eq_left']
    cases hc : c.state with
    | opened => exact absurd hc hs
    | closed | halfOpen =>
      simp only [hc, seconds, openCooldownSecs, Nat.cast_add, Nat.cast_one] at hp ⊢
      omega

/-- A probe's validated answer closes the circuit. -/
theorem recovers {a a' : ProviderAttempt} {now : Int} (I : LeaseInv c live t)
    (ha : live h = some a) (hp : a.probing) (ho : a'.probing = false)
    (hg : a'.generation = a.generation) :
    LeaseInv (c.recover now) (Function.update live h (some a')) t := by
  obtain ⟨hs, -, -⟩ := I.holder ha hp
  refine I.vacate (fun hl hp' => I.unique hl ha hp' hp) ?_ rfl le_rfl (fun _ _ _ => rfl) ?_
  · rintro b ⟨⟩
    exact ⟨ho, hg ▸ I.bounded ha⟩
  · have := I.paced
    simpa only [Paced, hs, Circuit.recover] using this

/-- A probe that ended without a verdict frees the lease, and the circuit stays half open. -/
theorem releases {a a' : ProviderAttempt} (I : LeaseInv c live t) (ha : live h = some a)
    (hp : a.probing) (ho : a'.probing = false ∧ a'.streaming = false)
    (hg : a'.generation = a.generation) :
    LeaseInv { c with halfOpenInflight := 0 } (Function.update live h (some a')) t := by
  refine I.vacate (fun hl hp' => I.unique hl ha hp' hp) ?_ rfl le_rfl ?_ I.paced
  · rintro b ⟨⟩
    exact ⟨ho.1, hg ▸ I.bounded ha⟩
  · intro h' b hl hs hgen
    rcases update_eq_some.mp hl with ⟨-, ⟨⟩⟩ | ⟨-, hl⟩
    · simp [ho.2] at hs
    · exact I.closed hl hs hgen

/-- A probe that was abandoned reopens the circuit for a short while. -/
theorem reopens {now : Int} (I : LeaseInv c live now) (ha : live h = some a) (hp : a.probing)
    (ho : ∀ a', o = some a' → a'.probing = false ∧ a'.streaming = false ∧
      a'.generation = a.generation) : LeaseInv { c with
      halfOpenInflight := 0
      state := .opened
      retryAt := some (now + seconds abandonedProbeRetrySecs) }
      (Function.update live h o) now := by
  obtain ⟨hs, -, -⟩ := I.holder ha hp
  refine I.vacate (fun hl hp' => I.unique hl ha hp' hp) ?_ rfl le_rfl ?_ ?_
  · intro b hb
    exact ⟨(ho b hb).1, (ho b hb).2.2 ▸ I.bounded ha⟩
  · intro h' b hl hst hgen
    rcases update_eq_some.mp hl with ⟨-, hl⟩ | ⟨-, hl⟩
    · simp [(ho b hl).2.1] at hst
    · exact absurd (I.closed hl hst hgen) (by simp [hs])
  · have := I.paced
    simp only [Paced, hs, Option.some.injEq, exists_eq_left', seconds,
      abandonedProbeRetrySecs] at this ⊢
    omega

/-- A new attempt of a closed circuit joins without a lease. -/
theorem joins (I : LeaseInv c live t) (hn : live h = none) (ha : a.halfOpenProbe = false)
    (hg : a.generation = c.generation) : LeaseInv c (Function.update live h (some a)) t := by
  have was : ∀ {h' a'}, Function.update live h (some a) h' = some a' → a'.halfOpenProbe →
      live h' = some a' := by
    intro h' a' hl hp'
    rcases update_eq_some.mp hl with ⟨-, ⟨⟩⟩ | ⟨-, hl⟩
    · simp [ha] at hp'
    · exact hl
  have probe : ∀ {a' : ProviderAttempt}, a'.probing → a'.halfOpenProbe := by
    intro a' hp
    simp_all [ProviderAttempt.probing]
  have stream : ∀ {a' : ProviderAttempt}, a'.streaming → a'.halfOpenProbe := by
    intro a' hp
    simp_all [ProviderAttempt.streaming]
  exact {
    idle := I.idle
    single := I.single
    held := by
      intro hi
      obtain ⟨h', a', hl, hp'⟩ := I.held hi
      refine ⟨h', a', update_eq_some.mpr (.inr ⟨?_, hl⟩), hp'⟩
      rintro rfl
      simp [hn] at hl
    holder := fun hl hp' => I.holder (was hl (probe hp')) hp'
    unique := fun hl₁ hl₂ hp₁ hp₂ =>
      I.unique (was hl₁ (probe hp₁)) (was hl₂ (probe hp₂)) hp₁ hp₂
    bounded := by
      intro h' a' hl
      rcases update_eq_some.mp hl with ⟨-, ⟨⟩⟩ | ⟨-, hl⟩
      · exact hg.le
      · exact I.bounded hl
    closed := fun hl hs => I.closed (was hl (stream hs)) hs
    paced := I.paced }

/-- A new attempt takes the free lease of a circuit whose retry time has come. -/
theorem leases (I : LeaseInv c live t) (hs : c.state ≠ .closed)
    (hr : ∀ r, c.state = .opened → c.retryAt = some r → r ≤ t) (hi : c.halfOpenInflight = 0)
    (ha : a.probing) (hg : a.generation = c.generation) :
    LeaseInv c.leaseProbe (Function.update live h (some a)) t := by
  have calm : ∀ {h' a'}, live h' = some a' → a'.probing = false := by
    intro h' a' hl
    refine Bool.eq_false_iff.mpr fun hp => ?_
    have := (I.holder hl hp).2.1
    omega
  have stream : a.streaming = false := by
    simp_all [ProviderAttempt.probing, ProviderAttempt.streaming]
  exact {
    idle := by simp [Circuit.leaseProbe]
    single := le_rfl
    held := fun _ => ⟨h, a, by simp, ha⟩
    holder := by
      intro h' a' hl hp
      rcases update_eq_some.mp hl with ⟨-, ⟨⟩⟩ | ⟨-, hl⟩
      · exact ⟨rfl, rfl, hg⟩
      · simp [calm hl] at hp
    unique := by
      intro h₁ a₁ h₂ a₂ hl₁ hl₂ hp₁ hp₂
      rcases update_eq_some.mp hl₁ with ⟨rfl, -⟩ | ⟨-, hl₁⟩
      · rcases update_eq_some.mp hl₂ with ⟨rfl, -⟩ | ⟨-, hl₂⟩
        · rfl
        · simp [calm hl₂] at hp₂
      · simp [calm hl₁] at hp₁
    bounded := by
      intro h' a' hl
      rcases update_eq_some.mp hl with ⟨-, ⟨⟩⟩ | ⟨-, hl⟩
      · exact hg.le
      · exact I.bounded hl
    closed := by
      intro h' a' hl hst hgen
      rcases update_eq_some.mp hl with ⟨-, ⟨⟩⟩ | ⟨-, hl⟩
      · simp [stream] at hst
      · exact absurd (I.closed hl hst hgen) hs
    paced := by
      have hp := I.paced
      unfold Paced at hp
      cases hc : c.state with
      | closed => exact absurd hc hs
      | halfOpen => simpa only [hc, Paced, Circuit.leaseProbe] using hp
      | opened =>
        simp only [hc] at hp
        obtain ⟨r, hra, hle⟩ := hp
        have := hr r hc hra
        simp only [Paced, Circuit.leaseProbe]
        omega }

section Operations
variable {h : Nat} {a : ProviderAttempt} {now : Reading}

theorem beginAttempt (providerId accountId targetId : String)
    (policy : ProviderCorrelationPolicy) (I : LeaseInv c live now.value) (hn : live h = none) :
    match c.beginAttemptWithPolicy providerId accountId targetId policy now.value with
    | (c', .ok a) => LeaseInv c' (Function.update live h (some a)) now.value
    | (c', .error _) => LeaseInv c' live now.value := by
  rcases c.beginAttemptWithPolicy_cases providerId accountId targetId policy now.value with
    ⟨-, ⟨e, he⟩, P⟩ | ⟨-, hr⟩ | ⟨hs, hr⟩
  · rcases hb : c.beginAttemptWithPolicy providerId accountId targetId policy now.value with ⟨c', r⟩
    rw [hb] at he P
    cases he
    exact I.same P.toSameControl
  · rw [hr]
    exact (I.same (c.purgeOld_purged now.value).toSameControl).joins hn rfl rfl
  · rw [hr]
    have hi : c.halfOpenInflight = 0 := by
      rcases hs with ⟨hs, -⟩ | ⟨-, hi⟩
      · exact I.idle (by simp [hs])
      · exact hi
    refine (I.same (c.purgeOld_purged now.value).toSameControl).leases ?_ ?_ hi rfl rfl
    · rcases hs with ⟨hs, -⟩ | ⟨hs, -⟩ <;> simp [hs]
    · intro r ho hra
      rcases hs with ⟨-, ht⟩ | ⟨hs, -⟩
      · exact ht r hra
      · simp [hs] at ho

theorem markValidatedSuccess (I : LeaseInv c live now.value) (ha : live h = some a) :
    LeaseInv (a.markValidatedSuccess c now.value).2.2
      (Function.update live h (some (a.markValidatedSuccess c now.value).2.1)) now.value := by
  cases hp : a.probing with
  | false =>
    rw [ProviderAttempt.markValidatedSuccess_quiet hp]
    refine I.fade (SameControl.refl c) ha hp ?_
    rintro a' ⟨⟩
    exact ⟨hp, rfl, id⟩
  | true =>
    obtain ⟨hs, -, hg⟩ := I.holder ha hp
    rw [ProviderAttempt.markValidatedSuccess_probing hp hs hg]
    exact I.recovers ha hp (by simp [ProviderAttempt.probing]) rfl

theorem finishSuccess (I : LeaseInv c live now.value) (ha : live h = some a) :
    LeaseInv (a.finishSuccess c now.value).2.2
      (Function.update live h (some a.settled)) now.value := by
  cases hp : a.probing with
  | false =>
    have S : SameControl c (a.finishSuccess c now.value).2.2 := by
      rw [ProviderAttempt.finishSuccess_quiet hp]
      split_ifs <;> exact ⟨rfl, rfl, rfl, rfl⟩
    refine I.fade S ha hp ?_
    rintro a' ⟨⟩
    simp
  | true =>
    obtain ⟨hs, -, hg⟩ := I.holder ha hp
    rw [ProviderAttempt.finishSuccess_probing hp hs hg]
    exact I.recovers ha hp (by simp) rfl

theorem finishFailure {kind : FailureKind} {status : Option Nat} (I : LeaseInv c live now.value)
    (ha : live h = some a) :
    LeaseInv (a.finishFailure c kind status now.value).2.2
      (Function.update live h (some a.settled)) now.value := by
  cases hp : a.probing with
  | false =>
    rcases ProviderAttempt.finishFailure_quiet_control kind status now.value hp
      (I.closed ha) with S | ⟨hs, O⟩
    · refine I.fade S ha hp ?_
      rintro a' ⟨⟩
      simp
    · refine I.opens O (by simp [hs]) ha ?_ ?_
      · intro h' a' hl hp'
        exact absurd (I.holder hl hp').1 (by simp [hs])
      · rintro a' ⟨⟩
        simp
  | true =>
    obtain ⟨hs, -, hg⟩ := I.holder ha hp
    rcases ProviderAttempt.finishFailure_probing kind status now.value hp hs hg with
      ⟨-, hr⟩ | ⟨-, O⟩
    · rw [hr]
      exact I.releases ha hp (by simp) rfl
    · refine I.opens O (by simp [hs]) ha (fun hl hp' => I.unique hl ha hp' hp) ?_
      rintro a' ⟨⟩
      simp

theorem finishNeutral {o : Option ProviderAttempt} (I : LeaseInv c live now.value)
    (ha : live h = some a) (ho : ∀ a', o = some a' → a' = a.settled) :
    LeaseInv (a.finishNeutral c now.value).2.2 (Function.update live h o) now.value := by
  have slot : ∀ a', o = some a' → a'.probing = false ∧ a'.streaming = false ∧
      a'.generation = a.generation := by
    intro a' h'
    simp [ho a' h']
  cases hp : a.probing with
  | false =>
    rw [ProviderAttempt.finishNeutral_quiet hp (I.closed ha)]
    refine I.fade (SameControl.refl c) ha hp fun a' h' => ?_
    simp [slot a' h']
  | true =>
    obtain ⟨hs, -, hg⟩ := I.holder ha hp
    rw [ProviderAttempt.finishNeutral_probing hp hs hg]
    exact I.reopens ha hp slot

end Operations

/-- Every operation keeps the lease invariant. -/
theorem step {providerId : String} {s s' : Provider} {a : Action}
    (I : LeaseInv s.circuit s.attempts s.clock) (hs : s.step providerId a = some s') :
    LeaseInv s'.circuit s'.attempts s'.clock := by
  unfold Provider.step at hs
  split at hs
  case isFalse => cases hs
  case isTrue hle =>
    have J := I.later hle
    cases a with
    | beginAttempt handle accountId targetId policy now =>
      simp only [Provider.perform] at hs
      split at hs
      · cases hs
      · next hn =>
          have B := J.beginAttempt providerId accountId targetId policy hn
          split at hs <;> next hb =>
            simp only [Action.now] at B hb
            rw [hb] at B
            cases hs
            exact B
    | checkAvailable now =>
      cases hs
      exact J.same (s.circuit.checkAvailable_purged providerId now.value).toSameControl
    | snapshot now =>
      cases hs
      exact J.same (s.circuit.snapshot_purged providerId now.value).toSameControl
    | markValidatedSuccess handle now =>
      obtain ⟨a, ha, rfl⟩ := Option.map_eq_some_iff.mp hs
      exact J.markValidatedSuccess ha
    | finishSuccess handle now =>
      obtain ⟨a, ha, rfl⟩ := Option.map_eq_some_iff.mp hs
      simpa only [Provider.settle, ProviderAttempt.finishSuccess_attempt, Action.now] using
        J.finishSuccess ha
    | finishFailure handle kind status now =>
      obtain ⟨a, ha, rfl⟩ := Option.map_eq_some_iff.mp hs
      simpa only [Provider.settle, ProviderAttempt.finishFailure_attempt, Action.now] using
        J.finishFailure ha
    | finishNeutral handle now =>
      obtain ⟨a, ha, rfl⟩ := Option.map_eq_some_iff.mp hs
      simp only [Provider.settle, ProviderAttempt.finishNeutral_attempt]
      refine J.finishNeutral ha ?_
      rintro a' ⟨⟩
      rfl
    | dropAttempt handle now =>
      obtain ⟨a, ha, rfl⟩ := Option.map_eq_some_iff.mp hs
      rw [ProviderAttempt.drop_eq]
      exact J.finishNeutral ha (by simp)

end LeaseInv

/-- The lease invariant of a fresh provider. -/
theorem leaseInv_start (providerId : String) :
    LeaseInv (machine providerId).start.circuit (machine providerId).start.attempts
      (machine providerId).start.clock where
  idle := fun _ => rfl
  single := Nat.zero_le 1
  held := by
    intro h
    cases h
  holder := by
    intro h a hl
    cases hl
  unique := by
    intro h a h' a' hl
    cases hl
  bounded := by
    intro h a hl
    cases hl
  closed := by
    intro h a hl
    cases hl
  paced := by
    simp [Paced, machine, clockOrigin, seconds]

/-- Every run of a provider keeps the lease invariant. -/
theorem leaseInv_run {providerId : String} {as : List Action} {s : Provider}
    (h : (machine providerId).run as = some s) : LeaseInv s.circuit s.attempts s.clock :=
  (machine providerId).invariant (I := fun s => LeaseInv s.circuit s.attempts s.clock)
    (leaseInv_start providerId) (fun _ _ _ I => I.step) h

/-- A live attempt that carries the half-open lease of the circuit's current generation. -/
def Provider.HoldsLease (s : Provider) (handle : Nat) : Prop :=
  ∃ a, s.attempts handle = some a ∧ a.probing ∧ a.generation = s.circuit.generation

/-- In every state that a run reaches the half-open lease is exclusive, and it is held exactly by
the live half-open attempt that is neither validated nor finished. -/
theorem half_open_lease_exclusive {providerId : String} {as : List Action} {s : Provider}
    (h : (machine providerId).run as = some s) :
    s.circuit.halfOpenInflight ≤ 1 ∧
    (s.circuit.state = .halfOpen ∧ s.circuit.halfOpenInflight = 1 ↔
      ∃! handle, s.HoldsLease handle) ∧
    (s.circuit.state = .closed → s.circuit.halfOpenInflight = 0) ∧
    (s.circuit.state = .opened → s.circuit.halfOpenInflight = 0 ∧ s.circuit.retryAt.isSome) ∧
    (∀ h₁ a₁ h₂ a₂, s.attempts h₁ = some a₁ → s.attempts h₂ = some a₂ →
      a₁.probing → a₂.probing → h₁ = h₂) := by
  have I := leaseInv_run h
  refine ⟨I.single, ⟨?_, ?_⟩, fun hs => I.idle (by simp [hs]), ?_, ?_⟩
  · rintro ⟨-, hi⟩
    obtain ⟨handle, a, ha, hp⟩ := I.held hi
    refine ⟨handle, ⟨a, ha, hp, (I.holder ha hp).2.2⟩, ?_⟩
    rintro handle' ⟨a', ha', hp', -⟩
    exact I.unique ha' ha hp' hp
  · rintro ⟨handle, ⟨a, ha, hp, -⟩, -⟩
    exact ⟨(I.holder ha hp).1, (I.holder ha hp).2.1⟩
  · intro hs
    have hp := I.paced
    simp only [Paced, hs] at hp
    obtain ⟨r, hr, -⟩ := hp
    exact ⟨I.idle (by simp [hs]), by simp [hr]⟩
  · intro h₁ a₁ h₂ a₂ ha₁ ha₂ hp₁ hp₂
    exact I.unique ha₁ ha₂ hp₁ hp₂

/-- Two accounts fail, the circuit opens, and after the cooldown a third attempt probes. -/
def probeRun : List Action :=
  [.beginAttempt 0 "a" "m" .distinctAccounts (.ofSeconds 0 (by decide)),
    .beginAttempt 1 "b" "m" .distinctAccounts (.ofSeconds 0 (by decide)),
    .finishFailure 0 .serverError (some 503) (.ofSeconds 1 (by decide)),
    .finishFailure 1 .timeout none (.ofSeconds 2 (by decide)),
    .beginAttempt 2 "c" "m" .distinctAccounts (.ofSeconds 32 (by decide))]

theorem half_open_lease_exclusive_probe :
    ∃ s, (machine "p").run probeRun = some s ∧ s.circuit.state = .halfOpen ∧
      ∃! handle, s.HoldsLease handle :=
  have h : (machine "p").run probeRun = some _ := rfl
  ⟨_, h, rfl, (half_open_lease_exclusive h).2.1.mp ⟨rfl, rfl⟩⟩

/-! ## Recovery -/

/-- The circuit waits no longer than the cooldown from a time. -/
def Circuit.RetriesAfter (c : Circuit) (now : Int) : Prop :=
  ∀ t, c.retryAt = some t → t ≤ now + seconds openCooldownSecs

section
variable {providerId : String} {s s' : Provider}

/-- Nothing that an attempt reports makes the circuit wait longer. -/
theorem Circuit.RetriesAfter.outcome {c : Circuit} {now : Int} (h : c.RetriesAfter now)
    (a : ProviderAttempt) :
    (a.markValidatedSuccess c now).2.2.RetriesAfter now ∧
      (a.finishSuccess c now).2.2.RetriesAfter now ∧
      (∀ kind status, (a.finishFailure c kind status now).2.2.RetriesAfter now) ∧
      (a.finishNeutral c now).2.2.RetriesAfter now := by
  refine ⟨?_, ?_, fun kind status => ?_, ?_⟩
  · grind [RetriesAfter, ProviderAttempt.markValidatedSuccess, recover]
  · grind [RetriesAfter, ProviderAttempt.finishSuccess, recover]
  · grind [RetriesAfter, ProviderAttempt.finishFailure, releaseProbeSlot, openCircuit, pushFailure,
      purgeOld]
  · grind [RetriesAfter, ProviderAttempt.finishNeutral, reopenAbandonedProbe, releaseProbeSlot,
      seconds, openCooldownSecs, abandonedProbeRetrySecs]

theorem retriesAfter_step {action : Action} (h : s.circuit.RetriesAfter s.clock)
    (hs : s.step providerId action = some s') : s'.circuit.RetriesAfter s'.clock := by
  unfold Provider.step at hs
  split at hs
  case isFalse => cases hs
  case isTrue hle =>
    have h : s.circuit.RetriesAfter action.now.value :=
      fun t ht => (h t ht).trans (add_le_add_left hle _)
    cases action with
    | beginAttempt handle accountId targetId policy now =>
      have hbegin := s.circuit.beginAttemptWithPolicy_cases providerId accountId targetId policy
        now.value
      grind [Provider.perform, Circuit.RetriesAfter, Purged.toSameControl, SameControl.retryAt,
        Circuit.leaseProbe, Circuit.purgeOld]
    | checkAvailable now =>
      cases hs
      rwa [Circuit.RetriesAfter, (s.circuit.checkAvailable_purged providerId now.value).retryAt]
    | snapshot now => exact Option.some.inj hs ▸ h
    | markValidatedSuccess | finishSuccess | finishFailure | finishNeutral | dropAttempt =>
      obtain ⟨a, ha, rfl⟩ := Option.map_eq_some_iff.mp hs
      obtain ⟨hvalidated, hsuccess, hfailure, hneutral⟩ := h.outcome a
      first
        | exact hvalidated | exact hsuccess | exact hfailure _ _ | exact hneutral
        | rw [a.drop_eq]; exact hneutral

/-- The attempt that an action begins or works on. -/
def Action.attempt? : Action → Option Nat
  | .beginAttempt handle .. | .markValidatedSuccess handle _ | .finishSuccess handle _
  | .finishFailure handle .. | .finishNeutral handle _ | .dropAttempt handle _ => some handle
  | .checkAvailable _ | .snapshot _ => none

/-- An action begins no attempt from a time on. -/
def Action.BeginsBefore (time : Int) : Action → Prop
  | .beginAttempt _ _ _ _ now => now.value < time
  | _ => True

/-- An attempt that does not probe leaves a circuit alone that is not closed. -/
theorem ProviderAttempt.leaves_of_ne_closed {a : ProviderAttempt} {c : Circuit} (now : Int)
    (hp : a.probing = false) (hc : c.state ≠ .closed)
    (hstream : a.streaming → a.generation = c.generation → c.state = .closed) :
    (a.markValidatedSuccess c now).2.2 = c ∧ (a.finishSuccess c now).2.2 = c ∧
      (∀ kind status, (a.finishFailure c kind status now).2.2 = c) ∧
      (a.finishNeutral c now).2.2 = c := by
  have hstate : (c.state == .closed) = false := beq_false_of_ne hc
  refine ⟨?_, ?_, fun kind status => ?_, finishNeutral_quiet hp hstream⟩
  · rw [markValidatedSuccess_quiet hp]
  · simp [finishSuccess_quiet hp, hstate]
  · simp [finishFailure_quiet hp hstream, hstate]

/-- Who does not hold the lease and is not given it changes nothing about who may be admitted. -/
theorem sameControl_step {action : Action} (I : LeaseInv s.circuit s.attempts s.clock)
    (hs : s.step providerId action = some s') (hc : s.circuit.state ≠ .closed)
    (hrefused : ∀ handle accountId targetId policy now,
      action = .beginAttempt handle accountId targetId policy now →
        (∃ t, s.circuit.state = .opened ∧ s.circuit.retryAt = some t ∧ now.value < t) ∨
          s.circuit.state = .halfOpen ∧ 0 < s.circuit.halfOpenInflight)
    (hother : ∀ handle a, action.attempt? = some handle → s.attempts handle = some a →
      a.probing = false) : SameControl s.circuit s'.circuit := by
  unfold Provider.step at hs
  split at hs
  case isFalse => cases hs
  case isTrue =>
    cases action with
    | beginAttempt handle accountId targetId policy now =>
      have hgate := hrefused handle accountId targetId policy now rfl
      have hbegin := s.circuit.beginAttemptWithPolicy_cases providerId accountId targetId policy
        now.value
      grind [Provider.perform, Purged.toSameControl]
    | checkAvailable now =>
      cases hs
      exact (s.circuit.checkAvailable_purged providerId now.value).toSameControl
    | snapshot now =>
      cases hs
      exact (s.circuit.snapshot_purged providerId now.value).toSameControl
    | markValidatedSuccess handle now | finishSuccess handle now | finishFailure handle _ _ now
    | finishNeutral handle now | dropAttempt handle now =>
      obtain ⟨a, ha, rfl⟩ := Option.map_eq_some_iff.mp hs
      obtain ⟨hvalidated, hsuccess, hfailure, hneutral⟩ :=
        ProviderAttempt.leaves_of_ne_closed now.value (hother handle a rfl ha) hc (I.closed ha)
      simp only [Provider.settle, ProviderAttempt.drop_eq, hvalidated, hsuccess, hfailure, hneutral]
      exact SameControl.refl _

/-- An action keeps the attempts that it is not about. -/
theorem attempts_step {action : Action} {handle : Nat} (hs : s.step providerId action = some s')
    (hne : action.attempt? ≠ some handle) : s'.attempts handle = s.attempts handle := by
  unfold Provider.step at hs
  split at hs
  case isFalse => cases hs
  case isTrue =>
    cases action with
    | beginAttempt own accountId targetId policy now =>
      have hdiff : handle ≠ own := fun he => hne (congrArg some he.symm)
      simp only [Provider.perform] at hs
      split at hs
      · cases hs
      · split at hs <;> cases hs
        · exact Function.update_of_ne hdiff _ _
        · rfl
    | checkAvailable now => exact (Option.some.inj hs) ▸ rfl
    | snapshot now => exact (Option.some.inj hs) ▸ rfl
    | markValidatedSuccess own now | finishSuccess own now | finishFailure own _ _ now
    | finishNeutral own now | dropAttempt own now =>
      have hdiff : handle ≠ own := fun he => hne (congrArg some he.symm)
      obtain ⟨a, -, rfl⟩ := Option.map_eq_some_iff.mp hs
      exact Function.update_of_ne hdiff _ _

/-- An attempt that probes closes the circuit when it succeeds, whatever the others do before. -/
def Provider.ClosesOnSuccess (providerId : String) (s : Provider) (handle : Nat) : Prop :=
  ∀ (others : List Action) (s' : Provider) (later : Reading),
    (∀ action ∈ others, action.attempt? ≠ some handle) →
      (machine providerId).runFrom s others = some s' → s'.clock ≤ later.value →
        ∃ s'', (machine providerId).step s' (.finishSuccess handle later) = some s'' ∧
          s''.circuit.state = .closed ∧ s''.circuit.failures = []

theorem closesOnSuccess_of_probing {handle : Nat} {a : ProviderAttempt}
    (I : LeaseInv s.circuit s.attempts s.clock) (ha : s.attempts handle = some a)
    (hp : a.probing) : s.ClosesOnSuccess providerId handle := by
  intro others s' later hothers hrun hclock
  obtain ⟨I', ha'⟩ := (machine providerId).runFrom_invariant
    (I := fun t => LeaseInv t.circuit t.attempts t.clock ∧ t.attempts handle = some a)
    (P := fun action => action.attempt? ≠ some handle)
    (fun t action t' hne It ht => ⟨It.1.step ht, (attempts_step ht hne).trans It.2⟩)
    hothers ⟨I, ha⟩ hrun
  obtain ⟨hstate, -, hgeneration⟩ := I'.holder ha' hp
  refine ⟨Provider.settle { s' with clock := later.value } handle
    (a.finishSuccess s'.circuit later.value), ?_, ?_⟩
  · simp [machine, Provider.step, Action.now, hclock, Provider.perform, ha']
  · simp [Provider.settle, ProviderAttempt.finishSuccess_probing hp hstate hgeneration,
      Circuit.recover]

/-- In every run an open circuit has a retry time at most one cooldown away. However often it
refuses attempts and whatever else happens until then, the first attempt that begins at that time or
later is admitted as the probe, and its success closes the circuit and clears the evidence. -/
theorem circuit_recovers {as : List Action} (h : (machine providerId).run as = some s)
    (hopen : s.circuit.state = .opened) :
    ∃ retryAt, s.circuit.retryAt = some retryAt ∧ retryAt ≤ s.clock + seconds openCooldownSecs ∧
      ∀ (waiting : List Action) (s₁ : Provider),
        (∀ action ∈ waiting, action.BeginsBefore retryAt) →
        (machine providerId).runFrom s waiting = some s₁ →
          ∀ (handle : Nat) (accountId targetId : String) (policy : ProviderCorrelationPolicy)
            (now : Reading), s₁.attempts handle = none → s₁.clock ≤ now.value →
            retryAt ≤ now.value →
              ∃ s₂ attempt, (machine providerId).step s₁
                  (.beginAttempt handle accountId targetId policy now) = some s₂ ∧
                s₂.attempts handle = some attempt ∧ attempt.halfOpenProbe ∧
                s₂.ClosesOnSuccess providerId handle := by
  have I := leaseInv_run h
  obtain ⟨retryAt, hretry⟩ := Option.isSome_iff_exists.mp
    ((half_open_lease_exclusive h).2.2.2.1 hopen).2
  have hbound : s.circuit.RetriesAfter s.clock :=
    (machine providerId).invariant (I := fun s => s.circuit.RetriesAfter s.clock) nofun
      (fun _ _ _ => retriesAfter_step) h
  refine ⟨retryAt, hretry, hbound retryAt hretry, ?_⟩
  intro waiting s₁ hwaiting hrun handle accountId targetId policy now hfree hclock hnow
  -- Until the retry time nothing changes about the circuit: attempts are refused, and no live one
  -- holds the lease.
  obtain ⟨I₁, hopen₁, hretry₁⟩ := (machine providerId).runFrom_invariant
    (I := fun t => LeaseInv t.circuit t.attempts t.clock ∧ t.circuit.state = .opened ∧
      t.circuit.retryAt = some retryAt) (P := Action.BeginsBefore retryAt)
    (by
      rintro t action t' hbefore ⟨It, ho, hr⟩ ht
      have hcontrol : SameControl t.circuit t'.circuit := by
        refine sameControl_step It ht (by simp [ho]) ?_ ?_
        · rintro handle accountId targetId policy now rfl
          exact .inl ⟨retryAt, ho, hr, hbefore⟩
        · intro handle a _ ha
          refine Bool.eq_false_iff.mpr fun hp => ?_
          exact absurd (It.holder ha hp).1 (by simp [ho])
      exact ⟨It.step ht, hcontrol.state.trans ho, hcontrol.retryAt.trans hr⟩)
    hwaiting ⟨I, hopen, hretry⟩ hrun
  obtain ⟨c, a, hbegin, hprobe⟩ : ∃ c a, s₁.circuit.beginAttemptWithPolicy providerId accountId
      targetId policy now.value = (c, .ok a) ∧ a.probing ∧ a.halfOpenProbe := by
    rcases s₁.circuit.beginAttemptWithPolicy_cases providerId accountId targetId policy now.value
      with ⟨⟨t, -, ht, hlt⟩ | ⟨hs, -⟩, -⟩ | ⟨hs, -⟩ | ⟨-, hr⟩
    · obtain rfl : retryAt = t := Option.some.inj (hretry₁.symm.trans ht)
      exact absurd hnow (not_le.mpr hlt)
    · simp [hopen₁] at hs
    · simp [hopen₁] at hs
    · exact ⟨_, _, hr, rfl, rfl⟩
  have hstep : (machine providerId).step s₁ (.beginAttempt handle accountId targetId policy now) =
      some ⟨c, Function.update s₁.attempts handle (some a), now.value⟩ := by
    simp [machine, Provider.step, Provider.perform, Action.now, hclock, hfree, hbegin]
  have hattempt : Function.update s₁.attempts handle (some a) handle = some a :=
    Function.update_self ..
  exact ⟨_, a, hstep, hattempt, hprobe.2,
    closesOnSuccess_of_probing (LeaseInv.step I₁ hstep) hattempt hprobe.1⟩

/-- The circuit that two accounts opened refuses an attempt and an availability check, admits the
next attempt at its retry time, and is closed by it while another one is refused. -/
theorem circuit_recovers_probe : ∃ s, (machine "p").run (probeRun.take 4 ++
      [.checkAvailable (.ofSeconds 10 (by decide)),
        .beginAttempt 2 "c" "m" .distinctAccounts (.ofSeconds 31 (by decide)),
        .beginAttempt 2 "c" "m" .distinctAccounts (.ofSeconds 32 (by decide)),
        .beginAttempt 3 "d" "m" .distinctAccounts (.ofSeconds 33 (by decide)),
        .finishSuccess 2 (.ofSeconds 34 (by decide))]) = some s ∧
    s.circuit.state = .closed ∧ s.circuit.failures = [] := by
  have h : (machine "p").run (probeRun.take 4) = some _ := rfl
  obtain ⟨retryAt, hretry, -, hrecovers⟩ := circuit_recovers h rfl
  obtain rfl : Clock.seconds 32 = retryAt := Option.some.inj hretry
  obtain ⟨s₂, a, hbegin, -, -, hcloses⟩ := hrecovers
    [.checkAvailable (.ofSeconds 10 (by decide)),
      .beginAttempt 2 "c" "m" .distinctAccounts (.ofSeconds 31 (by decide))] _
    (by
      intro action hmem
      simp only [List.mem_cons, List.not_mem_nil, or_false] at hmem
      rcases hmem with rfl | rfl
      · trivial
      · exact (by decide : Clock.seconds 31 < Clock.seconds 32))
    rfl 2 "c" "m" .distinctAccounts (.ofSeconds 32 (by decide)) rfl (by decide) (by decide)
  obtain rfl := Option.some.inj (hbegin.symm.trans rfl)
  obtain ⟨s₄, hfinish, hclosed, hclear⟩ := hcloses
    [.beginAttempt 3 "d" "m" .distinctAccounts (.ofSeconds 33 (by decide))] _
    (.ofSeconds 34 (by decide)) (by simp [Action.attempt?]) rfl (by decide)
  obtain rfl := Option.some.inj (hfinish.symm.trans rfl)
  exact ⟨_, rfl, hclosed, hclear⟩

end

end Kinetix.ProviderCircuit
