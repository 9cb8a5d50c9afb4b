import Kinetix.Account.Interleaving
import Kinetix.Library.TaskList

/-!
# Half-open probing of an account

The candidates of concurrent requests for one account: each is planned from the registry's snapshot,
checked, recorded as a probe and dispatched. The gap between two dispatches is kept as long as a
check sees the last recorded probe, no second candidate is checked before a probe is recorded, and
the probes are dispatched in the order of their recordings, a later one no quicker than an earlier
one; the code sees to none of these.

## Implementation notes

Of the dispatches, a state has those made with the circuit open since a success last cleared it. A
candidate keeps its index; one request can have several candidates for an account. Planning and the
reload are two steps each, and any reload can be published at any time.
-/

namespace Kinetix.Account
open Clock StateMachine
open AccountRow (halfOpenProbeMinGapSecs)

/-- Where a candidate for the account is in the attempt loop. -/
inductive Candidate where
  | planned (account : AccountRow)
  /-- Found healthy. -/
  | ready
  /-- `probing`, not yet recorded. -/
  | probing
  | recorded (now : Int)
  /-- Skipped or dispatched. -/
  | gone
  deriving DecidableEq

/-- What the health check of a candidate finds. -/
def AccountRow.check (R : Rfc3339) (a : AccountRow) (now : Int) : Candidate :=
  if a.effectiveStatus R now = .healthy then .ready
  else if a.shouldProbe R now then .probing
  else .gone

/-- The statements of `handle_key_failure`. -/
def Statement.ofFailure : Statement → Bool
  | .setStatus status _ _ => status ≠ .healthy
  | .bumpFailures => true
  | .openCircuit _ => true
  | .resetFailures => false
  | .touchProbe _ => false

/-- A dispatch, and when it was recorded as a probe. -/
structure Dispatch where
  recorded : Option Int
  sent : Int
  deriving DecidableEq

/-- An account, its candidates and their dispatches. -/
structure Traffic where
  row : AccountRow
  snapshot : AccountRow
  /-- The rows that reloads have read. -/
  reloads : List AccountRow
  now : Int
  candidates : List Candidate
  /-- The dispatches, the last one first. -/
  dispatches : List Dispatch

inductive TrafficAction where
  | wait (d : Nat)
  | plan
  | check (i : Nat)
  /-- The candidate is passed over after its check. -/
  | skip (i : Nat)
  /-- `db::touch_probe_at`, of which the result is ignored. -/
  | record (i : Nat) (succeeds : Bool)
  | dispatch (i : Nat)
  /-- `pool::clear_circuit` after a validated response. -/
  | validated
  | failed (statement : Statement)
  | readTables
  | publish (i : Nat)

namespace Traffic
variable (R : Rfc3339)

/-- The dispatches after one more, if it was made with the circuit open. -/
def dispatched (s : Traffic) (recorded : Option Int) : List Dispatch :=
  if s.row.circuitOpenUntil.isSome then ⟨recorded, s.now⟩ :: s.dispatches else s.dispatches

def dispatch (s : Traffic) (i : Nat) (recorded : Option Int) : Traffic :=
  { s with candidates := s.candidates.set i .gone, dispatches := s.dispatched recorded }

def record (s : Traffic) (i : Nat) (succeeds : Bool) : Traffic :=
  { s with
    candidates := s.candidates.set i (.recorded s.now)
    row := if succeeds then s.row.touchProbeAt R s.now else s.row }

def step (s : Traffic) : TrafficAction → Option Traffic
  | .wait d => some { s with now := s.now + d }
  | .plan => some { s with candidates := s.candidates ++ [.planned s.snapshot] }
  | .check i =>
    match s.candidates[i]? with
    | some (.planned account) =>
      some { s with candidates := s.candidates.set i (account.check R s.now) }
    | _ => none
  | .skip i => some { s with candidates := s.candidates.set i .gone }
  | .record i succeeds =>
    if s.candidates[i]? = some .probing then some (s.record R i succeeds) else none
  | .dispatch i =>
    match s.candidates[i]? with
    | some .ready => some (s.dispatch i none)
    | some (.recorded t) => some (s.dispatch i t)
    | _ => none
  | .validated => some { s with row := s.row.resetAccountFailures, dispatches := [] }
  | .failed statement =>
    if statement.ofFailure then some { s with row := statement.exec R s.row } else none
  | .readTables => some { s with reloads := s.reloads ++ [s.row] }
  | .publish i => (s.reloads[i]?).map fun row => { s with snapshot := row }

end Traffic

/-- Requests for an account, from any row and with no request in flight. -/
def traffic (R : Rfc3339) (row : AccountRow) (now : Int) : Machine Traffic TrafficAction where
  start := ⟨row, row, [], now, [], []⟩
  step := Traffic.step R

/-- `HALF_OPEN_PROBE_MIN_GAP_SECS` pass between two dispatches. -/
def Traffic.Bounded (s : Traffic) : Prop :=
  s.dispatches.Pairwise fun later earlier =>
    earlier.sent + seconds halfOpenProbeMinGapSecs ≤ later.sent

/-- A check that allows a probe sees the last recorded one, and no candidate is about to
record one. -/
def Traffic.ChecksInTurn (R : Rfc3339) (s : Traffic) : Option Candidate → Prop
  | some (.planned account) => account.check R s.now = .probing →
      account.lastProbeAt = s.row.lastProbeAt ∧ Candidate.probing ∉ s.candidates
  | _ => True

/-- Probes are dispatched in the order of their recordings, and within the gap after a dispatch no
probe is dispatched more quickly after its recording than that one was; a dispatch to a healthy
account comes before the circuit opens. -/
def Traffic.DispatchesInTurn (s : Traffic) : Option Candidate → Prop
  | some .ready => s.row.circuitOpenUntil = none
  | some (.recorded t) => ∀ d ∈ s.dispatches, ∀ t' ∈ d.recorded,
      t' ≤ t ∧ (t < d.sent + seconds halfOpenProbeMinGapSecs → d.sent - t' ≤ s.now - t)
  | _ => True

/-- Checks and dispatches are made in turn, and what is recorded is read back. -/
def Traffic.Orderly (R : Rfc3339) (s : Traffic) : TrafficAction → Prop
  | .check i => s.ChecksInTurn R s.candidates[i]?
  | .record _ succeeds => succeeds = true ∧ R.parseDt (R.toRfc3339 s.now) = some s.now
  | .dispatch i => s.DispatchesInTurn s.candidates[i]?
  | .wait _ | .plan | .skip _ | .validated | .failed _ | .readTables | .publish _ => True

instance (R : Rfc3339) (s : Traffic) : (c : Option Candidate) → Decidable (s.ChecksInTurn R c)
  | some (.planned _) => inferInstanceAs (Decidable (_ → _))
  | none | some .ready | some .probing | some (.recorded _) | some .gone => .isTrue trivial

instance (s : Traffic) : (c : Option Candidate) → Decidable (s.DispatchesInTurn c)
  | some .ready => inferInstanceAs (Decidable (_ = _))
  | some (.recorded _) => inferInstanceAs (Decidable (∀ d ∈ s.dispatches, ∀ t' ∈ d.recorded, _))
  | none | some (.planned _) | some .probing | some .gone => .isTrue trivial

instance (R : Rfc3339) (s : Traffic) : (a : TrafficAction) → Decidable (s.Orderly R a)
  | .check i => inferInstanceAs (Decidable (s.ChecksInTurn R s.candidates[i]?))
  | .record _ _ => inferInstanceAs (Decidable (_ ∧ _))
  | .dispatch i => inferInstanceAs (Decidable (s.DispatchesInTurn s.candidates[i]?))
  | .wait _ | .plan | .skip _ | .validated | .failed _ | .readTables | .publish _ => .isTrue trivial

instance (s : Traffic) : Decidable s.Bounded := inferInstanceAs (Decidable (List.Pairwise _ _))

/-! ## The invariant -/

section
variable {R : Rfc3339} {s s' : Traffic}

/-- The last recorded probe. -/
def AccountRow.lastProbe (R : Rfc3339) (a : AccountRow) : Option Int := a.lastProbeAt.bind R.parseDt

/-- A gap lies between two times. -/
def Apart (t t' : Int) : Prop :=
  t + seconds halfOpenProbeMinGapSecs ≤ t' ∨ t' + seconds halfOpenProbeMinGapSecs ≤ t

/-- A time that was recorded as a probe is not after the last one. -/
def Traffic.Past (R : Rfc3339) (s : Traffic) (t : Int) : Prop :=
  t ≤ s.now ∧ ∃ last, s.row.lastProbe R = some last ∧ t ≤ last

/-- What was recorded is a gap apart, and so are a probe that is about to be recorded and the last
recorded one. -/
structure Traffic.Inv (R : Rfc3339) (s : Traffic) : Prop where
  recorded : ∀ (i : Nat) (t : Int), s.candidates[i]? = some (.recorded t) → s.Past R t
  apart : ∀ (i j : Nat) (t t' : Int), i ≠ j → s.candidates[i]? = some (.recorded t) →
    s.candidates[j]? = some (.recorded t') → Apart t t'
  dispatched : ∀ d ∈ s.dispatches, ∃ t, d.recorded = some t ∧ s.Past R t ∧
    ∀ (i : Nat) (t' : Int), s.candidates[i]? = some (.recorded t') → Apart t t'
  probing : ∀ i : Nat, s.candidates[i]? = some .probing →
    (∀ t, s.row.lastProbe R = some t → t + seconds halfOpenProbeMinGapSecs ≤ s.now) ∧
      ∀ j : Nat, s.candidates[j]? = some .probing → j = i
  bounded : s.Bounded

theorem gap_pos : 0 < seconds halfOpenProbeMinGapSecs := by decide

/-- An account that may be probed was last probed a gap ago. -/
theorem AccountRow.check_probing {a : AccountRow} {now t : Int} (h : a.check R now = .probing)
    (ht : a.lastProbe R = some t) : t + seconds halfOpenProbeMinGapSecs ≤ now := by
  have hprobe : a.shouldProbe R now = true := by
    rw [check] at h
    split at h
    · cases h
    · split at h
      · assumption
      · cases h
  rw [lastProbe] at ht
  rw [shouldProbe] at hprobe
  cases hstatus : AccountStatus.parse a.status with
  | healthy | circuitOpen =>
    rw [hstatus, ht] at hprobe
    exact of_decide_eq_true (Bool.and_eq_true_iff.mp hprobe).2
  | cooldown | exhausted | disabled => simp [hstatus] at hprobe

theorem AccountRow.check_ne_recorded (a : AccountRow) (now t : Int) :
    a.check R now ≠ .recorded t := by
  rw [check]
  split
  · exact Candidate.noConfusion
  · split <;> exact Candidate.noConfusion

/-- Failures do not touch the last probe. -/
theorem Statement.lastProbe_exec {statement : Statement} (h : statement.ofFailure)
    (a : AccountRow) :
    (statement.exec R a).lastProbe R = a.lastProbe R := by
  cases statement with
  | setStatus status c q =>
    rw [exec, AccountRow.setAccountStatus]
    split <;> rfl
  | bumpFailures | openCircuit deadline | resetFailures => rfl
  | touchProbe now => cases h

namespace Traffic

theorem Past.mono {t : Int} (h : s.Past R t) (hrow : s'.row.lastProbe R = s.row.lastProbe R)
    (hnow : s.now ≤ s'.now) : s'.Past R t :=
  ⟨h.1.trans hnow, by rw [hrow]; exact h.2⟩

/-- What a step does that only ends or adds candidates, and leaves the last probe alone. -/
theorem Inv.of_candidates (h : s.Inv R) (hrow : s'.row.lastProbe R = s.row.lastProbe R)
    (hnow : s.now ≤ s'.now) (hdispatches : s'.dispatches.Sublist s.dispatches)
    (hrecorded : ∀ (i : Nat) (t : Int), s'.candidates[i]? = some (.recorded t) →
      s.candidates[i]? = some (.recorded t))
    (hprobing : ∀ i : Nat, s'.candidates[i]? = some .probing → s.candidates[i]? = some .probing) :
    s'.Inv R where
  recorded i t hi := (h.recorded i t (hrecorded i t hi)).mono hrow hnow
  apart i j t t' hne hi hj := h.apart i j t t' hne (hrecorded i t hi) (hrecorded j t' hj)
  dispatched d hd := by
    obtain ⟨t, ht, hpast, hapart⟩ := h.dispatched d (hdispatches.subset hd)
    exact ⟨t, ht, hpast.mono hrow hnow, fun i t' hi => hapart i t' (hrecorded i t' hi)⟩
  probing i hi := by
    rw [hrow]
    refine (h.probing i (hprobing i hi)).imp (fun hgap t ht => (hgap t ht).trans hnow) ?_
    exact fun hunique j hj => hunique j (hprobing j hj)
  bounded := h.bounded.sublist hdispatches

/-- A candidate that was checked. -/
theorem Inv.check (h : s.Inv R) {i : Nat} {account : AccountRow}
    (hfresh : account.check R s.now = .probing →
      account.lastProbeAt = s.row.lastProbeAt ∧ Candidate.probing ∉ s.candidates) :
    Inv R { s with candidates := s.candidates.set i (account.check R s.now) } := by
  have hrecorded : ∀ (j : Nat) (t : Int), (s.candidates.set i (account.check R s.now))[j]? =
      some (.recorded t) →
      s.candidates[j]? = some (.recorded t) := by
    intro j t hj
    rcases TaskList.of_set hj with ⟨-, hcheck⟩ | ⟨-, hj⟩
    · exact (account.check_ne_recorded s.now t hcheck.symm).elim
    · exact hj
  constructor
  · exact fun j t hj => h.recorded j t (hrecorded j t hj)
  · exact fun j k t t' hne hj hk => h.apart j k t t' hne (hrecorded j t hj) (hrecorded k t' hk)
  · intro d hd
    obtain ⟨t, ht, hpast, hapart⟩ := h.dispatched d hd
    exact ⟨t, ht, hpast, fun j t' hj => hapart j t' (hrecorded j t' hj)⟩
  · intro j hj
    rcases TaskList.of_set hj with ⟨rfl, hcheck⟩ | ⟨hne, hj⟩
    · obtain ⟨hlast, hnone⟩ := hfresh hcheck.symm
      refine ⟨fun t ht => AccountRow.check_probing hcheck.symm ?_, fun k hk => ?_⟩
      · rwa [AccountRow.lastProbe, hlast]
      · rcases TaskList.of_set hk with ⟨rfl, -⟩ | ⟨-, hk⟩
        · rfl
        · exact (hnone (List.mem_of_getElem? hk)).elim
    · refine ⟨(h.probing j hj).1, fun k hk => ?_⟩
      rcases TaskList.of_set hk with ⟨-, hcheck⟩ | ⟨-, hk⟩
      · exact ((hfresh hcheck.symm).2 (List.mem_of_getElem? hj)).elim
      · exact (h.probing j hj).2 k hk
  · exact h.bounded

/-- A probe that was recorded is the last one, and all others are a gap ago. -/
theorem Inv.record (h : s.Inv R) {i : Nat} (hi : s.candidates[i]? = some .probing)
    (hread : R.parseDt (R.toRfc3339 s.now) = some s.now) : Inv R (s.record R i true) := by
  have hlast : (s.record R i true).row.lastProbe R = some s.now := hread
  have hold : ∀ t, s.Past R t → t + seconds halfOpenProbeMinGapSecs ≤ s.now := by
    rintro t ⟨-, last, hlastProbe, hle⟩
    exact (Int.add_le_add_right hle _).trans ((h.probing i hi).1 last hlastProbe)
  have hpast : ∀ t, s.Past R t → (s.record R i true).Past R t :=
    fun t ht => ⟨ht.1, s.now, hlast, ht.1⟩
  constructor
  · intro j t hj
    rcases TaskList.of_set hj with ⟨-, heq⟩ | ⟨-, hj⟩
    · obtain rfl := Candidate.recorded.inj heq
      exact ⟨le_rfl, s.now, hlast, le_rfl⟩
    · exact hpast t (h.recorded j t hj)
  · intro j k t t' hne hj hk
    rcases TaskList.of_set hj with ⟨rfl, heq⟩ | ⟨-, hj⟩
    · obtain rfl := Candidate.recorded.inj heq
      have hk := ((TaskList.of_set hk).resolve_left fun hk => hne hk.1).2
      exact .inr (hold t' (h.recorded k t' hk))
    · rcases TaskList.of_set hk with ⟨rfl, heq⟩ | ⟨-, hk⟩
      · obtain rfl := Candidate.recorded.inj heq
        exact .inl (hold t (h.recorded j t hj))
      · exact h.apart j k t t' hne hj hk
  · intro d hd
    obtain ⟨t, ht, htpast, hapart⟩ := h.dispatched d hd
    refine ⟨t, ht, hpast t htpast, fun j t' hj => ?_⟩
    rcases TaskList.of_set hj with ⟨-, heq⟩ | ⟨-, hj⟩
    · obtain rfl := Candidate.recorded.inj heq
      exact .inl (hold t htpast)
    · exact hapart j t' hj
  · intro j hj
    obtain ⟨hne, hj⟩ := TaskList.of_set_of_ne hj Candidate.noConfusion
    exact (hne ((h.probing i hi).2 j hj).symm).elim
  · exact h.bounded

/-- A probe that is dispatched after the earlier ones, and no more quickly. -/
theorem Inv.dispatch (h : s.Inv R) {i : Nat} {t : Int} (hi : s.candidates[i]? = some (.recorded t))
    (hordered : ∀ d ∈ s.dispatches, ∀ t' ∈ d.recorded,
      t' ≤ t ∧ (t < d.sent + seconds halfOpenProbeMinGapSecs → d.sent - t' ≤ s.now - t)) :
    Inv R (s.dispatch i t) := by
  have hrecorded : ∀ (j : Nat) (t : Int), (s.candidates.set i .gone)[j]? = some (.recorded t) →
      i ≠ j ∧ s.candidates[j]? = some (.recorded t) :=
    fun j t hj => TaskList.of_set_of_ne hj Candidate.noConfusion
  have hpast := h.recorded i t hi
  have hbounded : ∀ d ∈ s.dispatches, d.sent + seconds halfOpenProbeMinGapSecs ≤ s.now := by
    intro d hd
    obtain ⟨t', ht', -, hapart⟩ := h.dispatched d hd
    obtain ⟨hle, hdelay⟩ := hordered d hd t' ht'
    have hgap := gap_pos
    have hnow := hpast.1
    rcases hapart i t hi with hbefore | hafter
    · by_cases hsoon : t < d.sent + seconds halfOpenProbeMinGapSecs
      · have := hdelay hsoon
        omega
      · omega
    · omega
  have hdispatched : ∀ d ∈ s.dispatched t, d = ⟨some t, s.now⟩ ∨ d ∈ s.dispatches := by
    intro d hd
    rw [Traffic.dispatched] at hd
    split at hd
    · exact List.mem_cons.mp hd
    · exact Or.inr hd
  constructor
  · exact fun j t' hj => h.recorded j t' (hrecorded j t' hj).2
  · exact fun j k t' t'' hne hj hk =>
      h.apart j k t' t'' hne (hrecorded j t' hj).2 (hrecorded k t'' hk).2
  · intro d hd
    rcases hdispatched d hd with rfl | hd
    · refine ⟨t, rfl, hpast, fun j t' hj => ?_⟩
      obtain ⟨hne, hj⟩ := hrecorded j t' hj
      exact h.apart i j t t' hne hi hj
    · obtain ⟨t', ht', hpast', hapart⟩ := h.dispatched d hd
      exact ⟨t', ht', hpast', fun j t'' hj => hapart j t'' (hrecorded j t'' hj).2⟩
  · intro j hj
    have hold := (TaskList.of_set_of_ne hj Candidate.noConfusion).2
    refine ⟨(h.probing j hold).1, fun k hk => ?_⟩
    exact (h.probing j hold).2 k (TaskList.of_set_of_ne hk Candidate.noConfusion).2
  · rw [Bounded, Traffic.dispatch, Traffic.dispatched]
    split
    · exact List.pairwise_cons.mpr ⟨hbounded, h.bounded⟩
    · exact h.bounded

/-- An orderly step keeps the invariant. -/
theorem Inv.step (h : s.Inv R) {a : TrafficAction} (ho : s.Orderly R a)
    (hstep : s.step R a = some s') : s'.Inv R := by
  cases a with
  | wait d =>
    cases hstep
    exact h.of_candidates rfl (by simp) (.refl _) (fun _ _ hi => hi) fun _ hi => hi
  | plan =>
    cases hstep
    refine h.of_candidates rfl le_rfl (.refl _) (fun i t hi => ?_) fun i hi => ?_
    · exact TaskList.of_start_of_ne hi Candidate.noConfusion
    · exact TaskList.of_start_of_ne hi Candidate.noConfusion
  | check i =>
    rw [Traffic.step] at hstep
    split at hstep
    · rename_i account hi
      cases hstep
      rw [Orderly, hi] at ho
      exact h.check ho
    · cases hstep
  | skip i =>
    cases hstep
    refine h.of_candidates rfl le_rfl (.refl _) (fun j t hj => ?_) fun j hj => ?_
    · exact (TaskList.of_set_of_ne hj Candidate.noConfusion).2
    · exact (TaskList.of_set_of_ne hj Candidate.noConfusion).2
  | record i succeeds =>
    rw [Traffic.step] at hstep
    split at hstep
    · rename_i hi
      cases hstep
      obtain ⟨rfl, hread⟩ := ho
      exact h.record hi hread
    · cases hstep
  | dispatch i =>
    rw [Traffic.step] at hstep
    split at hstep
    · rename_i hi
      cases hstep
      have hclosed : s.dispatched none = s.dispatches := by
        rw [Orderly, hi] at ho
        rw [Traffic.dispatched, show s.row.circuitOpenUntil = none from ho]
        rfl
      rw [Traffic.dispatch, hclosed]
      refine h.of_candidates rfl le_rfl (.refl _) (fun j t hj => ?_) fun j hj => ?_
      · exact (TaskList.of_set_of_ne hj Candidate.noConfusion).2
      · exact (TaskList.of_set_of_ne hj Candidate.noConfusion).2
    · rename_i t hi
      cases hstep
      rw [Orderly, hi] at ho
      exact h.dispatch hi ho
    · cases hstep
  | validated =>
    cases hstep
    exact h.of_candidates rfl le_rfl (List.nil_sublist _) (fun _ _ hi => hi) fun _ hi => hi
  | failed statement =>
    rw [Traffic.step] at hstep
    split at hstep
    · rename_i hfailure
      cases hstep
      exact h.of_candidates (Statement.lastProbe_exec hfailure s.row) le_rfl (.refl _)
        (fun _ _ hi => hi) fun _ hi => hi
    · cases hstep
  | readTables =>
    cases hstep
    exact h.of_candidates rfl le_rfl (.refl _) (fun _ _ hi => hi) fun _ hi => hi
  | publish i =>
    obtain ⟨row, -, rfl⟩ := Option.map_eq_some_iff.mp hstep
    exact h.of_candidates rfl le_rfl (.refl _) (fun _ _ hi => hi) fun _ hi => hi

theorem inv_start (row : AccountRow) (now : Int) : (traffic R row now).start.Inv R where
  recorded i t hi := by simp [traffic] at hi
  apart i j t t' _ hi := by simp [traffic] at hi
  dispatched d hd := (List.not_mem_nil hd).elim
  probing i hi := by simp [traffic] at hi
  bounded := List.Pairwise.nil

end Traffic
end

/-- In every orderly run the dispatches to an account with an open circuit are a gap apart. -/
theorem half_open_dispatches_bounded (R : Rfc3339) (row : AccountRow) (now : Int)
    (as : List TrafficAction) (s : Traffic) (hrun : (traffic R row now).run as = some s)
    (horderly : (traffic R row now).Meets (fun _ => Traffic.Orderly R) as) : s.Bounded := by
  have hinv : s.Inv R := (traffic R row now).run_induction_of_meets (I := fun _ s => s.Inv R)
    (Traffic.inv_start row now) (fun _ _ _ _ hinv ho hstep => hinv.step ho hstep) as s
    horderly hrun
  exact hinv.bounded

/-- An account with a circuit that was open for 30 seconds. -/
def elapsedCircuit : AccountRow := { circuitOpenUntil := some "1970-01-01T00:00:30+00:00" }

/-- The times of a half-open account and of two probes. -/
def halfOpenTimes : Rfc3339 where
  toRfc3339 t :=
    if t = seconds 30 then "1970-01-01T00:00:30+00:00"
    else if t = seconds 3600 then "1970-01-01T01:00:00+00:00"
    else "1970-01-01T01:00:05+00:00"
  parseDt s :=
    if s = "1970-01-01T00:00:30+00:00" then some (seconds 30)
    else if s = "1970-01-01T01:00:00+00:00" then some (seconds 3600)
    else if s = "1970-01-01T01:00:05+00:00" then some (seconds 3605)
    else none

/-- A probe, and another one that was planned after a reload; each is sent some time after it was
recorded. -/
def twoProbes : List TrafficAction :=
  [.plan, .check 0, .record 0 true, .wait 1000000000, .dispatch 0, .readTables, .publish 0,
    .wait 4000000000, .plan, .check 1, .record 1 true, .wait 2000000000, .dispatch 1]

/-- Two requests probe the account one after the other. -/
theorem half_open_dispatches_bounded_twice :
    ∃ s, (traffic halfOpenTimes elapsedCircuit (seconds 3600)).run twoProbes = some s ∧
      s.dispatches.map Dispatch.sent = [seconds 3607, seconds 3601] ∧ s.Bounded := by
  have hmeets : (traffic halfOpenTimes elapsedCircuit (seconds 3600)).Meets
      (fun _ => Traffic.Orderly halfOpenTimes) twoProbes :=
    Machine.Along.meets _ (by decide +kernel)
  exact ⟨_, rfl, rfl,
    half_open_dispatches_bounded halfOpenTimes elapsedCircuit (seconds 3600) _ _ rfl
    hmeets⟩

/-- Two requests that planned from one snapshot both probe the account. -/
theorem half_open_dispatches_not_bounded :
    ∃ s, (traffic halfOpenTimes elapsedCircuit (seconds 3600)).run
        [.plan, .plan, .check 0, .check 1, .record 0 true, .record 1 true, .dispatch 0,
          .dispatch 1] = some s ∧
      s.dispatches.map Dispatch.sent = [seconds 3600, seconds 3600] ∧ ¬ s.Bounded :=
  ⟨_, rfl, rfl, by decide⟩

end Kinetix.Account
