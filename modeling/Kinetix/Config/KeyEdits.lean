import Kinetix.Library.Machine
import Kinetix.VirtualKeys.Row
import Mathlib.Data.Rat.Defs
import Mathlib.Tactic

/-!
# Concurrent edits of a key

Two calls of `update_key` on one key, each statement a step of its own. A call reads the row and
writes all of its columns back, so both updates are kept exactly if no column that a call writes
back was changed since it read the row.

## Implementation notes

The row exists. What the database keeps besides it, the audit log, is left out, but not the
statements that write it.
-/

namespace Kinetix.Config
open StateMachine VirtualKeys

/-- A row of the table of keys. -/
structure KeyRow extends VirtualKeyRow where
  id : String
  keyHash : String
  name : String
  owner : String
  tag : String
  rpmLimit : Option Int64
  tpmLimit : Option Int64
  dailyBudget : Option ℚ
  monthlyBudget : Option ℚ
  bodyLogging : Int64
  createdAt : String
  revokedAt : Option String
  deriving DecidableEq

structure KeyBody extends UpdateKeyBody where
  status : Option String := none
  name : Option String := none
  owner : Option String := none
  tag : Option String := none
  rpmLimit : Option Int64 := none
  tpmLimit : Option Int64 := none
  dailyBudget : Option ℚ := none
  monthlyBudget : Option ℚ := none
  bodyLogging : Option Bool := none

/-- `db::set_virtual_key_status`. -/
def KeyRow.setStatus (k : KeyRow) (status now : String) : KeyRow :=
  { k with
    toVirtualKeyRow := setVirtualKeyStatus k.toVirtualKeyRow status
    revokedAt := (if status = "revoked" then some now else none).or k.revokedAt }

/-- The `UPDATE` of `update_key`, with the row that it read before. -/
def KeyRow.update (J : SerdeStrings) (k existing : KeyRow) (body : KeyBody) : KeyRow :=
  { k with
    toVirtualKeyRow :=
      updateKey J k.toVirtualKeyRow existing.toVirtualKeyRow body.toUpdateKeyBody
    name := body.name.getD existing.name
    owner := body.owner.getD existing.owner
    tag := body.tag.getD existing.tag
    rpmLimit := body.rpmLimit.or existing.rpmLimit
    tpmLimit := body.tpmLimit.or existing.tpmLimit
    dailyBudget := body.dailyBudget.or existing.dailyBudget
    monthlyBudget := body.monthlyBudget.or existing.monthlyBudget
    bodyLogging := (body.bodyLogging.map fun b => if b then 1 else 0).getD existing.bodyLogging }

/-! ## Columns -/

/-- The columns that `update_key` writes back. -/
inductive Column where
  | name | owner | tag | allowedModels | allowedProviders | rpmLimit | tpmLimit | dailyBudget
  | monthlyBudget | expiresAt | bodyLogging | allowedIps

abbrev Column.Value : Column → Type
  | name | owner | tag | allowedModels | allowedProviders | allowedIps => String
  | rpmLimit | tpmLimit => Option Int64
  | dailyBudget | monthlyBudget => Option ℚ
  | expiresAt => Option String
  | bodyLogging => Int64

def KeyRow.column (k : KeyRow) : (c : Column) → c.Value
  | .name => k.name
  | .owner => k.owner
  | .tag => k.tag
  | .allowedModels => k.allowedModels
  | .allowedProviders => k.allowedProviders
  | .rpmLimit => k.rpmLimit
  | .tpmLimit => k.tpmLimit
  | .dailyBudget => k.dailyBudget
  | .monthlyBudget => k.monthlyBudget
  | .expiresAt => k.expiresAt
  | .bodyLogging => k.bodyLogging
  | .allowedIps => k.allowedIps

/-- What a body sets a column to, if it sets it. -/
def KeyBody.column (J : SerdeStrings) (b : KeyBody) : (c : Column) → Option c.Value
  | .name => b.name
  | .owner => b.owner
  | .tag => b.tag
  | .allowedModels => b.allowedModels.map J.toString
  | .allowedProviders => b.allowedProviders.map J.toString
  | .rpmLimit => b.rpmLimit.map some
  | .tpmLimit => b.tpmLimit.map some
  | .dailyBudget => b.dailyBudget.map some
  | .monthlyBudget => b.monthlyBudget.map some
  | .expiresAt => b.expiresAt.map some
  | .bodyLogging => b.bodyLogging.map fun b => if b then 1 else 0
  | .allowedIps => b.allowedIps.map J.toString

theorem getD_map_some {α : Type} (o existing : Option α) :
    (o.map some).getD existing = o.or existing := by
  cases o <;> rfl

/-- Each column is the one of the body, or the one that was read. -/
theorem KeyRow.column_update {J : SerdeStrings} {k existing : KeyRow} {b : KeyBody} (c : Column) :
    (k.update J existing b).column c = (b.column J c).getD (existing.column c) := by
  cases c with
  | rpmLimit | tpmLimit | dailyBudget | monthlyBudget | expiresAt => exact (getD_map_some _ _).symm
  | name | owner | tag | allowedModels | allowedProviders | bodyLogging | allowedIps => rfl

theorem KeyRow.column_setStatus {k : KeyRow} {status now : String} (c : Column) :
    (k.setStatus status now).column c = k.column c := by
  cases c <;> rfl

/-! ## Calls -/

/-- The next statement of a call. -/
inductive KeyCall where
  | setStatus
  | statusAudit
  | list
  | update (existing : KeyRow)
  | audit
  | returned (ok : Bool)
  deriving DecidableEq

/-- The row, and the edits under way. -/
structure Editing where
  row : KeyRow
  calls : Bool → KeyCall

/-- A call makes its next statement, which may fail. -/
structure EditingAction where
  who : Bool
  fails : Bool
  now : String

/-- A call goes on. -/
def Editing.goto (s : Editing) (who : Bool) (call : KeyCall) : Editing :=
  { s with calls := Function.update s.calls who call }

def Editing.step (J : SerdeStrings) (bodies : Bool → KeyBody) (s : Editing) (a : EditingAction) :
    Option Editing :=
  match s.calls a.who with
  | .setStatus => some <|
      if a.fails then s.goto a.who (.returned false)
      else { s with row := s.row.setStatus ((bodies a.who).status.getD "") a.now }.goto a.who
        .statusAudit
  | .statusAudit => some (s.goto a.who .list)
  | .list => some <| s.goto a.who (if a.fails then .returned false else .update s.row)
  | .update existing => some <|
      if a.fails then s.goto a.who (.returned false)
      else { s with row := s.row.update J existing (bodies a.who) }.goto a.who .audit
  | .audit => some (s.goto a.who (.returned true))
  | .returned _ => none

/-- The first statement of a call with this body. -/
def KeyBody.firstCall (b : KeyBody) : KeyCall := if b.status.isSome then .setStatus else .list

/-- Two calls of `update_key`, before their first statements. -/
def updateKeys (J : SerdeStrings) (row : KeyRow) (bodies : Bool → KeyBody) :
    Machine Editing EditingAction where
  start := ⟨row, fun who => (bodies who).firstCall⟩
  step := Editing.step J bodies

/-- The bodies set different columns. -/
structure DisjointBodies (J : SerdeStrings) (bodies : Bool → KeyBody) : Prop where
  status : (bodies true).status = none ∨ (bodies false).status = none
  column : ∀ c, (bodies true).column J c = none ∨ (bodies false).column J c = none

/-- The row has what a body sets. -/
structure KeyRow.Carries (J : SerdeStrings) (k : KeyRow) (b : KeyBody) : Prop where
  status : ∀ status, b.status = some status → k.status = status
  column : ∀ c v, b.column J c = some v → k.column c = v

/-- The columns that an `UPDATE` writes back are as they were read. -/
def Editing.Unchanged (J : SerdeStrings) (bodies : Bool → KeyBody) (s : Editing)
    (a : EditingAction) : Prop :=
  ∀ existing, s.calls a.who = .update existing → a.fails = false →
    ∀ c, (bodies a.who).column J c = none → existing.column c = s.row.column c

/-! ## What is kept -/

/-- The call has made its `UPDATE`. -/
def KeyCall.written : KeyCall → Bool
  | .audit | .returned true => true
  | .setStatus | .statusAudit | .list | .update _ | .returned false => false

/-- The call has written the status, if it sets one. -/
def KeyCall.pastStatus : KeyCall → Bool
  | .setStatus | .returned false => false
  | .statusAudit | .list | .update _ | .audit | .returned true => true

section
variable {J : SerdeStrings} {bodies : Bool → KeyBody} {first : KeyRow} {s s' : Editing}
  {a : EditingAction}

/-- No call that has written sets the column. -/
def Untouched (J : SerdeStrings) (bodies : Bool → KeyBody) (s : Editing) (c : Column) : Prop :=
  ∀ who, (s.calls who).written = true → (bodies who).column J c = none

/-- The row has the columns of each call that has written. -/
def Editing.Kept (J : SerdeStrings) (bodies : Bool → KeyBody) (s : Editing) : Prop :=
  ∀ who, (s.calls who).written = true → ∀ c v, (bodies who).column J c = some v → s.row.column c = v

/-- A column that no call has set is the first one, in the row and in what was read of it, and as
long as one of the calls has not written, the row has the columns of the other. -/
structure Editing.Inv (J : SerdeStrings) (bodies : Bool → KeyBody) (first : KeyRow) (s : Editing) :
    Prop where
  row : ∀ c, Untouched J bodies s c → s.row.column c = first.column c
  read : ∀ who existing, s.calls who = .update existing → ∀ c, Untouched J bodies s c →
    existing.column c = first.column c
  alone : ∀ who, (s.calls !who).written = false → (s.calls who).written = true →
    ∀ c v, (bodies who).column J c = some v → s.row.column c = v

theorem KeyBody.written_firstCall (b : KeyBody) : b.firstCall.written = false := by
  rw [firstCall]
  split <;> rfl

theorem KeyBody.firstCall_ne_update (b : KeyBody) (existing : KeyRow) :
    b.firstCall ≠ .update existing := by
  rw [firstCall]
  split <;> exact KeyCall.noConfusion

theorem Editing.inv_start : (updateKeys J first bodies).start.Inv J bodies first where
  row _ _ := rfl
  read who existing h := absurd h ((bodies who).firstCall_ne_update existing)
  alone who _ h := absurd ((bodies who).written_firstCall.symm.trans h) Bool.false_ne_true

variable {call : KeyCall}

theorem calls_goto_of_ne {who : Bool} (h : who ≠ a.who) :
    (s.goto a.who call).calls who = s.calls who :=
  Function.update_of_ne h _ _

theorem calls_goto_self : (s.goto a.who call).calls a.who = call :=
  Function.update_self _ _ _

theorem written_goto (h : call.written = (s.calls a.who).written) (who : Bool) :
    ((s.goto a.who call).calls who).written = (s.calls who).written := by
  by_cases hwho : who = a.who
  · rw [hwho, calls_goto_self, h]
  · rw [calls_goto_of_ne hwho]

/-- A step that changes no column, and by which no call comes to have written. -/
theorem Editing.Inv.goto {k : KeyRow} (hI : s.Inv J bodies first)
    (hcolumn : ∀ c, k.column c = s.row.column c)
    (hwritten : call.written = (s.calls a.who).written)
    (hread : ∀ existing, call = .update existing → existing = s.row) :
    ({ s with row := k }.goto a.who call).Inv J bodies first := by
  have huntouched : ∀ c, Untouched J bodies ({ s with row := k }.goto a.who call) c →
      Untouched J bodies s c := by
    intro c hc who hwho
    exact hc who ((written_goto (s := { s with row := k }) hwritten who).trans hwho)
  constructor
  · intro c hc
    exact (hcolumn c).trans (hI.row c (huntouched c hc))
  · intro who existing hcall c hc
    by_cases hwho : who = a.who
    · rw [hwho, calls_goto_self] at hcall
      rw [hread existing hcall]
      exact hI.row c (huntouched c hc)
    · rw [calls_goto_of_ne hwho] at hcall
      exact hI.read who existing hcall c (huntouched c hc)
  · intro who hother hwho c v hv
    rw [written_goto (s := { s with row := k }) hwritten] at hother hwho
    exact (hcolumn c).trans (hI.alone who hother hwho c v hv)

theorem kept_goto {k : KeyRow} (hcolumn : ∀ c, k.column c = s.row.column c)
    (hwritten : call.written = (s.calls a.who).written) :
    ({ s with row := k }.goto a.who call).Kept J bodies ↔ s.Kept J bodies := by
  have hk : ∀ c, ({ s with row := k }.goto a.who call).row.column c = s.row.column c := hcolumn
  simp only [Editing.Kept, hk, written_goto (s := { s with row := k }) hwritten]

/-- The state after an `UPDATE`. -/
def Editing.updated (J : SerdeStrings) (bodies : Bool → KeyBody) (s : Editing) (who : Bool)
    (existing : KeyRow) : Editing :=
  { s with row := s.row.update J existing (bodies who) }.goto who .audit

section Update
variable {existing : KeyRow} {who : Bool}

theorem column_updated (c : Column) : (s.updated J bodies who existing).row.column c =
    ((bodies who).column J c).getD (existing.column c) :=
  KeyRow.column_update c

theorem calls_updated_self : (s.updated J bodies who existing).calls who = .audit :=
  Function.update_self _ _ _

theorem calls_updated_other : (s.updated J bodies who existing).calls (!who) = s.calls !who :=
  Function.update_of_ne (Bool.not_ne_self who) _ _

/-- Before its `UPDATE` a call has not written. -/
theorem eq_not_of_written (hcall : s.calls who = .update existing) {w : Bool}
    (h : (s.calls w).written = true) : w = !who := by
  apply Bool.eq_not_of_ne
  rintro rfl
  rw [hcall] at h
  cases h

theorem Editing.Inv.kept (hI : s.Inv J bodies first) (hcall : s.calls who = .update existing) :
    s.Kept J bodies := by
  intro w hw c v hv
  apply hI.alone w _ hw c v hv
  rw [eq_not_of_written hcall hw, Bool.not_not, hcall]
  rfl

/-- The `UPDATE` of a call keeps what the other one wrote exactly if it writes it back. -/
theorem kept_updated_iff (hdisjoint : DisjointBodies J bodies) (hI : s.Inv J bodies first)
    (hcall : s.calls who = .update existing) :
    (s.updated J bodies who existing).Kept J bodies ↔
      ∀ c, (bodies who).column J c = none → existing.column c = s.row.column c := by
  constructor
  · intro h c hc
    by_cases huntouched : Untouched J bodies s c
    · rw [hI.read who existing hcall c huntouched, hI.row c huntouched]
    · obtain ⟨w, hw⟩ := not_forall.mp huntouched
      obtain ⟨hwritten, hset⟩ := Classical.not_imp.mp hw
      obtain ⟨v, hv⟩ := Option.ne_none_iff_exists'.mp hset
      have hother := eq_not_of_written hcall hwritten
      have hkept : (s.updated J bodies who existing).row.column c = v := by
        apply h w _ c v hv
        rwa [hother, calls_updated_other, ← hother]
      rw [column_updated, hc] at hkept
      exact hkept.trans (hI.kept hcall w hwritten c v hv).symm
  · intro h w hw c v hv
    rw [column_updated]
    by_cases hwho : w = who
    · rw [← hwho, hv]
      rfl
    · have hother := Bool.eq_not_of_ne hwho
      rw [hother, calls_updated_other, ← hother] at hw
      have hc : (bodies who).column J c = none := by
        have hset : (bodies !who).column J c ≠ none := by
          rw [← hother, hv]
          exact Option.some_ne_none v
        cases who with
        | true => exact (hdisjoint.column c).resolve_right hset
        | false => exact (hdisjoint.column c).resolve_left hset
      rw [hc, Option.getD_none, h c hc]
      exact hI.kept hcall w hw c v hv

theorem Editing.Inv.updated (hI : s.Inv J bodies first) (hcall : s.calls who = .update existing) :
    (s.updated J bodies who existing).Inv J bodies first := by
  have hself : ((s.updated J bodies who existing).calls who).written = true := by
    rw [calls_updated_self]
    rfl
  have huntouched : ∀ c, Untouched J bodies (s.updated J bodies who existing) c →
      (bodies who).column J c = none ∧ Untouched J bodies s c := by
    intro c hc
    refine ⟨hc who hself, fun w hw => hc w ?_⟩
    have hother := eq_not_of_written hcall hw
    rwa [hother, calls_updated_other, ← hother]
  constructor
  · intro c hc
    obtain ⟨hnone, hbefore⟩ := huntouched c hc
    rw [column_updated, hnone]
    exact hI.read who existing hcall c hbefore
  · intro w e hw c hc
    have hne : w ≠ who := by
      rintro rfl
      rw [calls_updated_self] at hw
      cases hw
    rw [Bool.eq_not_of_ne hne, calls_updated_other] at hw
    exact hI.read (!who) e hw c (huntouched c hc).2
  · intro w hother hw c v hv
    have hwho : w = who := by
      by_contra hne
      rw [Bool.eq_not_of_ne hne, Bool.not_not, hself] at hother
      cases hother
    rw [column_updated, ← hwho, hv]
    rfl

end Update

variable {as : List EditingAction} {call : KeyCall}

theorem unchanged_of_ne (hcall : s.calls a.who = call) (hne : ∀ existing, call ≠ .update existing) :
    s.Unchanged J bodies a := by
  intro existing hupdate
  exact absurd (hcall.symm.trans hupdate) (hne existing)

theorem unchanged_of_fails (h : a.fails = true) : s.Unchanged J bodies a := by
  intro existing _ hfails
  rw [h] at hfails
  cases hfails

theorem step_goto {k : KeyRow} (hI : s.Inv J bodies first)
    (hcolumn : ∀ c, k.column c = s.row.column c)
    (hwritten : call.written = (s.calls a.who).written)
    (hread : ∀ existing, call = .update existing → existing = s.row)
    (hunchanged : s.Unchanged J bodies a) :
    ({ s with row := k }.goto a.who call).Inv J bodies first ∧
      (({ s with row := k }.goto a.who call).Kept J bodies ↔
        s.Kept J bodies ∧ s.Unchanged J bodies a) :=
  ⟨hI.goto hcolumn hwritten hread,
    (kept_goto hcolumn hwritten).trans (and_iff_left hunchanged).symm⟩

/-- Every step keeps the invariant, and what was written unless it is an `UPDATE` that writes back
what has changed. -/
theorem step_editing (hdisjoint : DisjointBodies J bodies) (hI : s.Inv J bodies first)
    (h : s.step J bodies a = some s') : s'.Inv J bodies first ∧
      (s'.Kept J bodies ↔ s.Kept J bodies ∧ s.Unchanged J bodies a) := by
  rw [Editing.step] at h
  cases hcall : s.calls a.who with
  | setStatus =>
    have hunchanged : s.Unchanged J bodies a :=
      unchanged_of_ne hcall fun _ => KeyCall.noConfusion
    rw [hcall] at h
    obtain rfl := Option.some.inj h
    split
    · exact step_goto hI (fun _ => rfl) (by rw [hcall]; rfl) (fun _ h => by cases h) hunchanged
    · exact step_goto hI KeyRow.column_setStatus (by rw [hcall]; rfl) (fun _ h => by cases h)
        hunchanged
  | statusAudit | audit =>
    have hunchanged : s.Unchanged J bodies a :=
      unchanged_of_ne hcall fun _ => KeyCall.noConfusion
    rw [hcall] at h
    obtain rfl := Option.some.inj h
    exact step_goto hI (fun _ => rfl) (by rw [hcall]; rfl) (fun _ h => by cases h) hunchanged
  | list =>
    have hunchanged : s.Unchanged J bodies a :=
      unchanged_of_ne hcall fun _ => KeyCall.noConfusion
    rw [hcall] at h
    obtain rfl := Option.some.inj h
    split
    · exact step_goto hI (fun _ => rfl) (by rw [hcall]; rfl) (fun _ h => by cases h) hunchanged
    · exact step_goto hI (fun _ => rfl) (by rw [hcall]; rfl)
        (fun _ h => (KeyCall.update.inj h).symm) hunchanged
  | update existing =>
    rw [hcall] at h
    obtain rfl := Option.some.inj h
    cases hfails : a.fails with
    | true =>
      exact step_goto hI (fun _ => rfl) (by rw [hcall]; rfl) (fun _ h => by cases h)
        (unchanged_of_fails hfails)
    | false =>
      refine ⟨hI.updated hcall, (kept_updated_iff hdisjoint hI hcall).trans ?_⟩
      rw [and_iff_right (hI.kept hcall)]
      constructor
      · intro hc e he _
        obtain rfl := KeyCall.update.inj (hcall.symm.trans he)
        exact hc
      · exact fun hc => hc existing hcall hfails
  | returned ok =>
    rw [hcall] at h
    cases h

/-- A run keeps what was written exactly if no `UPDATE` writes back what has changed. -/
theorem meets_iff_kept (hdisjoint : DisjointBodies J bodies)
    (h : (updateKeys J first bodies).run as = some s) : s.Inv J bodies first ∧
      ((updateKeys J first bodies).Meets (fun _ => Editing.Unchanged J bodies) as ↔
        s.Kept J bodies) := by
  refine (updateKeys J first bodies).run_induction (I := fun as s => s.Inv J bodies first ∧
    ((updateKeys J first bodies).Meets (fun _ => Editing.Unchanged J bodies) as ↔
      s.Kept J bodies)) ⟨Editing.inv_start, iff_of_true ?_ ?_⟩ ?_ as s h
  · intro pre a post s he
    simp at he
  · intro who hwho
    exact absurd ((bodies who).written_firstCall.symm.trans hwho) Bool.false_ne_true
  · rintro as s a s' hrun ⟨hI, hiff⟩ hstep
    obtain ⟨hI', hkept⟩ := step_editing hdisjoint hI hstep
    refine ⟨hI', ?_⟩
    rw [hkept, ← hiff]
    constructor
    · intro hmeets
      exact ⟨hmeets.of_append, hmeets.last _ hrun⟩
    · rintro ⟨hmeets, hlast⟩
      apply (updateKeys J first bodies).meets_snoc hmeets
      intro t ht
      obtain rfl := Option.some.inj (hrun.symm.trans ht)
      exact hlast

/-! ## The status -/

/-- A call that sets a status has written it once it is past it. -/
structure Editing.StatusInv (bodies : Bool → KeyBody) (s : Editing) : Prop where
  pending : ∀ who, s.calls who = .setStatus → (bodies who).status.isSome = true
  status : ∀ who, (s.calls who).pastStatus = true → ∀ status, (bodies who).status = some status →
    s.row.status = status

theorem Editing.StatusInv.goto {k : KeyRow} (hI : s.StatusInv bodies)
    (hstatus : k.status = s.row.status) (hne : call ≠ .setStatus)
    (hpast : call.pastStatus = true → (s.calls a.who).pastStatus = true) :
    ({ s with row := k }.goto a.who call).StatusInv bodies := by
  constructor
  · intro who hwho
    by_cases hself : who = a.who
    · rw [hself, calls_goto_self] at hwho
      exact absurd hwho hne
    · rw [calls_goto_of_ne hself] at hwho
      exact hI.pending who hwho
  · intro who hwho status hset
    apply hstatus.trans
    by_cases hself : who = a.who
    · rw [hself, calls_goto_self] at hwho
      exact hI.status a.who (hpast hwho) status (hself ▸ hset)
    · rw [calls_goto_of_ne hself] at hwho
      exact hI.status who hwho status hset

/-- The status of the one call that sets it. -/
theorem Editing.StatusInv.setStatus (hdisjoint : DisjointBodies J bodies) (hI : s.StatusInv bodies)
    (hcall : s.calls a.who = .setStatus) :
    ({ s with row := s.row.setStatus ((bodies a.who).status.getD "") a.now }.goto a.who
      .statusAudit).StatusInv bodies := by
  obtain ⟨status, hstatus⟩ := Option.isSome_iff_exists.mp (hI.pending a.who hcall)
  have hother : ∀ who, who ≠ a.who → (bodies who).status = none := by
    intro who hne
    have hset : (bodies a.who).status ≠ none := hstatus ▸ Option.some_ne_none status
    rw [Bool.eq_not_of_ne hne]
    cases hwho : a.who with
    | true => exact hdisjoint.status.resolve_left (hwho ▸ hset)
    | false => exact hdisjoint.status.resolve_right (hwho ▸ hset)
  constructor
  · intro who hwho
    by_cases hself : who = a.who
    · rw [hself, calls_goto_self] at hwho
      cases hwho
    · rw [calls_goto_of_ne hself] at hwho
      exact hI.pending who hwho
  · intro who _ status' hset
    by_cases hself : who = a.who
    · rw [hself] at hset
      change (bodies a.who).status.getD "" = status'
      rw [hset]
      rfl
    · rw [hother who hself] at hset
      cases hset

theorem status_step (hdisjoint : DisjointBodies J bodies) (hI : s.StatusInv bodies)
    (h : s.step J bodies a = some s') : s'.StatusInv bodies := by
  rw [Editing.step] at h
  cases hcall : s.calls a.who with
  | setStatus =>
    rw [hcall] at h
    obtain rfl := Option.some.inj h
    split
    · exact hI.goto rfl KeyCall.noConfusion fun h => by cases h
    · exact hI.setStatus hdisjoint hcall
  | statusAudit | audit =>
    rw [hcall] at h
    obtain rfl := Option.some.inj h
    exact hI.goto rfl KeyCall.noConfusion fun _ => by rw [hcall]; rfl
  | list | update existing =>
    rw [hcall] at h
    obtain rfl := Option.some.inj h
    split
    · exact hI.goto rfl KeyCall.noConfusion fun h => by cases h
    · exact hI.goto rfl KeyCall.noConfusion fun _ => by rw [hcall]; rfl
  | returned ok =>
    rw [hcall] at h
    cases h

theorem status_run (hdisjoint : DisjointBodies J bodies)
    (h : (updateKeys J first bodies).run as = some s) : s.StatusInv bodies := by
  apply (updateKeys J first bodies).invariant _ (fun _ _ _ hI => status_step hdisjoint hI) h
  constructor
  · intro who hwho
    change (bodies who).firstCall = .setStatus at hwho
    rw [KeyBody.firstCall] at hwho
    split at hwho
    · assumption
    · cases hwho
  · intro who hwho status hset
    change (bodies who).firstCall.pastStatus = true at hwho
    rw [KeyBody.firstCall, hset] at hwho
    cases hwho

/-- After two calls for different fields have returned, the row carries both updates exactly if each
`UPDATE` wrote back columns as they still were. -/
theorem updateKeys_carries_iff (hdisjoint : DisjointBodies J bodies)
    (h : (updateKeys J first bodies).run as = some s)
    (hreturned : ∀ who, s.calls who = .returned true) : (∀ who, s.row.Carries J (bodies who)) ↔
      (updateKeys J first bodies).Meets (fun _ => Editing.Unchanged J bodies) as := by
  rw [(meets_iff_kept hdisjoint h).2]
  constructor
  · intro hcarries who _
    exact (hcarries who).column
  · intro hkept who
    refine ⟨(status_run hdisjoint h).status who ?_, hkept who ?_⟩
    · rw [hreturned]
      rfl
    · rw [hreturned]
      rfl

end

end Kinetix.Config
