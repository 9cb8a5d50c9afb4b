import Kinetix.Account.Events

/-!
# The writers of an account, statement by statement

Requests and probes that are in flight write the health columns from what they read before. Here
each statement on the table is one step, and an administrator's statements come between them. A
disabled account stays disabled if no handler that is in flight when it is disabled, or begins
later, has another status left to write; the code does not see to that.

## Implementation notes

A task is what a handler still has to do. Run alone it does what the events of an account do. What
a handler read before it begins, its failure and its clock are its parameters.
-/

namespace Kinetix.Account
open Clock StateMachine Kinetix.Types

/-- The statements of the handlers on the `accounts` table. -/
inductive Statement where
  /-- `db::set_account_status`. -/
  | setStatus (status : AccountStatus) (cooldownUntil quotaResetAt : Option String)
  /-- The first statement of `db::record_account_failure`. -/
  | bumpFailures
  /-- The last statement of `db::record_account_failure`. -/
  | openCircuit (deadline : Int)
  /-- `db::reset_account_failures`. -/
  | resetFailures
  /-- `db::touch_probe_at`. -/
  | touchProbe (now : Int)

def Statement.exec (R : Rfc3339) (a : AccountRow) : Statement → AccountRow
  | .setStatus status cooldownUntil quotaResetAt =>
    a.setAccountStatus status cooldownUntil quotaResetAt
  | .bumpFailures => a.bumpFailures
  | .openCircuit deadline => a.openCircuit R deadline
  | .resetFailures => a.resetAccountFailures
  | .touchProbe now => a.touchProbeAt R now

/-- What a handler still has to do. -/
inductive Task where
  | done
  | exec (statement : Statement) (next : Task)
  /-- The `SELECT` of `db::record_account_failure`. -/
  | readFailures (next : Int → Task)
  /-- The `SELECT` of `db::accounts_for_provider`. -/
  | readAccount (next : AccountRow → Task)

namespace Task
variable (R : Rfc3339)

/-- One statement of a task: the row, and what is left of the task. -/
def advance (a : AccountRow) : Task → Option (AccountRow × Task)
  | .done => none
  | .exec statement next => some (statement.exec R a, next)
  | .readFailures next => some (a, next a.consecutiveFailures)
  | .readAccount next => some (a, next a)

/-- A task that nothing interrupts. -/
def runAlone (a : AccountRow) : Task → AccountRow
  | .done => a
  | .exec statement next => runAlone (statement.exec R a) next
  | .readFailures next => runAlone a (next a.consecutiveFailures)
  | .readAccount next => runAlone a (next a)

/-- A single statement, unless its time is out of range and the code panics. -/
def execOr (statement : Option Statement) (next : Task) : Task :=
  match statement with
  | some statement => .exec statement next
  | none => .done

def rateLimited (now : Int) (cooldownSecs : Nat) : Option Statement :=
  (addSeconds now cooldownSecs).map fun deadline =>
    .setStatus .cooldown (some (R.toRfc3339 deadline)) none

def exhausted (resetAt : Option Int) (defaultWindowSecs now : Int) : Option Statement :=
  (AccountRow.exhaustedUntil resetAt defaultWindowSecs now).map fun reset =>
    .setStatus .exhausted none (some (R.toRfc3339 reset))

/-- `db::record_account_failure`. -/
def recordFailure (now : Int) : Task :=
  .exec .bumpFailures (.readFailures fun n =>
    if circuitThreshold ≤ n then execOr ((addSeconds now circuitOpenSecs).map .openCircuit) .done
    else .done)

/-- `handle_key_failure`, for an account as the plan of the request has it. -/
def keyFailure (account : AccountRow) (failure : UpstreamFailure) (now later : Int) : Task :=
  match failure.kind with
  | .rateLimit =>
    execOr (rateLimited R now (AccountRow.rateLimitCooldown failure)) (recordFailure later)
  | .quotaExhausted =>
    execOr (exhausted R failure.quotaResetAt account.defaultQuotaWindow now) (recordFailure later)
  | .authError => .exec (.setStatus .disabled none none) (recordFailure later)
  | .serverError | .connectionError | .timeout | .targetError | .badRequest => .done

/-- What `run_plugin_health_probes` writes on the plugin's word. -/
def observeState (account : AccountRow) (obs : HealthObservation) (now : Int) : Task :=
  if obs.state = "healthy" then
    if account.status ≠ "healthy" then .exec (.setStatus .healthy none none) .done else .done
  else if obs.state = "degraded" then .exec (.setStatus .healthy none none) .done
  else if obs.state = "unavailable" then
    execOr ((unavailableUntil R obs now).map fun deadline => .setStatus .cooldown deadline none)
      .done
  else .done

/-- `run_plugin_health_probes` for one account: the account is read before the plugin is asked. -/
def healthProbe (F : ParseF64) (obs : HealthObservation) (now : Int) : Task :=
  .readAccount fun account =>
    if account.status = "disabled" then .done
    else match observePlugin R F obs with
      | some (true, resetAt) =>
        execOr (exhausted R (pluginQuotaResetAt resetAt obs.retryAfter now) 3600 now) .done
      | some (false, _) => observeState R account obs now
      | none => observeState R account obs now

end Task

/-- The task of what happens to an account. -/
def Event.task (R : Rfc3339) (F : ParseF64) (account : AccountRow) : Event → Task
  | .keyFailure failure now later => Task.keyFailure R account failure now later
  | .softQuota now => Task.execOr (Task.exhausted R none account.defaultQuotaWindow now) .done
  | .refreshFailed retryAfterSecs retryable now =>
    Task.execOr (Task.rateLimited R now (AccountRow.refreshCooldown retryAfterSecs retryable))
      .done
  | .credentialInvalid => .exec (.setStatus .disabled none none) .done
  | .probing now => .exec (.touchProbe now) .done
  | .validated => .exec .resetFailures .done
  | .healthProbe obs now => Task.healthProbe R F obs now

/-! ## Tasks alone -/

section
variable {R : Rfc3339} {F : ParseF64} {a : AccountRow}

theorem Task.runAlone_recordFailure (now : Int) :
    (Task.recordFailure now).runAlone R a = a.recordAccountFailure R now := by
  by_cases hn : circuitThreshold ≤ a.bumpFailures.consecutiveFailures
  · cases hdeadline : addSeconds now circuitOpenSecs with
    | none | some deadline =>
      simp [recordFailure, runAlone, Statement.exec, AccountRow.recordAccountFailure, hn,
        hdeadline, execOr]
  · simp [recordFailure, runAlone, Statement.exec, AccountRow.recordAccountFailure, hn]

theorem Task.runAlone_rateLimited (now : Int) (secs : Nat) (next : Task) :
    (execOr (rateLimited R now secs) next).runAlone R a =
      ((a.markRateLimited R now secs).map fun a => next.runAlone R a).getD a := by
  cases h : addSeconds now secs with
  | none => simp [rateLimited, AccountRow.markRateLimited, h, execOr, runAlone]
  | some deadline =>
    simp [rateLimited, AccountRow.markRateLimited, h, execOr, runAlone, Statement.exec]

theorem Task.runAlone_exhausted (resetAt : Option Int) (window now : Int) (next : Task) :
    (execOr (exhausted R resetAt window now) next).runAlone R a =
      ((a.markExhausted R resetAt window now).map fun a => next.runAlone R a).getD a := by
  cases h : AccountRow.exhaustedUntil resetAt window now with
  | none => simp [exhausted, AccountRow.markExhausted, h, execOr, runAlone]
  | some reset => simp [exhausted, AccountRow.markExhausted, h, execOr, runAlone, Statement.exec]

theorem Task.runAlone_observeState (obs : HealthObservation) (now : Int) :
    (observeState R a obs now).runAlone R a = a.observeState R obs now := by
  simp only [observeState, AccountRow.observeState]
  by_cases hhealthy : obs.state = "healthy"
  · rw [if_pos hhealthy, if_pos hhealthy]
    by_cases hstatus : a.status ≠ "healthy"
    · rw [if_pos hstatus, if_pos hstatus]
      rfl
    · rw [if_neg hstatus, if_neg hstatus]
      rfl
  · rw [if_neg hhealthy, if_neg hhealthy]
    by_cases hdegraded : obs.state = "degraded"
    · rw [if_pos hdegraded, if_pos hdegraded]
      rfl
    · rw [if_neg hdegraded, if_neg hdegraded]
      by_cases hunavailable : obs.state = "unavailable"
      · rw [if_pos hunavailable, if_pos hunavailable]
        cases unavailableUntil R obs now with
        | none | some deadline => rfl
      · rw [if_neg hunavailable, if_neg hunavailable]
        rfl

theorem Task.runAlone_healthProbe (obs : HealthObservation) (now : Int) :
    (healthProbe R F obs now).runAlone R a = a.healthProbe R F obs now := by
  simp only [healthProbe, runAlone, AccountRow.healthProbe]
  by_cases hdisabled : a.status = "disabled"
  · rw [if_pos hdisabled, if_pos hdisabled]
    rfl
  · rw [if_neg hdisabled, if_neg hdisabled]
    cases observePlugin R F obs with
    | none => exact Task.runAlone_observeState obs now
    | some observed =>
      obtain ⟨out, resetAt⟩ := observed
      cases out with
      | true =>
        simp only [runAlone_exhausted, runAlone]
        cases a.markExhausted R (pluginQuotaResetAt resetAt obs.retryAfter now) 3600 now <;> rfl
      | false => exact Task.runAlone_observeState obs now

/-- Alone, the task of an event does what the event does. -/
theorem Event.runAlone_task (e : Event) : (e.task R F a).runAlone R a = a.handle R F e := by
  cases e with
  | keyFailure failure now later =>
    simp only [task, Task.keyFailure, AccountRow.handle, AccountRow.handleKeyFailure]
    cases failure.kind with
    | rateLimit =>
      simp only [Task.runAlone_rateLimited, Task.runAlone_recordFailure]
      cases a.markRateLimited R now (AccountRow.rateLimitCooldown failure) <;> rfl
    | quotaExhausted =>
      simp only [Task.runAlone_exhausted, Task.runAlone_recordFailure]
      cases a.markExhausted R failure.quotaResetAt a.defaultQuotaWindow now <;> rfl
    | authError => exact Task.runAlone_recordFailure later
    | targetError | serverError | connectionError | timeout | badRequest => rfl
  | softQuota now =>
    simp only [task, AccountRow.handle, Task.runAlone_exhausted, Task.runAlone]
    cases a.markExhausted R none a.defaultQuotaWindow now <;> rfl
  | refreshFailed retryAfterSecs retryable now =>
    simp only [task, AccountRow.handle, Task.runAlone_rateLimited, Task.runAlone]
    cases a.markRateLimited R now (AccountRow.refreshCooldown retryAfterSecs retryable) <;> rfl
  | credentialInvalid | probing now | validated => rfl
  | healthProbe obs now => exact Task.runAlone_healthProbe obs now

end

/-! ## Interleavings -/

/-- Statements of an administrator on the row. -/
inductive AdminStatement where
  /-- `db::update_account` of `update_account`, with the status of the request if it has one. -/
  | update (status : Option String) (quotaType : String)
  /-- `pool::mark_healthy`, for the reset of an account. -/
  | markHealthy
  /-- `pool::clear_circuit`, after a reset or a successful test. -/
  | clearCircuit
  | touchProbe (now : Int)

def AdminStatement.exec (R : Rfc3339) (a : AccountRow) : AdminStatement → AccountRow
  | .update status quotaType => { a with status := status.getD "healthy", quotaType }
  | .markHealthy => a.setAccountStatus .healthy none none
  | .clearCircuit => a.resetAccountFailures
  | .touchProbe now => a.touchProbeAt R now

/-- The row, and the handlers in flight. -/
structure Table where
  row : AccountRow
  tasks : List Task

inductive TableAction where
  /-- A handler begins, with the account as it was read before. -/
  | start (event : Event) (account : AccountRow)
  /-- A handler executes its next statement. -/
  | advance (i : Nat)
  | admin (statement : AdminStatement)

def Table.step (R : Rfc3339) (F : ParseF64) (s : Table) : TableAction → Option Table
  | .start event account => some { s with tasks := s.tasks ++ [event.task R F account] }
  | .advance i => do
    let task ← s.tasks[i]?
    let (row, rest) ← task.advance R s.row
    pure ⟨row, s.tasks.set i rest⟩
  | .admin statement => some { s with row := statement.exec R s.row }

/-- The statements on an account, from any row and with no handler in flight. -/
def table (R : Rfc3339) (F : ParseF64) (row : AccountRow) : Machine Table TableAction where
  start := ⟨row, []⟩
  step := Table.step R F

/-- An administrator gives the account another status than disabled, and says so. -/
def TableAction.Enables : TableAction → Prop
  | .admin (.update status _) => ∃ text, status = some text ∧ text ≠ "disabled"
  | .admin .markHealthy => True
  | .admin .clearCircuit | .admin (.touchProbe _) | .start _ _ | .advance _ => False

/-- A handler that has no other status than disabled left to write, unless it reads the account once
more and finds it enabled. -/
def Task.Settled : Task → Prop
  | .done => True
  | .exec (.setStatus status _ _) next => status = .disabled ∧ next.Settled
  | .exec .bumpFailures next | .exec (.openCircuit _) next | .exec .resetFailures next
  | .exec (.touchProbe _) next => next.Settled
  | .readFailures next => ∀ n, (next n).Settled
  | .readAccount next => ∀ account, account.status = "disabled" → (next account).Settled

/-- An event whose handler takes the account out for a while. -/
def Event.Suspends : Event → Prop
  | .keyFailure failure _ _ => failure.kind = .rateLimit ∨ failure.kind = .quotaExhausted
  | .softQuota _ | .refreshFailed _ _ _ => True
  | .credentialInvalid | .probing _ | .validated | .healthProbe _ _ => False

/-- The step disables the account. -/
def Table.Disables (s : Table) : TableAction → Prop
  | .admin (.update status _) => status = some "disabled"
  | .advance i => ∃ c q next, s.tasks[i]? = some (.exec (.setStatus .disabled c q) next)
  | .admin .markHealthy | .admin .clearCircuit | .admin (.touchProbe _) | .start _ _ => False

/-- When the account is disabled, the handlers in flight are settled; while it is, no handler begins
that takes it out for a while, and no administrator updates it without a status. -/
structure Table.Careful (s : Table) (a : TableAction) : Prop where
  settled : s.Disables a → ∀ task ∈ s.tasks, task.Settled
  begins : s.row.status = "disabled" → ∀ event account, a = .start event account → ¬ event.Suspends
  states : s.row.status = "disabled" → ∀ quotaType, a ≠ .admin (.update none quotaType)

/-- Once the account is disabled it stays so until an administrator enables it. -/
def StaysDisabled (R : Rfc3339) (F : ParseF64) (row : AccountRow) (as : List TableAction) : Prop :=
  ∀ pre mid post s s', as = pre ++ (mid ++ post) → (table R F row).run pre = some s →
    (table R F row).run (pre ++ mid) = some s' → s.row.status = "disabled" →
    (∀ a ∈ mid, ¬ a.Enables) → s'.row.status = "disabled"

section
variable {R : Rfc3339} {F : ParseF64} {row : AccountRow} {s s' : Table} {a : TableAction}

theorem AccountStatus.asStr_eq_disabled {status : AccountStatus} :
    status.asStr = "disabled" ↔ status = .disabled := by
  cases status <;> decide

@[simp] theorem AccountRow.setAccountStatus_status (a : AccountRow) (status : AccountStatus)
    (c q : Option String) : (a.setAccountStatus status c q).status = status.asStr := by
  rw [setAccountStatus]
  split <;> rfl

theorem Task.settled_recordFailure (now : Int) : (Task.recordFailure now).Settled := by
  intro n
  dsimp only
  split_ifs
  · cases addSeconds now circuitOpenSecs with
    | none | some deadline => trivial
  · trivial

/-- The handler of an event that does not take the account out has nothing to write to a disabled
account. -/
theorem Event.settled_task {event : Event} (account : AccountRow) (h : ¬ event.Suspends) :
    (event.task R F account).Settled := by
  cases event with
  | keyFailure failure now later =>
    rw [Suspends, not_or] at h
    rw [task, Task.keyFailure]
    cases hkind : failure.kind with
    | rateLimit => exact absurd hkind h.1
    | quotaExhausted => exact absurd hkind h.2
    | authError => exact ⟨rfl, Task.settled_recordFailure later⟩
    | serverError | connectionError | timeout | targetError | badRequest => trivial
  | softQuota now | refreshFailed secs retryable now => exact absurd trivial h
  | credentialInvalid => exact ⟨rfl, trivial⟩
  | probing now | validated => trivial
  | healthProbe obs now =>
    intro account hdisabled
    dsimp only
    rw [if_pos hdisabled]
    trivial

/-- A statement of a settled handler leaves a disabled account disabled. -/
theorem Task.Settled.advance {row row' : AccountRow} {task rest : Task} (h : task.Settled)
    (hadvance : task.advance R row = some (row', rest)) (hrow : row.status = "disabled") :
    row'.status = "disabled" ∧ rest.Settled := by
  cases task with
  | done => cases hadvance
  | exec statement next =>
    cases hadvance
    cases statement with
    | setStatus status c q =>
      obtain ⟨rfl, hnext⟩ := h
      exact ⟨AccountRow.setAccountStatus_status row .disabled c q, hnext⟩
    | bumpFailures | openCircuit deadline | resetFailures | touchProbe now => exact ⟨hrow, h⟩
  | readFailures next =>
    cases hadvance
    exact ⟨hrow, h _⟩
  | readAccount next =>
    cases hadvance
    exact ⟨hrow, h _ hrow⟩

theorem Table.step_advance {i : Nat} (h : s.step R F (.advance i) = some s') :
    ∃ task rest, s.tasks[i]? = some task ∧ task.advance R s.row = some (s'.row, rest) ∧
      s'.tasks = s.tasks.set i rest := by
  obtain ⟨task, htask, h⟩ := Option.bind_eq_some_iff.mp h
  obtain ⟨⟨row, rest⟩, hadvance, h⟩ := Option.bind_eq_some_iff.mp h
  cases h
  exact ⟨task, rest, htask, hadvance, rfl⟩

/-- While the account is disabled, all handlers in flight are settled. -/
def Table.AllSettled (s : Table) : Prop :=
  s.row.status = "disabled" → ∀ task ∈ s.tasks, task.Settled

/-- A step that no administrator enables the account with keeps it disabled, and its handlers
settled. -/
theorem Table.AllSettled.kept (h : s.AllSettled) (hstep : s.step R F a = some s')
    (hcareful : s.Careful a) (hs : s.row.status = "disabled") (ha : ¬ a.Enables) :
    s'.row.status = "disabled" ∧ ∀ task ∈ s'.tasks, task.Settled := by
  cases a with
  | start event account =>
    cases hstep
    refine ⟨hs, List.forall_mem_append.mpr ⟨h hs, List.forall_mem_singleton.mpr ?_⟩⟩
    exact event.settled_task account (hcareful.begins hs event account rfl)
  | advance i =>
    obtain ⟨task, rest, htask, hadvance, htasks⟩ := Table.step_advance hstep
    obtain ⟨hrow, hrest⟩ := (h hs task (List.mem_of_getElem? htask)).advance hadvance hs
    refine ⟨hrow, fun other hother => ?_⟩
    rw [htasks] at hother
    exact (List.mem_or_eq_of_mem_set hother).elim (h hs other) fun heq => heq ▸ hrest
  | admin statement =>
    cases hstep
    refine ⟨?_, h hs⟩
    cases statement with
    | update status quotaType =>
      cases status with
      | none => exact absurd rfl (hcareful.states hs quotaType)
      | some text =>
        by_contra htext
        exact ha ⟨text, rfl, htext⟩
    | markHealthy => exact absurd trivial ha
    | clearCircuit | touchProbe now => exact hs

/-- A careful step leaves settled handlers in flight if the account is disabled after it. -/
theorem Table.AllSettled.step (h : s.AllSettled) (hcareful : s.Careful a)
    (hstep : s.step R F a = some s') : s'.AllSettled := by
  intro hs'
  by_cases hs : s.row.status = "disabled"
  · by_cases ha : a.Enables
    · -- The step writes another status than disabled.
      cases a with
      | admin statement =>
        cases hstep
        exact h hs
      | start event account | advance i => exact ha.elim
    · exact (h.kept hstep hcareful hs ha).2
  · cases a with
    | start event account =>
      cases hstep
      exact absurd hs' hs
    | admin statement =>
      cases hstep
      cases statement with
      | update status quotaType =>
        refine hcareful.settled ?_
        cases status with
        | none => exact absurd hs' (by simp [AdminStatement.exec])
        | some text => exact congrArg some hs'
      | markHealthy => exact absurd hs' (by simp [AdminStatement.exec, AccountStatus.asStr])
      | clearCircuit | touchProbe now => exact absurd hs' hs
    | advance i =>
      obtain ⟨task, rest, htask, hadvance, htasks⟩ := Table.step_advance hstep
      cases task with
      | done => cases hadvance
      | readFailures next | readAccount next =>
        obtain ⟨hrow, -⟩ := Prod.mk.inj (Option.some.inj hadvance)
        exact absurd (hrow ▸ hs') hs
      | exec statement next =>
        obtain ⟨hrow, rfl⟩ := Prod.mk.inj (Option.some.inj hadvance)
        rw [← hrow] at hs'
        cases statement with
        | setStatus status c q =>
          obtain rfl : status = .disabled := AccountStatus.asStr_eq_disabled.mp
            ((s.row.setAccountStatus_status status c q).symm.trans hs')
          have hall := hcareful.settled ⟨c, q, next, htask⟩
          intro other hother
          rw [htasks] at hother
          refine (List.mem_or_eq_of_mem_set hother).elim (hall other) fun heq => heq ▸ ?_
          exact (hall _ (List.mem_of_getElem? htask)).2
        | bumpFailures | openCircuit deadline | resetFailures | touchProbe now =>
          exact absurd hs' hs

end

/-- A rate limit without a time to wait. -/
def exampleSlowDown : UpstreamFailure where
  kind := .rateLimit
  status := some 429
  retryAfterSecs := none
  message := "slow down"
  quotaResetAt := none

/-- Times that are not read. -/
def unreadTimes : Rfc3339 where
  toRfc3339 _ := "1970-01-01T00:00:30+00:00"
  parseDt _ := none

end Kinetix.Account
