import Kinetix.CredentialRefresh.SingleFlight

/-!
# What a reactive refresh has renewed

A call that answers an authentication error returns `Ok(true)` while it holds the lock of its gate,
so what it has seen of the secret in force still holds. A call that looks for itself has seen a
secret other than the one that failed. A call that takes over the result of another one has not
looked: that result may be about another failed secret.
-/

namespace Kinetix.CredentialRefresh
open StateMachine Slots

variable {env : Env}

/-- A reactive call in this phase has renewed the secret. -/
def Phase.Renewed : Phase → Prop
  | .confirming _ => True
  | .storing _ result | .publishing _ result | .returning _ result => result = .ok true
  | _ => False

/-- A rotation that succeeds puts another secret in force. -/
def Replaces (s : State) : Action → Prop
  | .rotated id (.ok secret) => ∀ task, s.tasks id = some task → secret ≠ s.secret task.key
  | _ => True

/-- No call takes over an `Ok(true)` while its own failed secret is the one in force, and no
rotation installs the failed secret of its call in the place of another one. -/
def Checks (s : State) : Action → Prop
  | .acquire id =>
    ∀ key failedSecret gate observed,
      s.tasks id = some ⟨key, .afterAuthError failedSecret, .waiting gate (some observed)⟩ →
      (s.heap gate).generation ≠ observed →
      (s.heap gate).lastAuthResult = some (.ok true) → s.secret key ≠ failedSecret
  | .rotated id (.ok secret) =>
    ∀ key failedSecret gate,
      s.tasks id = some ⟨key, .afterAuthError failedSecret, .rotating gate⟩ →
      s.secret key ≠ failedSecret → secret ≠ failedSecret
  | _ => True

/-- The secret in force is not the one that failed, once a call has renewed it. -/
def Renewal (s : State) : Prop :=
  ∀ id key failedSecret phase, s.tasks id = some ⟨key, .afterAuthError failedSecret, phase⟩ →
    phase.Renewed → s.secret key ≠ failedSecret

theorem Phase.Renewed.held {phase : Phase} (h : phase.Renewed) :
    ∃ gate, phase.held = some gate := by
  cases phase <;> first | exact ⟨_, rfl⟩ | cases h

@[simp] theorem State.recordFailure_secret (s : State) (task : Task)
    (error : CredentialRotationError) : (s.recordFailure task error).secret = s.secret := by
  unfold State.recordFailure
  split_ifs <;> rfl

namespace Renewal
variable {s s' t : State} {id : Nat} {task : Task} {phase : Phase}

/-- A task moves on, and the secrets stay as they are. -/
theorem setPhase (R : Renewal s) (ht : t.tasks = s.tasks) (hs : t.secret = s.secret)
    (hnew : ∀ failedSecret, task.kind = .afterAuthError failedSecret → phase.Renewed →
      s.secret task.key ≠ failedSecret) : Renewal (t.setPhase id task phase) := by
  intro i key failedSecret phase' h hph
  change t.secret key ≠ failedSecret
  rw [State.setPhase_tasks, ht] at h
  rw [hs]
  rcases update_eq_some.mp h with ⟨-, hid⟩ | ⟨-, hold⟩
  · cases task
    cases hid
    exact hnew failedSecret rfl hph
  · exact R i key failedSecret phase' hold hph

/-- A task whose new phase has renewed only if its old one had. -/
theorem keep (R : Renewal s) (ht : t.tasks = s.tasks) (hs : t.secret = s.secret)
    (hid : s.tasks id = some task) (hph : phase.Renewed → task.phase.Renewed) :
    Renewal (t.setPhase id task phase) :=
  R.setPhase ht hs fun failedSecret hkind hnew => by
    rcases task with ⟨key, kind, phase'⟩
    cases hkind
    exact R id key failedSecret phase' hid (hph hnew)

/-- The rotation of a task puts another secret in force. No other task of the account can have
renewed the secret at that time, because it would hold the same lock. -/
theorem rotated {key : CredentialKey} {kind : Kind} {gate : Nat} {secret : String}
    (R : Renewal s) (O : OneGate s) (hid : s.tasks id = some ⟨key, kind, .rotating gate⟩)
    (hnew : ∀ failedSecret, kind = .afterAuthError failedSecret → secret ≠ failedSecret) :
    Renewal ({ s with secret := Function.update s.secret key secret }.setPhase id
      ⟨key, kind, .rotating gate⟩ (.confirming gate)) := by
  intro i key' failedSecret phase h hph
  change Function.update s.secret key secret key' ≠ failedSecret
  rw [State.setPhase_tasks] at h
  rcases update_eq_some.mp h with ⟨-, hsame⟩ | ⟨hne, hold⟩
  · cases hsame
    rw [Function.update_self]
    exact hnew failedSecret rfl
  · have hkey : key' ≠ key := by
      rintro rfl
      obtain ⟨g, hg⟩ := hph.held
      exact hne (O.exclusive hold hid rfl hg rfl)
    rw [Function.update_of_ne hkey]
    exact R i key' failedSecret phase hold hph

section Operations
variable {key : CredentialKey} {kind : Kind} {gate : Nat}
  {outcome : Except CredentialRotationError Lease}

theorem lookup (R : Renewal s) (hid : s.tasks id = some ⟨key, kind, .called⟩) :
    Renewal (s.lookup id ⟨key, kind, .called⟩) := by
  have hgate : (s.gate ⟨key, kind, .called⟩).2.tasks = s.tasks ∧
      (s.gate ⟨key, kind, .called⟩).2.secret = s.secret := by
    unfold State.gate
    split <;> exact ⟨rfl, rfl⟩
  simp only [State.lookup]
  split
  · exact R.keep hgate.1 hgate.2 hid (by rintro ⟨⟩)
  · exact R.keep hgate.1 hgate.2 hid (by rintro ⟨⟩)

/-- The result of another call, which `Checks` is about, is all that a call takes over unseen. -/
theorem acquired {observed : Option Nat} (R : Renewal s) (hc : Checks s (.acquire id))
    (hid : s.tasks id = some ⟨key, kind, .waiting gate observed⟩) :
    Renewal ((s.setHolder gate (some id)).setPhase id ⟨key, kind, .waiting gate observed⟩
      (s.acquired gate observed)) := by
  refine R.setPhase rfl rfl fun failedSecret hkind hph => ?_
  cases hkind
  unfold State.acquired at hph
  split at hph
  · cases hph
  · next observed =>
    split_ifs at hph with hgen
    · split at hph
      · next result hlast =>
        have hresult : result = .ok true := hph
        exact hc key failedSecret gate observed hid hgen (hresult ▸ hlast)
      · cases hph
    · cases hph

theorem resolved (R : Renewal s) (hid : s.tasks id = some ⟨key, kind, .resolving gate⟩) :
    Renewal (s.resolved env id ⟨key, kind, .resolving gate⟩ gate outcome) := by
  unfold State.resolved
  split
  · next failedSecret lease hkind =>
    split_ifs with hdiffer
    · refine R.setPhase rfl rfl fun failedSecret' hkind' _ => ?_
      cases hkind.symm.trans hkind'
      exact hdiffer
    · exact R.keep rfl rfl hid (by rintro ⟨⟩)
  · split_ifs
    · exact R.keep rfl rfl hid (by rintro ⟨⟩)
    · exact R.keep rfl rfl hid (by rintro ⟨⟩)
  · exact R.keep rfl rfl hid (by rintro ⟨⟩)
  · exact R.keep (by simp) (by simp) hid (by rintro ⟨⟩)

theorem confirmed (R : Renewal s) (hid : s.tasks id = some ⟨key, kind, .confirming gate⟩) :
    Renewal (s.confirmed env id ⟨key, kind, .confirming gate⟩ gate outcome) := by
  unfold State.confirmed
  split
  · exact R.keep rfl rfl hid fun _ => trivial
  · exact R.keep (by simp) (by simp) hid (by rintro ⟨⟩)
  · exact R.keep rfl rfl hid fun _ => trivial
  · exact R.keep (by simp) (by simp) hid (by rintro ⟨⟩)

theorem checked {now : Int} {current : ResolvedCredential} (R : Renewal s)
    (hid : s.tasks id = some ⟨key, .scheduled now, .checking gate current⟩) :
    Renewal (s.checked env id ⟨key, .scheduled now, .checking gate current⟩ gate current now) := by
  unfold State.checked
  split
  · exact R.keep rfl rfl hid (by rintro ⟨⟩)
  · exact R.keep rfl rfl hid (by rintro ⟨⟩)
  · split_ifs <;> exact R.keep rfl rfl hid (by rintro ⟨⟩)

theorem rotationEnded {outcome : Except CredentialRotationError String} (R : Renewal s)
    (O : OneGate s) (hr : Replaces s (.rotated id outcome)) (hc : Checks s (.rotated id outcome))
    (hid : s.tasks id = some ⟨key, kind, .rotating gate⟩) :
    Renewal (s.rotationEnded id ⟨key, kind, .rotating gate⟩ gate outcome) := by
  unfold State.rotationEnded
  split
  · next secret =>
    refine R.rotated O hid fun failedSecret hkind => ?_
    subst hkind
    by_cases hforce : s.secret key = failedSecret
    · rw [← hforce]
      exact hr _ hid
    · exact hc key failedSecret gate hid hforce
  · exact R.keep (by simp) (by simp) hid (by rintro ⟨⟩)
  · exact R.keep (by simp) (by simp) hid (by rintro ⟨⟩)

end Operations

theorem step {a : Action} (R : Renewal s) (O : OneGate s) (hr : Replaces s a) (hc : Checks s a)
    (h : s.step env a = some s') : Renewal s' := by
  cases a with
  | tick d | claimDue now | forgetSchedule key | forgetGate key =>
    cases h
    exact R
  | call id key kind =>
    simp only [State.step] at h
    split at h
    · cases h
    · cases h
      intro i key' failedSecret phase hi hph
      rcases update_eq_some.mp hi with ⟨-, hnew⟩ | ⟨-, hold⟩
      · cases hnew
        cases hph
      · exact R i key' failedSecret phase hold hph
  | lookup id =>
    simp only [State.step] at h
    split at h
    · next key kind hid =>
      cases h
      exact R.lookup hid
    · cases h
  | load id =>
    simp only [State.step] at h
    split at h
    · next key kind g hid =>
      cases h
      exact R.keep rfl rfl hid (by rintro ⟨⟩)
    · cases h
  | acquire id =>
    simp only [State.step] at h
    split at h
    · next key kind g observed hid =>
      split at h
      · cases h
        exact R.acquired hc hid
      · cases h
    · cases h
  | resolve id outcome =>
    simp only [State.step] at h
    split at h
    · next key kind g hid =>
      cases h
      exact R.resolved hid
    · next key kind g hid =>
      cases h
      exact R.confirmed hid
    · cases h
  | check id =>
    simp only [State.step] at h
    split at h
    · next key now g current hid =>
      cases h
      exact R.checked hid
    · cases h
  | rotated id outcome =>
    simp only [State.step] at h
    split at h
    · next key kind g hid =>
      cases h
      exact R.rotationEnded O hr hc hid
    · cases h
  | store id =>
    simp only [State.step] at h
    split at h
    · next key kind g result hid =>
      cases h
      unfold State.storeResult
      exact R.keep rfl rfl hid fun hph => hph
    · cases h
  | publish id =>
    simp only [State.step] at h
    split at h
    · next key kind g result hid =>
      cases h
      unfold State.publishResult
      exact R.keep rfl rfl hid fun hph => hph
    · cases h
  | ret id =>
    simp only [State.step] at h
    split at h
    · next key kind g result hid =>
      cases h
      exact R.keep rfl rfl hid (by rintro ⟨⟩)
    · cases h
  | drop id =>
    simp only [State.step] at h
    split at h
    · next task hid =>
      unfold State.dropTask at h
      split at h
      all_goals cases h
      all_goals exact R.keep rfl rfl hid (by rintro ⟨⟩)
    · cases h

end Renewal

/-- In a run without `forget` in which no call takes over an `Ok(true)` while its failed secret is
in force, and no rotation brings a failed secret back, the secret in force when a call returns
`Ok(true)` is not the one that failed. -/
theorem renewed_secret_differs {secret : CredentialKey → String} {as : List Action} {s : State}
    {id : Nat} {key : CredentialKey} {failedSecret : String}
    (hforget : ∀ key, Action.forgetGate key ∉ as ++ [.ret id])
    (hr : (machine env secret).Meets (fun _ => Replaces) (as ++ [.ret id]))
    (hc : (machine env secret).Meets (fun _ => Checks) (as ++ [.ret id]))
    (h : (machine env secret).run (as ++ [.ret id]) = some s)
    (hid : s.tasks id = some ⟨key, .afterAuthError failedSecret, .returned (.ok true)⟩) :
    s.secret key ≠ failedSecret := by
  have hall : ∀ as s, (machine env secret).run as = some s →
      (machine env secret).Meets (fun _ => KeepsGate) as →
      (machine env secret).Meets (fun _ => Replaces) as →
      (machine env secret).Meets (fun _ => Checks) as → OneGate s ∧ Renewal s := by
    refine (machine env secret).run_induction (I := fun as s =>
      (machine env secret).Meets (fun _ => KeepsGate) as →
      (machine env secret).Meets (fun _ => Replaces) as →
      (machine env secret).Meets (fun _ => Checks) as → OneGate s ∧ Renewal s) ?_ ?_
    · refine fun _ _ _ => ⟨oneGate_start secret, ?_⟩
      intro id key failedSecret phase h
      cases h
    · intro as s a s' hrun ih hstep hk hr hc
      obtain ⟨O, R⟩ := ih (hk.of_append _) (hr.of_append _) (hc.of_append _)
      exact ⟨O.step (hk.last _ hrun) hstep, R.step O (hr.last _ hrun) (hc.last _ hrun) hstep⟩
  obtain ⟨t, ht, hstep⟩ := (machine env secret).run_snoc_eq_some.mp h
  obtain ⟨-, R⟩ := hall as t ht ((keepsGate_of_unforgotten hforget).of_append _)
    (hr.of_append _) (hc.of_append _)
  change t.step env (.ret id) = some s at hstep
  simp only [State.step] at hstep
  split at hstep
  · next key' kind g result hbefore =>
    cases hstep
    rw [State.setPhase_tasks, Function.update_self] at hid
    cases hid
    exact R id _ failedSecret _ hbefore rfl
  · cases hstep

/-- A call rotates the secret, and one that waited for it takes over the result. -/
def exampleShared : List Action :=
  exampleRotation 0 ++ [.call 1 exampleKey (.afterAuthError "stale"), .lookup 1, .load 1,
    .rotated 0 (.ok "fresh"), .resolve 0 (.ok exampleLease), .store 0, .publish 0, .ret 0,
    .acquire 1]

theorem renewed_secret_differs_shared :
    ∃ s, (machine exampleEnv fun _ => "stale").run (exampleShared ++ [.ret 1]) = some s ∧
      s.secret exampleKey ≠ "stale" := by
  obtain ⟨s, hs, hid⟩ :
      ∃ s ∈ (machine exampleEnv fun _ => "stale").run (exampleShared ++ [.ret 1]),
        s.tasks 1 = some ⟨exampleKey, .afterAuthError "stale", .returned (.ok true)⟩ :=
    ⟨_, rfl, rfl⟩
  refine ⟨s, hs, renewed_secret_differs ?_ (Machine.Along.meets _ ?_) (Machine.Along.meets _ ?_)
    hs hid⟩
  · intro key hmem
    simp [exampleShared, exampleRotation] at hmem
  · refine ⟨trivial, trivial, trivial, trivial, trivial, trivial, trivial, trivial, ?_, trivial,
      trivial, trivial, trivial, trivial, trivial, trivial⟩
    intro task htask
    cases htask
    decide
  · refine ⟨trivial, trivial, trivial, ?_, trivial, trivial, trivial, trivial, ?_, trivial,
      trivial, trivial, trivial, ?_, trivial, trivial⟩
    · intro key failedSecret gate observed htask
      cases htask
      exact fun hne => absurd rfl hne
    · intro key failedSecret gate htask
      cases htask
      exact fun _ => by decide
    · intro key failedSecret gate observed htask
      cases htask
      exact fun _ _ => by decide

/-- A call for an older secret finds another one in force, and so returns `Ok(true)` without a
rotation; a call for the secret in force waits for it. -/
def exampleCoalesced : List Action :=
  [.call 0 exampleKey (.afterAuthError "older"), .lookup 0, .load 0, .acquire 0,
    .call 1 exampleKey (.afterAuthError "stale"), .lookup 1, .load 1,
    .resolve 0 (.ok exampleLease), .store 0, .publish 0, .ret 0, .acquire 1]

/-- The waiting call takes over the `Ok(true)`, and its failed secret stays in force. -/
theorem coalesced_call_keeps_failed_secret :
    ¬ ∀ (env : Env) (secret : CredentialKey → String) (as : List Action) (s : State) (id : Nat)
      (key : CredentialKey) (failedSecret : String),
      (∀ key, Action.forgetGate key ∉ as ++ [.ret id]) →
      (machine env secret).Meets (fun _ => Replaces) (as ++ [.ret id]) →
      (machine env secret).run (as ++ [.ret id]) = some s →
      s.tasks id = some ⟨key, .afterAuthError failedSecret, .returned (.ok true)⟩ →
      s.secret key ≠ failedSecret := by
  intro h
  refine h exampleEnv (fun _ => "stale") exampleCoalesced _ 1 exampleKey "stale" ?_
    (Machine.Along.meets _ ?_) rfl rfl rfl
  · intro key hmem
    simp [exampleCoalesced] at hmem
  · exact ⟨trivial, trivial, trivial, trivial, trivial, trivial, trivial, trivial, trivial, trivial,
      trivial, trivial, trivial, trivial⟩

end Kinetix.CredentialRefresh
