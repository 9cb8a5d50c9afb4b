import Kinetix.Admin.Sessions
import Kinetix.Library.TaskList

/-!
# A password change ends the old access

After a password change the new password opens sessions and no other does, as long as the code
stores the hash of what was typed in, a login reads the stored hash, and a login that verified an
earlier password creates its session before the change ends the sessions. The code sees to none of
the three.
-/

namespace Kinetix.Admin
open StateMachine

/-- The handler of a password change is past `sessions.revoke_all()`. -/
def Stage.Revoked : Stage → Prop
  | .changeAudit => True
  | .returned .passwordChanged => True
  | _ => False

/-- A login is verified and has no session yet. -/
def Stage.Creates : Stage → Prop
  | .loginCreate _ _ => True
  | _ => False

def State.Revoked (s : State) (c : Change) : Prop :=
  ∃ stage, s.tasks[c.task]? = some stage ∧ stage.Revoked

/-- `change_password` has answered. -/
def State.Returned (s : State) (c : Change) : Prop :=
  s.tasks[c.task]? = some (.returned .passwordChanged)

/-- In every state of the run, for every change that has returned: each valid session was created by
a login that presented this password or a later one; and while no later change is stored, a login
that is verified presents this password. -/
def TakesEffect (H : Sha256) (config : Config) (setting : Option String) (as : List Action) :
    Prop :=
  ∀ pre post s before c later, as = pre ++ post → (process H config setting).run pre = some s →
    s.shared.changes = before ++ c :: later → s.Returned c →
    (∀ token now session, (s.shared.sessions.valid token now).1 = true →
      s.shared.sessions.lookup token = some session →
      ∃ d ∈ c :: later, H.hex session.presented = H.hex d.password) ∧
    (later = [] → ∀ i env rest body, post = .advance i env :: rest →
      s.tasks[i]? = some (.loginVerify body) →
      (verifyAdminPassword H config (s.shared.readSetting env) body.password = true ↔
        H.hex body.password = H.hex c.password))

/-- A new password that is stored does not begin or end with white space. A login that cannot read
the stored hash is decided as if it could. A login creates its session only if no change stored
since its verification has ended the sessions, unless its password is that one's or a later one's.
-/
def State.Safe (H : Sha256) (config : Config) (s : State) (env : Env) : Stage → Prop
  | .changeStore newPassword => env.dbOk = true → Text.trim newPassword = newPassword
  | .loginVerify body =>
    verifyAdminPassword H config (s.shared.readSetting env) body.password =
      verifyAdminPassword H config (some s.shared.setting) body.password
  | .loginCreate body seen =>
    ∀ before c later, s.shared.changes = before ++ c :: later → seen ≤ before.length →
      s.Revoked c → ∃ d ∈ c :: later, H.hex body.password = H.hex d.password
  | _ => True

/-- The step of a handler is safe. -/
def State.Keeps (H : Sha256) (config : Config) (s : State) (a : Action) : Prop :=
  ∀ i env stage, a = .advance i env → s.tasks[i]? = some stage → s.Safe H config env stage

/-! ## Steps -/

/-- What a step of a handler can do. -/
inductive Effect (H : Sha256) (config : Config) (i : Nat) (env : Env) (s : Shared) :
    Stage → Shared → Stage → Prop where
  /-- At most sessions are removed. -/
  | quiet {stage next : Stage} {s' : Shared} (setting : s'.setting = s.setting)
      (changes : s'.changes = s.changes) (sessions : ∀ e ∈ s'.sessions, e ∈ s.sessions)
      (creates : ¬ next.Creates) (revoked : next.Revoked → stage.Revoked) :
      Effect H config i env s stage s' next
  | verified {body : LoginBody}
      (verified : verifyAdminPassword H config (s.readSetting env) body.password = true) :
      Effect H config i env s (.loginVerify body) s (.loginCreate body s.changes.length)
  | created {body : LoginBody} {seen : Nat} {user : String} :
      Effect H config i env s (.loginCreate body seen)
        { s with sessions := s.sessions.create env.token env.now config.sessionTtl body.password }
        (.loginAudit user env.token)
  | stored {newPassword : String} (dbOk : env.dbOk = true) :
      Effect H config i env s (.changeStore newPassword)
        { s with
          setting := some (H.hex (Text.trim newPassword))
          changes := s.changes ++ [⟨i, newPassword⟩] }
        .changeRevoke
  | revoked : Effect H config i env s .changeRevoke { s with sessions := [] } .changeAudit

section
variable {H : Sha256} {config : Config} {i : Nat} {env : Env} {s s' : Shared} {stage next : Stage}

/-- A step that leaves what is shared as it was. -/
theorem Effect.unchanged (creates : ¬ next.Creates) (revoked : next.Revoked → stage.Revoked) :
    Effect H config i env s stage s next :=
  .quiet rfl rfl (fun _ => id) creates revoked

theorem Request.first_quiet (request : Request) :
    ¬ request.first.Creates ∧ ¬ request.first.Revoked := by
  cases request <;> exact ⟨id, id⟩

theorem Request.entry_quiet (request : Request) :
    ¬ request.entry.Creates ∧ ¬ request.entry.Revoked := by
  cases request with
  | login body | logout cookie => exact ⟨id, id⟩
  | guarded credentials handler => cases handler <;> exact ⟨id, id⟩

theorem Guarded.admitted_quiet (handler : Guarded) :
    ¬ handler.admitted.Creates ∧ ¬ handler.admitted.Revoked := by
  cases handler <;> exact ⟨id, id⟩

theorem authNext_quiet (credentials : Credentials) (handler : Guarded) :
    ¬ (authNext credentials handler).Creates ∧ ¬ (authNext credentials handler).Revoked := by
  rw [authNext]
  split <;> exact ⟨id, id⟩

theorem changeChecked_quiet (body : PasswordBody) :
    ¬ (changeChecked body).Creates ∧ ¬ (changeChecked body).Revoked := by
  rw [changeChecked]
  split <;> exact ⟨id, id⟩

/-- Of two quiet stages, whichever is next is quiet. -/
theorem quiet_ite {p : Prop} [Decidable p] {a b : Stage} (ha : ¬ a.Creates ∧ ¬ a.Revoked)
    (hb : ¬ b.Creates ∧ ¬ b.Revoked) :
    ¬ (if p then a else b).Creates ∧ ¬ (if p then a else b).Revoked := by
  split
  · exact ha
  · exact hb

theorem Effect.of_quiet (h : ¬ next.Creates ∧ ¬ next.Revoked) :
    Effect H config i env s stage s next :=
  .unchanged h.1 fun hn => absurd hn h.2

/-- A look at the sessions before a quiet stage. -/
theorem Effect.of_valid {token : String} (h : ¬ next.Creates ∧ ¬ next.Revoked) :
    Effect H config i env s stage
      { s with sessions := (s.sessions.valid token env.now).2 } next :=
  .quiet rfl rfl (fun _ => Sessions.mem_of_mem_valid) h.1 fun hn => absurd hn h.2

theorem Stage.effect (h : stage.advance H config i env s = some (s', next)) :
    Effect H config i env s stage s' next := by
  cases stage with
  | controlPlane request =>
    cases h
    exact .of_quiet (quiet_ite request.first_quiet ⟨id, id⟩)
  | loginHealth body =>
    cases h
    exact .of_quiet (quiet_ite ⟨id, id⟩ ⟨id, id⟩)
  | loginVerify body =>
    cases h
    by_cases hv : verifyAdminPassword H config (s.readSetting env) body.password = true
    · rw [if_pos hv]
      exact .verified hv
    · rw [if_neg hv]
      exact .of_quiet ⟨id, id⟩
  | loginCreate body seen =>
    cases h
    exact .created
  | loginAudit user token | refusalAudit message =>
    cases h
    exact .of_quiet ⟨id, id⟩
  | logoutAudit cookie =>
    cases h
    cases cookie <;> exact .of_quiet ⟨id, id⟩
  | logoutRevoke token =>
    cases h
    exact .quiet rfl rfl (fun _ => Sessions.mem_of_mem_revoke) id fun hn => hn.elim
  | authCookie credentials handler =>
    rw [advance] at h
    split at h
    · cases h
      exact .of_quiet ⟨id, id⟩
    · cases h
      exact .of_quiet (authNext_quiet credentials handler)
    · cases h
      exact .of_valid (quiet_ite handler.admitted_quiet (authNext_quiet credentials handler))
  | authHeader token handler =>
    cases h
    exact .of_valid (quiet_ite handler.admitted_quiet ⟨id, id⟩)
  | authVerify token handler =>
    cases h
    exact .of_quiet (quiet_ite handler.admitted_quiet ⟨id, id⟩)
  | changeVerify body =>
    cases h
    exact .of_quiet (quiet_ite (changeChecked_quiet body) ⟨id, id⟩)
  | changeStore newPassword =>
    rw [advance] at h
    split at h
    · cases h
      exact .stored ‹_›
    · cases h
      exact .of_quiet ⟨id, id⟩
  | changeRevoke =>
    cases h
    exact .revoked
  | changeAudit =>
    cases h
    exact .unchanged id fun _ => trivial
  | returned reply | dropped => cases h

end

/-! ## Runs -/

/-- What a step leaves alone if it neither verifies a login, creates a session, stores a password
nor ends the sessions. -/
structure Frame (s s' : State) : Prop where
  setting : s'.shared.setting = s.shared.setting
  changes : s'.shared.changes = s.shared.changes
  sessions : ∀ e ∈ s'.shared.sessions, e ∈ s.shared.sessions
  creates : ∀ (j : Nat) stage, s'.tasks[j]? = some stage → stage.Creates → s.tasks[j]? = some stage
  revoked : ∀ c, s'.Revoked c → s.Revoked c

structure Inv (H : Sha256) (s : State) : Prop where
  /-- What is stored is the hash of the last password. -/
  stored : ∀ c, s.shared.changes.getLast? = some c → s.shared.setting = some (H.hex c.password)
  /-- The sessions after a change that ended all were created with its password or a later one. -/
  sessions : ∀ before c later, s.shared.changes = before ++ c :: later → s.Revoked c →
    ∀ e ∈ s.shared.sessions, ∃ d ∈ c :: later, H.hex e.2.presented = H.hex d.password
  /-- A verified login presents the password that was the last when it was verified. -/
  logins : ∀ (i : Nat) body seen, s.tasks[i]? = some (.loginCreate body seen) →
    seen ≤ s.shared.changes.length ∧
      ∀ c, 0 < seen → s.shared.changes[seen - 1]? = some c → H.hex body.password = H.hex c.password

section
variable {H : Sha256} {config : Config} {s s' : State} {a : Action}

theorem Inv.frame (h : Inv H s) (hf : Frame s s') : Inv H s' where
  stored c hc := by
    rw [hf.setting]
    exact h.stored c (hf.changes ▸ hc)
  sessions before c later hc hr e he :=
    h.sessions before c later (hf.changes ▸ hc) (hf.revoked c hr) e (hf.sessions e he)
  logins i body seen hi := by
    rw [hf.changes]
    exact h.logins i body seen (hf.creates i _ hi trivial)

theorem Frame.start (request : Request) :
    Frame s { s with tasks := s.tasks ++ [request.entry] } where
  setting := rfl
  changes := rfl
  sessions _ := id
  creates j stage hj hstage := by
    rcases TaskList.of_start hj with ⟨-, rfl⟩ | hold
    · exact absurd hstage request.entry_quiet.1
    · exact hold
  revoked c hc := by
    obtain ⟨stage, hstage, hrevoked⟩ := hc
    rcases TaskList.of_start hstage with ⟨-, rfl⟩ | hold
    · exact absurd hrevoked request.entry_quiet.2
    · exact ⟨stage, hold, hrevoked⟩

/-- A task that moves to a stage that neither creates a session nor, if it was not before, is past
the end of the sessions. -/
theorem Frame.move {i : Nat} {stage next : Stage} {shared : Shared} (hi : s.tasks[i]? = some stage)
    (setting : shared.setting = s.shared.setting) (changes : shared.changes = s.shared.changes)
    (sessions : ∀ e ∈ shared.sessions, e ∈ s.shared.sessions) (creates : ¬ next.Creates)
    (revoked : next.Revoked → stage.Revoked) : Frame s ⟨shared, s.tasks.set i next⟩ where
  setting := setting
  changes := changes
  sessions := sessions
  creates j stage' hj hstage := by
    rcases TaskList.of_set hj with ⟨-, rfl⟩ | ⟨-, hold⟩
    · exact absurd hstage creates
    · exact hold
  revoked c hc := by
    obtain ⟨stage', hstage, hrevoked⟩ := hc
    rcases TaskList.of_set hstage with ⟨rfl, rfl⟩ | ⟨-, hold⟩
    · exact ⟨stage, hi, revoked hrevoked⟩
    · exact ⟨stage', hold, hrevoked⟩

theorem Inv.verified {i : Nat} {env : Env} {body : LoginBody} (h : Inv H s)
    (hsafe : s.Safe H config env (.loginVerify body))
    (hv : verifyAdminPassword H config (s.shared.readSetting env) body.password = true) :
    Inv H ⟨s.shared, s.tasks.set i (.loginCreate body s.shared.changes.length)⟩ where
  stored := h.stored
  sessions before c later hc hr := by
    obtain ⟨stage, hstage, hrevoked⟩ := hr
    rcases TaskList.of_set hstage with ⟨-, rfl⟩ | ⟨-, hold⟩
    · exact hrevoked.elim
    · exact h.sessions before c later hc ⟨stage, hold, hrevoked⟩
  logins j body' seen hj := by
    rcases TaskList.of_set hj with ⟨-, hnew⟩ | ⟨-, hold⟩
    · cases hnew
      refine ⟨Nat.le_refl _, fun c _ hc => ?_⟩
      rw [hsafe, h.stored c (List.getLast?_eq_getElem?.trans hc)] at hv
      exact verifyAdminPassword_some.mp hv
    · exact h.logins j body' seen hold

theorem Inv.created {i seen : Nat} {env : Env} {body : LoginBody} {user : String} (h : Inv H s)
    (hi : s.tasks[i]? = some (.loginCreate body seen))
    (hsafe : s.Safe H config env (.loginCreate body seen)) :
    Inv H
      ⟨{ s.shared with
          sessions :=
            s.shared.sessions.create env.token env.now config.sessionTtl body.password },
        s.tasks.set i (.loginAudit user env.token)⟩ where
  stored := h.stored
  sessions before c later hc hr e he := by
    have hbefore : s.Revoked c := by
      obtain ⟨stage, hstage, hrevoked⟩ := hr
      rcases TaskList.of_set hstage with ⟨-, rfl⟩ | ⟨-, hold⟩
      · exact hrevoked.elim
      · exact ⟨stage, hold, hrevoked⟩
    rcases Sessions.mem_create he with rfl | he
    · -- the password was the last one when it was verified, or the step is safe
      obtain ⟨hle, hlast⟩ := h.logins i body seen hi
      rcases Nat.lt_or_ge before.length seen with hlt | hge
      · have hmid : seen - 1 - before.length < (c :: later).length := by
          rw [hc, List.length_append] at hle
          omega
        refine ⟨(c :: later)[seen - 1 - before.length], List.getElem_mem hmid, ?_⟩
        refine hlast _ (by omega) ?_
        rw [hc, List.getElem?_append_right (by omega), List.getElem?_eq_getElem hmid]
      · exact hsafe before c later hc hge hbefore
    · exact h.sessions before c later hc hbefore e he
  logins j body' seen' hj := by
    rcases TaskList.of_set hj with ⟨-, hnew⟩ | ⟨-, hold⟩
    · cases hnew
    · exact h.logins j body' seen' hold

theorem Inv.store {i : Nat} {env : Env} {newPassword : String} (h : Inv H s) (hdb : env.dbOk = true)
    (hsafe : s.Safe H config env (.changeStore newPassword)) :
    Inv H
      ⟨{ s.shared with
          setting := some (H.hex (Text.trim newPassword))
          changes := s.shared.changes ++ [⟨i, newPassword⟩] },
        s.tasks.set i .changeRevoke⟩ where
  stored c hc := by
    rw [List.getLast?_concat] at hc
    cases hc
    exact congrArg (fun p => some (H.hex p)) (hsafe hdb)
  sessions before c later hc hr e he := by
    obtain ⟨stage, hstage, hrevoked⟩ := hr
    rcases TaskList.of_set hstage with ⟨-, rfl⟩ | ⟨hne, hold⟩
    · exact hrevoked.elim
    · -- the change is an earlier one: this handler has not ended the sessions yet
      rcases List.eq_nil_or_concat later with rfl | ⟨later, d, rfl⟩
      · obtain ⟨-, hlast⟩ := List.append_inj' hc rfl
        cases hlast
        exact absurd rfl hne
      · rw [List.concat_eq_append] at hc ⊢
        have hc : s.shared.changes ++ [⟨i, newPassword⟩] = (before ++ c :: later) ++ [d] := by
          rw [List.append_assoc]
          exact hc
        obtain ⟨hc, -⟩ := List.append_inj' hc rfl
        obtain ⟨d', hd', heq⟩ := h.sessions before c later hc ⟨stage, hold, hrevoked⟩ e he
        exact ⟨d', List.mem_append_left [d] hd', heq⟩
  logins j body seen hj := by
    rcases TaskList.of_set hj with ⟨-, hnew⟩ | ⟨-, hold⟩
    · cases hnew
    · obtain ⟨hle, hlast⟩ := h.logins j body seen hold
      refine ⟨by simpa using Nat.le_succ_of_le hle, fun c hpos hc => hlast c hpos ?_⟩
      rwa [List.getElem?_append_left (by omega)] at hc

theorem Inv.revoke {i : Nat} (h : Inv H s) :
    Inv H ⟨{ s.shared with sessions := [] }, s.tasks.set i .changeAudit⟩ where
  stored := h.stored
  sessions before c later hc hr e he := by cases he
  logins j body seen hj := by
    rcases TaskList.of_set hj with ⟨-, hnew⟩ | ⟨-, hold⟩
    · cases hnew
    · exact h.logins j body seen hold

theorem Inv.step (h : Inv H s) (hsafe : s.Keeps H config a) (hs : s.step H config a = some s') :
    Inv H s' := by
  cases a with
  | start request =>
    cases hs
    exact h.frame (.start request)
  | advance i env =>
    obtain ⟨stage, hstage, hs⟩ := Option.bind_eq_some_iff.mp hs
    obtain ⟨⟨shared, next⟩, hadvance, hs⟩ := Option.bind_eq_some_iff.mp hs
    cases hs
    have hsafe := hsafe i env stage rfl hstage
    cases Stage.effect hadvance with
    | quiet setting changes sessions creates revoked =>
      exact h.frame (.move hstage setting changes sessions creates revoked)
    | verified hv => exact h.verified hsafe hv
    | created => exact h.created hstage hsafe
    | stored hdb => exact h.store hdb hsafe
    | revoked => exact h.revoke
  | drop i =>
    rw [State.step] at hs
    split at hs
    · cases hs
    · rename_i stage _ hstage
      cases hs
      exact h.frame (.move hstage rfl rfl (fun _ => id) id fun hn => hn.elim)
    · cases hs

theorem Inv.start (setting : Option String) : Inv H (process H config setting).start where
  stored c hc := by cases hc
  sessions before c later hc := by simp [process] at hc
  logins i body seen hi := by cases hi

/-- In every run whose steps are safe, every password change takes effect. -/
theorem password_change_takes_effect (H : Sha256) (config : Config) (setting : Option String)
    (as : List Action) (s : State) (hrun : (process H config setting).run as = some s)
    (hsafe : (process H config setting).Meets (fun _ => State.Keeps H config) as) :
    TakesEffect H config setting as := by
  have inv : ∀ as s, (process H config setting).Meets (fun _ => State.Keeps H config) as →
      (process H config setting).run as = some s → Inv H s :=
    (process H config setting).run_induction_of_meets (I := fun _ => Inv H) (.start setting)
      fun _ s a s' hinv hsafe hstep => hinv.step hsafe hstep
  rintro pre post t before c later rfl hpre hc hreturned
  have hinv := inv pre t (hsafe.of_append _) hpre
  have hrevoked : t.Revoked c := ⟨_, hreturned, trivial⟩
  constructor
  · intro token now session hvalid hlookup
    exact hinv.sessions before c later hc hrevoked _ (Sessions.mem_of_lookup hlookup)
  · rintro rfl i env rest body rfl hi
    have hread := hsafe pre (.advance i env) rest t rfl hpre i env _ rfl hi
    have hstored := hinv.stored c (by simp [hc])
    rw [hread, hstored]
    exact verifyAdminPassword_some

end

/-- Digests of three passwords. -/
def passwordHash : Sha256 := .ofTable
  { digests :=
      [("changeme1", "4bdf3fba58c956fc3991a1fde84929223f968e2853de596e49ae80a91499609b"),
        ("password2", "6cf615d5bcaac778352a8f1f3360d23f02f34ec182e259897fd6ce485d7870d4"),
        (" password2 ", "ec0a0a6c3fedff2abfa9813fb38b831e4a6866c403ba473827c9e046f27a12ad")]
    injective := by decide
    hex := by decide
    nonempty := by decide }

/-- An installation whose password was never changed. -/
def freshInstall : Config where
  adminToken := "changeme1"
  hashFile := none
  sessionTtl := 3600

def calm : Env where
  dbOk := true
  dbError := ""
  now := 0
  token := "5e55"

/-- The administrator changes the first password, with it as the header. -/
def changeTo (newPassword : String) : Request :=
  .guarded ⟨none, none, some "changeme1"⟩ (.changePassword ⟨"changeme1", newPassword⟩)

/-- A handler runs to its end, or to the given step. -/
def steps (i n : Nat) : List Action := List.replicate n (.advance i calm)

/-- A change that returns, and a login with the new password. -/
def changeThenLogin (newPassword : String) : List Action :=
  .start (changeTo newPassword) :: steps 0 8 ++
    .start (.login ⟨none, newPassword⟩) :: steps 1 4

/-- A login with the first password is verified, the password is changed, and the login goes on. -/
def loginAcrossChange : List Action :=
  .start (.login ⟨none, "changeme1"⟩) :: steps 0 3 ++
    .start (changeTo "password2") :: steps 1 8 ++ steps 0 1

/-- A change to a password without white space around it, and a login with it. -/
theorem password_change_takes_effect_once :
    ∃ s, (process passwordHash freshInstall none).run (changeThenLogin "password2") = some s ∧
      s.shared.changes = [⟨0, "password2"⟩] ∧
      s.tasks = [.returned .passwordChanged, .loginAudit "admin" "5e55"] ∧
      TakesEffect passwordHash freshInstall none (changeThenLogin "password2") := by
  refine ⟨_, rfl, rfl, rfl, password_change_takes_effect _ _ _ _ _ rfl ?_⟩
  apply Machine.Along.meets
  refine ⟨?_, ?_, ?_, ?_, ?_, ?_, ?_, ?_, ?_, ?_, ?_, ?_, ?_, ?_, trivial⟩ <;>
    rintro i env stage ⟨⟩ ⟨⟩
  all_goals try exact trivial
  · intro _
    decide
  · rfl
  · intro before c later hc hlen
    have hlength : 1 = (before ++ c :: later).length := congrArg List.length hc
    have hseen : 1 ≤ before.length := hlen
    rw [List.length_append, List.length_cons] at hlength
    omega

/-- After a change to a password with white space around it, the password does not open a session.
A login that was verified before a change, with the first password, has a valid session after it. -/
theorem old_password_outlives_change :
    (∃ s, (process passwordHash freshInstall none).run (changeThenLogin " password2 ") = some s ∧
      s.tasks[1]? = some (.returned (.refused 401 "invalid admin password")) ∧
      ¬ TakesEffect passwordHash freshInstall none (changeThenLogin " password2 ")) ∧
    ∃ s, (process passwordHash freshInstall none).run loginAcrossChange = some s ∧
      (s.shared.sessions.valid "5e55" 1).1 = true ∧
      ¬ TakesEffect passwordHash freshInstall none loginAcrossChange := by
  refine ⟨⟨_, rfl, rfl, fun h => ?_⟩, _, rfl, rfl, fun h => ?_⟩
  · have hlogin := h (.start (changeTo " password2 ") :: steps 0 8 ++
        .start (.login ⟨none, " password2 "⟩) :: steps 1 2) (steps 1 2) _ [] _ [] rfl rfl rfl rfl
    exact absurd ((hlogin.2 rfl 1 calm _ _ rfl rfl).mpr rfl) (by decide)
  · have hold := h loginAcrossChange [] _ [] _ [] rfl rfl rfl rfl
    obtain ⟨d, hd, heq⟩ := hold.1 "5e55" 1 _ rfl rfl
    rw [List.mem_singleton] at hd
    subst hd
    exact absurd heq (by decide)

end Kinetix.Admin
