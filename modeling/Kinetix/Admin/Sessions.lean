import Kinetix.Foundation.Digest
import Kinetix.Foundation.Text
import Kinetix.Library.Machine

/-!
# Administrators: passwords and sessions

What the handlers of the admin API share, and what each of them does between two awaits or locks.

## Implementation notes

`Instant` is a number of seconds. A session carries the password that its login presented and the
shared state lists the password changes that were stored. The code has neither; no step reads them.
-/

namespace Kinetix.Admin

/-- A login that is stored. -/
structure Session where
  expires : Nat
  /-- What the login that created the session presented. -/
  presented : String

/-- `Sessions`: the entries of the map, by token. -/
abbrev Sessions := List (String × Session)

namespace Sessions

/-- `create`, with the token that is drawn and the time. -/
def create (sessions : Sessions) (token : String) (now ttl : Nat) (presented : String) : Sessions :=
  (token, ⟨now + ttl, presented⟩) ::
    (sessions.filter fun e => now < e.2.expires).filter fun e => e.1 ≠ token

def revoke (sessions : Sessions) (token : String) : Sessions :=
  sessions.filter fun e => e.1 ≠ token

/-- `valid`: an expired entry that is found is removed. -/
def valid (sessions : Sessions) (token : String) (now : Nat) : Bool × Sessions :=
  if token = "" then (false, sessions)
  else match sessions.lookup token with
    | some session =>
      if now < session.expires then (true, sessions) else (false, sessions.revoke token)
    | none => (false, sessions)

def revokeAll (_ : Sessions) : Sessions := []

section
variable {sessions : Sessions} {token presented : String} {now ttl : Nat} {e : String × Session}

theorem mem_create (h : e ∈ sessions.create token now ttl presented) :
    e = (token, ⟨now + ttl, presented⟩) ∨ e ∈ sessions := by
  rcases List.mem_cons.mp h with h | h
  · exact Or.inl h
  · exact Or.inr (List.mem_filter.mp (List.mem_filter.mp h).1).1

theorem mem_of_mem_revoke (h : e ∈ sessions.revoke token) : e ∈ sessions :=
  (List.mem_filter.mp h).1

theorem mem_of_mem_valid (h : e ∈ (sessions.valid token now).2) : e ∈ sessions := by
  rw [valid] at h
  split at h
  · exact h
  · split at h
    · split at h
      · exact h
      · exact mem_of_mem_revoke h
    · exact h

theorem mem_of_lookup {session : Session} (h : sessions.lookup token = some session) :
    (token, session) ∈ sessions := by
  obtain ⟨l₁, l₂, rfl, -⟩ := List.lookup_eq_some_iff.mp h
  simp

theorem lookup_revoke {other : String} (h : token ≠ other) :
    (sessions.revoke other).lookup token = sessions.lookup token := by
  induction sessions with
  | nil => rfl
  | cons e sessions ih =>
    rw [revoke] at ih ⊢
    by_cases he : e.1 = other
    · have htoken : (token == e.1) = false := beq_false_of_ne (he ▸ h)
      rw [List.filter_cons_of_neg (by simp [he]), ih, List.lookup_cons, htoken]
    · rw [List.filter_cons_of_pos (by simp [he]), List.lookup_cons, List.lookup_cons, ih]

/-- A look at one session leaves the sessions that are valid. -/
theorem valid_of_valid {other : String} (h : (sessions.valid token now).1 = true) :
    ((sessions.valid other now).2.valid token now).1 = true := by
  have keeps : (sessions.valid other now).2 = sessions ∨
      (sessions.valid other now).1 = false ∧
        (sessions.valid other now).2 = sessions.revoke other := by
    unfold valid
    grind
  rcases keeps with hkeep | ⟨hdead, hrevoke⟩
  · rwa [hkeep]
  · have htoken : token ≠ other := by
      rintro rfl
      rw [h] at hdead
      cases hdead
    rw [hrevoke, valid, lookup_revoke htoken]
    rw [valid] at h
    split at h <;> grind

end

end Sessions

/-- The part of the configuration that the admin API reads. -/
structure Config where
  adminToken : String
  /-- The text of `admin_password.hash`, if the file can be read. -/
  hashFile : Option String
  /-- `Sessions::ttl`. -/
  sessionTtl : Nat

/-- A password change that was stored. -/
structure Change where
  /-- The handler. -/
  task : Nat
  password : String

/-- What the handlers share. -/
structure Shared where
  /-- The value under `ADMIN_PASSWORD_SETTING`. -/
  setting : Option String
  sessions : Sessions
  /-- The changes that were stored, in order. -/
  changes : List Change

/-- What a step meets outside. -/
structure Env where
  /-- The database answers. -/
  dbOk : Bool
  dbError : String
  now : Nat
  /-- The random bytes of a new session token, in hexadecimal. -/
  token : String

/-- `db::get_setting`, if the database answers. -/
def Shared.readSetting (s : Shared) (env : Env) : Option (Option String) :=
  if env.dbOk then some s.setting else none

/-- `crypto::constant_time_eq`. -/
def constantTimeEq (a b : String) : Bool := a == b

/-- `stored_admin_hash`, after the setting was read or could not be read. -/
def storedAdminHash (config : Config) : Option (Option String) → Option String
  | some (some h) => some h
  | some none => (config.hashFile.map Text.trim).filter (· ≠ "")
  | none => (config.hashFile.map Text.trim).filter (· ≠ "")

/-- `verify_admin_password`, after the setting was read or could not be read. -/
def verifyAdminPassword (H : Sha256) (config : Config) (read : Option (Option String))
    (password : String) : Bool :=
  match storedAdminHash config read with
  | some stored => constantTimeEq (H.hex password) stored
  | none => constantTimeEq (H.hex password) (H.hex config.adminToken)

@[simp] theorem verifyAdminPassword_some {H : Sha256} {config : Config} {h password : String} :
    verifyAdminPassword H config (some (some h)) password = true ↔ H.hex password = h := by
  simp [verifyAdminPassword, storedAdminHash, constantTimeEq]

structure LoginBody where
  username : Option String
  password : String

structure PasswordBody where
  currentPassword : String
  newPassword : String

/-- What a request presents to `AdminAuth`. -/
structure Credentials where
  /-- The reason for which the check of the Cloudflare Access assertion refuses the request, if it
  is configured and does. -/
  accessRefusal : Option String
  cookie : Option String
  headerToken : Option String

/-- The handlers behind `AdminAuth`. -/
inductive Guarded where
  | changePassword (body : PasswordBody)
  | me

inductive Request where
  | login (body : LoginBody)
  | logout (cookie : Option String)
  | guarded (credentials : Credentials) (handler : Guarded)

/-- What a handler answers. -/
inductive Reply where
  | loggedIn (user token : String)
  | loggedOut
  | passwordChanged
  | authenticated (user : String)
  | refused (status : Nat) (message : String)

/-- Where a handler waits. -/
inductive Stage where
  /-- `require_control_plane`. -/
  | controlPlane (request : Request)
  | loginHealth (body : LoginBody)
  | loginVerify (body : LoginBody)
  /-- Before `sessions.create()`. The password was verified after `seen` changes had been stored. -/
  | loginCreate (body : LoginBody) (seen : Nat)
  | loginAudit (user token : String)
  | logoutAudit (cookie : Option String)
  | logoutRevoke (cookie : String)
  | authCookie (credentials : Credentials) (handler : Guarded)
  | authHeader (token : String) (handler : Guarded)
  | authVerify (token : String) (handler : Guarded)
  | changeVerify (body : PasswordBody)
  /-- Before `db::set_setting`. -/
  | changeStore (newPassword : String)
  /-- Before `sessions.revoke_all()`. -/
  | changeRevoke
  | changeAudit
  /-- Before the audit entry of a wrong password. -/
  | refusalAudit (message : String)
  | returned (reply : Reply)
  /-- The client is gone and the future was dropped. -/
  | dropped

def Request.first : Request → Stage
  | .login body => .loginHealth body
  | .logout cookie => .logoutAudit cookie
  | .guarded credentials handler => .authCookie credentials handler

/-- Every request but a `GET` goes through the middleware. -/
def Request.entry : Request → Stage
  | .guarded credentials .me => .authCookie credentials .me
  | request => .controlPlane request

/-- What `AdminAuth` hands an admitted request to. -/
def Guarded.admitted : Guarded → Stage
  | .changePassword body => .changeVerify body
  | .me => .returned (.authenticated "admin")

/-- `AdminAuth` after the cookie: the header is looked at next. -/
def authNext (credentials : Credentials) (handler : Guarded) : Stage :=
  match credentials.headerToken with
  | some token => .authHeader token handler
  | none => .returned (.refused 401 "admin authentication required")

/-- `change_password` from the length check on, and the one in `set_admin_password`. -/
def changeChecked (body : PasswordBody) : Stage :=
  if (Text.trim body.newPassword).utf8ByteSize < 8 then
    .returned (.refused 400 "new password must be at least 8 characters")
  else .changeStore body.newPassword

/-- One step of the handler with the given index. -/
def Stage.advance (H : Sha256) (config : Config) (i : Nat) (env : Env) (s : Shared) :
    Stage → Option (Shared × Stage)
  | .controlPlane request =>
    some (s, if env.dbOk then request.first
      else .returned (.refused 503
        "admin mutation unavailable: control-plane store is degraded"))
  | .loginHealth body =>
    some (s, if env.dbOk then .loginVerify body
      else .returned (.refused 503
        "admin authentication unavailable: control plane degraded"))
  | .loginVerify body =>
    some (s, if verifyAdminPassword H config (s.readSetting env) body.password then
        .loginCreate body s.changes.length
      else .refusalAudit "invalid admin password")
  | .loginCreate body _ =>
    some ({ s with
        sessions := s.sessions.create env.token env.now config.sessionTtl body.password },
      .loginAudit (body.username.getD "admin") env.token)
  | .loginAudit user token => some (s, .returned (.loggedIn user token))
  | .logoutAudit cookie =>
    some (s, match cookie with
      | some token => .logoutRevoke token
      | none => .returned .loggedOut)
  | .logoutRevoke token =>
    some ({ s with sessions := s.sessions.revoke token }, .returned .loggedOut)
  | .authCookie credentials handler =>
    match credentials.accessRefusal, credentials.cookie with
    | some reason, _ => some (s, .returned (.refused 403 reason))
    | none, none => some (s, authNext credentials handler)
    | none, some token =>
      let (live, sessions) := s.sessions.valid token env.now
      some ({ s with sessions },
        if live then handler.admitted else authNext credentials handler)
  | .authHeader token handler =>
    let (live, sessions) := s.sessions.valid token env.now
    some ({ s with sessions }, if live then handler.admitted else .authVerify token handler)
  | .authVerify token handler =>
    some (s, if verifyAdminPassword H config (s.readSetting env) token then handler.admitted
      else .returned (.refused 401 "admin authentication required"))
  | .changeVerify body =>
    some (s, if verifyAdminPassword H config (s.readSetting env) body.currentPassword then
        changeChecked body
      else .refusalAudit "current password is incorrect")
  | .changeStore newPassword =>
    if env.dbOk then
      some ({ s with
          setting := some (H.hex (Text.trim newPassword))
          changes := s.changes ++ [⟨i, newPassword⟩] }, .changeRevoke)
    else some (s, .returned (.refused 500 env.dbError))
  | .changeRevoke => some ({ s with sessions := s.sessions.revokeAll }, .changeAudit)
  | .changeAudit => some (s, .returned .passwordChanged)
  | .refusalAudit message => some (s, .returned (.refused 401 message))
  | .returned _ => none
  | .dropped => none

/-- The shared state and the handlers that were started. -/
structure State where
  shared : Shared
  tasks : List Stage

/-- A step of a handler, or the start of one. -/
inductive Action where
  | start (request : Request)
  | advance (i : Nat) (env : Env)
  /-- The future of a handler is dropped where it waits. -/
  | drop (i : Nat)

def State.step (H : Sha256) (config : Config) (s : State) : Action → Option State
  | .start request => some { s with tasks := s.tasks ++ [request.entry] }
  | .advance i env => do
    let stage ← s.tasks[i]?
    let (shared, next) ← stage.advance H config i env s.shared
    pure ⟨shared, s.tasks.set i next⟩
  | .drop i =>
    match s.tasks[i]? with
    | some (.returned _) => none
    | some _ => some { s with tasks := s.tasks.set i .dropped }
    | none => none

/-- The process from its start, with what the database holds then. -/
def process (H : Sha256) (config : Config) (setting : Option String) :
    StateMachine.Machine State Action where
  start := ⟨⟨setting, [], []⟩, []⟩
  step := State.step H config

end Kinetix.Admin
