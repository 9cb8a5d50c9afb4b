import Kinetix.Admin.Sessions
import Kinetix.Config.Writes
import Kinetix.Foundation.Json
import Kinetix.Library.Fallible

/-!
# Enrolling accounts through a browser

`PluginAuthSessions` of `auth.rs`: an authorization that was started waits under a random state
until it is taken, revoked or expires. On it work `start_plugin_auth`, `plugin_auth_callback`,
`complete_plugin_auth_manual` and `plugin_auth_status` of `admin.rs`, each from one await or lock to
the next, next to the handlers of the admin's sessions and to whatever else writes the tables and
the plugins.

## Implementation notes

`Instant` is a number of seconds. A session carries the number under which its start is recorded,
which the code does not have and no operation reads.

What a plugin answers, what is drawn at random and whether a statement of the database succeeds is
part of a step. The state keeps what was started, exchanged and inserted; no step reads it. Audit
entries are left out, and so is what becomes of an account after it was inserted.
-/

namespace Kinetix.Enrollment
open Admin (constantTimeEq)

/-- What is used of a `url::Url`. -/
structure Url where
  scheme : String
  username : String := ""
  password : Option String := none
  /-- `host_str`. -/
  host : Option String
  port : Option Nat
  path : String
  query : Option String := none
  fragment : Option String := none
  queryPairs : List (String × String) := []

/-- `port_or_known_default`. -/
def Url.portOrKnownDefault (url : Url) : Option Nat :=
  match url.port with
  | some port => some port
  | none =>
    if url.scheme = "http" ∨ url.scheme = "ws" then some 80
    else if url.scheme = "https" ∨ url.scheme = "wss" then some 443
    else if url.scheme = "ftp" then some 21
    else none

/-- An authorization that waits for its callback. -/
structure PluginAuthSession where
  pluginId : String
  flowName : String
  integrationId : String
  providerId : String
  credentialBinding : String
  redirectUri : String
  pkceVerifier : String
  initiator : String
  expiresAt : Nat
  serial : Nat
  deriving DecidableEq

/-- What a poll is told. -/
structure PluginAuthStatus where
  result : String
  providerId : Option String
  deriving DecidableEq

/-- How an authorization ended, kept for polls. -/
structure CompletedPluginAuth where
  initiator : String
  status : PluginAuthStatus
  expiresAt : Nat

/-- `PLUGIN_AUTH_TTL`. -/
def pluginAuthTtl : Nat := 10 * 60

/-- The plugins whose redirect is a loopback address. -/
def claudeCodeOauth : String := "dev.kinetix.claude-code-oauth"

/-- The id of the Antigravity plugin. -/
def antigravityOauth : String := "dev.kinetix.antigravity-oauth"

/-- `PluginAuthSessions`: the entries of its two maps, by state. -/
structure PluginAuthSessions where
  inner : List (String × PluginAuthSession)
  completed : List (String × CompletedPluginAuth)

namespace PluginAuthSessions
variable (sessions : PluginAuthSessions)

/-- `map.retain(|_, session| session.expires_at > now)`. -/
def retain (now : Nat) : PluginAuthSessions :=
  { sessions with inner := sessions.inner.filter fun e => now < e.2.expiresAt }

/-- `revoke`, and the removal of an entry in the other operations. -/
def revoke (state : String) : PluginAuthSessions :=
  { sessions with inner := sessions.inner.filter fun e => e.1 ≠ state }

/-- `create`, with the state that is drawn. -/
def create (state : String) (now : Nat) (session : PluginAuthSession) : PluginAuthSessions :=
  let kept := (sessions.retain now).revoke state
  { kept with inner := (state, { session with expiresAt := now + pluginAuthTtl }) :: kept.inner }

/-- `peek`: the session stays where it is. -/
def peek (state initiator : String) (now : Nat) :
    Option PluginAuthSession × PluginAuthSessions :=
  let kept := sessions.retain now
  ((kept.inner.lookup state).filter fun session => constantTimeEq session.initiator initiator, kept)

/-- `status`: pending, or what was recorded for the initiator. -/
def status (state initiator : String) (now : Nat) :
    Option PluginAuthStatus × PluginAuthSessions :=
  let (pending, kept) := sessions.peek state initiator now
  if pending.isSome then (some ⟨"pending", none⟩, kept)
  else
    let completed := kept.completed.filter fun e => now < e.2.expiresAt
    (((completed.lookup state).filter fun entry =>
      constantTimeEq entry.initiator initiator).map CompletedPluginAuth.status,
      { kept with completed })

/-- `record_completion`. -/
def recordCompletion (state initiator : String) (status : PluginAuthStatus) (now : Nat) :
    PluginAuthSessions :=
  let kept := (sessions.completed.filter fun e => now < e.2.expiresAt).filter fun e => e.1 ≠ state
  { sessions with completed := (state, ⟨initiator, status, now + pluginAuthTtl⟩) :: kept }

/-- The removal that both ways of taking begin with. -/
def remove (state : String) (now : Nat) : Option PluginAuthSession × PluginAuthSessions :=
  let kept := sessions.retain now
  ((kept.inner.lookup state).filter fun session => now < session.expiresAt, kept.revoke state)

/-- `take`: the entry is consumed also when another session is presented. -/
def take (state initiator : String) (now : Nat) : Option PluginAuthSession × PluginAuthSessions :=
  let (session, kept) := sessions.remove state now
  (session.filter fun session => constantTimeEq session.initiator initiator, kept)

end PluginAuthSessions

/-- The redirect of a session is one for which `take_loopback_callback` needs no cookie. -/
def PluginAuthSession.loopbackCallback (parse : String → Option Url)
    (session : PluginAuthSession) : Bool :=
  (parse session.redirectUri).any fun redirect =>
    redirect.scheme == "http" && redirect.username == "" && redirect.password.isNone &&
      redirect.query.isNone && redirect.fragment.isNone &&
      if session.pluginId = claudeCodeOauth then
        redirect.host == some "localhost" && redirect.path == "/callback"
      else if session.pluginId = antigravityOauth then
        (redirect.host == some "localhost" || redirect.host == some "127.0.0.1" ||
          redirect.host == some "::1") && redirect.path == "/callback"
      else false

/-- Takes a session; only one of the loopback is an answer. -/
def PluginAuthSessions.takeLoopbackCallback (parse : String → Option Url)
    (sessions : PluginAuthSessions) (state : String) (now : Nat) :
    Option PluginAuthSession × PluginAuthSessions :=
  let (session, kept) := sessions.remove state now
  (session.filter (·.loopbackCallback parse), kept)

/-! ## What the operations do -/

namespace PluginAuthSessions
variable {sessions : PluginAuthSessions} {state initiator : String} {now : Nat}
  {session : PluginAuthSession} {e : String × PluginAuthSession}

/-- How many entries are for the start with a number. -/
def pending (sessions : PluginAuthSessions) (serial : Nat) : Nat :=
  sessions.inner.countP fun e => e.2.serial == serial

theorem mem_retain (h : e ∈ (sessions.retain now).inner) : e ∈ sessions.inner :=
  (List.mem_filter.mp h).1

theorem mem_revoke (h : e ∈ (sessions.revoke state).inner) : e ∈ sessions.inner :=
  (List.mem_filter.mp h).1

theorem mem_create (h : e ∈ (sessions.create state now session).inner) :
    e = (state, { session with expiresAt := now + pluginAuthTtl }) ∨ e ∈ sessions.inner := by
  rcases List.mem_cons.mp h with h | h
  · exact Or.inl h
  · exact Or.inr (mem_retain (mem_revoke h))

theorem pending_retain (serial : Nat) : (sessions.retain now).pending serial ≤
    sessions.pending serial :=
  List.filter_sublist.countP_le

theorem pending_revoke (serial : Nat) : (sessions.revoke state).pending serial ≤
    sessions.pending serial :=
  List.filter_sublist.countP_le

theorem pending_create (serial : Nat) : (sessions.create state now session).pending serial ≤
    sessions.pending serial + if session.serial = serial then 1 else 0 := by
  have hkept : ((sessions.retain now).revoke state).pending serial ≤ sessions.pending serial :=
    Nat.le_trans (pending_revoke serial) (pending_retain serial)
  rw [pending] at hkept
  rw [create, pending, List.countP_cons]
  simpa using hkept

theorem peek_snd : (sessions.peek state initiator now).2 = sessions.retain now := rfl

theorem status_inner : (sessions.status state initiator now).2.inner =
    (sessions.retain now).inner := by
  rw [status]
  simp only [peek_snd]
  split <;> rfl

theorem remove_snd : (sessions.remove state now).2 = (sessions.retain now).revoke state := rfl

/-- What is removed was pending, is not expired, and is pending no more. -/
theorem remove_eq_some (h : (sessions.remove state now).1 = some session) :
    (state, session) ∈ sessions.inner ∧ now < session.expiresAt ∧
      ∀ serial, (sessions.remove state now).2.pending serial +
        (if session.serial = serial then 1 else 0) ≤ sessions.pending serial := by
  obtain ⟨hlookup, hlive⟩ := Option.filter_eq_some_iff.mp h
  obtain ⟨l₁, l₂, hinner, -⟩ := List.lookup_eq_some_iff.mp hlookup
  have hmem : (state, session) ∈ (sessions.retain now).inner := by simp [hinner]
  refine ⟨mem_retain hmem, of_decide_eq_true hlive, fun serial => ?_⟩
  have hretain : (sessions.retain now).pending serial ≤ sessions.pending serial :=
    pending_retain serial
  refine Nat.le_trans ?_ hretain
  have hsub : ((sessions.remove state now).2.inner).Sublist (l₁ ++ l₂) := by
    rw [remove_snd, revoke, hinner, List.filter_append, List.filter_cons_of_neg (by simp),
      ← List.filter_append]
    exact List.filter_sublist
  have hle := hsub.countP_le (p := fun e => e.2.serial == serial)
  rw [List.countP_append] at hle
  simp only [pending, hinner, List.countP_append, List.countP_cons, beq_iff_eq]
  omega

theorem take_eq_some (h : (sessions.take state initiator now).1 = some session) :
    (sessions.remove state now).1 = some session ∧ session.initiator = initiator := by
  obtain ⟨hremove, hinitiator⟩ := Option.filter_eq_some_iff.mp h
  exact ⟨hremove, eq_of_beq hinitiator⟩

theorem takeLoopbackCallback_eq_some {parse : String → Option Url}
    (h : (sessions.takeLoopbackCallback parse state now).1 = some session) :
    (sessions.remove state now).1 = some session ∧ session.loopbackCallback parse = true :=
  Option.filter_eq_some_iff.mp h

end PluginAuthSessions

open Checks Config Json

structure ApiError where
  status : Nat
  message : String

def ApiError.bad (message : String) : ApiError := ⟨400, message⟩

/-- What the handlers read of an integration. -/
structure Integration where
  id : String
  credentialStrategy : Option String
  authFlow : Option String

/-- What the handlers use of a manifest. -/
structure Manifest where
  integrations : List Integration
  networkHosts : List String

/-- What the process is configured with, and what it uses of its libraries. -/
structure Deployment where
  hash : Sha256
  admin : Admin.Config
  bind : String
  publicBaseUrl : String
  /-- There is a plugin manager. -/
  pluginHost : Bool
  parseUrl : String → Option Url
  json : SerdeJson
  /-- The base64 text of the SHA-256 digest. -/
  pkceChallenge : String → String
  /-- `Crypto::encrypt`. -/
  encrypt : String → Option String

/-! ## Checks -/

/-- `manifest::host_matches`. -/
def hostMatches (pattern host : String) : Bool :=
  let pattern := Text.toAsciiLowercase (Text.trim pattern)
  let host := Text.toAsciiLowercase (Text.trim host)
  match Text.stripPrefix pattern "*." with
  | some suffix =>
    if suffix.toList.isSuffixOf host.toList then
      let label := String.ofList (host.toList.take (host.length - suffix.length))
      let label := (Text.stripSuffix label '.').getD label
      label != "" && !Text.contains label "."
    else false
  | none => pattern == host

/-- `resolve_auth_integration`. -/
def resolveAuthIntegration (integrations : List Integration) (integrationId flowName : String) :
    Except ApiError Integration := do
  let integration ← okOr (integrations.find? (·.id == integrationId))
    (.bad "provider authentication integration is unavailable")
  refuseIf (integration.authFlow ≠ some flowName)
    (.bad "requested auth flow does not match the provider source integration")
  return integration

/-- A provider may enroll through this exact integration. -/
def validatePluginAuthEnrollment (provider : ProviderRow)
    (pluginId integrationId credentialBinding : String) : Except ApiError Unit := do
  refuseIf (provider.credentialMode ≠ "auth_flow")
    (.bad "provider does not use authentication-flow credential enrollment")
  refuseIf (provider.sourcePluginId ≠ some pluginId ∨
      provider.sourceIntegrationId ≠ some integrationId)
    (.bad "provider authentication integration provenance does not match the requested flow")
  refuseIf (provider.credentialPlugin ≠ credentialBinding)
    (.bad ("provider '" ++ provider.id ++ "' is not bound to integration credential strategy '" ++
      credentialBinding ++ "'"))

/-- The name of a host without the brackets of an IPv6 address. -/
def bareHost (host : String) : String :=
  String.ofList ((host.toList.dropWhile (· = '[')).reverse.dropWhile (· = ']')).reverse

/-- The host and the port that the process is bound to, if it is bound to a loopback or to the
unspecified address. -/
def loopbackBind (D : Deployment) : Except ApiError (String × Nat) := do
  let base ← okOr (D.parseUrl ("http://" ++ D.bind))
    (.bad "KINETIX_BIND is not a valid host:port")
  let host ← okOr (base.host.map bareHost) (.bad "KINETIX_BIND has no host")
  refuseIf (host ∉ ["localhost", "127.0.0.1", "0.0.0.0", "::1", "::"])
    (.bad "loopback OAuth requires KINETIX_BIND to be loopback or unspecified")
  let port ← okOr base.port (.bad "KINETIX_BIND must include a port")
  return (host, port)

/-- `claude_code_loopback_redirect`. -/
def claudeCodeLoopbackRedirect (D : Deployment) : Except ApiError String := do
  let (_, port) ← loopbackBind D
  return "http://localhost:" ++ toString port ++ "/callback"

/-- `antigravity_loopback_redirect`. -/
def antigravityLoopbackRedirect (D : Deployment) : Except ApiError String := do
  let (host, port) ← loopbackBind D
  let callbackHost :=
    if host = "127.0.0.1" ∨ host = "0.0.0.0" then "127.0.0.1"
    else if host = "localhost" then "localhost"
    else "[::1]"
  return "http://" ++ callbackHost ++ ":" ++ toString port ++ "/callback"

/-- The redirect of the plugins that are called back over the loopback. -/
def loopbackRedirect (D : Deployment) (pluginId : String) : Option (Except ApiError String) :=
  if pluginId = claudeCodeOauth then some (claudeCodeLoopbackRedirect D)
  else if pluginId = antigravityOauth then some (antigravityLoopbackRedirect D)
  else none

/-- `char::is_control`. -/
def isControl (c : Char) : Bool := c.toNat < 32 || (127 ≤ c.toNat && c.toNat < 160)

/-- `sanitize_account_label`. -/
def sanitizeAccountLabel (label : String) : String :=
  let cleaned := (label.toList.map fun c => if Text.isWhitespace c then ' ' else c).filter
    fun c => !isControl c
  String.ofList ((Text.trim (String.ofList cleaned)).toList.take 120)

/-- The label, or its first numbered variant that no account has. One of as many variants as there
are accounts, and one more, is free. -/
def freeLabel (labels : List String) (base : String) : String :=
  if base ∈ labels then
    (((List.range (labels.length + 1)).map fun i =>
      base ++ " (#" ++ toString (i + 2) ++ ")").find? (· ∉ labels)).getD base
  else base

/-! ## Requests -/

/-- The body of `start_plugin_auth`. -/
structure PluginAuthStartBody where
  pluginId : String
  flowName : String
  providerId : String

/-- The query of the callback. -/
structure PluginAuthCallbackQuery where
  state : String
  code : Option String
  error : Option String

/-- How an exchange ended. -/
structure PluginAuthCompletion where
  result : String
  providerId : Option String

/-- What the plugin makes of an authorization code. -/
structure AuthResult where
  secretJson : String
  accountLabel : Option String

/-- The handlers behind `AdminAuth`. -/
inductive Guarded where
  | startPluginAuth (body : PluginAuthStartBody)
  | completePluginAuthManual (callbackUrl : String)
  | pluginAuthStatus (state : String)

/-- A request to the process, with what the guard reads of it. -/
inductive Request where
  | guarded (credentials : Admin.Credentials) (handler : Guarded)
  | pluginAuthCallback (cookie : Option String) (query : PluginAuthCallbackQuery)

/-- What `start_plugin_auth` has checked before it creates a session. -/
structure CheckedStart where
  token : String
  body : PluginAuthStartBody
  integrationId : String
  credentialBinding : String
  networkHosts : List String

/-- What a session was taken with. -/
inductive Presented where
  /-- The cookie of a callback. -/
  | cookie (token : String)
  /-- A callback without a cookie. -/
  | loopback
  /-- The credential that `AdminAuth` admitted. -/
  | admitted (token : String)

/-- A completion that has taken its session. -/
structure Completion where
  session : PluginAuthSession
  query : PluginAuthCallbackQuery
  presented : Presented
  takenAt : Nat

/-- The answer to a request. -/
inductive Reply where
  | started (authorizeUrl redirectUri state : String) (expiresInSecs : Nat)
      (manualCallbackSupported : Bool)
  | redirected (completion : PluginAuthCompletion)
  | completed (ok : Bool) (completion : PluginAuthCompletion)
  | status (status : PluginAuthStatus)
  | refused (error : ApiError)

/-- Where `AdminAuth` waits. -/
inductive Auth where
  | cookie (credentials : Admin.Credentials)
  | header (token : String)
  | verify (token : String)

/-- Where a handler waits. -/
inductive Stage where
  /-- `require_control_plane`. -/
  | controlPlane (credentials : Admin.Credentials) (handler : Guarded)
  | auth (waiting : Auth) (handler : Guarded)
  | startProvider (token : String) (body : PluginAuthStartBody)
  | startPlugin (token : String) (body : PluginAuthStartBody) (provider : ProviderRow)
      (integrationId : String)
  | startBaseUrl (checked : CheckedStart)
  /-- Before the answer of `auth_begin`. -/
  | startBegin (checked : CheckedStart) (redirectUri state pkceChallenge : String)
  | manualHealth (token callbackUrl : String)
  | manualPeek (token : String) (callback : Url) (state : String)
  | manualTake (token : String) (query : PluginAuthCallbackQuery)
  | status (token state : String)
  | callbackHealth (cookie : Option String) (query : PluginAuthCallbackQuery)
  | callbackTake (cookie : Option String) (query : PluginAuthCallbackQuery)
  /-- Before `auth_exchange`. -/
  | exchange (c : Completion) (code : String)
  | recheckPlugin (c : Completion) (result : AuthResult)
  | recheckProvider (c : Completion) (result : AuthResult) (integrationId binding : String)
  /-- Before `accounts_for_provider`. -/
  | listAccounts (c : Completion) (provider : ProviderRow) (encrypted baseLabel : String)
  | insertAccount (c : Completion) (provider : ProviderRow) (encrypted label : String)
      (priority : Int64)
  | reload (c : Completion) (provider : ProviderRow) (accountId : String)
  /-- `finalize_plugin_auth_account`. -/
  | finalize (c : Completion) (provider : ProviderRow) (accountId : String)
  /-- Before the audit entry of a completion. -/
  | audit (c : Completion) (completion : PluginAuthCompletion)
  | returned (reply : Reply)
  /-- The client is gone and the future was dropped. -/
  | dropped

/-- Every request but a `GET` goes through the middleware. -/
def Request.entry : Request → Stage
  | .guarded credentials (.pluginAuthStatus state) =>
    .auth (.cookie credentials) (.pluginAuthStatus state)
  | .guarded credentials handler => .controlPlane credentials handler
  | .pluginAuthCallback cookie query => .callbackHealth cookie query

/-- What `AdminAuth` hands an admitted request to. -/
def Guarded.admitted (token : String) : Guarded → Stage
  | .startPluginAuth body => .startProvider token body
  | .completePluginAuthManual callbackUrl => .manualHealth token callbackUrl
  | .pluginAuthStatus state => .status token state

def Stage.refused (error : ApiError) : Stage := .returned (.refused error)

def Stage.ofResult : Except ApiError Stage → Stage
  | .ok stage => stage
  | .error error => .refused error

end Kinetix.Enrollment
