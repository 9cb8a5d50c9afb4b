import Kinetix.Enrollment.Handlers

/-!
# The steps of an enrollment

What each handler does between two awaits or locks, and the process in which any number of them run.

## Implementation notes

Other handlers may write any tables and change any plugin; they are steps of their own. The clock is
one for all.
-/

namespace Kinetix.Enrollment
open Checks Config

/-- A session and the time of its start. -/
structure Start where
  session : PluginAuthSession
  startedAt : Nat

/-- An account that was inserted, and what held when it was. -/
structure Insertion where
  completion : Completion
  account : AccountRow
  insertedAt : Nat
  admin : Admin.Shared
  tables : Tables

/-- What the handlers share. -/
structure Shared where
  now : Nat
  admin : Admin.Shared
  sessions : PluginAuthSessions
  tables : Tables
  /-- The installed plugins, each with its manifest if that can be read. -/
  plugins : List (String × Option Manifest)
  /-- The sessions that were created, each under its number. -/
  starts : List Start
  /-- The numbers of the sessions whose code was exchanged. -/
  exchanges : List Nat
  insertions : List Insertion

/-- What becomes of the credential of a new account. -/
inductive Validation where
  | resolved
  | unavailable
  /-- It is invalid; whether the account could be disabled. -/
  | invalid (disabled : Except String Unit)

/-- What a step meets outside. -/
structure Env where
  /-- The database answers. -/
  dbOk : Bool
  dbError : String := ""
  /-- The state and the verifier that are drawn for a session. -/
  state : String := ""
  pkceVerifier : String := ""
  /-- The setting under `PUBLIC_BASE_URL_SETTING`. -/
  publicBaseUrl : Option String := none
  authBegin : Except String String := .error ""
  authExchange : Except String AuthResult := .error ""
  accountId : String := ""
  createdAt : String := ""
  validation : Validation := .resolved

/-! ## Reading -/

/-- What a statement answers, if the database does. -/
def Env.query {α : Type} (env : Env) (answer : α) : Except ApiError α :=
  if env.dbOk then .ok answer else .error ⟨500, env.dbError⟩

/-- `plugin_manager`. -/
def pluginManager (D : Deployment) : Except ApiError Unit :=
  refuseIf (D.pluginHost = false) ⟨503, "plugin host is not available"⟩

/-- The integration that a manifest has for the flow, and the binding that it gives. -/
def integrationBinding (manifest : Manifest) (pluginId integrationId flowName : String) :
    Except ApiError (Integration × String) := do
  let integration ← resolveAuthIntegration manifest.integrations integrationId flowName
  let strategy ← okOr integration.credentialStrategy
    (.bad "integration has no credential strategy")
  return (integration, "plugin:" ++ pluginId ++ "/" ++ strategy)

/-- `PluginManager::get` and the manifest of what it finds. -/
def Shared.manifest (s : Shared) (env : Env) (pluginId : String) (missing : ApiError) :
    Except ApiError Manifest := do
  let row ← env.query (s.plugins.lookup pluginId)
  let manifest ← okOr row missing
  okOr manifest (.bad "plugin manifest is unreadable")

/-! ## Starting -/

/-- `start_plugin_auth` from the provider on. -/
def Shared.startProvider (D : Deployment) (env : Env) (s : Shared) (token : String)
    (body : PluginAuthStartBody) : Except ApiError Stage := do
  let row ← env.query (s.tables.getProvider body.providerId)
  let provider ← okOr row ⟨404, "provider not found"⟩
  let integrationId ← okOr provider.sourceIntegrationId
    (.bad "provider auth integration provenance is unavailable")
  pluginManager D
  return .startPlugin token body provider integrationId

/-- From the plugin on. -/
def Shared.checkStart (env : Env) (s : Shared) (token : String) (body : PluginAuthStartBody)
    (provider : ProviderRow) (integrationId : String) : Except ApiError CheckedStart := do
  let manifest ← s.manifest env body.pluginId ⟨404, "plugin not found"⟩
  let (integration, binding) ←
    integrationBinding manifest body.pluginId integrationId body.flowName
  validatePluginAuthEnrollment provider body.pluginId integration.id binding
  return ⟨token, body, integration.id, binding, manifest.networkHosts⟩

/-- `PluginAuthSessions::create`, and the call of `auth_begin`. -/
def Shared.createSession (D : Deployment) (env : Env) (s : Shared) (checked : CheckedStart)
    (redirectUri : String) : Shared × Stage :=
  let session : PluginAuthSession :=
    { pluginId := checked.body.pluginId
      flowName := checked.body.flowName
      integrationId := checked.integrationId
      providerId := checked.body.providerId
      credentialBinding := checked.credentialBinding
      redirectUri := redirectUri
      pkceVerifier := env.pkceVerifier
      initiator := checked.token
      expiresAt := s.now + pluginAuthTtl
      serial := s.starts.length }
  ({ s with
      sessions := s.sessions.create env.state s.now session
      starts := s.starts ++ [⟨session, s.now⟩] },
    .startBegin checked redirectUri env.state (D.pkceChallenge env.pkceVerifier))

/-- From the redirect on, which for a loopback redirect is at once. -/
def Shared.startChecked (D : Deployment) (env : Env) (s : Shared) (checked : CheckedStart) :
    Shared × Stage :=
  match loopbackRedirect D checked.body.pluginId with
  | some (.ok redirectUri) => s.createSession D env checked redirectUri
  | some (.error error) => (s, .refused error)
  | none => (s, .startBaseUrl checked)

/-- The last value that a query has for a key. -/
def lastValue (pairs : List (String × String)) (key : String) : Option String :=
  pairs.reverse.lookup key

/-- Why an authorization URL is refused, and whether the session is revoked. -/
def checkAuthorizeUrl (D : Deployment) (checked : CheckedStart) (redirectUri state : String)
    (authorizeUrl : String) : Except (Bool × ApiError) Unit := do
  let parsed ← okOr (D.parseUrl authorizeUrl)
    (false, .bad "plugin returned an invalid authorization URL")
  refuseIf (parsed.scheme ≠ "https") (true, .bad "plugin authorization URL must use https")
  let authHost ← okOr parsed.host (false, .bad "plugin authorization URL has no host")
  refuseIf (checked.networkHosts.any (hostMatches · authHost) = false)
    (true, .bad ("authorization host '" ++ authHost ++
      "' is not declared in plugin network_hosts"))
  refuseIf (lastValue parsed.queryPairs "redirect_uri" ≠ some redirectUri)
    (true, .bad "plugin authorization URL does not use the host-generated redirect_uri")
  refuseIf ((lastValue parsed.queryPairs "code_challenge").all (· == "") = true)
    (true, .bad "plugin authorization URL is missing the PKCE code_challenge")
  refuseIf (lastValue parsed.queryPairs "state" ≠ some state)
    (true, .bad "plugin authorization URL does not carry the host-generated state")

/-- `start_plugin_auth` from the answer of the plugin on. -/
def Shared.finishStart (D : Deployment) (env : Env) (s : Shared) (checked : CheckedStart)
    (redirectUri state : String) : Shared × Stage :=
  match env.authBegin with
  | .error error => ({ s with sessions := s.sessions.revoke state }, .refused (.bad error))
  | .ok authorizeUrl =>
    match checkAuthorizeUrl D checked redirectUri state authorizeUrl with
    | .error (revoked, error) =>
      ({ s with sessions := if revoked then s.sessions.revoke state else s.sessions },
        .refused error)
    | .ok () =>
      (s, .returned (.started authorizeUrl redirectUri state 600
        (checked.body.pluginId = claudeCodeOauth ∨ checked.body.pluginId = antigravityOauth)))

/-! ## Completing -/

def invalidState : ApiError := .bad "invalid or expired plugin auth state"

/-- `complete_plugin_auth` up to the exchange. -/
def Completion.begin (D : Deployment) (c : Completion) : Stage :=
  if c.query.error.isSome then .audit c ⟨"cancelled", none⟩
  else .ofResult do
    let code ← okOr (c.query.code.filter fun code => Text.trim code ≠ "")
      (.bad "authorization callback is missing code")
    pluginManager D
    return .exchange c
      (if c.session.pluginId = claudeCodeOauth then code ++ "#" ++ c.query.state else code)

/-- What is done with a session that was taken, or was not there. -/
def Shared.taken (D : Deployment) (s : Shared) (query : PluginAuthCallbackQuery)
    (presented : Presented) (result : Option PluginAuthSession × PluginAuthSessions) :
    Shared × Stage :=
  ({ s with sessions := result.2 },
    match result.1 with
    | some session => Completion.begin D ⟨session, query, presented, s.now⟩
    | none => .refused invalidState)

/-- What is checked of the pasted URL before the session is looked up. -/
def parseCallback (D : Deployment) (callbackUrl : String) : Except ApiError (Url × String) := do
  let callback ← okOr (D.parseUrl (Text.trim callbackUrl))
    (.bad "callback URL is not a valid URL")
  let state ← okOr (callback.queryPairs.lookup "state") (.bad "callback URL is missing state")
  return (callback, state)

/-- What is checked of it against the session. -/
def checkCallback (D : Deployment) (session : PluginAuthSession) (callback : Url) :
    Except ApiError Unit := do
  refuseIf (session.pluginId ≠ claudeCodeOauth ∧ session.pluginId ≠ antigravityOauth)
    (.bad ("manual callback completion is only available for reviewed loopback OAuth " ++
      "integrations"))
  let expected ← okOr (D.parseUrl session.redirectUri)
    (.bad "stored plugin redirect URI is invalid")
  refuseIf (¬ (callback.scheme = expected.scheme ∧ callback.host = expected.host ∧
      callback.portOrKnownDefault = expected.portOrKnownDefault ∧
      callback.path = expected.path))
    (.bad "pasted callback URL does not match the OAuth redirect URI for this session")

/-- `complete_plugin_auth_manual` from the look at the session to its removal. -/
def Shared.manualPeek (D : Deployment) (s : Shared) (token : String) (callback : Url)
    (state : String) : Shared × Stage :=
  let (session, sessions) := s.sessions.peek state token s.now
  ({ s with sessions }, .ofResult do
    let session ← okOr session invalidState
    checkCallback D session callback
    return .manualTake token
      ⟨state, callback.queryPairs.lookup "code", callback.queryPairs.lookup "error"⟩)

/-- From the answer of the exchange on. -/
def Completion.exchanged (D : Deployment) (env : Env) (c : Completion) : Stage :=
  match env.authExchange with
  | .error _ => .audit c ⟨"error", none⟩
  | .ok result => .ofResult do
      refuseIf (256 * 1024 < result.secretJson.utf8ByteSize)
        (.bad "plugin auth credential exceeds 256 KiB")
      let secret ← okOr (D.json.fromStr result.secretJson)
        (.bad "plugin auth credential is not valid JSON")
      refuseIf (secret.asObject = none) (.bad "plugin auth credential must be a JSON object")
      return .recheckPlugin c result

def Shared.recheckPlugin (env : Env) (s : Shared) (c : Completion) (result : AuthResult) :
    Except ApiError Stage := do
  let manifest ← s.manifest env c.session.pluginId
    (.bad "provider authentication plugin is not installed")
  let (integration, binding) ← integrationBinding manifest c.session.pluginId
    c.session.integrationId c.session.flowName
  return .recheckProvider c result integration.id binding

/-- The provider is still the one for which the session was started. -/
def enrolls (session : PluginAuthSession) (provider : ProviderRow)
    (integrationId binding : String) : Prop :=
  binding = session.credentialBinding ∧ validatePluginAuthEnrollment provider session.pluginId
    integrationId session.credentialBinding = .ok ()

instance (session : PluginAuthSession) (provider : ProviderRow) (integrationId binding : String) :
    Decidable (enrolls session provider integrationId binding) :=
  match h : validatePluginAuthEnrollment provider session.pluginId integrationId
      session.credentialBinding with
  | .ok () => decidable_of_iff (binding = session.credentialBinding) (by simp [enrolls, h])
  | .error _ => .isFalse (by simp [enrolls, h])

def Shared.recheckProvider (D : Deployment) (env : Env) (s : Shared) (c : Completion)
    (result : AuthResult) (integrationId binding : String) : Except ApiError Stage := do
  let row ← env.query (s.tables.getProvider c.session.providerId)
  let provider ← okOr row ⟨404, "provider not found"⟩
  if enrolls c.session provider integrationId binding then
    let encrypted ← okOr (D.encrypt result.secretJson) ⟨500, env.dbError⟩
    return .listAccounts c provider encrypted
      (((result.accountLabel.map sanitizeAccountLabel).filter (· ≠ "")).getD provider.name)
  else return .audit c ⟨"binding_changed", some provider.id⟩

def Shared.listAccounts (env : Env) (s : Shared) (c : Completion) (provider : ProviderRow)
    (encrypted baseLabel : String) : Except ApiError Stage := do
  let accounts ← env.query (s.tables.accountsFor provider.id)
  let priority := (accounts.map AccountRow.priority).foldl max
    ((accounts.map AccountRow.priority).headD 0)
  return .insertAccount c provider encrypted (freeLabel (accounts.map AccountRow.label) baseLabel)
    (priority + 1)

/-- The row of the new account. -/
def Env.account (env : Env) (provider : ProviderRow) (encrypted label : String)
    (priority : Int64) : AccountRow :=
  newAccount env.accountId provider.id label encrypted "oauth:****" priority 1 none "none"
    env.createdAt

def Shared.insertAccount (env : Env) (s : Shared) (c : Completion) (provider : ProviderRow)
    (encrypted label : String) (priority : Int64) : Shared × Stage :=
  let account := env.account provider encrypted label priority
  match env.query (s.tables.insertAccount account) with
  | .ok (some tables) =>
    ({ s with
        tables := tables
        insertions := s.insertions ++ [⟨c, account, s.now, s.admin, s.tables⟩] },
      .reload c provider account.id)
  | .ok none => (s, .refused ⟨500, env.dbError⟩)
  | .error error => (s, .refused error)

/-- `finalize_plugin_auth_account` up to its audit entry. -/
def Shared.finalize (env : Env) (s : Shared) (c : Completion) (provider : ProviderRow)
    (accountId : String) : Except ApiError Stage := do
  let row ← env.query (s.tables.getAccount accountId)
  let _ ← okOr row ⟨500, "completed OAuth account is missing"⟩
  match env.validation with
  | .resolved | .unavailable => return .audit c ⟨"success", some provider.id⟩
  | .invalid (.ok ()) => return .audit c ⟨"reauthorization_required", some provider.id⟩
  | .invalid (.error error) => throw ⟨500, error⟩

/-- `record_completion` under the initiator, and the answer. -/
def Shared.record (s : Shared) (c : Completion) (completion : PluginAuthCompletion) :
    Shared × Stage :=
  let record (initiator : String) : PluginAuthSessions :=
    s.sessions.recordCompletion c.query.state initiator
      ⟨completion.result, completion.providerId⟩ s.now
  match c.presented with
  | .admitted token =>
    ({ s with sessions := record token },
      .returned (.completed (completion.result = "success") completion))
  | .cookie _ | .loopback =>
    ({ s with sessions := record c.session.initiator }, .returned (.redirected completion))

/-! ## Handlers -/

/-- `AdminAuth` after the cookie: the header is looked at next. -/
def authNext (credentials : Admin.Credentials) (handler : Guarded) : Stage :=
  match credentials.headerToken with
  | some token => .auth (.header token) handler
  | none => .refused ⟨401, "admin authentication required"⟩

/-- A token is looked up among the admin's sessions. -/
def Shared.authToken (s : Shared) (token : String) (handler : Guarded) (otherwise : Stage) :
    Shared × Stage :=
  let (live, sessions) := s.admin.sessions.valid token s.now
  ({ s with admin := { s.admin with sessions } },
    if live then handler.admitted token else otherwise)

/-- `verify_admin_password`. -/
def Shared.verify (D : Deployment) (env : Env) (s : Shared) (token : String) : Bool :=
  Admin.verifyAdminPassword D.hash D.admin (if env.dbOk then some s.admin.setting else none) token

def Auth.advance (D : Deployment) (env : Env) (s : Shared) (handler : Guarded) :
    Auth → Shared × Stage
  | .cookie credentials =>
    match credentials.accessRefusal, credentials.cookie with
    | some reason, _ => (s, .refused ⟨403, reason⟩)
    | none, none => (s, authNext credentials handler)
    | none, some token => s.authToken token handler (authNext credentials handler)
  | .header token => s.authToken token handler (.auth (.verify token) handler)
  | .verify token =>
    (s, if s.verify D env token then handler.admitted token
      else .refused ⟨401, "admin authentication required"⟩)

/-- `if !db_healthy(&state).await`. -/
def Env.healthy (env : Env) (next : Stage) : Stage :=
  if env.dbOk then next
  else .refused
    ⟨503, "plugin account authorization unavailable: control plane degraded"⟩

/-- One step of a handler. -/
def Stage.advance (D : Deployment) (env : Env) (s : Shared) : Stage → Option (Shared × Stage)
  | .controlPlane credentials handler =>
    some (s, if env.dbOk then .auth (.cookie credentials) handler
      else .refused
        ⟨503, "admin mutation unavailable: control-plane store is degraded"⟩)
  | .auth waiting handler => some (waiting.advance D env s handler)
  | .startProvider token body => some (s, .ofResult (s.startProvider D env token body))
  | .startPlugin token body provider integrationId =>
    match s.checkStart env token body provider integrationId with
    | .ok checked => some (s.startChecked D env checked)
    | .error error => some (s, .refused error)
  | .startBaseUrl checked =>
    match env.query env.publicBaseUrl with
    | .ok url => some (s.createSession D env checked
        (url.getD D.publicBaseUrl ++ "/admin/api/plugins/auth/callback"))
    | .error error => some (s, .refused error)
  | .startBegin checked redirectUri state _ =>
    some (s.finishStart D env checked redirectUri state)
  | .manualHealth token callbackUrl =>
    some (s, env.healthy <| .ofResult do
      let (callback, state) ← parseCallback D callbackUrl
      return .manualPeek token callback state)
  | .manualPeek token callback state => some (s.manualPeek D token callback state)
  | .manualTake token query =>
    some (s.taken D query (.admitted token) (s.sessions.take query.state token s.now))
  | .status token state =>
    let (found, sessions) := s.sessions.status state token s.now
    some ({ s with sessions }, .ofResult do
      let answer ← okOr found invalidState
      return .returned (.status answer))
  | .callbackHealth cookie query => some (s, env.healthy (.callbackTake cookie query))
  | .callbackTake (some token) query =>
    some (s.taken D query (.cookie token) (s.sessions.take query.state token s.now))
  | .callbackTake none query =>
    some (s.taken D query .loopback
      (s.sessions.takeLoopbackCallback D.parseUrl query.state s.now))
  | .exchange c _ =>
    some ({ s with exchanges := s.exchanges ++ [c.session.serial] }, c.exchanged D env)
  | .recheckPlugin c result => some (s, .ofResult (s.recheckPlugin env c result))
  | .recheckProvider c result integrationId binding =>
    some (s, .ofResult (s.recheckProvider D env c result integrationId binding))
  | .listAccounts c provider encrypted baseLabel =>
    some (s, .ofResult (s.listAccounts env c provider encrypted baseLabel))
  | .insertAccount c provider encrypted label priority =>
    some (s.insertAccount env c provider encrypted label priority)
  | .reload c provider accountId =>
    some (s, .ofResult do
      env.query ()
      return .finalize c provider accountId)
  | .finalize c provider accountId => some (s, .ofResult (s.finalize env c provider accountId))
  | .audit c completion => some (s.record c completion)
  | .returned _ => none
  | .dropped => none

/-! ## The process -/

/-- What is shared, and the handlers under way. -/
structure State where
  shared : Shared
  /-- The handlers of the admin's sessions. -/
  adminTasks : List Admin.Stage
  tasks : List Stage

/-- A step of a handler, or a change from outside. -/
inductive Action where
  | wait (seconds : Nat)
  /-- A step of the handlers of the admin's sessions. -/
  | admin (a : Admin.Action)
  /-- Another handler writes tables. -/
  | write (tables : Tables)
  /-- Plugins are installed, changed or removed. -/
  | changePlugins (plugins : List (String × Option Manifest))
  | start (request : Request)
  | advance (i : Nat) (env : Env)
  /-- The future of a handler is dropped where it waits. -/
  | drop (i : Nat)

/-- The time of the process at a step of an admin handler. -/
def stamp (now : Nat) : Admin.Action → Admin.Action
  | .advance i env => .advance i { env with now }
  | a => a

/-- What a step of an admin handler does to the state of those handlers. -/
def State.adminStep (D : Deployment) (s : State) (a : Admin.Action) : Option Admin.State :=
  Admin.State.step D.hash D.admin ⟨s.shared.admin, s.adminTasks⟩ (stamp s.shared.now a)

def State.step (D : Deployment) (s : State) : Action → Option State
  | .wait seconds => some { s with shared.now := s.shared.now + seconds }
  | .admin a => do
    let admin ← s.adminStep D a
    pure { s with shared.admin := admin.shared, adminTasks := admin.tasks }
  | .write tables => some { s with shared.tables := tables }
  | .changePlugins plugins => some { s with shared.plugins := plugins }
  | .start request => some { s with tasks := s.tasks ++ [request.entry] }
  | .advance i env => do
    let stage ← s.tasks[i]?
    let (shared, next) ← stage.advance D env s.shared
    pure { s with shared := shared, tasks := s.tasks.set i next }
  | .drop i =>
    match s.tasks[i]? with
    | some (.returned _) => none
    | some _ => some { s with tasks := s.tasks.set i .dropped }
    | none => none

/-- What the database holds when the process starts. -/
structure Stored where
  setting : Option String
  tables : Tables
  plugins : List (String × Option Manifest)

def process (D : Deployment) (stored : Stored) : StateMachine.Machine State Action where
  start :=
    { shared :=
        { now := 0
          admin := ⟨stored.setting, [], []⟩
          sessions := ⟨[], []⟩
          tables := stored.tables
          plugins := stored.plugins
          starts := []
          exchanges := []
          insertions := [] }
      adminTasks := []
      tasks := [] }
  step := State.step D

end Kinetix.Enrollment
