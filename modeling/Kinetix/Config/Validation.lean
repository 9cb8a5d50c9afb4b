import Kinetix.Import.Law
import Kinetix.Outbound.Destination

/-!
# Creating providers and accounts, and validating them before

`create_provider` and `create_account` of `admin.rs`, and `validate_provider` and
`validate_account_edit`, which look at the same bodies and write nothing. The two sides were written
apart: `validate.rs` asks for more than the handlers that write.

## Implementation notes

The `url` crate, the encryption and what is drawn at random are parameters. Of an installed plugin
there is what `PluginManager::resolve_binding` reads.
-/

namespace Kinetix.Config
open Checks Import Json Outbound Statements

/-! ## The application -/

/-- The capabilities of a plugin to which a provider can be bound. -/
inductive Capability where
  | credentialStrategy
  | modelSource
  | accountModelSource
  | providerAdapter
  deriving DecidableEq

def Capability.manifestKey : Capability → String
  | credentialStrategy => "credential_strategies"
  | modelSource => "model_sources"
  | accountModelSource => "account_model_sources"
  | providerAdapter => "provider_adapters"

/-- What `resolve_binding` reads of a plugin. -/
structure Plugin where
  enabled : Bool
  /-- What the manifest provides, if it can be read. -/
  provided : Option (List (Capability × String))
  /-- `ensure_permissions_approved`. -/
  permissionsApproved : Bool
  /-- `store::circuit_ready`. -/
  circuitReady : Bool

/-- The manifest offers the capability under the name. -/
def Plugin.provides (p : Plugin) (capability : Capability) (name : String) : Bool :=
  p.provided.any fun provided => provided.contains (capability, name)

def Plugin.isUsable (p : Plugin) : Bool :=
  p.enabled && p.provided.isSome && p.permissionsApproved && p.circuitReady

/-- The plugins that are installed, by id. -/
abbrev PluginManager := String → Option Plugin

def PluginManager.resolveBinding (manager : PluginManager) (reference : String)
    (capability : Capability) : Option String := do
  let r ← PluginRef.parse reference
  let plugin ← manager r.pluginId
  if plugin.provides capability r.capability && plugin.isUsable then some r.pluginId else none

/-- What the handlers read of the application besides the database. -/
structure App where
  allowInsecureTls : Bool
  allowPrivateUpstreams : Bool
  pluginManager : Option PluginManager
  parseUrl : String → Except String Url
  encrypt : String → Option String
  json : SerdeJson

/-- What a call draws. -/
structure Drawn where
  provider : Stamp
  account : Stamp
  audit : Stamp

/-! ## Creating -/

/-- The body of `create_provider` and of its dry run. -/
structure ProviderBody where
  name : String
  baseUrl : String
  wireFormat : String
  authScheme : String := "bearer"
  customHeaderName : Option String := none
  customParamName : Option String := none
  extraHeaders : List (String × Value) := []
  timeoutMs : Int64 := 120000
  capabilityMode : String := "permissive"
  modelsPath : Option String := none
  rateLimitRules : Option Value := none
  followRedirects : Bool := false
  credentialHosts : String := ""
  allowInsecureTls : Bool := false
  wirePlugin : String := ""
  credentialPlugin : String := ""
  modelSourcePlugin : String := ""
  apiKey : Option String := none
  accountLabel : Option String := none

/-- The body of a new account. -/
structure NewAccountBody extends AccountBody where
  providerId : String

/-- What `provider_plugin_binding_problems` finds of one of the two first bindings. -/
def bindingProblems (manager : Option PluginManager) (field reference : String)
    (capability : Capability) : List String :=
  let reference := Text.trim reference
  if reference = "" then []
  else if (PluginRef.parse reference).isNone then
    [field ++ " must use plugin:<id>/<capability-name> syntax"]
  else match manager with
    | none =>
      [field ++ " references '" ++ reference ++ "' but the plugin host is unavailable"]
    | some manager =>
      if (manager.resolveBinding reference capability).isNone then
        [field ++ " reference '" ++ reference ++ "' does not resolve to an installed, " ++
          "enabled, approved plugin providing " ++ capability.manifestKey]
      else []

/-- What it finds of the model source, which is of either capability. -/
def modelSourceProblems (manager : Option PluginManager) (reference : String) : List String :=
  let reference := Text.trim reference
  if reference = "" then []
  else if (PluginRef.parse reference).isNone then
    ["model_source_plugin must use plugin:<id>/<capability-name> syntax"]
  else match manager with
    | none =>
      ["model_source_plugin references '" ++ reference ++ "' but the plugin host is unavailable"]
    | some manager =>
      if (manager.resolveBinding reference .accountModelSource).isNone ∧
          (manager.resolveBinding reference .modelSource).isNone then
        ["model_source_plugin reference '" ++ reference ++ "' does not resolve to an " ++
          "installed, enabled, approved plugin providing account_model_sources or model_sources"]
      else []

/-- `provider_plugin_binding_problems`. -/
def providerPluginBindingProblems (app : App) (body : ProviderBody) : List String :=
  bindingProblems app.pluginManager "wire_plugin" body.wirePlugin .providerAdapter ++
    bindingProblems app.pluginManager "credential_plugin" body.credentialPlugin
      .credentialStrategy ++
    modelSourceProblems app.pluginManager body.modelSourcePlugin

/-- `validate_outbound_url`, with the text of its error. -/
def validateOutboundUrl (app : App) (url : String) : Except String Unit := do
  let parsed ← (app.parseUrl url).mapError ("invalid URL: " ++ ·)
  let host ← okOr parsed.host "URL must have a host"
  refuseIf (parsed.scheme ≠ "https" ∧ app.allowInsecureTls = false)
    ("endpoint must use https (set KINETIX_ALLOW_INSECURE_TLS=true to override for local " ++
      "development)")
  refuseIf (app.allowPrivateUpstreams = false ∧ isBlockedHost host = true)
    ("host '" ++ host ++ "' resolves to a blocked private/metadata range; set " ++
      "KINETIX_ALLOW_PRIVATE_UPSTREAMS=true to allow")

/-- `account_label_or_default`. -/
def accountLabelOrDefault (providerName : String) (label : Option String) : String :=
  ((label.map Text.trim).filter (· ≠ "")).getD (Text.trim providerName ++ " (primary)")

/-- The columns of the provider that is created. -/
def ProviderBody.fields (app : App) (body : ProviderBody) (wire : WireFormat) (auth : AuthScheme) :
    ProviderFields where
  name := body.name
  baseUrl := body.baseUrl
  wireFormat := wire.asStr
  authScheme := auth.asStr
  customHeaderName := body.customHeaderName
  customParamName := body.customParamName
  extraHeaders := app.json.toString (.object body.extraHeaders)
  timeoutMs := body.timeoutMs
  capabilityMode := body.capabilityMode
  modelsPath := body.modelsPath
  rateLimitRules := app.json.toString (body.rateLimitRules.getD (.object []))
  followRedirects := body.followRedirects
  credentialHosts := body.credentialHosts
  allowInsecureTls := body.allowInsecureTls
  wirePlugin := body.wirePlugin
  credentialPlugin := body.credentialPlugin
  modelSourcePlugin := body.modelSourcePlugin

/-- The key of a body, if it is not blank. -/
def ProviderBody.newKey (body : ProviderBody) : Option String :=
  body.apiKey.filter fun k => Text.trim k ≠ ""

/-- `state.crypto.encrypt(..)`. -/
def encryptKey (app : App) (key : String) : ImportHandler String :=
  Checked.ofResult (okOr (app.encrypt key) .internal)

/-- What `create_provider` checks of a body, with the wire format and the scheme that it has. -/
def ProviderBody.check (app : App) (body : ProviderBody) :
    Except ApiError (WireFormat × AuthScheme) := do
  (validateOutboundUrl app body.baseUrl).mapError .bad
  let problems := providerPluginBindingProblems app body
  refuseIf (problems ≠ []) (.bad ("; ".intercalate problems))
  let wire ← okOr (WireFormat.parse body.wireFormat) (.bad "invalid wire_format")
  refuseIf (wire = .plugin ∧ Text.trim body.wirePlugin = "")
    (.bad "wire_format 'plugin' requires a wire_plugin binding")
  let auth ← okOr (AuthScheme.parse body.authScheme) (.bad "invalid auth_scheme")
  return (wire, auth)

/-- The optional initial credential. -/
def insertInitialAccount (app : App) (drawn : Drawn) (body : ProviderBody) (key : String) :
    ImportHandler Unit := do
  let enc ← encryptKey app key
  ImportStatement.run (.insertAccount (newAccount drawn.account.id drawn.provider.id
    (accountLabelOrDefault body.name body.accountLabel) enc (maskSecret key) 1 1 none "none"
    drawn.account.createdAt))

/-- `create_provider`, with the first account if a key came along. -/
def createProvider (app : App) (drawn : Drawn) (body : ProviderBody) : ImportHandler String := do
  let (wire, auth) ← Checked.ofResult (body.check app)
  ImportStatement.run (.insertProvider (newProvider drawn.provider.id drawn.provider.createdAt
    (body.fields app wire auth) ⟨"manual", none, none⟩))
  body.newKey.forM (insertInitialAccount app drawn body)
  lift (insertAudit ⟨drawn.audit.id, drawn.audit.createdAt, "admin", "provider_created", "provider",
    drawn.provider.id, body.name, "Added " ++ body.name ++ " upstream (" ++ body.wireFormat ++
      " wire format at " ++ body.baseUrl ++ ")."⟩)
  lift reloadRegistry
  return drawn.provider.id

/-- The provider of a new account. -/
def enrollableProvider (body : NewAccountBody) : ImportHandler ProviderRow := do
  let row ← ImportStatement.run (.base (.getProvider body.providerId))
  let provider ← Checked.ofResult (okOr row (.notFound "provider not found"))
  Checked.ofResult (match manualAccountEnrollmentError provider.credentialMode with
    | some error => .error (.bad error)
    | none => .ok provider)

/-- `create_account`. -/
def createAccount (app : App) (drawn : Drawn) (body : NewAccountBody) : ImportHandler String := do
  let _ ← enrollableProvider body
  let key ← Checked.ofResult (okOr body.newKey (.bad "api_key is required"))
  let enc ← encryptKey app key
  ImportStatement.run (.insertAccount (newAccount drawn.account.id body.providerId body.label enc
    (maskSecret key) body.priority body.weight body.softQuotaUsd body.quotaType
    drawn.account.createdAt))
  lift (insertAudit ⟨drawn.audit.id, drawn.audit.createdAt, "admin", "account_credential_added",
    "account", drawn.account.id, body.label, "Enrolled a new credential into the pool."⟩)
  lift reloadRegistry
  return drawn.account.id

/-! ## Validating -/

/-- The companion of a scheme is missing, or the scheme is unknown. -/
def authSchemeProblems (authScheme : String) (customHeaderName customParamName : Option String) :
    List String :=
  if authScheme = "bearer" then []
  else if authScheme = "custom_header" then
    if Text.trim (customHeaderName.getD "") = "" then
      ["auth_scheme 'custom_header' requires custom_header_name"] else []
  else if authScheme = "query_param" then
    if Text.trim (customParamName.getD "") = "" then
      ["auth_scheme 'query_param' requires custom_param_name"] else []
  else
    ["unknown auth_scheme '" ++ authScheme ++ "' (expected bearer, custom_header, or query_param)"]

/-- `validate_provider_schema`. -/
def validateProviderSchema (name baseUrl wireFormat authScheme : String)
    (customHeaderName customParamName : Option String) : List String :=
  (if Text.trim name = "" then ["provider name is required"] else []) ++
    (if Text.trim baseUrl = "" then ["base_url is required"] else []) ++
    (if (WireFormat.parse wireFormat).isNone then
      ["unknown wire_format '" ++ wireFormat ++
        "' (expected openai, anthropic, gemini, or plugin)"] else []) ++
    authSchemeProblems authScheme customHeaderName customParamName

/-- `validate_account`. -/
def validateAccount (label : String) (apiKey : Option String) (quotaType : String) : List String :=
  (if Text.trim label = "" then ["account label is required"] else []) ++
    (if (apiKey.filter fun k => Text.trim k ≠ "").isNone then
      ["an api_key is required to create an account"] else []) ++
    if quotaType ∈ ["none", "daily", "monthly", "rolling"] then []
    else ["unknown quota_type '" ++ quotaType ++ "' (expected none, daily, monthly, or rolling)"]

/-- The answer of `validate_account_edit`. -/
structure Report where
  valid : Bool
  problems : List String
  note : String

/-- The answer of `validate_provider`. -/
structure ProviderReport extends Report where
  warnings : List String
  outboundSecurity : String
  credentialHostBinding : List String

/-- The entries of `credential_hosts`. -/
def credentialHostEntries (credentialHosts : String) : List String :=
  ((Text.splitAt credentialHosts ',').map Text.trim).filter (· ≠ "")

/-- An entry with a scheme or a path. -/
def isBareHost (host : String) : Bool :=
  !(Text.contains host "/" || Text.contains host " " || Text.contains host "://")

def credentialHostProblems (credentialHosts : String) : List String :=
  ((credentialHostEntries credentialHosts).filter fun host => !isBareHost host).map fun host =>
    "credential_hosts entry '" ++ host ++ "' is not a bare host (drop the scheme/path)"

/-- What the outbound rules find of a URL that is there. -/
def outboundProblems (app : App) (baseUrl : String) : List String :=
  if Text.trim baseUrl = "" then [] else problemOf (validateOutboundUrl app baseUrl)

/-- All problems of a provider, in the order of the report. -/
def ProviderBody.problems (app : App) (body : ProviderBody) : List String :=
  validateProviderSchema body.name body.baseUrl body.wireFormat body.authScheme
      body.customHeaderName body.customParamName ++
    providerPluginBindingProblems app body ++
    (if body.wireFormat = "plugin" ∧ Text.trim body.wirePlugin = "" then
      ["wire_format 'plugin' requires a wire_plugin binding"] else []) ++
    outboundProblems app body.baseUrl ++
    credentialHostProblems body.credentialHosts

def ProviderBody.warnings (body : ProviderBody) : List String :=
  if body.wireFormat = "anthropic" ∧ body.extraHeaders.any
      (fun header => Text.eqIgnoreAsciiCase header.1 "anthropic-version") = false then
    ["anthropic wire format: set an 'anthropic-version' extra header (Kinetix adds no hidden " ++
      "defaults)"]
  else []

/-- `validate_provider`. -/
def validateProvider (app : App) (body : ProviderBody) : ImportHandler ProviderReport :=
  return {
    valid := (body.problems app).isEmpty
    problems := body.problems app
    note := "Validate only: no provider was created and no upstream call was made (FR-8.6)."
    warnings := body.warnings
    outboundSecurity :=
      if Text.trim body.baseUrl ≠ "" ∧ (outboundProblems app body.baseUrl).isEmpty = true then
        "passed" else "not_checked"
    credentialHostBinding :=
      (((app.parseUrl body.baseUrl).toOption.bind Url.host).toList) ++
        (credentialHostEntries body.credentialHosts).filter isBareHost }

/-- What is found of the provider of an account. -/
def enrollmentProblems : Option ProviderRow → List String
  | some provider => (manualAccountEnrollmentError provider.credentialMode).toList
  | none => ["provider not found"]

/-- All problems of an account, in the order of the report. -/
def NewAccountBody.problems (body : NewAccountBody) (provider : Option ProviderRow) : List String :=
  validateAccount body.label body.apiKey body.quotaType ++ enrollmentProblems provider

def NewAccountBody.report (body : NewAccountBody) (provider : Option ProviderRow) : Report where
  valid := (body.problems provider).isEmpty
  problems := body.problems provider
  note := "Validate only: no account was created (FR-8.6)."

/-- `validate_account_edit`: one read and no write. -/
def validateAccountEdit (body : NewAccountBody) : ImportHandler Report := do
  let provider ← ImportStatement.run (.base (.getProvider body.providerId))
  return body.report provider

/-! ## What the two sides ask for -/

/-- What creating and validating a provider both check. -/
structure ProviderBody.Passes (app : App) (body : ProviderBody) : Prop where
  outbound : validateOutboundUrl app body.baseUrl = .ok ()
  bindings : providerPluginBindingProblems app body = []
  wire : (WireFormat.parse body.wireFormat).isSome = true
  adapter : body.wireFormat = "plugin" → Text.trim body.wirePlugin ≠ ""
  scheme : (AuthScheme.parse body.authScheme).isSome = true

/-- What only validating asks for. -/
structure ProviderBody.Complete (body : ProviderBody) : Prop where
  name : Text.trim body.name ≠ ""
  baseUrl : Text.trim body.baseUrl ≠ ""
  header : body.authScheme = "custom_header" → Text.trim (body.customHeaderName.getD "") ≠ ""
  param : body.authScheme = "query_param" → Text.trim (body.customParamName.getD "") ≠ ""
  hosts : ∀ host ∈ credentialHostEntries body.credentialHosts, isBareHost host = true

/-- The key of a new account can be encrypted. -/
def Encrypts (app : App) (key : Option String) : Prop :=
  ∀ k ∈ key, (app.encrypt k).isSome = true

/-- The provider of a new account is there and takes keys. -/
def NewAccountBody.EnrollsAt (db : Tables) (body : NewAccountBody) (provider : ProviderRow) :
    Prop :=
  db.getProvider body.providerId = some provider ∧
    manualAccountEnrollmentError provider.credentialMode = none

/-- What creating and validating an account both check: the provider, and that there is a key. -/
def NewAccountBody.Passes (db : Tables) (body : NewAccountBody) : Prop :=
  (∃ provider, body.EnrollsAt db provider) ∧ body.newKey.isSome = true

/-- An account has a label and a known quota. -/
def NewAccountBody.Complete (body : NewAccountBody) : Prop :=
  Text.trim body.label ≠ "" ∧ body.quotaType ∈ ["none", "daily", "monthly", "rolling"]

section
variable {app : App} {drawn : Drawn} {body : ProviderBody} {account : NewAccountBody} {s : Store}

theorem parse_eq_plugin {text : String} :
    WireFormat.parse text = some .plugin ↔ text = "plugin" := by
  constructor
  · intro h
    have hfound := List.find?_some h
    exact (of_decide_eq_true hfound).symm
  · rintro rfl
    decide

theorem ite_nil_eq_nil {α : Type} {c : Prop} [Decidable c] {a : α} :
    (if c then [a] else []) = [] ↔ ¬ c := by
  by_cases h : c <;> simp [h]

theorem problemOf_eq_nil {check : Except String Unit} : problemOf check = [] ↔ check = .ok () := by
  cases check <;> simp [problemOf]

theorem isSome_parse_iff {text : String} : (AuthScheme.parse text).isSome = true ↔
    text = "bearer" ∨ text = "custom_header" ∨ text = "query_param" := by
  rw [AuthScheme.parse, List.find?_isSome]
  simp [AuthScheme.asStr, eq_comm]

theorem authSchemeProblems_eq_nil {authScheme : String} {header param : Option String} :
    authSchemeProblems authScheme header param = [] ↔
      (AuthScheme.parse authScheme).isSome = true ∧
        (authScheme = "custom_header" → Text.trim (header.getD "") ≠ "") ∧
        (authScheme = "query_param" → Text.trim (param.getD "") ≠ "") := by
  rw [authSchemeProblems, isSome_parse_iff]
  by_cases hbearer : authScheme = "bearer"
  · simp [hbearer]
  by_cases hheader : authScheme = "custom_header"
  · simp [hheader]
  by_cases hparam : authScheme = "query_param"
  · simp [hparam]
  · simp [hbearer, hheader, hparam]

theorem credentialHostProblems_eq_nil {hosts : String} : credentialHostProblems hosts = [] ↔
    ∀ host ∈ credentialHostEntries hosts, isBareHost host = true := by
  rw [credentialHostProblems, List.map_eq_nil_iff, List.filter_eq_nil_iff]
  simp

theorem problems_eq_nil : body.problems app = [] ↔ body.Passes app ∧ body.Complete := by
  simp only [ProviderBody.problems, validateProviderSchema, List.append_eq_nil_iff, ite_nil_eq_nil,
    authSchemeProblems_eq_nil, credentialHostProblems_eq_nil, outboundProblems]
  constructor
  · rintro ⟨⟨⟨⟨⟨⟨⟨hname, hurl⟩, hwire⟩, hscheme, hheader, hparam⟩, hbindings⟩, hadapter⟩,
      houtbound⟩, hhosts⟩
    rw [if_neg hurl, problemOf_eq_nil] at houtbound
    rw [Bool.not_eq_true, Option.isNone_eq_false_iff] at hwire
    exact ⟨⟨houtbound, hbindings, hwire, fun hplugin hblank => hadapter ⟨hplugin, hblank⟩, hscheme⟩,
      ⟨hname, hurl, hheader, hparam, hhosts⟩⟩
  · rintro ⟨⟨houtbound, hbindings, hwire, hadapter, hscheme⟩, hname, hurl, hheader, hparam, hhosts⟩
    rw [if_neg hurl, problemOf_eq_nil]
    rw [← Option.isNone_eq_false_iff, ← Bool.not_eq_true] at hwire
    exact ⟨⟨⟨⟨⟨⟨⟨hname, hurl⟩, hwire⟩, hscheme, hheader, hparam⟩, hbindings⟩,
      fun h => hadapter h.1 h.2⟩, houtbound⟩, hhosts⟩

theorem mapError_eq_ok {α ε ε' : Type} {x : Except ε α} {g : ε → ε'} {a : α} :
    x.mapError g = .ok a ↔ x = .ok a := by
  cases x <;> simp [Except.mapError]

/-- The checks of a creation pass exactly if those of both sides do. -/
theorem check_isOk_iff : (∃ parsed, body.check app = .ok parsed) ↔ body.Passes app := by
  simp only [ProviderBody.check, bind_eq_ok, mapError_eq_ok, refuseIf_eq_ok, okOr_eq_ok,
    Unique.exists_iff, not_not, pure_eq_ok, not_and]
  constructor
  · rintro ⟨_, houtbound, hbindings, wire, hwire, hadapter, auth, hauth, -⟩
    refine ⟨houtbound, hbindings, Option.isSome_of_eq_some hwire, fun hplugin => hadapter ?_,
      Option.isSome_of_eq_some hauth⟩
    rw [parse_eq_plugin.mpr hplugin, Option.some.injEq] at hwire
    exact hwire.symm
  · rintro ⟨houtbound, hbindings, hwire, hadapter, hauth⟩
    obtain ⟨wire, hwire⟩ := Option.isSome_iff_exists.mp hwire
    obtain ⟨auth, hauth⟩ := Option.isSome_iff_exists.mp hauth
    refine ⟨(wire, auth), houtbound, hbindings, wire, hwire, fun hplugin => hadapter ?_, auth,
      hauth, rfl⟩
    rw [hplugin] at hwire
    exact parse_eq_plugin.mp hwire

/-- The ids that are drawn are of no row. -/
structure Drawn.Fresh (drawn : Drawn) (db : Tables) : Prop where
  provider : ∀ p ∈ db.providers, p.id ≠ drawn.provider.id
  account : ∀ a ∈ db.accounts, a.id ≠ drawn.account.id

/-- The end of a creation: the audit entry and the new snapshot. -/
theorem completes_finish (row : AuditLogRow) (id : String) (t : Store) :
    Checked.Completes ImportStatement.exec (do
      lift (insertAudit row)
      lift reloadRegistry
      return id) t := by
  let t' := audited t (fun _ => false) row
  exact ⟨id, t', (runs_insertAudit t row).bind ((runs_reloadRegistry t').bind Checked.Runs.pure)⟩

theorem exec_insertProvider {row : ProviderRow}
    (hfresh : ∀ p ∈ s.tables.providers, p.id ≠ row.id) :
    ImportStatement.exec (.insertProvider row) s =
      some ((), setProviders s (s.tables.providers ++ [row])) := by
  have hinsert : s.tables.insertProvider row =
      some { s.tables with providers := s.tables.providers ++ [row] } := by
    rw [Tables.insertProvider, if_neg]
    rintro ⟨p, hp, hid⟩
    exact hfresh p hp hid
  exact congrArg (Statement.write s) hinsert

theorem exec_insertAccount {row : AccountRow} (hfresh : ∀ a ∈ s.tables.accounts, a.id ≠ row.id)
    (hprovider : ∃ p ∈ s.tables.providers, p.id = row.providerId) :
    ImportStatement.exec (.insertAccount row) s =
      some ((), setAccounts s (s.tables.accounts ++ [row])) := by
  have hinsert : s.tables.insertAccount row =
      some { s.tables with accounts := s.tables.accounts ++ [row] } := by
    rw [Tables.insertAccount, if_neg]
    rintro (⟨a, ha, hid⟩ | hnone)
    · exact hfresh a ha hid
    · exact hnone hprovider
  exact congrArg (Statement.write s) hinsert

/-- What a part that encrypts a key and goes on needs. -/
theorem completes_encryptKey_bind {α : Type} {key : String} {f : String → ImportHandler α} :
    (encryptKey app key >>= f).Completes ImportStatement.exec s ↔
      ∃ enc, app.encrypt key = some enc ∧ (f enc).Completes ImportStatement.exec s := by
  rw [encryptKey, Checked.completes_ofResult_bind]
  simp only [okOr_eq_ok]

theorem runs_encryptKey {key enc : String} (henc : app.encrypt key = some enc) :
    Runs (encryptKey app key) s enc s := by
  rw [encryptKey, henc]
  exact Checked.Runs.ofResult

theorem runs_insertInitialAccount {key enc : String} (henc : app.encrypt key = some enc)
    (hfresh : ∀ a ∈ s.tables.accounts, a.id ≠ drawn.account.id)
    (hprovider : ∃ p ∈ s.tables.providers, p.id = drawn.provider.id) :
    ∃ t, Runs (insertInitialAccount app drawn body key) s () t :=
  ⟨_, (runs_encryptKey henc).bind (runs_statement (exec_insertAccount hfresh hprovider))⟩

theorem createProvider_completes (hfresh : drawn.Fresh s.tables) :
    (createProvider app drawn body).Completes ImportStatement.exec s ↔
      body.Passes app ∧ Encrypts app body.newKey := by
  rw [createProvider, Checked.completes_ofResult_bind, ← check_isOk_iff, ← exists_and_right]
  refine exists_congr fun ⟨wire, auth⟩ => and_congr_right fun _ => ?_
  let row := newProvider drawn.provider.id drawn.provider.createdAt (body.fields app wire auth)
    ⟨"manual", none, none⟩
  let s₁ := setProviders s (s.tables.providers ++ [row])
  have hstored : ∃ p ∈ s₁.tables.providers, p.id = drawn.provider.id :=
    ⟨row, List.mem_concat_self, rfl⟩
  refine (Checked.completes_bind_of_runs (t := s₁)
    (runs_statement (exec_insertProvider hfresh.provider))).trans ?_
  cases hkey : body.newKey with
  | none =>
    refine iff_of_true ?_ (by simp [Encrypts])
    exact (Checked.completes_bind_of_runs Checked.Runs.pure).mpr (completes_finish _ _ _)
  | some key =>
    simp only [Encrypts, Option.mem_some_iff, forall_eq', Option.isSome_iff_exists]
    constructor
    · intro hcompletes
      have hinitial := Checked.completes_of_bind hcompletes
      obtain ⟨enc, henc, -⟩ := completes_encryptKey_bind.mp hinitial
      exact ⟨enc, henc⟩
    · rintro ⟨enc, henc⟩
      obtain ⟨t, hruns⟩ := @runs_insertInitialAccount app drawn body s₁ key enc henc
        hfresh.account hstored
      exact (Checked.completes_bind_of_runs hruns).mpr (completes_finish _ _ _)

theorem runs_enrollableProvider {provider : ProviderRow}
    (h : account.EnrollsAt s.tables provider) : Runs (enrollableProvider account) s provider s := by
  have hread : Runs (ImportStatement.run (.base (.getProvider account.providerId))) s
      (some provider) s :=
    runs_statement (congrArg (fun row => some (row, s)) h.1)
  refine hread.bind (Checked.Runs.bind (t := s) Checked.Runs.ofResult ?_)
  rw [h.2]
  exact Checked.Runs.ofResult

theorem enrollsAt_of_completes
    (h : (enrollableProvider account).Completes ImportStatement.exec s) :
    ∃ provider, account.EnrollsAt s.tables provider := by
  rw [enrollableProvider, ImportStatement.run, Checked.completes_require_bind] at h
  obtain ⟨row, t, hread, h⟩ := h
  cases hread
  obtain ⟨provider, hprovider, h⟩ := Checked.completes_ofResult_bind.mp h
  obtain ⟨_, hmode⟩ := Checked.completes_ofResult.mp h
  refine ⟨provider, okOr_eq_ok.mp hprovider, ?_⟩
  cases herror : manualAccountEnrollmentError provider.credentialMode with
  | none => rfl
  | some error =>
    rw [herror] at hmode
    cases hmode

theorem createAccount_completes (hfresh : drawn.Fresh s.tables) :
    (createAccount app drawn account).Completes ImportStatement.exec s ↔
      account.Passes s.tables ∧ Encrypts app account.newKey := by
  rw [createAccount, NewAccountBody.Passes]
  constructor
  · intro h
    obtain ⟨provider, henrolls⟩ := enrollsAt_of_completes (Checked.completes_of_bind h)
    rw [Checked.completes_bind_of_runs (runs_enrollableProvider henrolls),
      Checked.completes_ofResult_bind] at h
    obtain ⟨key, hkey, h⟩ := h
    rw [okOr_eq_ok] at hkey
    obtain ⟨enc, henc, -⟩ := completes_encryptKey_bind.mp h
    refine ⟨⟨⟨provider, henrolls⟩, Option.isSome_of_eq_some hkey⟩, fun k hk => ?_⟩
    rw [hkey, Option.mem_some_iff] at hk
    exact hk ▸ Option.isSome_of_eq_some henc
  · rintro ⟨⟨⟨provider, henrolls⟩, hkey⟩, hencrypts⟩
    obtain ⟨key, hkey⟩ := Option.isSome_iff_exists.mp hkey
    obtain ⟨enc, henc⟩ := Option.isSome_iff_exists.mp (hencrypts key hkey)
    have hmem := List.mem_of_find?_eq_some henrolls.1
    have hid := s.tables.id_of_mem_getProvider henrolls.1
    rw [Checked.completes_bind_of_runs (runs_enrollableProvider henrolls), hkey,
      Checked.completes_ofResult_bind]
    refine ⟨key, rfl, completes_encryptKey_bind.mpr ⟨enc, henc, ?_⟩⟩
    refine (Checked.completes_bind_of_runs
      (runs_statement (exec_insertAccount hfresh.account ?_))).mpr (completes_finish _ _ _)
    exact ⟨provider, hmem, hid⟩

/-- What a validation finds if no statement fails. -/
def ReportsValid {ρ : Type} (valid : ρ → Bool) (x : ImportHandler ρ) (s : Store) : Prop :=
  ∃ report t, Runs x s report t ∧ valid report = true

theorem reportsValid_of_runs {ρ : Type} {valid : ρ → Bool} {x : ImportHandler ρ} {report : ρ}
    {t : Store} (h : Runs x s report t) : ReportsValid valid x s ↔ valid report = true := by
  constructor
  · rintro ⟨other, t', hother, hvalid⟩
    have hsame := (congrArg Prod.fst h).symm.trans (congrArg Prod.fst hother)
    rw [Except.ok.injEq] at hsame
    exact hsame ▸ hvalid
  · exact fun hvalid => ⟨report, t, h, hvalid⟩

theorem validateProvider_valid :
    ReportsValid (·.valid) (validateProvider app body) s ↔ body.Passes app ∧ body.Complete := by
  rw [validateProvider, reportsValid_of_runs Checked.Runs.pure, List.isEmpty_iff, problems_eq_nil]

theorem validateAccount_eq_nil {label quotaType : String} {key : Option String} :
    validateAccount label key quotaType = [] ↔
      (Text.trim label ≠ "" ∧ quotaType ∈ ["none", "daily", "monthly", "rolling"]) ∧
        (key.filter fun k => Text.trim k ≠ "").isSome = true := by
  rw [validateAccount, List.append_eq_nil_iff, List.append_eq_nil_iff, ite_nil_eq_nil,
    ite_nil_eq_nil, Bool.not_eq_true, Option.isNone_eq_false_iff]
  by_cases hquota : quotaType ∈ ["none", "daily", "monthly", "rolling"]
  · rw [if_pos hquota]
    simp only [hquota, and_true]
  · rw [if_neg hquota]
    simp only [hquota, and_false, false_and, List.cons_ne_nil]

theorem enrollmentProblems_eq_nil {provider : Option ProviderRow} :
    enrollmentProblems provider = [] ↔
      ∃ p, provider = some p ∧ manualAccountEnrollmentError p.credentialMode = none := by
  cases provider with
  | none | some provider => simp [enrollmentProblems]

theorem accountProblems_eq_nil : account.problems (s.tables.getProvider account.providerId) = [] ↔
    account.Passes s.tables ∧ account.Complete := by
  rw [NewAccountBody.problems, List.append_eq_nil_iff, validateAccount_eq_nil,
    enrollmentProblems_eq_nil]
  constructor
  · rintro ⟨⟨hcomplete, hkey⟩, henrolls⟩
    exact ⟨⟨henrolls, hkey⟩, hcomplete⟩
  · rintro ⟨⟨henrolls, hkey⟩, hcomplete⟩
    exact ⟨⟨hcomplete, hkey⟩, henrolls⟩

theorem runs_validateAccountEdit : Runs (validateAccountEdit account) s
    (account.report (s.tables.getProvider account.providerId)) s := by
  have hread : Runs (ImportStatement.run (.base (.getProvider account.providerId))) s
      (s.tables.getProvider account.providerId) s := runs_statement rfl
  exact hread.bind Checked.Runs.pure

theorem validateAccountEdit_valid :
    ReportsValid (·.valid) (validateAccountEdit account) s ↔
      account.Passes s.tables ∧ account.Complete := by
  rw [reportsValid_of_runs runs_validateAccountEdit, NewAccountBody.report, List.isEmpty_iff,
    accountProblems_eq_nil]

/-- A validation writes nothing, whichever statements fail. -/
theorem validate_unchanged (f : Faults) :
    ((validateProvider app body).perform ImportStatement.exec (s, f)).2.1 = s ∧
      ((validateAccountEdit account).perform ImportStatement.exec (s, f)).2.1 = s := by
  refine ⟨rfl, ?_⟩
  rw [validateAccountEdit]
  cases hf : f 0 with
  | false =>
    have hread : (ImportStatement.run (.base (.getProvider account.providerId))).perform
        ImportStatement.exec (s, f) =
          (.ok (s.tables.getProvider account.providerId), (s, f.drop 1)) :=
      Checked.perform_require_ok hf rfl
    rw [Checked.perform_bind_ok hread]
    rfl
  | true =>
    have hread : (ImportStatement.run (.base (.getProvider account.providerId))).perform
        ImportStatement.exec (s, f) = (.error .internal, (s, f.drop 1)) :=
      Checked.perform_require_error (.inl hf)
    rw [Checked.perform_bind_error hread]

end

/-! ## The agreement -/

/-- For providers and for accounts, validating agrees with creating if and only if a body that
passes the checks of both sides passes those of the validation exactly if its key can be
encrypted. -/
theorem validate_agrees_iff (app : App) (drawn : Drawn) (s : Store) (hfresh : drawn.Fresh s.tables)
    (body : ProviderBody) (account : NewAccountBody) :
    ((ReportsValid (·.valid) (validateProvider app body) s ↔
        (createProvider app drawn body).Completes ImportStatement.exec s) ↔
      (body.Passes app → (body.Complete ↔ Encrypts app body.newKey))) ∧
    ((ReportsValid (·.valid) (validateAccountEdit account) s ↔
        (createAccount app drawn account).Completes ImportStatement.exec s) ↔
      (account.Passes s.tables → (account.Complete ↔ Encrypts app account.newKey))) ∧
    ∀ f, ((validateProvider app body).perform ImportStatement.exec (s, f)).2.1 = s ∧
      ((validateAccountEdit account).perform ImportStatement.exec (s, f)).2.1 = s := by
  refine ⟨?_, ?_, validate_unchanged⟩
  · rw [validateProvider_valid, createProvider_completes hfresh, and_congr_right_iff]
  · rw [validateAccountEdit_valid, createAccount_completes hfresh, and_congr_right_iff]

/-! ## Bodies that only one side takes -/

def groqUrl : String := "https://api.groq.com/openai/v1"

def groqApp : App where
  allowInsecureTls := false
  allowPrivateUpstreams := false
  pluginManager := none
  parseUrl url :=
    if url = groqUrl then
      .ok { scheme := "https", host := some "api.groq.com", path := "/openai/v1" }
    else .error "relative URL without a base"
  encrypt key := if key = "gsk-0123456789" then some "AAECAwQFBgcICQoLc2VhbGVk" else none
  json := .ofEmptyObject

def groqBody : ProviderBody where
  name := "Groq"
  baseUrl := groqUrl
  wireFormat := "openai"

def groqProvider : ProviderRow :=
  newProvider "prov_groq" "2026-05-01T00:00:00Z" (groqBody.fields groqApp .openai .bearer)
    ⟨"manual", none, none⟩

def groqStore : Store := ⟨⟨[groqProvider], [], [], [], [], []⟩, []⟩

def groqDrawn : Drawn :=
  ⟨⟨"prov_1", "2026-05-01T00:01:00Z"⟩, ⟨"acc_1", "2026-05-01T00:01:00Z"⟩,
    ⟨"aud_1", "2026-05-01T00:01:00Z"⟩⟩

def groqAccount (quotaType : String) : NewAccountBody where
  label := "primary"
  apiKey := some "gsk-0123456789"
  priority := 1
  weight := 1
  softQuotaUsd := none
  quotaType := quotaType
  status := none
  providerId := "prov_groq"

theorem groqDrawn_fresh : groqDrawn.Fresh groqStore.tables := by
  constructor
  · decide
  · decide

theorem groqAccount_encrypts (quotaType : String) :
    Encrypts groqApp (groqAccount quotaType).newKey := by
  intro key hkey
  obtain rfl := Option.some.inj (Option.mem_filter_iff.mp hkey).1
  rfl

theorem groqBody_complete : groqBody.Complete where
  name := by decide +kernel
  baseUrl := by decide +kernel
  header := by decide
  param := by decide
  hosts := by decide +kernel

/-- Bodies that both sides take. -/
theorem validate_agrees_groq :
    (ReportsValid (·.valid) (validateProvider groqApp groqBody) groqStore ↔
      (createProvider groqApp groqDrawn groqBody).Completes ImportStatement.exec groqStore) ∧
    (ReportsValid (·.valid) (validateAccountEdit (groqAccount "daily")) groqStore ↔
      (createAccount groqApp groqDrawn (groqAccount "daily")).Completes ImportStatement.exec
        groqStore) := by
  obtain ⟨hprovider, haccount, -⟩ := validate_agrees_iff groqApp groqDrawn groqStore groqDrawn_fresh
    groqBody (groqAccount "daily")
  constructor
  · refine hprovider.mpr fun _ => iff_of_true groqBody_complete ?_
    rintro key ⟨⟩
  · refine haccount.mpr fun _ => iff_of_true ⟨?_, ?_⟩ (groqAccount_encrypts "daily")
    · decide +kernel
    · decide

/-- A provider without the header that its scheme needs, and an account with a quota of an unknown
type: neither is valid, and both are created. -/
theorem validate_disagrees :
    (¬ (ReportsValid (·.valid) (validateProvider groqApp
          { groqBody with authScheme := "custom_header" }) groqStore ↔
        (createProvider groqApp groqDrawn
          { groqBody with authScheme := "custom_header" }).Completes ImportStatement.exec
            groqStore)) ∧
    ¬ (ReportsValid (·.valid) (validateAccountEdit (groqAccount "weekly")) groqStore ↔
      (createAccount groqApp groqDrawn (groqAccount "weekly")).Completes ImportStatement.exec
        groqStore) := by
  constructor
  · rw [validateProvider_valid, createProvider_completes groqDrawn_fresh, and_congr_right_iff,
      Classical.not_imp]
    refine ⟨?_, fun h => ?_⟩
    · exact {
        outbound := by decide +kernel
        bindings := by decide +kernel
        wire := by decide
        adapter := by decide
        scheme := by decide }
    · refine absurd ((h.mpr ?_).header rfl) (by decide +kernel)
      rintro key ⟨⟩
  · rw [validateAccountEdit_valid, createAccount_completes groqDrawn_fresh, and_congr_right_iff,
      Classical.not_imp]
    refine ⟨⟨⟨groqProvider, ?_, ?_⟩, ?_⟩, fun h => ?_⟩
    · decide
    · decide
    · decide +kernel
    · exact absurd (h.mpr (groqAccount_encrypts "weekly")).2 (by decide)

end Kinetix.Config
