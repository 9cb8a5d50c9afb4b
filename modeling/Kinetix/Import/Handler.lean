import Kinetix.Import.Writes

/-!
# Importing a configuration

`import_config` of `admin.rs`: it looks at each entry of the document by itself, and then writes the
sections one after the other, with ids found by name.

## Implementation notes

A `HashMap` is a function to optional values. What is drawn at random, the clock, the encryption,
the check of a URL and the plugins that are installed are parameters; the manifest of a plugin is
the part of it that the import reads. The answer is what it is made of and not yet JSON.
-/

namespace Kinetix.Import
open Config Json Statements

/-! ## The environment -/

/-- What of a plugin's permissions decides its credential mode. -/
structure Permissions where
  credentialScopes : List String
  credentialRead : Bool

/-- An integration that a manifest declares. -/
structure Integration where
  id : String
  credentialMode : Option CredentialMode
  credentialStrategy : Option String
  authFlow : Option String

/-- What an import reads of a manifest. -/
structure Manifest where
  permissions : Permissions
  integrations : List Integration

/-- `effective_credential_mode`. -/
def Integration.effectiveCredentialMode (i : Integration) (permissions : Permissions) :
    CredentialMode :=
  i.credentialMode.getD
    (if i.authFlow.isSome then .authFlow
    else if permissions.credentialRead || !permissions.credentialScopes.isEmpty then .manual
    else .none)

/-- What a row that is inserted draws. -/
structure Stamp where
  id : String
  createdAt : String

/-- What an import takes from outside of its document and its database. -/
structure Env where
  json : SerdeJson
  /-- `validate_outbound_url`, with the message of its error. -/
  outboundUrl : String → Option String
  /-- The plugin of an id, if it is installed, and its manifest, if that can be read. -/
  plugin : String → Except String (Option (Option Manifest))
  /-- `Crypto::encrypt("")`, for the entries of the providers. -/
  emptySecret : Nat → Option String
  /-- SQLite's `json_set` or `json_remove` of the configured transport. -/
  setTransport : Option String → String → String
  provider : Nat → Stamp
  noauth : Nat → Stamp
  account : Nat → Stamp
  model : Nat → Stamp
  route : Nat → Stamp
  target : Nat → Nat → String
  aliasStamp : Nat → Stamp
  audit : Stamp

/-- What the route of an entry draws. -/
def Env.forRoute (env : Env) (i : Nat) : Config.Env where
  json := env.json
  now := (env.route i).createdAt
  routeId := (env.route i).id
  targetId := env.target i
  auditId := env.audit.id
  encrypt _ := none

/-! ## Validation -/

/-- One line of the plan. -/
inductive PlanItem where
  | provider (name : String) (update : Bool)
  | model (name : String)
  | route (name : String) (targets : Nat)
  deriving DecidableEq

/-- What the checks of an entry give. -/
structure Checking where
  problems : List String
  plan : List PlanItem

/-- `validate_imported_provider_credential_semantics`. -/
def semanticsProblem (env : Env) (name : String) (mode : CredentialMode) (credentialPlugin : String)
    (pluginId integrationId : Option String) : Except String Unit :=
  let provider := "provider '" ++ name ++ "': "
  match mode with
  | .none =>
    Checks.refuseIf (credentialPlugin ≠ "")
      (provider ++ "credential_mode 'none' may not declare credential_plugin")
  | .authFlow => do
    let pluginId ← Checks.okOr (pluginId.filter fun value => Text.trim value ≠ "")
      (provider ++ "credential_mode 'auth_flow' requires source_plugin_id")
    let integrationId ← Checks.okOr (integrationId.filter fun value => Text.trim value ≠ "")
      (provider ++ "credential_mode 'auth_flow' requires source_integration_id")
    let binding ← Checks.okOr (PluginRef.parse credentialPlugin)
      (provider ++ "credential_mode 'auth_flow' requires a credential_plugin binding")
    Checks.refuseIf (binding.pluginId ≠ pluginId)
      (provider ++ "credential_plugin does not match source_plugin_id")
    match env.plugin pluginId with
    | .error error => .error (provider ++ error)
    | .ok none => .ok ()
    | .ok (some manifest) => do
      let source := provider ++ "source integration '" ++ integrationId ++ "' "
      let manifest ← Checks.okOr manifest (provider ++ "source plugin manifest is unreadable")
      let integration ← Checks.okOr
        (manifest.integrations.find? fun integration => integration.id = integrationId)
        (source ++ "is unavailable")
      Checks.refuseIf
        (integration.effectiveCredentialMode manifest.permissions ≠ .authFlow)
        (source ++ "is not an auth_flow integration")
      let strategy ← Checks.okOr integration.credentialStrategy
        (source ++ "has no credential strategy")
      Checks.refuseIf (credentialPlugin ≠ "plugin:" ++ pluginId ++ "/" ++ strategy)
        (provider ++ "credential_plugin does not match source integration '" ++ integrationId ++
          "'")
  | .manual => .ok ()

/-- The error of a check, if it has one. -/
def problemOf (check : Except String Unit) : List String :=
  match check with
  | .ok _ => []
  | .error problem => [problem]

namespace ProviderEntry
variable (p : ProviderEntry)

/-- A source that an entry states, or that of the stored provider. -/
def sourceOr (stated : Option Value) (stored : Option String) : Option String :=
  stated.elim stored Value.asStr

/-- The credential mode of an entry, given the stored provider. -/
def effectiveMode (existing : Option ProviderRow) : CredentialMode :=
  (p.explicitMode.or (existing.bind fun row => CredentialMode.parse row.credentialMode)).getD
    .manual

/-- What `validate` checks of a provider, and what it plans. -/
def check (env : Env) (existing : Option ProviderRow) : Checking where
  problems :=
    ((env.outboundUrl p.baseUrl).map fun e => "provider '" ++ p.name ++ "': " ++ e).toList ++
      (if (WireFormat.parse p.wireFormat).isNone then
        ["provider '" ++ p.name ++ "': invalid wire_format '" ++ p.wireFormat ++ "'"] else []) ++
      (if p.credentialMode.isSome ∧ p.explicitMode.isNone then
        ["provider '" ++ p.name ++
          "': credential_mode must be 'manual', 'auth_flow', or 'none'"] else []) ++
      problemOf (semanticsProblem env p.name (p.effectiveMode existing) p.credentialPlugin
        (sourceOr p.sourcePluginId (existing.bind fun row => row.sourcePluginId))
        (sourceOr p.sourceIntegrationId (existing.bind fun row => row.sourceIntegrationId)))
  plan := [.provider p.name existing.isSome]

end ProviderEntry

/-- `db::list_providers`. -/
def listProviders : ImportHandler (List ProviderRow) :=
  ImportStatement.run (.base (.select .listProviders))

/-- A provider without a name or a URL is not checked further. -/
def validateProvider (env : Env) (p : ProviderEntry) : ImportHandler Checking := do
  if p.name = "" ∨ p.baseUrl = "" then
    return ⟨["a provider entry is missing name or base_url"], []⟩
  else
    let providers ← listProviders
    return p.check env (providers.find? fun row => row.name = p.name)

def validateProviders (env : Env) : List ProviderEntry → ImportHandler Checking
  | [] => pure ⟨[], []⟩
  | p :: ps => do
    let checking ← validateProvider env p
    let rest ← validateProviders env ps
    return ⟨checking.problems ++ rest.problems, checking.plan ++ rest.plan⟩

/-- What `validate` checks of a model. -/
def ModelEntry.check (m : ModelEntry) : Checking where
  problems :=
    (if m.provider = "" ∨ m.upstreamId = "" then
      ["a model entry is missing provider or upstream_id"] else []) ++
      match m.transportOverride with
      | none => []
      | some value =>
        match value.asStr with
        | some transport =>
          if Text.trim transport = "" ∨ isTransport (Text.trim transport) then []
          else ["model '" ++ m.label ++ "' has unsupported transport override '" ++
            transport ++ "'"]
        | none => ["model '" ++ m.label ++ "' transport_override must be a string or null"]
  plan := [.model m.label]

/-- What `validate` checks of a route. -/
def RouteEntry.check (r : RouteEntry) : Checking where
  problems :=
    (if r.name = "" then ["a route entry is missing a name"] else []) ++
      if r.targets.length = 0 then ["route '" ++ r.name ++ "' has no targets"] else []
  plan := [.route r.name r.targets.length]

/-- The validate phase. -/
def validate (env : Env) (d : Document) : ImportHandler Checking := do
  let providers ← validateProviders env d.providers
  let rest := d.models.map ModelEntry.check ++ d.routes.map RouteEntry.check
  return ⟨providers.problems ++ rest.flatMap Checking.problems,
    providers.plan ++ rest.flatMap Checking.plan⟩

/-! ## Providers -/

namespace ProviderEntry
variable (p : ProviderEntry)

/-- The columns of a provider that the import writes. -/
def fields (env : Env) (wire : WireFormat) : ProviderFields where
  name := p.name
  baseUrl := p.baseUrl
  wireFormat := wire.asStr
  authScheme := ((AuthScheme.parse p.authScheme).getD .bearer).asStr
  customHeaderName := p.customHeaderName
  customParamName := p.customParamName
  extraHeaders := env.json.toString p.extraHeaders
  timeoutMs := p.timeoutMs
  capabilityMode := p.capabilityMode
  modelsPath := p.modelsPath
  rateLimitRules := env.json.toString p.rateLimitRules
  followRedirects := p.followRedirects
  credentialHosts := p.credentialHosts
  allowInsecureTls := p.allowInsecureTls
  wirePlugin := p.wirePlugin
  credentialPlugin := p.credentialPlugin
  modelSourcePlugin := p.modelSourcePlugin

/-- How a provider gets its credential, kept where the entry is silent. -/
def semantics (existing : Option ProviderRow) : ProviderSemantics where
  credentialMode := (p.effectiveMode existing).asStr
  sourcePluginId := sourceOr p.sourcePluginId (existing.bind fun row => row.sourcePluginId)
  sourceIntegrationId :=
    sourceOr p.sourceIntegrationId (existing.bind fun row => row.sourceIntegrationId)

end ProviderEntry

/-- The internal account that replaces all accounts of a provider. -/
def replaceAccounts (env : Env) (i : Nat) (providerId secret : String) : ImportHandler Unit := do
  ImportStatement.run (.unpinTargets ⟨providerId, false⟩)
  ImportStatement.run (.deleteAccounts ⟨providerId, false⟩)
  ImportStatement.run (.insertAccount (newAccount (env.noauth i).id providerId
    "__kinetix_noauth__" secret "" 1 1 none "none" (env.noauth i).createdAt))

/-- `reconcile_provider_account_mode`. -/
def reconcileAccountMode (env : Env) (i : Nat) (providerId : String) :
    CredentialMode → ImportHandler Unit
  | .none => do
    let accounts ← ImportStatement.run (.base (.select .listAccounts))
    let secret ← Checked.ofResult ((env.emptySecret i).elim (.error .internal) .ok)
    match accounts.filter fun a => a.providerId = providerId with
    | [a] =>
      if a.isSynthetic then ImportStatement.run (.resetAccount a.id secret)
      else replaceAccounts env i providerId secret
    | _ => replaceAccounts env i providerId secret
  | .manual | .authFlow => do
    ImportStatement.run (.unpinTargets ⟨providerId, true⟩)
    ImportStatement.run (.deleteAccounts ⟨providerId, true⟩)

/-- Ids by name; of two rows with one name the later one counts. -/
abbrev Ids := String → Option String

/-- The ids of the stored providers by their names. -/
def providerIds (rows : List ProviderRow) : Ids :=
  rows.foldl (fun ids p => Function.update ids p.name (some p.id)) fun _ => none

/-- `db::get_provider` of a provider that is there. -/
def getProvider (id : String) : ImportHandler ProviderRow := do
  let row ← ImportStatement.run (.base (.getProvider id))
  lift (orNotFound "provider not found" row)

/-- Updates the provider of the name, or creates one. -/
def importProvider (env : Env) (i : Nat) (p : ProviderEntry) (ids : Ids) : ImportHandler Ids := do
  let wire ← Checked.ofResult
    ((WireFormat.parse p.wireFormat).elim (.error (.bad "invalid wire_format")) .ok)
  match ids p.name with
  | some id => do
    let existing ← getProvider id
    ImportStatement.run (.updateProvider id (p.fields env wire))
    ImportStatement.run (.setSemantics id (p.semantics (some existing)))
    reconcileAccountMode env i id (p.effectiveMode (some existing))
    return ids
  | none => do
    let stamp := env.provider i
    ImportStatement.run (.insertProvider
      (newProvider stamp.id stamp.createdAt (p.fields env wire) (p.semantics none)))
    reconcileAccountMode env i stamp.id (p.effectiveMode none)
    return Function.update ids p.name (some stamp.id)

def importProviders (env : Env) : Nat → List ProviderEntry → Ids → ImportHandler Ids
  | _, [], ids => pure ids
  | i, p :: ps, ids => do
    let ids ← importProvider env i p ids
    importProviders env (i + 1) ps ids

/-! ## Accounts -/

/-- An account of an unknown provider is left out. -/
def importAccount (env : Env) (i : Nat) (a : AccountEntry) (providers : Ids) :
    ImportHandler Unit :=
  match providers a.provider with
  | none => pure ()
  | some providerId => do
    let provider ← getProvider providerId
    if provider.credentialMode = "none" ∨ a.label = "__kinetix_noauth__" then pure ()
    else match a.secretEnc with
      | none => pure ()
      | some secretEnc => do
        let accounts ← ImportStatement.run (.accountsForProvider providerId)
        if accounts.any fun row => row.label = a.label then pure ()
        else ImportStatement.run (.insertAccount (newAccount (env.account i).id providerId
          a.label secretEnc a.keyMask a.priority a.weight a.softQuotaUsd a.quotaType
          (env.account i).createdAt))

def importAccounts (env : Env) (providers : Ids) : Nat → List AccountEntry → ImportHandler Unit
  | _, [] => pure ()
  | i, a :: as => do
    importAccount env i a providers
    importAccounts env providers (i + 1) as

/-! ## Models -/

/-- The loop over the stored models, which reads the providers for each of them. -/
def readModelIds : List ModelRow → Ids → ImportHandler Ids
  | [], ids => pure ids
  | m :: ms, ids => do
    let providers ← listProviders
    let name := ((providers.find? fun p => p.id = m.providerId).map ProviderRow.name).getD ""
    readModelIds ms (Function.update ids (modelLabel name m.upstreamId) (some m.id))

def ModelEntry.fields (env : Env) (m : ModelEntry) : ModelFields where
  displayName := m.displayName
  enabled := m.enabled
  contextWindow := m.contextWindow
  maxOutputTokens := m.maxOutputTokens
  capabilities := env.json.toString (normalizeModelCapabilities m.capabilities)
  prices := env.json.toString (normalizePrices m.prices)
  parameters := env.json.toString m.parameters
  thinkingMap := env.json.toString m.thinkingMap
  extraRequest := env.json.toString m.extraRequest

/-- Updates the model of the label, or creates one. -/
def importModel (env : Env) (providers : Ids) (i : Nat) (m : ModelEntry) (ids : Ids) :
    ImportHandler Ids :=
  match providers m.provider, ids m.label with
  | none, _ => pure ids
  | some _, some id => do
    ImportStatement.run (.updateModel id (m.fields env))
    ImportStatement.run (.setTransport id (env.setTransport m.transport))
    return ids
  | some providerId, none => do
    let stamp := env.model i
    ImportStatement.run (.insertModel (newModel stamp.id providerId m.upstreamId
      (env.json.toString (.object [])) stamp.createdAt (m.fields env)))
    ImportStatement.run (.setTransport stamp.id (env.setTransport m.transport))
    return Function.update ids m.label (some stamp.id)

def importModels (env : Env) (providers : Ids) : Nat → List ModelEntry → Ids → ImportHandler Ids
  | _, [], ids => pure ids
  | i, m :: ms, ids => do
    let ids ← importModel env providers i m ids
    importModels env providers (i + 1) ms ids

/-! ## Routes -/

def TargetEntry.body (t : TargetEntry) (modelId : String) : RouteTargetBody where
  accountId := t.accountId
  modelId := modelId
  priority := t.priority
  weight := t.weight
  predicate := t.predicate
  paramOverrides := t.paramOverrides

/-- The body of an entry, with the targets whose models are found. -/
def RouteEntry.body (r : RouteEntry) (models : Ids) : RouteBody where
  name := r.name
  description := r.description
  strategy := r.strategy
  fallbackTriggers := r.fallbackTriggers
  portabilityPolicy := r.portabilityPolicy
  stickyRouting := r.stickyRouting
  cacheAffinity := r.cacheAffinity
  maxAttempts := r.maxAttempts
  targets := r.targets.filterMap fun t => (models t.model).map t.body

/-- Replaces the targets of the route of the name, or creates one. -/
def importRoute (env : Env) (models : Ids) (i : Nat) (r : RouteEntry) : ImportHandler Unit := do
  let body := r.body models
  let existing ← ImportStatement.run (.getRouteByName r.name)
  match existing with
  | some route => do
    ImportStatement.run
      (.base (.updateRoute route.id (body.fields (env.forRoute i) body.fallbackTriggers)))
    ImportStatement.run (.base (.clearRouteTargets route.id))
    lift (writeRouteTargets (body.targetRows (env.forRoute i) route.id))
  | none => do
    ImportStatement.run (.base (.insertRoute (body.newRow (env.forRoute i))))
    lift (writeRouteTargets (body.targetRows (env.forRoute i) (env.route i).id))

def importRoutes (env : Env) (models : Ids) : Nat → List RouteEntry → ImportHandler Unit
  | _, [] => pure ()
  | i, r :: rs => do
    importRoute env models i r
    importRoutes env models (i + 1) rs

/-! ## Aliases -/

/-- `db::upsert_alias`. -/
def upsertAlias (stamp : Stamp) (aliasName : String) (f : AliasFields) : ImportHandler Unit := do
  let existing ← ImportStatement.run (.getAlias aliasName)
  match existing with
  | some row => ImportStatement.run (.updateAlias row.id f)
  | none => ImportStatement.run (.insertAlias (newAlias stamp.id aliasName stamp.createdAt f))

/-- The id of the route or the model that an alias stands for. -/
def aliasTarget (models : Ids) (a : AliasEntry) : ImportHandler (Option String) :=
  if a.targetType = "route" then do
    let route ← ImportStatement.run (.getRouteByName a.target)
    return route.map RouteRow.id
  else pure (models a.target)

/-- An alias of an unknown target is left out. -/
def importAlias (env : Env) (models : Ids) (i : Nat) (a : AliasEntry) : ImportHandler Unit := do
  if a.aliasName = "" then pure ()
  else
    let target ← aliasTarget models a
    match target with
    | none => pure ()
    | some id => upsertAlias (env.aliasStamp i) a.aliasName ⟨a.targetType, id, a.description⟩

def importAliases (env : Env) (models : Ids) : Nat → List AliasEntry → ImportHandler Unit
  | _, [] => pure ()
  | i, a :: as => do
    importAlias env models i a
    importAliases env models (i + 1) as

/-! ## The whole import -/

/-- The entry of the audit log, with the numbers of what was imported. -/
def auditRow (env : Env) (d : Document) : AuditLogRow :=
  ⟨env.audit.id, env.audit.createdAt, "admin", "config_imported", "system", "config", "config",
    "Imported " ++ toString d.providers.length ++ " providers, " ++ toString d.models.length ++
      " models, " ++ toString d.routes.length ++ " routes, " ++ toString d.aliases.length ++
      " aliases."⟩

/-- The apply phase. -/
def applyDocument (env : Env) (d : Document) : ImportHandler Unit := do
  let rows ← listProviders
  let providers ← importProviders env 0 d.providers (providerIds rows)
  importAccounts env providers 0 d.accounts
  let rows ← ImportStatement.run (.base (.select .listModels))
  let models ← readModelIds rows fun _ => none
  let models ← importModels env providers 0 d.models models
  importRoutes env models 0 d.routes
  importAliases env models 0 d.aliases
  lift (insertAudit (auditRow env d))
  lift reloadRegistry

/-- The answer to an import, by whether it applied the document. -/
inductive ImportResult where
  | planned (checking : Checking)
  | applied (plan : List PlanItem)

/-- `import_config`. -/
def importConfig (env : Env) (cfg : Value) (apply : Bool) : ImportHandler ImportResult := do
  let d := Document.ofValue cfg
  Checked.ofResult (Checks.refuseIf
    (d.providers.isEmpty ∧ d.models.isEmpty ∧ d.routes.isEmpty)
    (.bad "config has no providers, models, or routes to import"))
  let checking ← validate env d
  if apply = false then return .planned checking
  else
    Checked.ofResult (Checks.refuseIf (checking.problems ≠ [])
      (.bad ("config validation failed: " ++ "; ".intercalate checking.problems)))
    applyDocument env d
    return .applied checking.plan

end Kinetix.Import
