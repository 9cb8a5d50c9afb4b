import Kinetix.Config.Handlers
import Kinetix.Import.Document

/-!
# The statements of an import

The statements of `db.rs` and of `reconcile_provider_account_mode` that an import makes besides
those of the other handlers.
-/

namespace Kinetix.Config

/-- The columns of a provider that `update_provider` writes. -/
structure ProviderFields where
  name : String
  baseUrl : String
  wireFormat : String
  authScheme : String
  customHeaderName : Option String
  customParamName : Option String
  extraHeaders : String
  timeoutMs : Int64
  capabilityMode : String
  modelsPath : Option String
  rateLimitRules : String
  followRedirects : Bool
  credentialHosts : String
  allowInsecureTls : Bool
  wirePlugin : String
  credentialPlugin : String
  modelSourcePlugin : String

/-- The columns that `update_provider_credential_semantics` writes. -/
structure ProviderSemantics where
  credentialMode : String
  sourcePluginId : Option String
  sourceIntegrationId : Option String

/-- The columns of a model that `update_model` writes. -/
structure ModelFields where
  displayName : String
  enabled : Bool
  contextWindow : Option Int64
  maxOutputTokens : Option Int64
  capabilities : String
  prices : String
  parameters : String
  thinkingMap : String
  extraRequest : String

/-- The columns of an alias that `upsert_alias` writes. -/
structure AliasFields where
  targetType : String
  targetId : String
  description : String

def ProviderRow.update (p : ProviderRow) (f : ProviderFields) : ProviderRow :=
  { p with
    name := f.name
    baseUrl := f.baseUrl
    wireFormat := f.wireFormat
    authScheme := f.authScheme
    customHeaderName := f.customHeaderName
    customParamName := f.customParamName
    extraHeaders := f.extraHeaders
    timeoutMs := f.timeoutMs
    capabilityMode := f.capabilityMode
    modelsPath := f.modelsPath
    rateLimitRules := f.rateLimitRules
    followRedirects := flag f.followRedirects
    credentialHosts := f.credentialHosts
    allowInsecureTls := flag f.allowInsecureTls
    wirePlugin := f.wirePlugin
    credentialPlugin := f.credentialPlugin
    modelSourcePlugin := f.modelSourcePlugin }

def ProviderRow.setSemantics (p : ProviderRow) (f : ProviderSemantics) : ProviderRow :=
  { p with
    credentialMode := f.credentialMode
    sourcePluginId := f.sourcePluginId
    sourceIntegrationId := f.sourceIntegrationId }

/-- The row that `insert_provider` inserts. -/
def newProvider (id createdAt : String) (f : ProviderFields) (semantics : ProviderSemantics) :
    ProviderRow where
  id := id
  name := f.name
  baseUrl := f.baseUrl
  wireFormat := f.wireFormat
  authScheme := f.authScheme
  customHeaderName := f.customHeaderName
  customParamName := f.customParamName
  extraHeaders := f.extraHeaders
  timeoutMs := f.timeoutMs
  capabilityMode := f.capabilityMode
  modelsPath := f.modelsPath
  rateLimitRules := f.rateLimitRules
  enabled := 1
  followRedirects := flag f.followRedirects
  credentialHosts := f.credentialHosts
  allowInsecureTls := flag f.allowInsecureTls
  createdAt := createdAt
  wirePlugin := f.wirePlugin
  credentialPlugin := f.credentialPlugin
  modelSourcePlugin := f.modelSourcePlugin
  credentialMode := semantics.credentialMode
  sourcePluginId := semantics.sourcePluginId
  sourceIntegrationId := semantics.sourceIntegrationId

def ModelRow.update (m : ModelRow) (f : ModelFields) : ModelRow :=
  { m with
    displayName := f.displayName
    enabled := flag f.enabled
    contextWindow := f.contextWindow
    maxOutputTokens := f.maxOutputTokens
    capabilities := f.capabilities
    prices := f.prices
    parameters := f.parameters
    thinkingMap := f.thinkingMap
    extraRequest := f.extraRequest }

/-- The row that `insert_model` inserts. -/
def newModel (id providerId upstreamId discovery createdAt : String) (f : ModelFields) :
    ModelRow where
  id := id
  providerId := providerId
  upstreamId := upstreamId
  displayName := f.displayName
  enabled := flag f.enabled
  contextWindow := f.contextWindow
  maxOutputTokens := f.maxOutputTokens
  capabilities := f.capabilities
  prices := f.prices
  parameters := f.parameters
  thinkingMap := f.thinkingMap
  extraRequest := f.extraRequest
  discovery := discovery
  createdAt := createdAt
  opaqueStatePlugin := ""

def AliasRow.update (a : AliasRow) (f : AliasFields) : AliasRow :=
  { a with targetType := f.targetType, targetId := f.targetId, description := f.description }

/-- The row that `upsert_alias` inserts. -/
def newAlias (id aliasName createdAt : String) (f : AliasFields) : AliasRow where
  id := id
  aliasName := aliasName
  targetType := f.targetType
  targetId := f.targetId
  description := f.description
  createdAt := createdAt

/-- The internal account of a provider without credentials, or one that older versions made. -/
def AccountRow.isSynthetic (a : AccountRow) : Bool :=
  a.label == "__kinetix_noauth__" || (a.label == "public" && a.keyMask == maskSecret "public")

/-- Which accounts of a provider are retired. -/
structure Retired where
  providerId : String
  syntheticOnly : Bool

def Retired.retires (which : Retired) (a : AccountRow) : Bool :=
  a.providerId == which.providerId && (!which.syntheticOnly || a.isSynthetic)

namespace Tables
variable (db : Tables)

/-- `db::insert_provider`. -/
def insertProvider (row : ProviderRow) : Option Tables :=
  if ∃ p ∈ db.providers, p.id = row.id then none
  else some { db with providers := db.providers ++ [row] }

/-- `db::update_provider`. -/
def updateProvider (id : String) (f : ProviderFields) : Tables :=
  { db with providers := db.providers.map fun p => if p.id = id then p.update f else p }

/-- `db::update_provider_credential_semantics`. -/
def setSemantics (id : String) (f : ProviderSemantics) : Tables :=
  { db with providers := db.providers.map fun p => if p.id = id then p.setSemantics f else p }

/-- `db::insert_model`. -/
def insertModel (row : ModelRow) : Option Tables :=
  if (∃ m ∈ db.models, m.id = row.id ∨
      m.providerId = row.providerId ∧ m.upstreamId = row.upstreamId) ∨
      ¬ ∃ p ∈ db.providers, p.id = row.providerId then none
  else some { db with models := db.models ++ [row] }

/-- `db::update_model`. -/
def updateModel (id : String) (f : ModelFields) : Tables :=
  { db with models := db.models.map fun m => if m.id = id then m.update f else m }

/-- `db::set_model_transport_override`, with what SQLite does to the text. -/
def setTransport (id : String) (write : String → String) : Tables :=
  { db with models := db.models.map fun m =>
      if m.id = id then { m with discovery := write m.discovery } else m }

/-- `INSERT INTO aliases`. -/
def insertAlias (row : AliasRow) : Option Tables :=
  if ∃ a ∈ db.aliases, a.id = row.id ∨ a.aliasName = row.aliasName then none
  else some { db with aliases := db.aliases ++ [row] }

/-- `UPDATE aliases`. -/
def updateAlias (id : String) (f : AliasFields) : Tables :=
  { db with aliases := db.aliases.map fun a => if a.id = id then a.update f else a }

/-- The internal account as it is to be. -/
def resetAccount (id emptySecret : String) : Tables :=
  { db with accounts := db.accounts.map fun a =>
      if a.id = id then
        { a with
          label := "__kinetix_noauth__"
          secretEnc := emptySecret
          keyMask := ""
          status := "healthy"
          cooldownUntil := none
          quotaResetAt := none
          quotaType := "none"
          quotaWindowS := none
          softQuotaUsd := none
          priority := 1
          weight := 1
          lastError := none
          lastProbeAt := none
          circuitOpenUntil := none
          consecutiveFailures := 0 }
      else a }

/-- A target is pinned to a retired account. -/
def pinnedToRetired (which : Retired) (t : RouteTargetRow) : Bool :=
  t.accountId.any fun id => db.accounts.any fun a => a.id == id && which.retires a

/-- `UPDATE route_targets SET account_id=NULL`. -/
def unpinTargets (which : Retired) : Tables :=
  { db with routeTargets := db.routeTargets.map fun t =>
      if db.pinnedToRetired which t then { t with accountId := none } else t }

/-- `DELETE FROM accounts`, with the targets that are pinned to them. -/
def deleteAccounts (which : Retired) : Tables :=
  { db with
    accounts := db.accounts.filter fun a => !which.retires a
    routeTargets := db.routeTargets.filter fun t => !db.pinnedToRetired which t }

/-- `db::accounts_for_provider`. -/
def accountsForProvider (providerId : String) : List AccountRow := db.accountsFor providerId

/-- `db::get_route_by_name`. -/
def getRouteByName (name : String) : Option RouteRow := db.routes.find? (·.name = name)

/-- `db::get_alias`. -/
def getAlias (aliasName : String) : Option AliasRow := db.aliases.find? (·.aliasName = aliasName)

end Tables

end Kinetix.Config

namespace Kinetix.Import
open Config Statements

/-- The statements that an import makes. -/
inductive ImportStatement where
  /-- A statement that other handlers make as well. -/
  | base (st : Statement)
  | accountsForProvider (providerId : String)
  | getRouteByName (name : String)
  | getAlias (aliasName : String)
  | insertProvider (row : ProviderRow)
  | updateProvider (id : String) (f : ProviderFields)
  | setSemantics (id : String) (f : ProviderSemantics)
  | resetAccount (id emptySecret : String)
  | unpinTargets (which : Retired)
  | deleteAccounts (which : Retired)
  | insertAccount (row : AccountRow)
  | insertModel (row : ModelRow)
  | updateModel (id : String) (f : ModelFields)
  | setTransport (id : String) (write : String → String)
  | insertAlias (row : AliasRow)
  | updateAlias (id : String) (f : AliasFields)

namespace ImportStatement

abbrev Answer : ImportStatement → Type
  | base st => st.Answer
  | accountsForProvider _ => List AccountRow
  | getRouteByName _ => Option RouteRow
  | getAlias _ => Option AliasRow
  | insertProvider _ | updateProvider _ _ | setSemantics _ _ | resetAccount _ _ | unpinTargets _
  | deleteAccounts _ | insertAccount _ | insertModel _ | updateModel _ _ | setTransport _ _
  | insertAlias _ | updateAlias _ _ => Unit

/-- What a statement does if it does not fail. -/
def exec : (st : ImportStatement) → Store → Option (st.Answer × Store)
  | base st, s => st.exec s
  | accountsForProvider providerId, s => some (s.tables.accountsForProvider providerId, s)
  | getRouteByName name, s => some (s.tables.getRouteByName name, s)
  | getAlias aliasName, s => some (s.tables.getAlias aliasName, s)
  | insertProvider row, s => Statement.write s (s.tables.insertProvider row)
  | updateProvider id f, s => Statement.write s (some (s.tables.updateProvider id f))
  | setSemantics id f, s => Statement.write s (some (s.tables.setSemantics id f))
  | resetAccount id emptySecret, s =>
    Statement.write s (some (s.tables.resetAccount id emptySecret))
  | unpinTargets which, s => Statement.write s (some (s.tables.unpinTargets which))
  | deleteAccounts which, s => Statement.write s (some (s.tables.deleteAccounts which))
  | insertAccount row, s => Statement.write s (s.tables.insertAccount row)
  | insertModel row, s => Statement.write s (s.tables.insertModel row)
  | updateModel id f, s => Statement.write s (some (s.tables.updateModel id f))
  | setTransport id write, s => Statement.write s (some (s.tables.setTransport id write))
  | insertAlias row, s => Statement.write s (s.tables.insertAlias row)
  | updateAlias id f, s => Statement.write s (some (s.tables.updateAlias id f))

/-- The INSERT of the audit entry, whose outcome is ignored. -/
def isAudit : ImportStatement → Bool
  | base (.insertAudit _) => true
  | _ => false

def isRead : ImportStatement → Bool
  | base (.getAccount _) | base (.getProvider _) | base (.select _) | accountsForProvider _
  | getRouteByName _ | getAlias _ => true
  | _ => false

variable {q : ImportStatement} {s t : Store}

/-- A read leaves the store as it is. -/
theorem exec_of_isRead (h : q.isRead = true) :
    q.isAudit = false ∧ ∀ s b t, q.exec s = some (b, t) → t = s := by
  cases q with
  | base st =>
    cases st with
    | getAccount _ | getProvider _ | select _ =>
      exact ⟨rfl, fun s b t hexec => (Prod.mk.inj (Option.some.inj hexec)).2.symm⟩
    | _ => cases h
  | accountsForProvider _ | getRouteByName _ | getAlias _ =>
    exact ⟨rfl, fun s b t hexec => (Prod.mk.inj (Option.some.inj hexec)).2.symm⟩
  | _ => cases h

/-- What a statement answers and writes to the tables does not depend on the audit entries. -/
theorem exec_alike (h : q.isAudit = false) (htables : s.tables = t.tables) :
    Option.Rel (fun x y => x.1 = y.1 ∧ x.2.tables = y.2.tables) (q.exec s) (q.exec t) := by
  have hread {α : Type} (read : Tables → α) :
      Option.Rel (fun x y : α × Store => x.1 = y.1 ∧ x.2.tables = y.2.tables)
        (some (read s.tables, s)) (some (read t.tables, t)) :=
    .some ⟨congrArg read htables, htables⟩
  have hwrite (change : Tables → Option Tables) :
      Option.Rel (fun x y : Unit × Store => x.1 = y.1 ∧ x.2.tables = y.2.tables)
        (Statement.write s (change s.tables)) (Statement.write t (change t.tables)) := by
    rw [Statement.write, Statement.write, htables]
    cases change t.tables with
    | none => exact .none
    | some db => exact .some ⟨rfl, rfl⟩
  cases q with
  | base st =>
    cases st with
    | insertAudit row => cases h
    | getAccount id => exact hread (Tables.getAccount · id)
    | getProvider id => exact hread (Tables.getProvider · id)
    | select query => exact hread (Tables.rows · query)
    | insertRoute row => exact hwrite (Tables.insertRoute · row)
    | updateRoute id f => exact hwrite fun db => some (db.updateRoute id f)
    | clearRouteTargets id => exact hwrite fun db => some (db.clearRouteTargets id)
    | insertRouteTarget row => exact hwrite (Tables.insertRouteTarget · row)
    | updateAccount id f => exact hwrite fun db => some (db.updateAccount id f)
    | setSecret id enc mask => exact hwrite fun db => some (db.setSecret id enc mask)
  | accountsForProvider id => exact hread (Tables.accountsForProvider · id)
  | getRouteByName name => exact hread (Tables.getRouteByName · name)
  | getAlias name => exact hread (Tables.getAlias · name)
  | insertProvider row => exact hwrite (Tables.insertProvider · row)
  | updateProvider id f => exact hwrite fun db => some (db.updateProvider id f)
  | setSemantics id f => exact hwrite fun db => some (db.setSemantics id f)
  | resetAccount id secret => exact hwrite fun db => some (db.resetAccount id secret)
  | unpinTargets which => exact hwrite fun db => some (db.unpinTargets which)
  | deleteAccounts which => exact hwrite fun db => some (db.deleteAccounts which)
  | insertAccount row => exact hwrite (Tables.insertAccount · row)
  | insertModel row => exact hwrite (Tables.insertModel · row)
  | updateModel id f => exact hwrite fun db => some (db.updateModel id f)
  | setTransport id write => exact hwrite fun db => some (db.setTransport id write)
  | insertAlias row => exact hwrite (Tables.insertAlias · row)
  | updateAlias id f => exact hwrite fun db => some (db.updateAlias id f)

end ImportStatement

/-- An import. -/
abbrev ImportHandler : Type → Type := Checked ImportStatement ImportStatement.Answer ApiError

/-- `.await.map_err(ApiError::internal)?`. -/
def ImportStatement.run (st : ImportStatement) : ImportHandler st.Answer :=
  Checked.require st .internal

/-- What another handler does as well. -/
def lift {α : Type} (x : Handler α) : ImportHandler α :=
  ExceptT.mk (x.run.subst fun st => Program.one (.base st))

end Kinetix.Import
