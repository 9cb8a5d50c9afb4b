import Kinetix.Import.Handler
import Kinetix.Library.KeyedTable

/-!
# What an import is to change

The law of an import: what the dry run plans is what the import does, an import that fails leaves
the configuration as it was, and what the document does not name stays as it is.

## Implementation notes

A document names a model by the label that it refers to it by, and an account by its provider and
its own label. What a row is to be after an entry was written is stated column by column: the row as
it was stored, or a new row, with the columns of the entry.
-/

namespace Kinetix.Import
open Config Json Statements Upserts

/-! ## Names -/

/-- The name of a provider, by its id. -/
def providerName (providers : List ProviderRow) (id : String) : String :=
  ((providers.find? fun p => p.id = id).map ProviderRow.name).getD ""

def rowLabel (providers : List ProviderRow) (m : ModelRow) : String :=
  modelLabel (providerName providers m.providerId) m.upstreamId

def accountName (providers : List ProviderRow) (a : AccountRow) : String × String :=
  (providerName providers a.providerId, a.label)

def AccountEntry.key (a : AccountEntry) : String × String := (a.provider, a.label)

/-- The routes, each with its targets in the order in which they were inserted. -/
def routesOf (db : Tables) : List (RouteRow × List RouteTargetRow) :=
  db.routes.map fun c => (c, db.routeTargets.filter fun t => t.routeId = c.id)

def routeName (c : RouteRow × List RouteTargetRow) : String := c.1.name

namespace Document
variable (d : Document) (db : Tables)

def providerNames : List String := d.providers.map ProviderEntry.name

def modelLabels : List String := d.models.map ModelEntry.label

def routeNames : List String := d.routes.map RouteEntry.name

def aliasNames : List String := d.aliases.map AliasEntry.aliasName

def accountKeys : List (String × String) := d.accounts.map AccountEntry.key

/-- A provider of the name is stored or in the document. -/
def KnowsProvider (name : String) : Prop :=
  (∃ p ∈ db.providers, p.name = name) ∨ name ∈ d.providerNames

def KnowsModel (label : String) : Prop :=
  (∃ m ∈ db.models, rowLabel db.providers m = label) ∨ label ∈ d.modelLabels

def KnowsRoute (name : String) : Prop := (∃ c ∈ db.routes, c.name = name) ∨ name ∈ d.routeNames

/-- The plan of a document without problems. -/
def plan : List PlanItem :=
  d.providers.map (fun p => .provider p.name (decide (∃ row ∈ db.providers, row.name = p.name))) ++
    (d.models.map (fun m => .model m.label) ++
      d.routes.map fun r => .route r.name r.targets.length)

end Document

/-! ## What is written -/

/-- The row of a provider that an entry describes, over the stored providers. -/
def ProviderEntry.Describes (env : Env) (stored : List ProviderRow) (p : ProviderEntry)
    (row : ProviderRow) : Prop :=
  ∃ wire, WireFormat.parse p.wireFormat = some wire ∧
    ((∃ old ∈ stored, old.name = p.name ∧
        row = (old.update (p.fields env wire)).setSemantics (p.semantics (some old))) ∨
      (∀ old ∈ stored, old.name ≠ p.name) ∧
        ∃ stamp : Stamp,
          row = newProvider stamp.id stamp.createdAt (p.fields env wire) (p.semantics none))

/-- The row that an account is restored to. -/
def AccountEntry.Describes (a : AccountEntry) (row : AccountRow) : Prop :=
  ∃ (stamp : Stamp) (providerId secretEnc : String), a.secretEnc = some secretEnc ∧
    row = newAccount stamp.id providerId a.label secretEnc a.keyMask a.priority a.weight
      a.softQuotaUsd a.quotaType stamp.createdAt

/-- The row of a model that an entry describes, over the stored models. -/
def ModelEntry.Describes (env : Env) (providers : List ProviderRow) (stored : List ModelRow)
    (m : ModelEntry) (row : ModelRow) : Prop :=
  (∃ old ∈ stored, rowLabel providers old = m.label ∧
      row = { old.update (m.fields env) with
        discovery := env.setTransport m.transport old.discovery }) ∨
    (∀ old ∈ stored, rowLabel providers old ≠ m.label) ∧
      ∃ (stamp : Stamp) (providerId : String), providerName providers providerId = m.provider ∧
        row = newModel stamp.id providerId m.upstreamId
          (env.setTransport m.transport (env.json.toString (.object []))) stamp.createdAt
          (m.fields env)

/-- The row of a target that an entry describes. -/
structure TargetEntry.Describes (env : Env) (providers : List ProviderRow)
    (models : List ModelRow) (routeId : String) (t : TargetEntry) (row : RouteTargetRow) :
    Prop where
  routeId : row.routeId = routeId
  model : ∃ m ∈ models, m.id = row.modelId ∧ rowLabel providers m = t.model
  accountId : row.accountId = t.accountId
  priority : row.priority = t.priority
  weight : row.weight = t.weight
  predicate : row.predicate = objectText (env.forRoute 0) t.predicate
  paramOverrides : row.paramOverrides = objectText (env.forRoute 0) t.paramOverrides

/-- The route that an entry describes, over the stored routes, with one target for each of its
targets. -/
def RouteEntry.Describes (env : Env) (providers : List ProviderRow) (models : List ModelRow)
    (stored : List RouteRow) (r : RouteEntry) (row : RouteRow × List RouteTargetRow) : Prop :=
  ((∃ old ∈ stored, old.name = r.name ∧
        row.1 = old.update ((r.body fun _ => none).fields (env.forRoute 0) r.fallbackTriggers)) ∨
      (∀ old ∈ stored, old.name ≠ r.name) ∧
        ∃ i, row.1 = (r.body fun _ => none).newRow (env.forRoute i)) ∧
    List.Forall₂ (fun t target => t.Describes env providers models row.1.id target) r.targets row.2

/-- What an alias is to stand for. -/
def AliasEntry.StandsFor (providers : List ProviderRow) (models : List ModelRow)
    (routes : List RouteRow) (a : AliasEntry) (id : String) : Prop :=
  if a.targetType = "route" then ∃ c ∈ routes, c.id = id ∧ c.name = a.target
  else ∃ m ∈ models, m.id = id ∧ rowLabel providers m = a.target

/-- The row of an alias that an entry describes, over the stored aliases. -/
def AliasEntry.Describes (providers : List ProviderRow) (models : List ModelRow)
    (routes : List RouteRow) (stored : List AliasRow) (a : AliasEntry) (row : AliasRow) : Prop :=
  ∃ id, a.StandsFor providers models routes id ∧
    ((∃ old ∈ stored, old.aliasName = a.aliasName ∧
        row = old.update ⟨a.targetType, id, a.description⟩) ∨
      (∀ old ∈ stored, old.aliasName ≠ a.aliasName) ∧
        ∃ stamp : Stamp,
          row = newAlias stamp.id a.aliasName stamp.createdAt ⟨a.targetType, id, a.description⟩)

/-- An import changed what its plan and the lists of accounts and aliases name, and nothing else. -/
structure Changes (env : Env) (d : Document) (db db' : Tables) : Prop where
  providers : Written ProviderEntry.name ProviderRow.name
    (ProviderEntry.Describes env db.providers) d.providers db.providers db'.providers
  accounts : ∀ a ∈ d.accounts, ∃ row ∈ db'.accounts, accountName db'.providers row = a.key ∧
    (row ∈ db.accounts ∨ ∃ entry ∈ d.accounts, entry.key = a.key ∧ entry.Describes row)
  accounts_kept : ∀ row ∈ db.accounts, row ∈ db'.accounts
  accounts_others : unnamed (accountName db'.providers) d.accountKeys db'.accounts =
    unnamed (accountName db'.providers) d.accountKeys db.accounts
  models : Written ModelEntry.label (rowLabel db'.providers)
    (ModelEntry.Describes env db'.providers db.models) d.models db.models db'.models
  routes : Written RouteEntry.name routeName
    (RouteEntry.Describes env db'.providers db'.models db.routes) d.routes (routesOf db)
    (routesOf db')
  aliases : Written AliasEntry.aliasName AliasRow.aliasName
    (AliasEntry.Describes db'.providers db'.models db'.routes db.aliases) d.aliases db.aliases
    db'.aliases

/-- What the document does not name is there as it was. -/
structure Keeps (d : Document) (db db' : Tables) : Prop where
  providers : ∀ row ∈ db.providers, row.name ∉ d.providerNames → row ∈ db'.providers
  accounts : ∀ row ∈ db.accounts, accountName db.providers row ∉ d.accountKeys → row ∈ db'.accounts
  models : ∀ row ∈ db.models, rowLabel db.providers row ∉ d.modelLabels → row ∈ db'.models
  routes : ∀ c ∈ routesOf db, c.1.name ∉ d.routeNames → c ∈ routesOf db'
  aliases : ∀ row ∈ db.aliases, row.aliasName ∉ d.aliasNames → row ∈ db'.aliases

/-! ## The law -/

/-- What a call leaves, and whether it fails. -/
def perform (env : Env) (cfg : Value) (apply : Bool) (s : Store) (f : Faults) :
    Except ApiError ImportResult × Store :=
  let outcome := (importConfig env cfg apply).perform ImportStatement.exec (s, f)
  (outcome.1, outcome.2.1)

/-- The statements of an import if none of them fails. -/
def statements (env : Env) (cfg : Value) (s : Store) : List ImportStatement :=
  (importConfig env cfg true).run.trace ImportStatement.exec s

/-- Imports are validated, planned and all-or-nothing. -/
structure ImportLaw (env : Env) (s : Store) (cfg : Value) (f : Faults) : Prop where
  /-- The dry run changes nothing. -/
  dry : (perform env cfg false s f).2 = s
  /-- If the dry run finds no problem, the import succeeds and does what was planned. -/
  planned : ∀ checking, (perform env cfg false s fun _ => false).1 = .ok (.planned checking) →
    checking.problems = [] →
    checking.plan = (Document.ofValue cfg).plan s.tables ∧
      (perform env cfg true s fun _ => false).1 = .ok (.applied checking.plan) ∧
      Changes env (Document.ofValue cfg) s.tables (perform env cfg true s fun _ => false).2.tables
  /-- An import that fails leaves the configuration as it was. -/
  atomic : ∀ e, (perform env cfg true s f).1 = .error e →
    (perform env cfg true s f).2.tables = s.tables
  kept : Keeps (Document.ofValue cfg) s.tables (perform env cfg true s f).2.tables

/-! ## When it holds -/

/-- The constraints of the schema, and what its references refer to. -/
structure Schema (db : Tables) : Prop where
  providerIds : (db.providers.map ProviderRow.id).Nodup
  accountProviders : ∀ a ∈ db.accounts, ∃ p ∈ db.providers, p.id = a.providerId
  modelIds : (db.models.map ModelRow.id).Nodup
  modelProviders : ∀ m ∈ db.models, ∃ p ∈ db.providers, p.id = m.providerId
  routeIds : (db.routes.map RouteRow.id).Nodup
  routeNames : (db.routes.map RouteRow.name).Nodup
  targetRoutes : ∀ t ∈ db.routeTargets, ∃ c ∈ db.routes, c.id = t.routeId
  aliasIds : (db.aliases.map AliasRow.id).Nodup

/-- What a call draws is not in use. -/
structure Env.Fresh (env : Env) (db : Tables) : Prop where
  providers : ∀ i, ∀ p ∈ db.providers, p.id ≠ (env.provider i).id
  accounts : ∀ i, ∀ a ∈ db.accounts, a.id ≠ (env.account i).id
  models : ∀ i, ∀ m ∈ db.models, m.id ≠ (env.model i).id
  routes : ∀ i, ∀ c ∈ db.routes, c.id ≠ (env.route i).id
  targets : ∀ i j, ∀ t ∈ db.routeTargets, t.id ≠ env.target i j
  aliases : ∀ i, ∀ a ∈ db.aliases, a.id ≠ (env.aliasStamp i).id
  provider_injective : Function.Injective fun i => (env.provider i).id
  account_injective : Function.Injective fun i => (env.account i).id
  model_injective : Function.Injective fun i => (env.model i).id
  route_injective : Function.Injective fun i => (env.route i).id
  target_injective : ∀ i j i' j', env.target i j = env.target i' j' → i = i' ∧ j = j'
  alias_injective : Function.Injective fun i => (env.aliasStamp i).id

/-- An account that an import inserts unless it is there. -/
structure AccountEntry.Restorable (db : Tables) (d : Document) (a : AccountEntry) : Prop where
  provider : d.KnowsProvider db a.provider
  charged : ∀ row ∈ db.providers, row.name = a.provider → a.provider ∉ d.providerNames →
    row.credentialMode ≠ "none"
  label : a.label ≠ "__kinetix_noauth__"
  secret : a.secretEnc.isSome = true

/-- The import finds all that the document refers to, writes nothing twice, and no provider of the
document has an internal account or is to have one. -/
structure Importable (db : Tables) (d : Document) : Prop where
  distinct_providers : d.providerNames.Nodup
  distinct_models : d.modelLabels.Nodup
  distinct_routes : d.routeNames.Nodup
  distinct_aliases : d.aliasNames.Nodup
  charged : ∀ p ∈ d.providers, p.explicitMode ≠ some .none ∧
    (p.explicitMode = none → ∀ row ∈ db.providers, row.name = p.name →
      CredentialMode.parse row.credentialMode ≠ some .none)
  no_internal : ∀ p ∈ d.providers, ∀ row ∈ db.providers, row.name = p.name →
    ∀ a ∈ db.accounts, a.providerId = row.id → a.isSynthetic = false
  accounts : ∀ a ∈ d.accounts,
    (∃ row ∈ db.accounts, accountName db.providers row = a.key) ∨ a.Restorable db d
  models : ∀ m ∈ d.models, d.KnowsProvider db m.provider
  targets : ∀ r ∈ d.routes, ∀ t ∈ r.targets, d.KnowsModel db t.model ∧
    ∀ id ∈ t.accountId, ∃ a ∈ db.accounts, a.id = id
  aliases : ∀ a ∈ d.aliases, a.aliasName ≠ "" ∧
    if a.targetType = "route" then d.KnowsRoute db a.target else d.KnowsModel db a.target

end Kinetix.Import
