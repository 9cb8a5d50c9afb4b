import Kinetix.Library.Grouping
import Kinetix.Library.Statements
import Mathlib.Data.Prod.Lex
import Mathlib.Data.Rat.Cast.Order
import Mathlib.Data.Rat.Defs
import Mathlib.Data.String.Basic
import Mathlib.Tactic.Common

/-!
# The stored configuration and the registry

The rows that `db.rs` keeps for providers, accounts, models, aliases, routes and the targets of the
routes. `Registry::reload` of `registry.rs` reads these tables one after the other and builds the
snapshot that the data plane works on.

## Implementation notes

A table is the list of its rows in the order in which they were inserted. A column of JSON is the
text that is stored, and an amount of money is rational.

A `HashMap` is a function to optional values. Rows that are equal in what a query orders by come in
the order of the table. A read may fail, and then it answers nothing.
-/

namespace Kinetix.Config

/-- `ProviderRow`. -/
structure ProviderRow where
  id : String
  name : String
  baseUrl : String
  wireFormat : String
  authScheme : String
  customHeaderName : Option String
  customParamName : Option String
  extraHeaders : String
  timeoutMs : Int64
  capabilityMode : String
  modelsPath : Option String
  rateLimitRules : String
  enabled : Int64
  followRedirects : Int64
  credentialHosts : String
  allowInsecureTls : Int64
  createdAt : String
  wirePlugin : String
  credentialPlugin : String
  modelSourcePlugin : String
  credentialMode : String
  sourcePluginId : Option String
  sourceIntegrationId : Option String
  deriving DecidableEq

/-- `AccountRow`. -/
structure AccountRow where
  id : String
  providerId : String
  label : String
  secretEnc : String
  keyMask : String
  status : String
  cooldownUntil : Option String
  quotaResetAt : Option String
  quotaType : String
  quotaWindowS : Option Int64
  softQuotaUsd : Option ℚ
  priority : Int64
  weight : Int64
  lastError : Option String
  lastProbeAt : Option String
  circuitOpenUntil : Option String
  consecutiveFailures : Int64
  createdAt : String
  deriving DecidableEq

/-- `ModelRow`. -/
structure ModelRow where
  id : String
  providerId : String
  upstreamId : String
  displayName : String
  enabled : Int64
  contextWindow : Option Int64
  maxOutputTokens : Option Int64
  capabilities : String
  prices : String
  parameters : String
  thinkingMap : String
  extraRequest : String
  discovery : String
  createdAt : String
  opaqueStatePlugin : String
  deriving DecidableEq

/-- `AliasRow`. -/
structure AliasRow where
  id : String
  aliasName : String
  targetType : String
  targetId : String
  description : String
  createdAt : String
  deriving DecidableEq

/-- `RouteRow`. -/
structure RouteRow where
  id : String
  name : String
  description : String
  strategy : String
  fallbackTriggers : String
  continuityPolicy : String
  portabilityPolicy : String
  stickyRouting : Int64
  cacheAffinity : Int64
  maxAttempts : Option Int64
  enabled : Int64
  createdAt : String
  deriving DecidableEq

/-- `RouteTargetRow`. -/
structure RouteTargetRow where
  id : String
  routeId : String
  accountId : Option String
  modelId : String
  priority : Int64
  weight : Int64
  paramOverrides : String
  predicate : String
  deriving DecidableEq

/-- The tables of the configuration. -/
structure Tables where
  providers : List ProviderRow
  accounts : List AccountRow
  models : List ModelRow
  aliases : List AliasRow
  routes : List RouteRow
  routeTargets : List RouteTargetRow
  deriving DecidableEq

open Grouping Statements

/-! ## Reading the tables -/

/-- What `reload` asks for. -/
inductive Query where
  | listProviders
  | listAccounts
  | listModels
  | listAliases
  | listRoutes
  | routeTargets (routeId : String)
  deriving DecidableEq

/-- The rows that a query selects. -/
abbrev Query.Rows : Query → Type
  | listProviders => List ProviderRow
  | listAccounts => List AccountRow
  | listModels => List ModelRow
  | listAliases => List AliasRow
  | listRoutes => List RouteRow
  | routeTargets _ => List RouteTargetRow

namespace Tables
variable (db : Tables)

/-- `SELECT * FROM providers ORDER BY created_at`. -/
def listProviders : List ProviderRow := sortBy ProviderRow.createdAt db.providers

/-- `SELECT * FROM accounts ORDER BY priority, created_at`. -/
def listAccounts : List AccountRow :=
  sortBy (fun a => toLex (a.priority.toInt, a.createdAt)) db.accounts

/-- `SELECT * FROM models ORDER BY created_at`. -/
def listModels : List ModelRow := sortBy ModelRow.createdAt db.models

/-- `SELECT * FROM aliases ORDER BY alias`. -/
def listAliases : List AliasRow := sortBy AliasRow.aliasName db.aliases

/-- `SELECT * FROM routes ORDER BY created_at`. -/
def listRoutes : List RouteRow := sortBy RouteRow.createdAt db.routes

/-- `SELECT * FROM route_targets WHERE route_id = ? ORDER BY priority, weight DESC`. -/
def targetsOf (routeId : String) : List RouteTargetRow :=
  sortBy (fun t => toLex (t.priority.toInt, -t.weight.toInt))
    (db.routeTargets.filter (·.routeId == routeId))

/-- `SELECT * FROM accounts WHERE provider_id = ? AND status != 'disabled' ORDER BY priority`. -/
def accountsFor (providerId : String) : List AccountRow :=
  sortBy (fun a => a.priority.toInt)
    (db.accounts.filter fun a => a.providerId == providerId && a.status != "disabled")

/-- What a query selects. -/
def rows : (q : Query) → q.Rows
  | .listProviders => db.listProviders
  | .listAccounts => db.listAccounts
  | .listModels => db.listModels
  | .listAliases => db.listAliases
  | .listRoutes => db.listRoutes
  | .routeTargets routeId => db.targetsOf routeId

end Tables

/-! ## Snapshots -/

/-- `Snapshot`, with its indexes. -/
structure Snapshot where
  providers : String → Option ProviderRow := fun _ => none
  providerOrder : List String := []
  accounts : String → Option AccountRow := fun _ => none
  models : String → Option ModelRow := fun _ => none
  modelByUpstream : String × String → Option String := fun _ => none
  aliases : String → Option AliasRow := fun _ => none
  routes : String → Option RouteRow := fun _ => none
  routeTargets : String → Option (List RouteTargetRow) := fun _ => none

namespace Snapshot
variable (snap : Snapshot)

/-- An enabled provider is served, and takes its place in the order. -/
def addProvider (p : ProviderRow) : Snapshot :=
  if p.enabled = 0 then snap
  else { snap with
    providerOrder := snap.providerOrder ++ [p.id]
    providers := Function.update snap.providers p.id (some p) }

/-- The account fits the credential mode of its provider. -/
def allowed (a : AccountRow) : Bool :=
  (snap.providers a.providerId).any fun provider =>
    if provider.credentialMode = "none" then a.label == "__kinetix_noauth__"
    else a.label != "__kinetix_noauth__"

def addAccount (a : AccountRow) : Snapshot :=
  if snap.allowed a then { snap with accounts := Function.update snap.accounts a.id (some a) }
  else snap

def addModel (m : ModelRow) : Snapshot :=
  { snap with
    modelByUpstream := Function.update snap.modelByUpstream (m.providerId, m.upstreamId) (some m.id)
    models := Function.update snap.models m.id (some m) }

def addAlias (a : AliasRow) : Snapshot :=
  { snap with aliases := Function.update snap.aliases a.aliasName (some a) }

def addRoute (c : RouteRow) (targets : List RouteTargetRow) : Snapshot :=
  { snap with
    routeTargets := Function.update snap.routeTargets c.id (some targets)
    routes := Function.update snap.routes c.id (some c) }

end Snapshot

/-! ## Reloading -/

/-- A program that reads tables and returns early when a read fails. -/
abbrev Reading : Type → Type := Fallible Query Query.Rows

/-- One table read. -/
def select (q : Query) : Reading q.Rows := Fallible.one q

/-- The loop of `reload` over the routes. -/
def readRoutes (snap : Snapshot) : List RouteRow → Reading Snapshot
  | [] => pure snap
  | c :: routes => do
    let targets ← select (.routeTargets c.id)
    readRoutes (snap.addRoute c targets) routes

/-- `Registry::reload` up to the swap. -/
def reload : Reading Snapshot := do
  let providers ← select .listProviders
  let accounts ← select .listAccounts
  let models ← select .listModels
  let aliases ← select .listAliases
  let routes ← select .listRoutes
  let snap := providers.foldl Snapshot.addProvider {}
  let snap := accounts.foldl Snapshot.addAccount snap
  let snap := models.foldl Snapshot.addModel snap
  let snap := aliases.foldl Snapshot.addAlias snap
  readRoutes snap routes

/-! ## The snapshot of a configuration -/

/-- The routes of a configuration, each with all of its targets. -/
def Snapshot.addRoutes (snap : Snapshot) (db : Tables) (routes : List RouteRow) : Snapshot :=
  routes.foldl (fun snap c => snap.addRoute c (db.targetsOf c.id)) snap

/-- What the data plane is to see of a configuration. -/
def snapshotOf (db : Tables) : Snapshot :=
  let snap := db.listProviders.foldl Snapshot.addProvider {}
  let snap := db.listAccounts.foldl Snapshot.addAccount snap
  let snap := db.listModels.foldl Snapshot.addModel snap
  let snap := db.listAliases.foldl Snapshot.addAlias snap
  snap.addRoutes db db.listRoutes

variable {db : Tables} {snap : Snapshot} {c : RouteRow} {routes : List RouteRow}

theorem readRoutes_answer : (readRoutes snap routes).run.answer (fun q => some (db.rows q)) =
    some (snap.addRoutes db routes) := by
  induction routes generalizing snap with
  | nil => rfl
  | cons c routes ih => exact ih

/-- A reload that nothing comes between reads the configuration. -/
theorem reload_answer : reload.run.answer (fun q => some (db.rows q)) = some (snapshotOf db) :=
  readRoutes_answer

theorem stops_readRoutes (snap : Snapshot) (routes : List RouteRow) :
    (readRoutes snap routes).run.Stops := by
  induction routes generalizing snap with
  | nil => exact Fallible.stops_pure snap
  | cons c routes ih =>
    exact Fallible.stops_bind (Fallible.stops_one _) fun targets => ih _

theorem stops_reload : reload.run.Stops := by
  apply Fallible.stops_bind (Fallible.stops_one _)
  intro providers
  apply Fallible.stops_bind (Fallible.stops_one _)
  intro accounts
  apply Fallible.stops_bind (Fallible.stops_one _)
  intro models
  apply Fallible.stops_bind (Fallible.stops_one _)
  intro aliases
  apply Fallible.stops_bind (Fallible.stops_one _)
  intro routes
  exact stops_readRoutes _ routes

/-- A route is not added again. -/
theorem routeTargets_addRoutes_of_notMem {id : String} (h : id ∉ routes.map RouteRow.id) :
    (snap.addRoutes db routes).routeTargets id = snap.routeTargets id := by
  induction routes generalizing snap with
  | nil => rfl
  | cons c routes ih =>
    rw [List.map_cons, List.mem_cons, not_or] at h
    apply (ih h.2).trans
    exact Function.update_of_ne h.1 _ _

/-- A route is served with exactly the targets that the configuration has for it. -/
theorem routeTargets_addRoutes {id : String} (h : id ∈ routes.map RouteRow.id) :
    (snap.addRoutes db routes).routeTargets id = some (db.targetsOf id) := by
  induction routes generalizing snap with
  | nil => cases h
  | cons c routes ih =>
    by_cases hmem : id ∈ routes.map RouteRow.id
    · exact ih hmem
    · obtain rfl : id = c.id := (List.mem_cons.mp h).resolve_right hmem
      apply (routeTargets_addRoutes_of_notMem hmem).trans
      exact Function.update_self _ _ _

theorem routeTargets_snapshotOf (h : c ∈ db.routes) :
    (snapshotOf db).routeTargets c.id = some (db.targetsOf c.id) := by
  apply routeTargets_addRoutes
  exact List.mem_map_of_mem (sortBy_perm.mem_iff.mpr h)

end Kinetix.Config
