import Kinetix.Config.Registry

/-!
# Writing the tables

The statements of `db.rs` that write routes, their targets and accounts. Each is one step: it is
refused by a constraint of the schema, or has all of its effect.
-/

namespace Kinetix.Config

/-- The columns of a route that `update_route` writes. -/
structure RouteFields where
  description : String
  strategy : String
  fallbackTriggers : String
  portabilityPolicy : String
  stickyRouting : Bool
  cacheAffinity : Bool
  maxAttempts : Option Int64
  deriving DecidableEq

/-- The columns of an account that `update_account` writes. -/
structure AccountFields where
  label : String
  status : String
  priority : Int64
  weight : Int64
  softQuotaUsd : Option ℚ
  quotaType : String
  deriving DecidableEq

/-- A `bool as i64`. -/
def flag (b : Bool) : Int64 := if b then 1 else 0

/-- The row that `insert_account` inserts. -/
def newAccount (id providerId label secretEnc keyMask : String) (priority weight : Int64)
    (softQuotaUsd : Option ℚ) (quotaType createdAt : String) : AccountRow where
  id := id
  providerId := providerId
  label := label
  secretEnc := secretEnc
  keyMask := keyMask
  status := "healthy"
  cooldownUntil := none
  quotaResetAt := none
  quotaType := quotaType
  quotaWindowS := none
  softQuotaUsd := softQuotaUsd
  priority := priority
  weight := weight
  lastError := none
  lastProbeAt := none
  circuitOpenUntil := none
  consecutiveFailures := 0
  createdAt := createdAt

/-- The row that `insert_route` inserts. -/
def newRoute (id name createdAt : String) (f : RouteFields) : RouteRow where
  id := id
  name := name
  description := f.description
  strategy := f.strategy
  fallbackTriggers := f.fallbackTriggers
  continuityPolicy := "strip"
  portabilityPolicy := f.portabilityPolicy
  stickyRouting := flag f.stickyRouting
  cacheAffinity := flag f.cacheAffinity
  maxAttempts := f.maxAttempts
  enabled := 1
  createdAt := createdAt

def RouteRow.update (c : RouteRow) (f : RouteFields) : RouteRow :=
  { c with
    description := f.description
    strategy := f.strategy
    fallbackTriggers := f.fallbackTriggers
    continuityPolicy := "strip"
    portabilityPolicy := f.portabilityPolicy
    stickyRouting := flag f.stickyRouting
    cacheAffinity := flag f.cacheAffinity
    maxAttempts := f.maxAttempts }

def AccountRow.update (a : AccountRow) (f : AccountFields) : AccountRow :=
  { a with
    label := f.label
    status := f.status
    priority := f.priority
    weight := f.weight
    softQuotaUsd := f.softQuotaUsd
    quotaType := f.quotaType }

namespace Tables
variable (db : Tables)

/-- `db::insert_route`. -/
def insertRoute (row : RouteRow) : Option Tables :=
  if ∃ c ∈ db.routes, c.id = row.id ∨ c.name = row.name then none
  else some { db with routes := db.routes ++ [row] }

/-- `db::update_route`. -/
def updateRoute (id : String) (f : RouteFields) : Tables :=
  { db with routes := db.routes.map fun c => if c.id = id then c.update f else c }

/-- `db::clear_route_targets`. -/
def clearRouteTargets (routeId : String) : Tables :=
  { db with routeTargets := db.routeTargets.filter fun t => t.routeId ≠ routeId }

/-- What a target refers to is stored. -/
def Resolves (row : RouteTargetRow) : Prop :=
  (∃ c ∈ db.routes, c.id = row.routeId) ∧ (∃ m ∈ db.models, m.id = row.modelId) ∧
    ∀ id ∈ row.accountId, ∃ a ∈ db.accounts, a.id = id

instance (row : RouteTargetRow) : Decidable (db.Resolves row) :=
  inferInstanceAs (Decidable (_ ∧ _ ∧ _))

/-- `db::insert_route_target`. -/
def insertRouteTarget (row : RouteTargetRow) : Option Tables :=
  if (∃ t ∈ db.routeTargets, t.id = row.id) ∨ ¬ db.Resolves row then none
  else some { db with routeTargets := db.routeTargets ++ [row] }

/-- `db::insert_account`. -/
def insertAccount (row : AccountRow) : Option Tables :=
  if (∃ a ∈ db.accounts, a.id = row.id) ∨ ¬ ∃ p ∈ db.providers, p.id = row.providerId then none
  else some { db with accounts := db.accounts ++ [row] }

/-- `db::update_account`. -/
def updateAccount (id : String) (f : AccountFields) : Tables :=
  { db with accounts := db.accounts.map fun a => if a.id = id then a.update f else a }

/-- `UPDATE accounts SET secret_enc=?, key_mask=?`. -/
def setSecret (id secretEnc keyMask : String) : Tables :=
  { db with accounts := db.accounts.map fun a =>
      if a.id = id then { a with secretEnc, keyMask } else a }

/-- `db::get_account`. -/
def getAccount (id : String) : Option AccountRow := db.accounts.find? (·.id = id)

/-- `db::get_provider`. -/
def getProvider (id : String) : Option ProviderRow := db.providers.find? (·.id = id)

theorem getProvider_insertAccount {row : AccountRow} {tables : Tables} {id : String}
    (h : db.insertAccount row = some tables) : tables.getProvider id = db.getProvider id := by
  rw [insertAccount] at h
  split at h
  · cases h
  · cases h
    rfl

theorem id_of_mem_getProvider {id : String} {provider : ProviderRow}
    (h : provider ∈ db.getProvider id) : provider.id = id := by
  have hid := List.find?_some h
  exact of_decide_eq_true hid

end Tables

end Kinetix.Config
