import Kinetix.Config.Writes
import Kinetix.Foundation.Json
import Kinetix.Foundation.Text
import Kinetix.Library.Fallible

/-!
# Editing routes and accounts

`create_route`, `update_route` and `update_account` of `admin.rs`, each a program of the statements
that it makes.

## Implementation notes

A statement may fail, and it is refused when it breaks a constraint of the schema; neither text is
kept. What is drawn at random, the clock and the encryption are parameters. The snapshot that a
handler publishes at its end is left out, but not the reads that can fail before.
-/

namespace Kinetix.Config
open Json Statements

/-- `ApiError`, by its status. -/
inductive ApiError where
  | bad (message : String)
  | notFound (message : String)
  | internal
  deriving DecidableEq

/-- An entry of the audit log. -/
structure AuditLogRow where
  id : String
  ts : String
  actor : String
  action : String
  targetType : String
  targetId : String
  targetName : String
  details : String
  deriving DecidableEq

/-- What the database holds. -/
structure Store where
  tables : Tables
  audit : List AuditLogRow
  deriving DecidableEq

/-- What a call draws, and the rest of what it does not read from the database. -/
structure Env where
  json : SerdeJson
  now : String
  routeId : String
  targetId : Nat → String
  auditId : String
  /-- `Crypto::encrypt`. -/
  encrypt : String → Option String

/-! ## Statements -/

/-- One SQL statement, or a read of one table. -/
inductive Statement where
  | insertRoute (row : RouteRow)
  | updateRoute (id : String) (f : RouteFields)
  | clearRouteTargets (routeId : String)
  | insertRouteTarget (row : RouteTargetRow)
  | updateAccount (id : String) (f : AccountFields)
  | getAccount (id : String)
  | getProvider (id : String)
  | setSecret (id secretEnc keyMask : String)
  | insertAudit (row : AuditLogRow)
  | select (q : Query)

namespace Statement

abbrev Answer : Statement → Type
  | getAccount _ => Option AccountRow
  | getProvider _ => Option ProviderRow
  | select q => q.Rows
  | insertRoute _ | updateRoute _ _ | clearRouteTargets _ | insertRouteTarget _ | updateAccount _ _
  | setSecret _ _ _ | insertAudit _ => Unit

/-- A write that may be refused. -/
def write (s : Store) (db : Option Tables) : Option (Unit × Store) :=
  db.map fun db => ((), { s with tables := db })

/-- What a statement does if it does not fail. -/
def exec : (st : Statement) → Store → Option (st.Answer × Store)
  | insertRoute row, s => write s (s.tables.insertRoute row)
  | updateRoute id f, s => write s (some (s.tables.updateRoute id f))
  | clearRouteTargets id, s => write s (some (s.tables.clearRouteTargets id))
  | insertRouteTarget row, s => write s (s.tables.insertRouteTarget row)
  | updateAccount id f, s => write s (some (s.tables.updateAccount id f))
  | setSecret id secretEnc keyMask, s => write s (some (s.tables.setSecret id secretEnc keyMask))
  | getAccount id, s => some (s.tables.getAccount id, s)
  | getProvider id, s => some (s.tables.getProvider id, s)
  | insertAudit row, s =>
    if ∃ r ∈ s.audit, r.id = row.id then none else some ((), { s with audit := s.audit ++ [row] })
  | select q, s => some (s.tables.rows q, s)

end Statement

/-- An admin handler. -/
abbrev Handler : Type → Type := Checked Statement Statement.Answer ApiError

/-- `.await.map_err(ApiError::internal)?`. -/
def Statement.run (st : Statement) : Handler st.Answer := Checked.require st .internal

/-- The audit entry of a call of the admin. -/
def auditEntry (env : Env) (action targetType targetId targetName details : String) :
    AuditLogRow :=
  ⟨env.auditId, env.now, "admin", action, targetType, targetId, targetName, details⟩

/-- `let _ = db::insert_audit(..).await`. -/
def insertAudit (row : AuditLogRow) : Handler Unit := Checked.attempt (.insertAudit row)

/-- `state.registry.reload(..)`. -/
def reloadRegistry : Handler Unit := ExceptT.mk do
  let snap ← reload.run.subst fun q => Program.one (.select q)
  return if snap.isSome then .ok () else .error .internal

/-! ## Routes -/

/-- A target in the body of a route. -/
structure RouteTargetBody where
  accountId : Option String
  modelId : String
  priority : Int64
  weight : Int64
  predicate : Value
  paramOverrides : Value

/-- The body of `create_route` and `update_route`. -/
structure RouteBody where
  name : String
  description : String
  strategy : String
  fallbackTriggers : Value
  portabilityPolicy : String
  stickyRouting : Bool
  cacheAffinity : Bool
  maxAttempts : Option Int64
  targets : List RouteTargetBody

/-- The first of the triggers that is there and not a boolean. -/
def badTrigger (triggers : List (String × Value)) : Option String :=
  ["on429", "onQuota", "on5xx", "onTimeout"].find? fun key =>
    (triggers.lookup key).any fun value => !value.isBoolean

/-- The triggers are absent or an object of flags. -/
def validateTriggers (triggers : Value) : Except ApiError Unit :=
  if triggers.isNull then .ok ()
  else match triggers.asObject with
    | none => .error (.bad "fallback_triggers must be a JSON object")
    | some fields =>
      match badTrigger fields with
      | some key => .error (.bad ("fallback_triggers." ++ key ++ " must be boolean"))
      | none => .ok ()

/-- `validate_route_body`. -/
def validateRouteBody (body : RouteBody) : Except ApiError Unit := do
  Checks.refuseIf
    (body.strategy ∉ ["priority", "round-robin", "weighted", "least-used", "adaptive"])
    (.bad "invalid route strategy")
  Checks.refuseIf (body.portabilityPolicy ∉ ["reject", "strip_with_warning"])
    (.bad "portability_policy must be 'reject' or 'strip_with_warning'")
  validateTriggers body.fallbackTriggers
  Checks.refuseIf
    (∃ t ∈ body.targets, t.paramOverrides.isNull = false ∧ t.paramOverrides.asObject.isNone = true)
    (.bad "route target param_overrides must be a JSON object")

/-- The triggers of a route that is created without any. -/
def defaultTriggers : Value :=
  .object [("on429", .bool true), ("onQuota", .bool true), ("on5xx", .bool true),
    ("onTimeout", .bool true)]

/-- The columns of a body. -/
def RouteBody.fields (env : Env) (body : RouteBody) (triggers : Value) : RouteFields where
  description := body.description
  strategy := body.strategy
  fallbackTriggers := env.json.toString triggers
  portabilityPolicy := body.portabilityPolicy
  stickyRouting := body.stickyRouting
  cacheAffinity := body.cacheAffinity
  maxAttempts := body.maxAttempts

/-- An object that may be left out, as text. -/
def objectText (env : Env) (v : Value) : String := if v.isNull then "{}" else env.json.toString v

def RouteTargetBody.row (env : Env) (routeId : String) (i : Nat) (t : RouteTargetBody) :
    RouteTargetRow where
  id := env.targetId i
  routeId := routeId
  accountId := t.accountId
  modelId := t.modelId
  priority := t.priority
  weight := t.weight
  paramOverrides := objectText env t.paramOverrides
  predicate := objectText env t.predicate

/-- The rows that `write_route_targets` inserts. -/
def RouteBody.targetRows (env : Env) (routeId : String) (body : RouteBody) : List RouteTargetRow :=
  body.targets.mapIdx fun i t => t.row env routeId i

/-- `write_route_targets`. -/
def writeRouteTargets : List RouteTargetRow → Handler Unit
  | [] => pure ()
  | row :: rows => do
    Statement.run (.insertRouteTarget row)
    writeRouteTargets rows

/-- The row that `create_route` inserts. -/
def RouteBody.newRow (env : Env) (body : RouteBody) : RouteRow :=
  newRoute env.routeId body.name env.now (body.fields env
    (if body.fallbackTriggers.isNull then defaultTriggers else body.fallbackTriggers))

/-- `create_route`. -/
def createRoute (env : Env) (body : RouteBody) : Handler String := do
  Checked.ofResult (validateRouteBody body)
  Statement.run (.insertRoute (body.newRow env))
  writeRouteTargets (body.targetRows env env.routeId)
  insertAudit (auditEntry env "route_created" "route" env.routeId body.name
    ("Created route with " ++ toString body.targets.length ++ " targets."))
  reloadRegistry
  return env.routeId

/-- `update_route`. -/
def updateRoute (env : Env) (id : String) (body : RouteBody) : Handler Unit := do
  Checked.ofResult (validateRouteBody body)
  Statement.run (.updateRoute id (body.fields env body.fallbackTriggers))
  Statement.run (.clearRouteTargets id)
  writeRouteTargets (body.targetRows env id)
  insertAudit (auditEntry env "route_updated" "route" id body.name "Updated route configuration.")
  reloadRegistry
  return ()

/-! ## Accounts -/

/-- The body of `update_account`. -/
structure AccountBody where
  label : String
  apiKey : Option String
  priority : Int64
  weight : Int64
  softQuotaUsd : Option ℚ
  quotaType : String
  status : Option String

def AccountBody.fields (body : AccountBody) : AccountFields where
  label := body.label
  status := body.status.getD "healthy"
  priority := body.priority
  weight := body.weight
  softQuotaUsd := body.softQuotaUsd
  quotaType := body.quotaType

/-- `manual_account_enrollment_error`. -/
def manualAccountEnrollmentError (mode : String) : Option String :=
  if mode = "auth_flow" then
    some "provider uses an authentication flow; connect an account instead"
  else if mode = "none" then some "provider does not require user credentials"
  else none

/-- `crypto::mask_secret`. -/
def maskSecret (secret : String) : String :=
  let chars := secret.toList
  if chars.length ≤ 10 then "****"
  else String.ofList (chars.take 4) ++ "..." ++ String.ofList (chars.drop (chars.length - 4))

/-- The key of a body, if it is not blank. -/
def AccountBody.newKey (body : AccountBody) : Option String :=
  body.apiKey.filter fun k => Text.trim k ≠ ""

/-- `.ok_or_else(..)?`. -/
def orNotFound {α : Type} (message : String) : Option α → Handler α
  | some a => pure a
  | none => throw (.notFound message)

/-- The rotation of a manually enrolled credential. -/
def rotateSecret (env : Env) (id key : String) : Handler Unit := do
  let account ← Statement.run (.getAccount id)
  let account ← orNotFound "account not found" account
  let provider ← Statement.run (.getProvider account.providerId)
  let provider ← orNotFound "provider not found" provider
  match manualAccountEnrollmentError provider.credentialMode, env.encrypt key with
  | some error, _ => throw (.bad error)
  | none, none => throw .internal
  | none, some enc => Statement.run (.setSecret id enc (maskSecret key))

/-- `update_account`. -/
def updateAccount (env : Env) (id : String) (body : AccountBody) : Handler Unit := do
  Statement.run (.updateAccount id body.fields)
  body.newKey.forM (rotateSecret env id)
  insertAudit
    (auditEntry env "account_updated" "account" id body.label "Updated account configuration.")
  reloadRegistry
  return ()

end Kinetix.Config
