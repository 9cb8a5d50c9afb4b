import Kinetix.Library.Fallible
import Kinetix.Library.KeyedTable
import Kinetix.Library.Machine
import Kinetix.VirtualKeys.Row
import Mathlib.Data.Finset.Dedup
import Mathlib.Data.List.Sort

/-!
# The authority of a plugin

The rows of one plugin and the operations of the plugin manager on them. Each statement of the
database, each use of the component cache and each reading of a file is one step, and the steps of
operations in flight may come in any order.

## Implementation notes

What the manager only computes with and passes on is a parameter of the host. A check whose outcome
the development does not compute (signatures, compilation, linking, limits, the circuit) succeeds or
fails as the environment says. A compiled component is known by the bytes it was compiled from.
-/

namespace Kinetix.Plugins.Authority
open Checks KeyedTable StateMachine

/-- `[permissions]` of a manifest. -/
structure Permissions where
  networkHosts : List String := []
  credentialScopes : List String := []
  credentialRead : Bool := false
  deriving DecidableEq

/-- What the handlers read of a manifest. -/
structure Manifest where
  id : String
  version : String
  permissions : Permissions
  deriving DecidableEq

/-- A version of a plugin. -/
structure Package where
  manifestToml : String
  component : List UInt8
  packageSha256 : String

/-- The plugin's id, and what the manager uses of its libraries. -/
structure Host where
  id : String
  /-- The entries `plugin.toml` and `plugin.wasm` of an archive. -/
  archive : List UInt8 → Except String (String × List UInt8)
  /-- `parse_and_validate` under the host's policy. -/
  parseAndValidate : String → Except String Manifest
  /-- `hex::encode` of the SHA-256 digest. -/
  sha256Hex : List UInt8 → String
  /-- `serde_json::to_string` of a manifest. -/
  manifestJson : Manifest → String
  /-- `serde_json::from_str` of a manifest. -/
  readManifest : String → Option Manifest
  strings : VirtualKeys.SerdeStrings
  sha256Hex_injective : Function.Injective sha256Hex
  sha256Hex_lowercase : ∀ bytes, Text.toAsciiLowercase (sha256Hex bytes) = sha256Hex bytes
  readManifest_manifestJson : ∀ m, readManifest (manifestJson m) = some m
  strings_readsBack : strings.ReadsBack

/-! ## Rows -/

/-- A row of `plugins`. -/
structure PluginRow where
  packageSha256 : String
  enabled : Bool
  manifestJson : String
  component : List UInt8
  deriving DecidableEq

/-- A row of `plugin_packages`. -/
structure PackageRow where
  packageSha256 : String
  version : String

/-- A row of `plugin_permissions`. -/
structure PermissionGrant where
  permission : String
  valueJson : String
  deriving DecidableEq

/-- A component that was compiled and is kept. -/
structure CachedComponent where
  packageSha256 : String
  component : List UInt8

/-- The grants of a `replace_permissions`, and how many installs there had been. -/
structure Approval where
  installs : Nat
  grants : List PermissionGrant

/-- The rows of the plugin and its entry in the component cache. The last two fields record what was
done so far; nothing reads them. -/
structure Shared where
  plugin : Option PluginRow := none
  permissions : Table PermissionGrant.permission := Table.empty _
  packages : Table PackageRow.packageSha256 := Table.empty _
  cache : Option CachedComponent := none
  installs : Nat := 0
  approvals : List Approval := []

namespace Shared
variable (s : Shared)

/-- `upsert_plugin`: disabled, and without any grant. -/
def upsertPlugin (H : Host) (sha256 : String) (component : List UInt8) (manifest : Manifest) :
    Shared :=
  { s with
    plugin := some ⟨sha256, false, H.manifestJson manifest, component⟩
    permissions := Table.empty _
    packages := s.packages.insertOrIgnore ⟨sha256, manifest.version⟩
    installs := s.installs + 1 }

/-- `permissions`, with its `ORDER BY`. -/
def readPermissions : List PermissionGrant :=
  s.permissions.rows.insertionSort fun g g' => g.permission ≤ g'.permission

/-- `replace_permissions`. The rows of `plugin_permissions` refer to a row of `plugins`. -/
def replacePermissions (grants : List PermissionGrant) : Option Shared := do
  let permissions ← Table.ofRows _ grants
  if s.plugin.isNone ∧ grants ≠ [] then none
  else
    pure { s with permissions, approvals := ⟨s.installs, grants⟩ :: s.approvals }

/-- `revoke_permission`. -/
def revokePermission (permission : String) : Shared :=
  { s with permissions := s.permissions.deleteWhere (· == permission) }

/-- `set_enabled`. -/
def setEnabled (enabled : Bool) : Shared :=
  { s with plugin := s.plugin.map fun row => { row with enabled } }

/-- `delete_plugin`. The grants go with the row, the packages stay. -/
def deletePlugin : Shared := { s with plugin := none, permissions := Table.empty _ }

/-- `remember_component`. -/
def rememberComponent (packageSha256 : String) (component : List UInt8) : Shared :=
  { s with cache := some ⟨packageSha256, component⟩ }

/-- The cached component of the row's package. -/
def cachedComponent (row : PluginRow) : Option (List UInt8) :=
  (s.cache.filter fun c => c.packageSha256 == row.packageSha256).map CachedComponent.component

end Shared

/-! ## Grants -/

/-- The grant of a list of names. -/
def listGrant (H : Host) (permission : String) (names : List String) : PermissionGrant :=
  ⟨permission, H.strings.toString names⟩

def credentialReadGrant : PermissionGrant := ⟨"credential_read", "true"⟩

/-- `permission_grants`. -/
def permissionGrants (H : Host) (manifest : Manifest) : List PermissionGrant :=
  let p := manifest.permissions
  (if p.networkHosts = [] then [] else [listGrant H "network_hosts" p.networkHosts]) ++
    (if p.credentialScopes = [] then []
      else [listGrant H "credential_scopes" p.credentialScopes]) ++
    if p.credentialRead then [credentialReadGrant] else []

/-- The arguments of `approve_permissions_scoped`. -/
structure Scope where
  networkHosts : Option (List String) := none
  credentialScopes : Option (List String) := none
  credentialRead : Option Bool := none

/-- The grant of a list of the arguments, each name of which the manifest has to declare. -/
def scopedGrant (H : Host) (permission what : String) (declared : List String) :
    Option (List String) → Except String (List PermissionGrant)
  | none => .ok []
  | some names => do
    refuseIf (names = []) (permission ++ " approval must not be empty when provided")
    match names.find? fun name => !declared.contains name with
    | some name =>
      .error (what ++ " '" ++ name ++ "' is not declared by the plugin manifest")
    | none => pure [listGrant H permission names]

/-- What `approve_permissions_scoped` grants. -/
def scopedGrants (H : Host) (manifest : Manifest) (scope : Scope) :
    Except String (List PermissionGrant) := do
  let declared := manifest.permissions
  let hosts ← scopedGrant H "network_hosts" "network host" declared.networkHosts scope.networkHosts
  let scopes ← scopedGrant H "credential_scopes" "credential scope" declared.credentialScopes
    scope.credentialScopes
  refuseIf (scope.credentialRead = some true ∧ declared.credentialRead = false)
    "plugin manifest does not request credential_read"
  pure (hosts ++ scopes ++ if scope.credentialRead = some true then [credentialReadGrant] else [])

/-- `ensure_permissions_approved`, after it read the grants. -/
def ensurePermissionsApproved (H : Host) (manifest : Manifest) (approved : List PermissionGrant) :
    Except String (List PermissionGrant) := do
  refuseIf ((permissionGrants H manifest).toFinset ≠ approved.toFinset)
    ("plugin '" ++ H.id ++ "' permissions are not approved for the current manifest; " ++
      "run kinetix plugin approve " ++ H.id)
  pure approved

/-- `serde_json::from_str` of a `bool`, which no grant is written with white space around. -/
def readBool (json : String) : Option Bool :=
  if json = "true" then some true else if json = "false" then some false else none

/-- The authority of a store. -/
structure HostCtx where
  networkHosts : List String
  credentialRead : Bool
  credentialSign : Bool
  credentialScopes : List String
  deriving DecidableEq

/-- What one grant adds in `new_store`. -/
def applyGrant (H : Host) (p : Permissions) (grant : PermissionGrant) : Permissions :=
  if grant.permission = "network_hosts" then
    { p with networkHosts := (H.strings.fromStr grant.valueJson).getD [] }
  else if grant.permission = "credential_scopes" then
    { p with credentialScopes := (H.strings.fromStr grant.valueJson).getD [] }
  else if grant.permission = "credential_read" then
    { p with credentialRead := (readBool grant.valueJson).getD false }
  else p

/-- `new_store`. -/
def newStore (H : Host) (grants : List PermissionGrant) : HostCtx :=
  let p := grants.foldl (applyGrant H) {}
  { networkHosts := p.networkHosts
    credentialRead := p.credentialRead
    credentialSign := !p.credentialScopes.isEmpty
    credentialScopes := p.credentialScopes }

/-! ## Packages -/

/-- `package::read_package`. -/
def readPackage (H : Host) (bytes : List UInt8) : Except String Package := do
  let (manifestToml, component) ← H.archive bytes
  pure ⟨manifestToml, component, H.sha256Hex bytes⟩

/-- `load_retained_package`, after it read the row and the file. -/
def loadRetainedPackage (H : Host) (retained : PackageRow) (sha256 : String) (bytes : List UInt8) :
    Except String (Package × Manifest) := do
  let computed := H.sha256Hex bytes
  refuseIf (¬ (Text.eqIgnoreAsciiCase computed retained.packageSha256 ∧
      Text.eqIgnoreAsciiCase computed sha256))
    ("retained package hash mismatch: expected " ++ retained.packageSha256 ++ ", computed " ++
      computed)
  let package ← readPackage H bytes
  let manifest ← H.parseAndValidate package.manifestToml
  refuseIf (manifest.id ≠ H.id)
    ("retained package id mismatch: expected '" ++ H.id ++ "', package declares '" ++
      manifest.id ++ "'")
  refuseIf (manifest.version ≠ retained.version)
    ("retained package version mismatch: provenance says '" ++ retained.version ++
      "', package declares '" ++ manifest.version ++ "'")
  pure (package, manifest)

/-! ## Operations -/

/-- What a step meets outside. -/
structure Env where
  /-- The statement succeeds. -/
  dbOk : Bool := true
  dbError : String := ""
  /-- What reading the package's file gives. -/
  file : Except String (List UInt8) := .error ""
  /-- The error of a check whose outcome is not computed here. -/
  verdict : Option String := none

def Env.statement (env : Env) : Except String Unit := refuseIf (env.dbOk = false) env.dbError

def Env.checks (env : Env) : Except String Unit :=
  match env.verdict with
  | some message => .error message
  | none => .ok ()

/-- The functions that instantiate the component. `prepare_model_source` passes by the cache, and
`prepare`, `prepare_auth` and `prepare_adapter` do not. -/
inductive Caller where
  | enable
  | validate
  | prepare (cached : Bool)
  deriving DecidableEq

/-- An invocation that was let run. -/
structure Invocation where
  row : PluginRow
  manifest : Manifest
  ctx : HostCtx
  component : List UInt8

/-- Where an operation waits, each time before what it does next outside its own state. -/
inductive Stage where
  | install (bytes : List UInt8) (expected : Option String)
  | upsert (sha256 : String) (component : List UInt8) (manifest : Manifest)
  | remember (sha256 : String) (component : List UInt8)
  | rollbackGet (sha256 : String)
  /-- `load_retained_package` of a rollback, or else of `install_retained`. -/
  | packageGet (rollback : Bool) (sha256 : String)
  | packageLoad (rollback : Bool) (retained : PackageRow) (sha256 : String)
  | retainedRead (sha256 : String)
  | approveGet (scope : Option Scope)
  | approveReplace (grants : List PermissionGrant)
  | revokeGet (permission : String)
  | revokeDelete (permission : String)
  | disable
  | removeDelete
  | removeCache
  | get (caller : Caller)
  | permissions (caller : Caller) (row : PluginRow) (manifest : Manifest)
  | compile (caller : Caller) (row : PluginRow) (manifest : Manifest)
      (grants : List PermissionGrant)
  | rememberCompiled (caller : Caller) (row : PluginRow) (manifest : Manifest)
      (grants : List PermissionGrant) (component : List UInt8)
  | enableSet
  | enableClear
  | running (invocation : Invocation)
  | done
  | refused (message : String)
  | dropped

/-- The future of the operation, or the call of the invocation, is still there. -/
def Stage.InFlight : Stage → Prop
  | .running _ | .done | .refused _ | .dropped => False
  | _ => True

/-- Go on, or end with an error. -/
def Stage.ofExcept : Except String Stage → Stage
  | .ok stage => stage
  | .error message => .refused message

def notInstalled (H : Host) : String := "plugin '" ++ H.id ++ "' is not installed"

/-- The row of the plugin and its manifest. -/
def getManifest (H : Host) (s : Shared) (env : Env) : Except String (PluginRow × Manifest) := do
  env.statement
  let row ← okOr s.plugin (notInstalled H)
  let manifest ← okOr (H.readManifest row.manifestJson)
    ("plugin '" ++ H.id ++ "' has an unreadable manifest")
  pure (row, manifest)

/-- `install_from_source` up to `upsert_plugin`. A package of another plugin changes its rows. -/
def installFromSource (H : Host) (env : Env) (bytes : List UInt8) (expected : Option String) :
    Except String Stage := do
  let package ← readPackage H bytes
  refuseIf (∃ e ∈ expected, Text.eqIgnoreAsciiCase e package.packageSha256 = false)
    ("package hash mismatch: expected " ++ expected.getD "" ++ ", computed " ++
      package.packageSha256)
  let manifest ← H.parseAndValidate package.manifestToml
  env.checks
  pure (if manifest.id = H.id then .upsert package.packageSha256 package.component manifest
    else .done)

/-- `rollback` up to `load_retained_package`. -/
def rollbackGet (H : Host) (s : Shared) (env : Env) (sha256 : String) : Except String Stage := do
  env.statement
  let current ← okOr s.plugin (notInstalled H)
  refuseIf (Text.eqIgnoreAsciiCase current.packageSha256 sha256)
    ("plugin '" ++ H.id ++ "' is already using package " ++ sha256)
  pure (.packageGet true sha256)

/-- `get_package` in `load_retained_package`. -/
def packageGet (H : Host) (s : Shared) (env : Env) (rollback : Bool) (sha256 : String) :
    Except String Stage := do
  env.statement
  let retained ← okOr (s.packages.find sha256)
    ("retained package '" ++ sha256 ++ "' not found for plugin '" ++ H.id ++ "'")
  pure (.packageLoad rollback retained sha256)

/-- The rest of `load_retained_package`, and what a rollback does up to `upsert_plugin`. -/
def packageLoad (H : Host) (env : Env) (rollback : Bool) (retained : PackageRow)
    (sha256 : String) : Except String Stage := do
  let bytes ← env.file
  let (package, manifest) ← loadRetainedPackage H retained sha256 bytes
  if rollback then do
    env.checks
    pure (.upsert retained.packageSha256 package.component manifest)
  else pure (.retainedRead sha256)

/-- `approve_permissions`, or `approve_permissions_scoped`, up to `replace_permissions`. -/
def approveGet (H : Host) (s : Shared) (env : Env) (scope : Option Scope) :
    Except String Stage := do
  let (_, manifest) ← getManifest H s env
  match scope with
  | none => pure (.approveReplace (permissionGrants H manifest))
  | some scope => do
    let grants ← scopedGrants H manifest scope
    pure (.approveReplace grants)

def revokeGet (H : Host) (s : Shared) (env : Env) (permission : String) : Except String Stage := do
  env.statement
  refuseIf (s.plugin = none) (notInstalled H)
  pure (.revokeDelete permission)

/-- An invocation needs an enabled row. -/
def Caller.checkStatus (H : Host) (row : PluginRow) : Caller → Except String Unit
  | .prepare _ => refuseIf (row.enabled = false) ("plugin '" ++ H.id ++ "' is not enabled")
  | _ => .ok ()

/-- What the caller goes on with after it read the row and the manifest. -/
def Caller.next (env : Env) (row : PluginRow) (manifest : Manifest) :
    Caller → Except String Stage
  | .enable => do
    env.checks
    pure (.permissions .enable row manifest)
  | .validate => pure (.compile .validate row manifest [])
  | .prepare cached => pure (.permissions (.prepare cached) row manifest)

/-- The first lines of `enable`, `validate` and the `prepare` functions. -/
def get (H : Host) (s : Shared) (env : Env) (caller : Caller) : Except String Stage := do
  env.statement
  let row ← okOr s.plugin (notInstalled H)
  caller.checkStatus H row
  let manifest ← okOr (H.readManifest row.manifestJson)
    ("plugin '" ++ H.id ++ "' has an unreadable manifest")
  caller.next env row manifest

def permissions (H : Host) (s : Shared) (env : Env) (caller : Caller) (row : PluginRow)
    (manifest : Manifest) : Except String Stage := do
  env.statement
  let grants ← ensurePermissionsApproved H manifest s.readPermissions
  pure (.compile caller row manifest grants)

/-- What the caller does with the instance. -/
def instantiate (H : Host) (row : PluginRow) (manifest : Manifest)
    (grants : List PermissionGrant) (component : List UInt8) : Caller → Stage
  | .enable => .enableSet
  | .validate => .done
  | .prepare _ => .running ⟨row, manifest, newStore H grants, component⟩

/-- The circuit, the limits and `compiled_component` up to `remember_component`. -/
def compile (H : Host) (s : Shared) (env : Env) (caller : Caller) (row : PluginRow)
    (manifest : Manifest) (grants : List PermissionGrant) : Except String Stage := do
  env.checks
  if caller = .prepare false then pure (instantiate H row manifest grants row.component caller)
  else
    match s.cachedComponent row with
    | some component => pure (instantiate H row manifest grants component caller)
    | none => pure (.rememberCompiled caller row manifest grants row.component)

/-- A statement that writes, if the tables allow it. -/
def Env.write (env : Env) (s : Shared) (s' : Option Shared) (next : Stage) : Shared × Stage :=
  match env.statement, s' with
  | .ok (), some s' => (s', next)
  | _, _ => (s, .refused env.dbError)

/-- The next step of an operation in flight. -/
def Stage.advance (H : Host) (env : Env) (s : Shared) : Stage → Option (Shared × Stage)
  | .install bytes expected => some (s, .ofExcept (installFromSource H env bytes expected))
  | .upsert sha256 component manifest =>
    some (env.write s (s.upsertPlugin H sha256 component manifest) (.remember sha256 component))
  | .remember sha256 component => some (s.rememberComponent sha256 component, .done)
  | .rollbackGet sha256 => some (s, .ofExcept (Authority.rollbackGet H s env sha256))
  | .packageGet rollback sha256 =>
    some (s, .ofExcept (Authority.packageGet H s env rollback sha256))
  | .packageLoad rollback retained sha256 =>
    some (s, .ofExcept (Authority.packageLoad H env rollback retained sha256))
  | .retainedRead sha256 =>
    some (s, .ofExcept (env.file >>= fun bytes => .ok (.install bytes (some sha256))))
  | .approveGet scope => some (s, .ofExcept (Authority.approveGet H s env scope))
  | .approveReplace grants => some (env.write s (s.replacePermissions grants) .done)
  | .revokeGet permission => some (s, .ofExcept (Authority.revokeGet H s env permission))
  | .revokeDelete permission => some (env.write s (s.revokePermission permission) .disable)
  | .disable => some (env.write s (s.setEnabled false) .done)
  | .removeDelete => some (env.write s s.deletePlugin .removeCache)
  | .removeCache => some ({ s with cache := none }, .done)
  | .get caller => some (s, .ofExcept (Authority.get H s env caller))
  | .permissions caller row manifest =>
    some (s, .ofExcept (Authority.permissions H s env caller row manifest))
  | .compile caller row manifest grants =>
    some (s, .ofExcept (Authority.compile H s env caller row manifest grants))
  | .rememberCompiled caller row manifest grants component =>
    some (s.rememberComponent row.packageSha256 component,
      instantiate H row manifest grants component caller)
  | .enableSet => some (env.write s (s.setEnabled true) .enableClear)
  | .enableClear => some (s, .ofExcept (env.statement >>= fun _ => .ok .done))
  | .running _ | .done | .refused _ | .dropped => none

/-- A handler, with its arguments. -/
inductive Operation where
  | install (bytes : List UInt8) (expected : Option String)
  | installRetained (sha256 : String)
  | rollback (sha256 : String)
  | approve
  | approveScoped (scope : Scope)
  | revoke (permission : String)
  | enable
  | disable
  | remove
  | validate
  | prepare (cached : Bool)

def Operation.first : Operation → Stage
  | .install bytes expected => .install bytes expected
  | .installRetained sha256 => .packageGet false sha256
  | .rollback sha256 => .rollbackGet sha256
  | .approve => .approveGet none
  | .approveScoped scope => .approveGet (some scope)
  | .revoke permission => .revokeGet permission
  | .enable => .get .enable
  | .disable => .disable
  | .remove => .removeDelete
  | .validate => .get .validate
  | .prepare cached => .get (.prepare cached)

/-- What is shared, and the handlers under way. -/
structure State where
  shared : Shared
  tasks : List Stage

inductive Action where
  | start (operation : Operation)
  | advance (i : Nat) (env : Env)
  /-- The future of an operation is dropped where it waits. -/
  | drop (i : Nat)

/-- One await of a handler, or the start of one. -/
def State.step (H : Host) (s : State) : Action → Option State
  | .start operation => some { s with tasks := s.tasks ++ [operation.first] }
  | .advance i env => do
    let stage ← s.tasks[i]?
    let (shared, next) ← stage.advance H env s.shared
    pure ⟨shared, s.tasks.set i next⟩
  | .drop i => some { s with tasks := s.tasks.set i .dropped }

/-- The manager, from a database that does not know the plugin. -/
def manager (H : Host) : Machine State Action where
  start := ⟨{}, []⟩
  step := State.step H

end Kinetix.Plugins.Authority
