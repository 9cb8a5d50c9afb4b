import Kinetix.Foundation.Json
import Kinetix.Plugins.Storage

/-!
# The settings of a plugin

`ui_settings` and `update_ui_settings` of `manager.rs`. An update goes through the submitted values
in their order: each is checked, and written in a transaction of its own, before the next is looked
at.
-/

namespace Kinetix.Plugins.UiSettings
open Batch Checks Json Storage Words

/-! ## Limits -/

/-- `str::parse::<u64>`. -/
def parseU64 (s : String) : Option UInt64 :=
  let digits := ((Text.stripPrefix s "+").getD s).toList
  if digits = [] ∨ ¬ digits.all Char.isDigit then none
  else
    let n := digits.foldl (fun n c => n * 10 + (c.toNat - 48)) 0
    if n ≤ u64Max then some (UInt64.ofNat n) else none

/-- `u64::checked_mul`. -/
def checkedMul (a b : UInt64) : Option UInt64 :=
  if a.toNat * b.toNat ≤ u64Max then some (a * b) else none

/-- The units of a size, in the order in which they are tried. -/
def sizeUnits : List (String × UInt64) :=
  [("GiB", 1024 * 1024 * 1024), ("MiB", 1024 * 1024), ("KiB", 1024), ("GB", 1000000000),
    ("MB", 1000000), ("KB", 1000), ("B", 1)]

/-- `parse_size`. -/
def parseSize (s : String) : Option UInt64 :=
  let s := Text.trim s
  if s = "" then none
  else
    let (num, mult) := ((sizeUnits.find? fun u => Text.endsWith s u.1).map fun u =>
      (String.ofList (s.toList.take (s.length - u.1.length)), u.2)).getD (s, 1)
    (parseU64 (Text.trim num)).bind (checkedMul · mult)

structure Limits where
  memory : String
  wallTimeMs : UInt64
  maxOutboundRequests : UInt32
  maxHttpBody : String
  storage : String

structure HostPolicy where
  maxMemory : UInt64
  maxWallTimeMs : UInt64
  maxOutboundRequests : UInt32
  maxHttpBody : UInt64
  maxStorage : UInt64

structure EffectiveLimits where
  memory : UInt64
  wallTimeMs : UInt64
  maxOutboundRequests : UInt32
  maxHttpBody : UInt64
  storage : UInt64

/-- A setting that a manifest declares. -/
structure UiSetting where
  key : String
  label : String
  kind : String
  description : String
  required : Bool
  options : List String
  default : Option String

/-- What the update reads of a manifest. -/
structure Manifest where
  limits : Limits
  settings : List UiSetting

inductive SettingError where
  | notInstalled (id : String)
  | unreadableManifest (id : String)
  | invalidLimit (field value : String)
  | unknown (key : String)
  | cannotBeCleared (key : String)
  | notBoolean (key : String)
  | notString (key : String)
  | empty (key : String)
  | unsupportedOption (key : String)
  | unsupportedKind (kind : String)
  | tooLong (key : String)
  | notUtf8 (key : String)
  | storage (error : KvError)

def SettingError.message : SettingError → String
  | .notInstalled id => "plugin '" ++ id ++ "' is not installed"
  | .unreadableManifest id => "plugin '" ++ id ++ "' has an unreadable manifest"
  | .invalidLimit field value => "invalid limits." ++ field ++ " '" ++ value ++ "'"
  | .unknown key => "unknown plugin setting '" ++ key ++ "'"
  | .cannotBeCleared key => "required plugin setting '" ++ key ++ "' cannot be cleared"
  | .notBoolean key => "plugin setting '" ++ key ++ "' must be boolean"
  | .notString key => "plugin setting '" ++ key ++ "' must be a string"
  | .empty key => "required plugin setting '" ++ key ++ "' must not be empty"
  | .unsupportedOption key => "plugin setting '" ++ key ++ "' has an unsupported option"
  | .unsupportedKind kind => "unsupported plugin setting kind '" ++ kind ++ "'"
  | .tooLong key => "plugin setting '" ++ key ++ "' exceeds 64 KiB"
  | .notUtf8 key => "stored setting '" ++ key ++ "' is not utf-8"
  | .storage error => error.message

/-- `effective_limits`. -/
def effectiveLimits (manifest : Manifest) (policy : HostPolicy) :
    Except SettingError EffectiveLimits := do
  let limits := manifest.limits
  let memory ← okOr (parseSize limits.memory) (.invalidLimit "memory" limits.memory)
  let maxHttpBody ←
    okOr (parseSize limits.maxHttpBody) (.invalidLimit "max_http_body" limits.maxHttpBody)
  let storage ← okOr (parseSize limits.storage) (.invalidLimit "storage" limits.storage)
  return {
    memory := min memory policy.maxMemory
    wallTimeMs := min limits.wallTimeMs policy.maxWallTimeMs
    maxOutboundRequests := min limits.maxOutboundRequests policy.maxOutboundRequests
    maxHttpBody := min maxHttpBody policy.maxHttpBody
    storage := min storage policy.maxStorage }

/-! ## Reading -/

/-- `CONFIG_PREFIX` and the key of a setting. -/
def storageKey (key : String) : String := "_config:" ++ key

def utf8 (text : String) : List UInt8 := text.toUTF8.data.toList

/-- `String::from_utf8`. -/
def fromUtf8 (bytes : List UInt8) : Option String := String.fromUTF8? ⟨bytes.toArray⟩

/-- A row of `plugins`, with what its `manifest_json` is read as. -/
structure PluginRow where
  manifest : Option Manifest

/-- What the update meets outside: the failures of the two queries for the plugin's row, of the
queries for a value, and what the transaction for a key meets. -/
structure Env where
  get : Option String
  getAgain : Option String
  reads : String → Option String
  tx : String → TxEnv

/-- The manifest of an installed plugin. -/
def loadManifest (id : String) (row : Option PluginRow) (failure : Option String) :
    Except SettingError Manifest := do
  refuseIf (failure.isSome = true) (.storage (.database (failure.getD "")))
  let row ← okOr row (.notInstalled id)
  okOr row.manifest (.unreadableManifest id)

/-- A boolean is shown as one, everything else as a text. -/
def shown (kind text : String) : Value :=
  if kind = "boolean" then .bool (text == "true") else .string text

section
variable (S : Sealing) (env : Env)

/-- `kv_get` of a setting. -/
def readSetting (t : KvTable) (setting : UiSetting) : Except SettingError (Option (List UInt8)) :=
  let storageKey := storageKey setting.key
  match env.reads storageKey with
  | some message => .error (.storage (.database message))
  | none => (kvGet S t storageKey).mapError .storage

/-- The value that is shown for a setting. A secret is never shown. -/
def shownValue (setting : UiSetting) (stored : Option (List UInt8)) : Except SettingError Value :=
  if setting.kind = "secret" then .ok .null
  else
    match stored, setting.default with
    | some bytes, _ => do
      let text ← okOr (fromUtf8 bytes) (.notUtf8 setting.key)
      return shown setting.kind text
    | none, some default => .ok (shown setting.kind default)
    | none, none => .ok .null

def settingField (t : KvTable) (setting : UiSetting) : Except SettingError Value := do
  let stored ← readSetting S env t setting
  let value ← shownValue setting stored
  return .object [("key", .string setting.key), ("label", .string setting.label),
    ("kind", .string setting.kind), ("description", .string setting.description),
    ("required", .bool setting.required),
    ("options", .array (setting.options.map .string)), ("configured", .bool stored.isSome),
    ("value", value)]

/-- `ui_settings`. -/
def uiSettings (id : String) (row : Option PluginRow) (failure : Option String) (t : KvTable) :
    Except SettingError Value := do
  let manifest ← loadManifest id row failure
  let fields ← manifest.settings.mapM (settingField S env t)
  return .object [("id", .string id), ("settings", .array fields)]

/-! ## Writing -/

/-- The values of a request: a map has each of its keys once. -/
structure SubmittedValues where
  entries : List (String × Value)
  distinct : (entries.map Prod.fst).Nodup

/-- The text under which a value is stored. -/
def encodeValue (setting : UiSetting) (key : String) (value : Value) :
    Except SettingError String :=
  if setting.kind = "boolean" then do
    let b ← okOr value.asBool (.notBoolean key)
    return toString b
  else if setting.kind ∈ ["text", "secret", "select"] then do
    let text ← okOr value.asStr (.notString key)
    refuseIf (setting.required ∧ Text.trim text = "") (.empty key)
    refuseIf (setting.kind = "select" ∧ text ∉ setting.options) (.unsupportedOption key)
    return text
  else .error (.unsupportedKind setting.kind)

/-- The checks of a value before it is written: `none` is a setting that is cleared. -/
def checkValue (settings : List UiSetting) (key : String) (value : Value) :
    Except SettingError (Option (List UInt8)) := do
  let setting ← okOr (settings.find? (·.key == key)) (.unknown key)
  if value.isNull then
    refuseIf setting.required (.cannotBeCleared key)
    return none
  else
    let encoded ← encodeValue setting key value
    refuseIf (64 * 1024 < encoded.utf8ByteSize) (.tooLong key)
    return some (utf8 encoded)

/-- One turn of the loop. -/
def updateSetting (settings : List UiSetting) (quota : UInt64) (t : KvTable)
    (entry : String × Value) : Except SettingError Unit × KvTable :=
  let storageKey := storageKey entry.1
  match checkValue settings entry.1 entry.2 with
  | .error e => (.error e, t)
  | .ok none => (kvDelete t storageKey (env.tx entry.1)).map (Except.mapError .storage) id
  | .ok (some encoded) =>
    (kvPutLimited S quota t storageKey encoded (env.tx entry.1)).map (Except.mapError .storage) id

/-- What the loop is run with. -/
def prepareUpdate (policy : HostPolicy) (id : String) (row : Option PluginRow) :
    Except SettingError (List UiSetting × UInt64) := do
  let manifest ← loadManifest id row env.get
  let limits ← effectiveLimits manifest policy
  return (manifest.settings, limits.storage)

/-- `update_ui_settings`. -/
def updateUiSettings (policy : HostPolicy) (id : String) (row : Option PluginRow)
    (values : SubmittedValues) (t : KvTable) : Except SettingError Value × KvTable :=
  match prepareUpdate env policy id row with
  | .error e => (.error e, t)
  | .ok (settings, quota) =>
    match applyEach (updateSetting S env settings quota) t values.entries with
    | (.error e, t) => (.error e, t)
    | (.ok (), t) => (uiSettings S env id row env.getAgain t, t)

end
end Kinetix.Plugins.UiSettings
