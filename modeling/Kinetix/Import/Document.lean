import Kinetix.Foundation.IpAddr
import Kinetix.Foundation.Json

/-!
# Configuration documents

What `import_config` of `admin.rs` reads of the document that it is given: the entries of its five
sections, with the defaults of what they leave out.

## Implementation notes

An entry is read once, where the code looks a field up wherever it needs it. A field that is not
there and a field that is `null` are only told apart where the code does.
-/

namespace Kinetix.Import
open Json

/-- `WireFormat`. -/
inductive WireFormat where
  | openai
  | anthropic
  | gemini
  | plugin
  deriving DecidableEq

def WireFormat.asStr : WireFormat → String
  | openai => "openai"
  | anthropic => "anthropic"
  | gemini => "gemini"
  | plugin => "plugin"

def WireFormat.parse (s : String) : Option WireFormat :=
  [openai, anthropic, gemini, plugin].find? fun w => w.asStr = s

/-- `AuthScheme`. -/
inductive AuthScheme where
  | bearer
  | customHeader
  | queryParam
  deriving DecidableEq

def AuthScheme.asStr : AuthScheme → String
  | bearer => "bearer"
  | customHeader => "custom_header"
  | queryParam => "query_param"

def AuthScheme.parse (s : String) : Option AuthScheme :=
  [bearer, customHeader, queryParam].find? fun a => a.asStr = s

/-- `CredentialMode`. -/
inductive CredentialMode where
  | manual
  | authFlow
  | none
  deriving DecidableEq

def CredentialMode.asStr : CredentialMode → String
  | manual => "manual"
  | authFlow => "auth_flow"
  | none => "none"

def CredentialMode.parse (s : String) : Option CredentialMode :=
  [manual, authFlow, none].find? fun m => m.asStr = s

/-- `PluginRef`: a capability of a plugin. -/
structure PluginRef where
  pluginId : String
  capability : String

/-- `PluginRef::parse`, of `plugin:<id>/<capability>`. -/
def PluginRef.parse (s : String) : Option PluginRef := do
  let rest ← Text.stripPrefix s "plugin:"
  let (id, capability) ← Net.splitOnce '/' rest
  if id = "" ∨ capability = "" then none else some ⟨id, capability⟩

/-- `TargetTransport::parse` reads the text. -/
def isTransport (s : String) : Bool :=
  ["openai", "openai-responses", "anthropic", "gemini"].contains s || (PluginRef.parse s).isSome

/-! ## Fields -/

/-- `value[name]`. -/
def field (v : Value) (name : String) : Value := (v.get name).getD .null

def stringOf (v : Value) (name : String) : Option String := (field v name).asStr

def boolOf (v : Value) (name : String) : Option Bool := (field v name).asBool

def intOf (v : Value) (name : String) : Option Int64 := (field v name).asI64.map Int64.ofInt

/-- `value.get(name)` without `null`. -/
def presentOf (v : Value) (name : String) : Option Value :=
  (v.get name).filter fun value => !value.isNull

/-- A field that is an array, and nothing otherwise. -/
def listOf (v : Value) (name : String) : List Value := (field v name).asArray.getD []

/-! ## Entries -/

/-- A provider of a document, with its defaults filled in. -/
structure ProviderEntry where
  name : String
  baseUrl : String
  wireFormat : String
  authScheme : String
  customHeaderName : Option String
  customParamName : Option String
  extraHeaders : Value
  timeoutMs : Int64
  capabilityMode : String
  modelsPath : Option String
  rateLimitRules : Value
  followRedirects : Bool
  credentialHosts : String
  allowInsecureTls : Bool
  wirePlugin : String
  credentialPlugin : String
  modelSourcePlugin : String
  credentialMode : Option Value
  sourcePluginId : Option Value
  sourceIntegrationId : Option Value

def ProviderEntry.ofValue (p : Value) : ProviderEntry where
  name := (stringOf p "name").getD ""
  baseUrl := (stringOf p "base_url").getD ""
  wireFormat := (stringOf p "wire_format").getD ""
  authScheme := (stringOf p "auth_scheme").getD "bearer"
  customHeaderName := stringOf p "custom_header_name"
  customParamName := stringOf p "custom_param_name"
  extraHeaders := field p "extra_headers"
  timeoutMs := (intOf p "timeout_ms").getD 120000
  capabilityMode := (stringOf p "capability_mode").getD "permissive"
  modelsPath := stringOf p "models_path"
  rateLimitRules := field p "rate_limit_rules"
  followRedirects := (boolOf p "follow_redirects").getD false
  credentialHosts := (stringOf p "credential_hosts").getD ""
  allowInsecureTls := (boolOf p "allow_insecure_tls").getD false
  wirePlugin := (stringOf p "wire_plugin").getD ""
  credentialPlugin := (stringOf p "credential_plugin").getD ""
  modelSourcePlugin := (stringOf p "model_source_plugin").getD ""
  credentialMode := presentOf p "credential_mode"
  sourcePluginId := p.get "source_plugin_id"
  sourceIntegrationId := p.get "source_integration_id"

/-- The credential mode that an entry states. -/
def ProviderEntry.explicitMode (p : ProviderEntry) : Option CredentialMode :=
  (p.credentialMode.bind Value.asStr).bind CredentialMode.parse

/-- An account of a document; its secret is encrypted or absent. -/
structure AccountEntry where
  provider : String
  label : String
  secretEnc : Option String
  keyMask : String
  priority : Int64
  weight : Int64
  softQuotaUsd : Option ℚ
  quotaType : String

def AccountEntry.ofValue (a : Value) : AccountEntry where
  provider := (stringOf a "provider").getD ""
  label := (stringOf a "label").getD "Default key"
  secretEnc := stringOf a "secret_enc"
  keyMask := (stringOf a "key_mask").getD "••••"
  priority := (intOf a "priority").getD 1
  weight := (intOf a "weight").getD 1
  softQuotaUsd := (field a "soft_quota_usd").asF64
  quotaType := (stringOf a "quota_type").getD "none"

/-- A model of a document. -/
structure ModelEntry where
  provider : String
  upstreamId : String
  displayName : String
  enabled : Bool
  contextWindow : Option Int64
  maxOutputTokens : Option Int64
  capabilities : Value
  prices : Value
  parameters : Value
  thinkingMap : Value
  extraRequest : Value
  transportOverride : Option Value

def ModelEntry.ofValue (m : Value) : ModelEntry where
  provider := (stringOf m "provider").getD ""
  upstreamId := (stringOf m "upstream_id").getD ""
  displayName := (stringOf m "display_name").getD ((stringOf m "upstream_id").getD "")
  enabled := (boolOf m "enabled").getD true
  contextWindow := intOf m "context_window"
  maxOutputTokens := intOf m "max_output_tokens"
  capabilities := field m "capabilities"
  prices := field m "prices"
  parameters := field m "parameters"
  thinkingMap := field m "thinking_map"
  extraRequest := field m "extra_request"
  transportOverride := presentOf m "transport_override"

/-- How a document names a model. -/
def modelLabel (provider upstreamId : String) : String := provider ++ "/" ++ upstreamId

def ModelEntry.label (m : ModelEntry) : String := modelLabel m.provider m.upstreamId

/-- The transport that an entry asks for. -/
def ModelEntry.transport (m : ModelEntry) : Option String :=
  ((m.transportOverride.bind Value.asStr).map Text.trim).filter fun t => t ≠ ""

/-- A target of a route of a document. -/
structure TargetEntry where
  model : String
  accountId : Option String
  priority : Int64
  weight : Int64
  predicate : Value
  paramOverrides : Value

def TargetEntry.ofValue (t : Value) : TargetEntry where
  model := (stringOf t "model").getD ""
  accountId := stringOf t "account_id"
  priority := (intOf t "priority").getD 1
  weight := (intOf t "weight").getD 1
  predicate := field t "predicate"
  paramOverrides := field t "param_overrides"

/-- A route of a document; its lists are kept as they came. -/
structure RouteEntry where
  name : String
  description : String
  strategy : String
  fallbackTriggers : Value
  portabilityPolicy : String
  stickyRouting : Bool
  cacheAffinity : Bool
  maxAttempts : Option Int64
  targets : List TargetEntry

def RouteEntry.ofValue (r : Value) : RouteEntry where
  name := (stringOf r "name").getD ""
  description := (stringOf r "description").getD ""
  strategy := (stringOf r "strategy").getD "priority"
  fallbackTriggers := field r "fallback_triggers"
  portabilityPolicy := (stringOf r "portability_policy").getD
    (if stringOf r "continuity_policy" = some "error" then "reject" else "strip_with_warning")
  stickyRouting := (boolOf r "sticky_routing").getD false
  cacheAffinity := (boolOf r "cache_affinity").getD false
  maxAttempts := intOf r "max_attempts"
  targets := (listOf r "targets").map TargetEntry.ofValue

/-- An alias of a document. -/
structure AliasEntry where
  aliasName : String
  targetType : String
  target : String
  description : String

def AliasEntry.ofValue (a : Value) : AliasEntry where
  aliasName := (stringOf a "alias").getD ""
  targetType := (stringOf a "target_type").getD "model"
  target := (stringOf a "target").getD ""
  description := (stringOf a "description").getD ""

/-- What an import reads of a document. -/
structure Document where
  providers : List ProviderEntry
  accounts : List AccountEntry
  models : List ModelEntry
  routes : List RouteEntry
  aliases : List AliasEntry

def Document.ofValue (cfg : Value) : Document where
  providers := (listOf cfg "providers").map ProviderEntry.ofValue
  accounts := (listOf cfg "accounts").map AccountEntry.ofValue
  models := (listOf cfg "models").map ModelEntry.ofValue
  routes := (listOf cfg "routes").map RouteEntry.ofValue
  aliases := (listOf cfg "aliases").map AliasEntry.ofValue

/-! ## Normal forms -/

/-- `normalize_model_capabilities`: a capability under its first name that is there. -/
def normalizeModelCapabilities (value : Value) : Value :=
  match value.asObject with
  | none => .object []
  | some input => .object <|
      [("text", ["text"]), ("vision", ["vision"]), ("reasoning", ["reasoning"]),
        ("tool_calling", ["tool_calling", "toolCalling", "tools", "tool_calls"]),
        ("audio", ["audio"]),
        ("structured_output", ["structured_output", "structuredOutput"])].filterMap
        fun (canonical, aliases) =>
          ((aliases.findSome? fun key => input.lookup key).bind Value.asBool).map fun b =>
            (canonical, .bool b)

/-- The fields of `Prices`, in order. -/
def priceFields : List String :=
  ["input_per_1m", "output_per_1m", "cached_per_1m", "cache_write_per_1m", "thinking_per_1m"]

/-- An `Option<f64>`. -/
def readPrice (v : Value) : Option Value :=
  if v.isNull then some .null else v.asF64.map fun x => .number (.float x)

/-- `Prices` read from a value and written again; what is not one is read as no prices. -/
def normalizePrices (value : Value) : Value :=
  let read := match value with
    | .object fields => (priceFields.map fun name => (fields.lookup name).getD .null).mapM readPrice
    | .array items => if items.length = priceFields.length then items.mapM readPrice else none
    | _ => none
  .object (priceFields.zip (read.getD (priceFields.map fun _ => .null)))

end Kinetix.Import
