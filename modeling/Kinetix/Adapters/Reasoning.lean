import Kinetix.Adapters.Settings
import Kinetix.Library.FirstWriter

/-!
# Reasoning capabilities

`normalize_reasoning_capability` of the adapters reads a provider's metadata, and discovery stores
what it found. The stored document is read by the same function. It names the levels, but not the
tokens the provider has for them, so the reader takes the names for the tokens.

## Implementation notes

A hash map is a function to options.
-/

namespace Kinetix.Adapters
open Json Spellings

/-! ## Capabilities -/

inductive ReasoningCapabilityMode where
  | toggle
  | level
  | manualBudget
  | adaptive
  deriving DecidableEq

def ReasoningCapabilityMode.name : ReasoningCapabilityMode → String
  | .toggle => "toggle"
  | .level => "level"
  | .manualBudget => "manual_budget"
  | .adaptive => "adaptive"

/-- `ReasoningCapability`, of a model. -/
structure ReasoningCapability where
  mode : Option ReasoningCapabilityMode
  levels : List String
  default : Option String
  canDisable : Bool
  upstreamFormat : String
  upstreamLevels : String → Option String

/-- How a capability is serialized: without `upstream_levels`. -/
def ReasoningCapability.toJson (c : ReasoningCapability) : Value :=
  .object ((c.mode.map fun mode => ("mode", .string mode.name)).toList ++
    [("levels", .array (c.levels.map .string))] ++
    (c.default.map fun level => ("default", .string level)).toList ++
    [("can_disable", .bool c.canDisable), ("upstream_format", .string c.upstreamFormat)])

/-- The spellings of the levels. -/
def levelSpellings : List (String × List String) :=
  [("off", ["off", "none", "disabled"]), ("minimal", ["minimal"]), ("low", ["low"]),
    ("medium", ["medium"]), ("high", ["high"]),
    ("xhigh", ["xhigh", "x-high", "x_high", "extra_high"]), ("max", ["max"])]

/-- The level a text stands for. -/
def canonicalLevel (raw : String) : Option String :=
  (levelSpellings.find? fun e => Text.toAsciiLowercase (Text.trim raw) ∈ e.2).map Prod.fst

/-- The texts of an array. -/
def texts (value : Value) : List String := (value.asArray.getD []).filterMap Value.asStr

/-- `canonical_reasoning_levels`. -/
def canonicalReasoningLevels (value : Value) : Index String String :=
  collect canonicalLevel (texts value)

/-! ## Reading metadata -/

/-- The object in which metadata declares a capability. -/
def declaredReasoning (metadata : Value) : Option Value :=
  (metadata.get "reasoning_capability").or
    ((metadata.get "reasoning").filter fun value => value.asObject.any fun fields =>
      ["supported", "mode", "levels"].any fun name => (fields.lookup name).isSome)

/-- The mode of a declared capability; `none` is a mode nobody knows. -/
def declaredMode (value : Value) (levels : List String) :
    Option (Option ReasoningCapabilityMode) :=
  match (value.get "mode").bind Value.asStr with
  | some "toggle" => some (some .toggle)
  | some "level" => some (some .level)
  | some "manual_budget" => some (some .manualBudget)
  | some "adaptive" => some (some .adaptive)
  | some _ => none
  | none => some (if levels = [] then none else some .level)

/-- A toggle has no levels, and the other modes have some. -/
def modeFits (mode : Option ReasoningCapabilityMode) (levels : List String) : Bool :=
  match mode with
  | some .toggle => levels = []
  | some .level | some .manualBudget | some .adaptive => levels ≠ []
  | none => true

def declaredFormat (value : Value) : String :=
  ((value.get "upstream_format").bind Value.asStr).getD "provider_declared"

/-- The formats in which no effort is the effort `none`. -/
def namesNone (format : String) : Bool := format = "openai_effort" ∨ format = "responses_effort"

/-- The fields of `upstream_levels`. -/
def explicitLevels (value : Value) : List (String × Value) :=
  ((value.get "upstream_levels").bind Value.asObject).getD []

/-- A token that is given explicitly, if it is a text and the level is there. -/
def putExplicit (names : List String) (tokens : String → Option String) (field : String × Value) :
    String → Option String :=
  match field.2.asStr with
  | some token => if field.1 ∈ names then Function.update tokens field.1 (some token) else tokens
  | none => tokens

/-- The tokens of a declared capability: the spellings, `none` for `off` in some formats, and what
is given explicitly. -/
def declaredTokens (value : Value) (index : Index String String) : String → Option String :=
  let tokens := if namesNone (declaredFormat value) ∧ "off" ∈ index.names then
      Function.update index.spelling "off" (some "none")
    else index.spelling
  (explicitLevels value).foldl (putExplicit index.names) tokens

/-- A capability that is declared in an object. -/
def normalizeDeclared (value : Value) : Option ReasoningCapability :=
  if (value.get "supported").bind Value.asBool = some false then none
  else
    let index := canonicalReasoningLevels ((value.get "levels").getD .null)
    match declaredMode value index.names with
    | none => none
    | some mode =>
      if modeFits mode index.names then
        some {
          mode
          levels := index.names
          default := none
          canDisable := ((value.get "can_disable").bind Value.asBool).getD ("off" ∈ index.names)
          upstreamFormat := declaredFormat value
          upstreamLevels := declaredTokens value index }
      else none

/-- The places where providers list levels, and the name of each format. -/
def levelLists : List (List String × String) :=
  [(["supportedThinkingEfforts"], "provider_supported_thinking_efforts"),
    (["reasoning", "supported_efforts"], "provider_reasoning_supported_efforts"),
    (["supported_reasoning_levels"], "provider_supported_reasoning_levels"),
    (["thinking", "levels"], "provider_thinking_levels"),
    (["capabilities", "effort_tiers"], "provider_effort_tiers")]

/-- `Value::pointer` with names that are no indexes. -/
def pointer (value : Value) (path : List String) : Option Value := path.foldlM Value.get value

/-- The first list that is there. -/
def listedLevels (metadata : Value) : Option (Value × String) :=
  levelLists.findSome? fun list => (pointer metadata list.1).map (·, list.2)

/-- `reasoning_capability`. -/
def reasoningCapability (index : Index String String) (mode : ReasoningCapabilityMode)
    (upstreamFormat : String) (canDisable : Option Bool) : Option ReasoningCapability :=
  if index.names = [] then none
  else some {
    mode := some mode
    levels := index.names
    default := none
    canDisable := canDisable.getD ("off" ∈ index.names)
    upstreamFormat
    upstreamLevels := index.spelling }

/-- `normalize_reasoning_capability`. -/
def normalizeReasoningCapability (metadata : Value) : Option ReasoningCapability :=
  match declaredReasoning metadata with
  | some value => normalizeDeclared value
  | none =>
    (listedLevels metadata).bind fun list =>
      reasoningCapability (canonicalReasoningLevels list.1) .level list.2 none

/-! ## Executing -/

inductive TargetTransport where
  | openAiChat
  | openAiResponses
  | anthropic
  | gemini
  | plugin (reference : String)

def effortFormats : List String :=
  ["openai_effort", "responses_effort", "provider_supported_thinking_efforts",
    "provider_reasoning_supported_efforts", "provider_supported_reasoning_levels"]

/-- The field of a request that a level is written to. -/
def levelField (transport : TargetTransport) (format : String) : Option String :=
  match transport with
  | .openAiChat => if format ∈ effortFormats then some "reasoning_effort" else none
  | .openAiResponses => if format ∈ effortFormats then some "reasoning.effort" else none
  | .gemini =>
    if format = "gemini_thinking_level" then some "thinkingConfig.thinkingLevel" else none
  | .anthropic | .plugin _ => none

/-- The token that is sent for a level. -/
def ReasoningCapability.token (c : ReasoningCapability) (level : String) : String :=
  (c.upstreamLevels level).getD level

/-- `thinking_map_for_transport`. -/
def thinkingMapForTransport (c : ReasoningCapability) (transport : TargetTransport) :
    Option ThinkingMap :=
  if c.mode ≠ some .level then none
  else (levelField transport c.upstreamFormat).map fun field => {
    levels := c.levels.map fun level => (level, .string (c.token level))
    mode := some .level
    budgetField := none
    levelField := some field }

/-! ## What is stored -/

/-- A discovery document into which a capability is put. -/
def storeCapability (fields : List (String × Value)) (c : ReasoningCapability) : Value :=
  .object (insertField "reasoning_capability" c.toJson fields)

/-- Two capabilities mean the same: they have the same levels, and every transport has the same
tokens for them. -/
structure SameMeaning (c c' : ReasoningCapability) : Prop where
  levels : c'.levels = c.levels
  default : c'.default = c.default
  canDisable : c'.canDisable = c.canDisable
  mode : c'.mode = c.mode
  maps : ∀ transport, thinkingMapForTransport c' transport = thinkingMapForTransport c transport

/-- Some transport writes the levels of this format into requests. -/
def Executable (format : String) : Prop := format ∈ effortFormats ∨ format = "gemini_thinking_level"

/-- The name of a level, as which it is read back. -/
def storedToken (format level : String) : String :=
  if namesNone format ∧ level = "off" then "none" else level

/-- The token that is given explicitly for a level: the last one. -/
def explicitToken (value : Value) (level : String) : Option String :=
  (explicitLevels value).reverse.findSome? fun field =>
    if field.1 = level then field.2.asStr else none

/-- Metadata that has no tokens but the names that are read back, in a format in which they are
sent. -/
structure NamesItsTokens (metadata : Value) : Prop where
  declared : ∀ value, declaredReasoning metadata = some value →
    ((value.get "mode").bind Value.asStr = none ∨
      (value.get "mode").bind Value.asStr = some "level") →
    Executable (declaredFormat value) → ∀ level raw,
      (texts ((value.get "levels").getD .null)).find? (canonicalLevel · = some level) = some raw →
      (explicitToken value level).getD
        (if namesNone (declaredFormat value) ∧ level = "off" then "none" else raw) =
          storedToken (declaredFormat value) level
  listed : declaredReasoning metadata = none → ∀ list format,
    listedLevels metadata = some (list, format) → Executable format → ∀ level raw,
      (texts list).find? (canonicalLevel · = some level) = some raw → raw = level

end Kinetix.Adapters
