import Kinetix.Adapters.Reasoning
import Kinetix.Admission.Pricing
import Kinetix.Foundation.IpAddr
import Kinetix.Library.Grouping
import Mathlib.Data.List.DropRight

/-!
# Model catalogs

The bundled catalog and the one of models.dev, from `model_catalog.rs`: what is read of them, the
checks that the bundled aliases have to pass, and what the two say of a canonical model and of the
offer of a provider.

## Implementation notes

A `BTreeMap` is the list of its entries, which have different keys, in the order of these. What
`serde` reads a text or a value as is a parameter. A `HashMap` is a function to optional values, and
a `HashSet` is a list.

The `url` crate is a parameter: what it parses a text as, and what it reads of the result and writes
to it. A number that the code reads as `f64` is rational, and finite.
-/

namespace Kinetix.ModelCatalog
open Json Text Candidates
open Admission (Prices)

/-- Which catalog an answer comes from. -/
inductive CatalogSource where
  | modelsDev
  | bundledCatalog
  deriving DecidableEq

/-- A canonical model of the bundled catalog. -/
structure BundledCanonicalModel where
  contextWindow : Option Int := none
  maxInputTokens : Option Int := none
  maxOutputTokens : Option Int := none
  capabilitiesJson : Value := .object [("schema_version", .number (.int 1))]
  modalities : Option Value := none
  modelType : Option String := none
  metadata : Value := .null
  sourceUrl : Option String := none

/-- Another id of a canonical model. -/
structure BundledAlias where
  id : String
  canonicalModelId : String
  deriving DecidableEq

/-- A model as a provider offers it. -/
structure BundledProviderModel where
  id : String
  canonicalModelId : Option String := none
  contextWindow : Option Int := none
  maxInputTokens : Option Int := none
  maxOutputTokens : Option Int := none
  capabilitiesJson : Value := .object [("schema_version", .number (.int 1))]
  modalities : Option Value := none
  prices : Prices := {}
  modelType : Option String := none
  metadata : Value := .null
  sourceUrl : Option String := none

/-- What a provider offers, under its base URLs. -/
structure BundledProviderCatalog where
  providerId : Option String := none
  baseUrls : List String
  models : List BundledProviderModel

/-- The second version of the bundled catalog. -/
structure BundledCatalogV2 where
  schemaVersion : Nat
  models : List (String × BundledCanonicalModel) := []
  aliases : List BundledAlias := []
  providerOverrides : List BundledProviderCatalog := []

/-- A model of the first version. -/
structure BundledProviderModelV1 where
  id : String
  contextWindow : Option Int
  maxOutputTokens : Option Int
  capabilitiesJson : Value
  modalities : Option Value := none
  prices : Prices := {}
  sourceUrl : Option String

/-- A provider of the first version. -/
structure BundledProviderCatalogV1 where
  baseUrls : List String
  models : List BundledProviderModelV1

/-- The first version of the bundled catalog. -/
structure BundledCatalogV1 where
  schemaVersion : Nat
  providers : List BundledProviderCatalogV1

/-- `BundledCatalog`, of either version. -/
structure BundledCatalog where
  models : List (String × BundledCanonicalModel) := []
  aliases : List BundledAlias := []
  providerOverrides : List BundledProviderCatalog := []

/-- What `serde` reads a text as, and a value as a catalog of each version. -/
structure Serde where
  fromStr : String → Option Value
  catalogV2 : Value → Option BundledCatalogV2
  catalogV1 : Value → Option BundledCatalogV1

/-! ## Ids -/

section Ids
variable {V : Type}

/-- `contains_key`. -/
def containsKey (entries : List (String × V)) (key : String) : Bool := (entries.lookup key).isSome

def keys (entries : List (String × V)) : List String := entries.map Prod.fst

theorem containsKey_iff {entries : List (String × V)} {key : String} :
    containsKey entries key = true ↔ key ∈ keys entries := by
  induction entries with
  | nil => simp [containsKey, keys]
  | cons entry entries ih =>
    rw [containsKey, keys, List.map_cons, List.mem_cons, List.lookup_cons]
    cases h : key == entry.1 with
    | true => exact iff_of_true rfl (.inl (by simpa using h))
    | false => exact ih.trans (or_iff_right (by simpa using h)).symm

end Ids

/-- `canonical_local_id`. -/
def canonicalLocalId (canonicalId : String) : Option String :=
  (Net.splitOnce '/' canonicalId).bind fun (_, localId) =>
    if localId ≠ "" then some localId else none

/-! ## The bundled catalog -/

/-- `local_collisions` of `validate_bundled_aliases`. -/
def localCollisions (models : List (String × BundledCanonicalModel)) (aliasId : String) :
    List String :=
  (keys models).filter fun canonicalId => canonicalLocalId canonicalId = some aliasId

/-- The loop of `validate_bundled_aliases`, with the ids that were seen. -/
def validateAliases (models : List (String × BundledCanonicalModel)) :
    List String → List BundledAlias → Option Unit
  | _, [] => some ()
  | seen, entry :: aliases =>
    if trim entry.id = "" ∨ trim entry.canonicalModelId = "" ∨
        ¬ containsKey models entry.canonicalModelId ∨ entry.id ∈ seen then none
    else if containsKey models entry.id ∧ entry.id ≠ entry.canonicalModelId then none
    else if localCollisions models entry.id ≠ [] ∧
        ¬ (localCollisions models entry.id).all (· == entry.canonicalModelId) then none
    else validateAliases models (entry.id :: seen) aliases

/-- `validate_bundled_aliases`. -/
def validateBundledAliases (models : List (String × BundledCanonicalModel))
    (aliases : List BundledAlias) : Option Unit :=
  validateAliases models [] aliases

/-- A model of the first version of the catalog. -/
def BundledProviderModelV1.migrate (model : BundledProviderModelV1) : BundledProviderModel where
  id := model.id
  canonicalModelId := none
  contextWindow := model.contextWindow
  maxInputTokens := none
  maxOutputTokens := model.maxOutputTokens
  capabilitiesJson := model.capabilitiesJson
  modalities := model.modalities
  prices := model.prices
  modelType := none
  metadata := .null
  sourceUrl := model.sourceUrl

/-- The first version has no ids of providers. -/
def BundledProviderCatalogV1.migrate (provider : BundledProviderCatalogV1) :
    BundledProviderCatalog where
  providerId := none
  baseUrls := provider.baseUrls
  models := provider.models.map BundledProviderModelV1.migrate

/-- `parse_bundled`. -/
def parseBundled (serde : Serde) (catalogJson : String) : Option BundledCatalog := do
  let raw ← serde.fromStr catalogJson
  let version ← (raw.get "schema_version").bind Value.asU64
  if version = 2 then
    let parsed ← serde.catalogV2 raw
    if parsed.schemaVersion ≠ 2 then none
    else
      let _ ← validateBundledAliases parsed.models parsed.aliases
      some {
        models := parsed.models
        aliases := parsed.aliases
        providerOverrides := parsed.providerOverrides
      }
  else if version = 1 then
    let parsed ← serde.catalogV1 raw
    if parsed.schemaVersion ≠ 1 then none
    else some { providerOverrides := parsed.providers.map BundledProviderCatalogV1.migrate }
  else none

/-- What the aliases of a catalog that was accepted meet. -/
structure AliasesValid (models : List (String × BundledCanonicalModel))
    (aliases : List BundledAlias) : Prop where
  target : ∀ entry ∈ aliases, entry.canonicalModelId ∈ keys models
  nodup : (aliases.map BundledAlias.id).Nodup
  own : ∀ entry ∈ aliases, entry.id ∈ keys models → entry.id = entry.canonicalModelId
  collisions : ∀ entry ∈ aliases, ∀ canonicalId ∈ keys models,
    canonicalLocalId canonicalId = some entry.id → canonicalId = entry.canonicalModelId

variable {models : List (String × BundledCanonicalModel)} {aliases : List BundledAlias}
  {seen : List String} {serde : Serde} {catalogJson : String} {bundled : BundledCatalog}

theorem AliasesValid.nil : AliasesValid models [] where
  target _ h := absurd h List.not_mem_nil
  nodup := List.nodup_nil
  own _ h := absurd h List.not_mem_nil
  collisions _ h := absurd h List.not_mem_nil

/-- The loop accepts aliases that are valid and were not seen. -/
theorem validateAliases_spec (h : validateAliases models seen aliases = some ()) :
    AliasesValid models aliases ∧ ∀ entry ∈ aliases, entry.id ∉ seen := by
  induction aliases generalizing seen with
  | nil => exact ⟨.nil, fun _ h => absurd h List.not_mem_nil⟩
  | cons entry aliases ih =>
    rw [validateAliases] at h
    split_ifs at h with hrow hown hlocal
    obtain ⟨hvalid, hfresh⟩ := ih h
    have htarget : entry.canonicalModelId ∈ keys models := by
      apply containsKey_iff.mp
      by_contra hno
      exact hrow (.inr (.inr (.inl hno)))
    have hseen : entry.id ∉ seen := fun hmem => hrow (.inr (.inr (.inr hmem)))
    have hself : entry.id ∈ keys models → entry.id = entry.canonicalModelId := by
      intro hmem
      by_contra hne
      exact hown ⟨containsKey_iff.mpr hmem, hne⟩
    have hcollide : ∀ canonicalId ∈ keys models,
        canonicalLocalId canonicalId = some entry.id → canonicalId = entry.canonicalModelId := by
      intro canonicalId hmem hid
      have hin : canonicalId ∈ localCollisions models entry.id :=
        List.mem_filter.mpr ⟨hmem, by simpa using hid⟩
      by_contra hne
      refine hlocal ⟨List.ne_nil_of_mem hin, fun hall => hne ?_⟩
      simpa using List.all_eq_true.mp hall canonicalId hin
    refine ⟨⟨?_, ?_, ?_, ?_⟩, ?_⟩
    · exact List.forall_mem_cons.mpr ⟨htarget, hvalid.target⟩
    · refine List.nodup_cons.mpr ⟨fun hmem => ?_, hvalid.nodup⟩
      obtain ⟨other, hother, hid⟩ := List.mem_map.mp hmem
      exact hfresh other hother (hid ▸ List.mem_cons_self)
    · exact List.forall_mem_cons.mpr ⟨hself, hvalid.own⟩
    · exact List.forall_mem_cons.mpr ⟨hcollide, hvalid.collisions⟩
    · refine List.forall_mem_cons.mpr ⟨hseen, fun other hother hmem => ?_⟩
      exact hfresh other hother (List.mem_cons_of_mem _ hmem)

/-- The aliases of a catalog that is accepted are valid. -/
theorem parseBundled_valid (h : parseBundled serde catalogJson = some bundled) :
    AliasesValid bundled.models bundled.aliases := by
  rw [parseBundled] at h
  obtain ⟨raw, -, h⟩ := Option.bind_eq_some_iff.mp h
  obtain ⟨version, -, h⟩ := Option.bind_eq_some_iff.mp h
  split_ifs at h
  · obtain ⟨parsed, -, h⟩ := Option.bind_eq_some_iff.mp h
    split_ifs at h
    obtain ⟨u, hvalid, h⟩ := Option.bind_eq_some_iff.mp h
    cases h
    exact (validateAliases_spec hvalid).1
  · obtain ⟨parsed, -, h⟩ := Option.bind_eq_some_iff.mp h
    split_ifs at h
    cases h
    exact .nil

/-- The first alias of an id is the only one. -/
theorem AliasesValid.find (h : AliasesValid models aliases) {entry : BundledAlias}
    (hmem : entry ∈ aliases) : aliases.find? (·.id == entry.id) = some entry := by
  obtain ⟨found, hfound⟩ : ∃ found, aliases.find? (·.id == entry.id) = some found := by
    apply Option.isSome_iff_exists.mp
    exact List.find?_isSome.mpr ⟨entry, hmem, by simp⟩
  have hid : found.id = entry.id := by simpa using List.find?_some hfound
  rw [hfound, List.inj_on_of_nodup_map h.nodup (List.mem_of_find?_eq_some hfound) hmem hid]

/-! ## The catalog of models.dev -/

/-- The canonical ids of each local id, as it is and in lower case. -/
structure CanonicalModelIndex where
  exactModelIds : String → Option (List String) := fun _ => none
  caseInsensitiveModelIds : String → Option (List String) := fun _ => none

namespace CanonicalModelIndex

/-- One canonical id goes into both maps, if it has a local id. -/
def add (index : CanonicalModelIndex) (canonicalId : String) : CanonicalModelIndex :=
  match canonicalLocalId canonicalId with
  | none => index
  | some modelId =>
    { exactModelIds := push index.exactModelIds modelId canonicalId
      caseInsensitiveModelIds :=
        push index.caseInsensitiveModelIds (toAsciiLowercase modelId) canonicalId }

/-- `CanonicalModelIndex::from_models`. -/
def fromModels (models : List (String × Value)) : CanonicalModelIndex := (keys models).foldl add {}

/-- `CanonicalModelIndex::exact`. -/
def exact (index : CanonicalModelIndex) (modelId : String) : List String :=
  bucket index.exactModelIds modelId

/-- `CanonicalModelIndex::case_insensitive`. -/
def caseInsensitive (index : CanonicalModelIndex) (modelId : String) : List String :=
  bucket index.caseInsensitiveModelIds (toAsciiLowercase modelId)

/-- Each map is filled by its own key. -/
theorem foldl_add (ids : List String) (index : CanonicalModelIndex) :
    (ids.foldl add index).exactModelIds = ids.foldl (pushBy canonicalLocalId) index.exactModelIds ∧
      (ids.foldl add index).caseInsensitiveModelIds =
        ids.foldl (pushBy fun id => (canonicalLocalId id).map toAsciiLowercase)
          index.caseInsensitiveModelIds := by
  induction ids generalizing index with
  | nil => exact ⟨rfl, rfl⟩
  | cons id ids ih =>
    simp only [List.foldl_cons]
    rw [(ih _).1, (ih _).2, add]
    cases h : canonicalLocalId id <;> simp [pushBy, h]

theorem exact_fromModels (models : List (String × Value)) (modelId : String) :
    (fromModels models).exact modelId =
      (keys models).filter fun id => canonicalLocalId id = some modelId := by
  rw [exact, fromModels, (foldl_add _ _).1, bucket_foldl, bucket_empty, List.nil_append]

theorem caseInsensitive_fromModels (models : List (String × Value)) (modelId : String) :
    (fromModels models).caseInsensitive modelId = (keys models).filter fun id =>
      (canonicalLocalId id).any fun localId =>
        toAsciiLowercase localId = toAsciiLowercase modelId := by
  rw [caseInsensitive, fromModels, (foldl_add _ _).2, bucket_foldl, bucket_empty, List.nil_append]
  refine List.filter_congr fun id _ => ?_
  cases canonicalLocalId id <;> simp

end CanonicalModelIndex

/-- The catalog, with the index of its models. -/
structure ModelsDevCatalog where
  models : List (String × Value)
  providers : List (String × Value)
  canonicalIndex : CanonicalModelIndex
  indexed : canonicalIndex = .fromModels models

/-- `ModelsDevCatalog::contains_canonical`. -/
def ModelsDevCatalog.containsCanonical (catalog : ModelsDevCatalog) (canonicalId : String) : Bool :=
  containsKey catalog.models canonicalId

open Adapters (pointer)

/-- What is used of the `url` crate. -/
structure UrlCrate where
  Url : Type
  parse : String → Option Url
  hostStr : Url → Option String
  path : Url → String
  /-- `set_query` and `set_fragment` of `None`. -/
  withoutQuery : Url → Url
  withoutFragment : Url → Url
  setPath : Url → String → Url
  toString : Url → String

/-- What a catalog says of a canonical model. -/
structure CanonicalModelMatch where
  source : CatalogSource
  canonicalId : String
  contextWindow : Option Int
  maxInputTokens : Option Int
  maxOutputTokens : Option Int
  capabilitiesJson : Value
  modalities : Option Value
  modelType : Option String
  metadata : Value
  sourceUrl : Option String

/-- What a catalog says of an offer. -/
structure ProviderModelMatch where
  source : CatalogSource
  providerId : String
  host : String
  modelId : String
  contextWindow : Option Int
  maxInputTokens : Option Int
  maxOutputTokens : Option Int
  capabilitiesJson : Value
  modalities : Option Value
  prices : Prices
  modelType : Option String
  metadata : Value
  sourceUrl : Option String

def modelsDevCatalogUrl : String := "https://models.dev/catalog.json?type=all"

def modelsDevProviderBases : List (String × String) :=
  [("https://api.openai.com/v1", "openai"),
    ("https://api.anthropic.com/v1", "anthropic"),
    ("https://generativelanguage.googleapis.com/v1beta", "google")]

/-- `str::trim_end_matches` of a slash. -/
def trimEndSlashes (s : String) : String := String.ofList (s.toList.rdropWhile (· = '/'))

section Urls
variable (crate : UrlCrate)

/-- `normalize_base_url`. -/
def normalizeBaseUrl (baseUrl : String) : Option String :=
  (crate.parse baseUrl).map fun url =>
    let url := crate.withoutFragment (crate.withoutQuery url)
    trimEndSlashes (crate.toString (crate.setPath url (trimEndSlashes (crate.path url))))

/-- The host of a base url, in lower case and without dots at its end. -/
def baseHost (baseUrl : String) : Option String := do
  let url ← crate.parse baseUrl
  let host ← crate.hostStr url
  some (toAsciiLowercase (String.ofList (host.toList.rdropWhile (· = '.'))))

end Urls

/-! ## Models of models.dev -/

/-- `valid_price`. -/
def validPrice (value : Option Value) : Option ℚ := (value.bind Value.asF64).filter (0 ≤ ·)

/-- `direction` of `normalized_modalities`. -/
def modalityDirection (model : Value) (name : String) : Option (List String) := do
  let values ← (← pointer model ["modalities", name]).asArray
  some ((values.filterMap Value.asStr).foldl (fun out value =>
    let normalized := toAsciiLowercase (trim value)
    if normalized ∈ ["text", "image", "audio", "video", "pdf"] ∧ normalized ∉ out then
      out ++ [normalized]
    else out) [])

def stringsJson (values : Option (List String)) : Value :=
  match values with
  | none => .null
  | some values => .array (values.map .string)

/-- `normalized_modalities`. -/
def normalizedModalities (model : Value) : Option Value :=
  let input := modalityDirection model "input"
  let output := modalityDirection model "output"
  if input = none ∧ output = none then none
  else some (.object [("input", stringsJson input), ("output", stringsJson output)])

/-- What `reasoning_options` list. -/
structure ReasoningOptions where
  levels : List String := []
  canDisable : Bool := false
  hasToggle : Bool := false

/-- One of the values of an effort. -/
def ReasoningOptions.addEffort (options : ReasoningOptions) (value : Value) : ReasoningOptions :=
  if value.isNull ∨ value.asStr = some "none" then { options with canDisable := true }
  else
    match value.asStr with
    | none => options
    | some level =>
      if level ∈ ["minimal", "low", "medium", "high", "xhigh", "max"] ∧ level ∉ options.levels then
        { options with levels := options.levels ++ [level] }
      else options

/-- One of the options. -/
def ReasoningOptions.add (options : ReasoningOptions) (option : Value) : ReasoningOptions :=
  match (option.get "type").bind Value.asStr with
  | some "toggle" => { options with hasToggle := true, canDisable := true }
  | some "effort" =>
    match (option.get "values").bind Value.asArray with
    | some values => values.foldl addEffort options
    | none => options
  | _ => options

/-- What a provider says of the reasoning of a model that reasons. -/
def providerReasoning (model : Value) : Value :=
  let options : ReasoningOptions :=
    match (model.get "reasoning_options").bind Value.asArray with
    | some listed => listed.foldl ReasoningOptions.add {}
    | none => {}
  if options.levels ≠ [] then
    .object [("supported", .bool true), ("mode", .string "level"),
      ("levels", .array (options.levels.map .string)), ("can_disable", .bool options.canDisable)]
  else if options.hasToggle then
    .object [("supported", .bool true), ("mode", .string "toggle"), ("can_disable", .bool true)]
  else .object [("supported", .bool true), ("can_disable", .bool options.canDisable)]

def supportedJson (supported : Bool) : Value := .object [("supported", .bool supported)]

/-- `base_capabilities`. -/
def baseCapabilities (model : Value) (providerSpecific : Bool) : Value :=
  let reasoning := (model.get "reasoning").bind Value.asBool
  let reasoningJson :=
    if providerSpecific ∧ reasoning = some true then some (providerReasoning model)
    else reasoning.map supportedJson
  let inputs := modalityDirection model "input"
  let outputs := modalityDirection model "output"
  let text :=
    match inputs, outputs with
    | some inputs, some outputs => some (supportedJson ("text" ∈ inputs ∧ "text" ∈ outputs))
    | _, _ => none
  .object ([("schema_version", .number (.int 1))] ++
    (text.map ("text", ·)).toList ++
    (reasoningJson.map ("reasoning", ·)).toList ++
    (((model.get "tool_call").bind Value.asBool).map fun b => ("tools", supportedJson b)).toList ++
    (((model.get "structured_output").bind Value.asBool).map fun b =>
      ("structured_output", supportedJson b)).toList ++
    (inputs.map fun inputs =>
      ("vision", .object [("input", .bool ("image" ∈ inputs))])).toList)

/-- `metadata_snapshot`. -/
def metadataSnapshot (model : Value) (providerSpecific : Bool) : Value :=
  let names := ["name", "description", "type", "family", "attachment", "temperature", "knowledge",
    "open_weights", "release_date", "last_updated"] ++
    if providerSpecific then
      ["status", "reasoning_options", "interleaved", "provider", "experimental"]
    else []
  .object (names.filterMap fun name => (model.get name).map (name, ·))

/-- `models_dev_canonical_match`. -/
def modelsDevCanonicalMatch (canonicalId : String) (model : Value) : Option CanonicalModelMatch :=
  model.asObject.map fun _ => {
    source := .modelsDev
    canonicalId
    contextWindow := (pointer model ["limit", "context"]).bind Value.asI64
    maxInputTokens := (pointer model ["limit", "input"]).bind Value.asI64
    maxOutputTokens := (pointer model ["limit", "output"]).bind Value.asI64
    capabilitiesJson := baseCapabilities model false
    modalities := normalizedModalities model
    modelType := (model.get "type").bind Value.asStr
    metadata := metadataSnapshot model false
    sourceUrl := some modelsDevCatalogUrl
  }

/-- `models_dev_provider_match`. -/
def modelsDevProviderMatch (crate : UrlCrate) (baseUrl providerId modelId : String)
    (model : Value) : Option ProviderModelMatch := do
  let host ← baseHost crate baseUrl
  let _ ← model.asObject
  some {
    source := .modelsDev
    providerId
    host
    modelId
    contextWindow := (pointer model ["limit", "context"]).bind Value.asI64
    maxInputTokens := (pointer model ["limit", "input"]).bind Value.asI64
    maxOutputTokens := (pointer model ["limit", "output"]).bind Value.asI64
    capabilitiesJson := baseCapabilities model true
    modalities := normalizedModalities model
    prices := {
      inputPer1m := validPrice (pointer model ["cost", "input"])
      outputPer1m := validPrice (pointer model ["cost", "output"])
      cachedPer1m := validPrice (pointer model ["cost", "cache_read"])
      cacheWritePer1m := validPrice (pointer model ["cost", "cache_write"])
      thinkingPer1m := validPrice (pointer model ["cost", "reasoning"])
    }
    modelType := (model.get "type").bind Value.asStr
    metadata := metadataSnapshot model true
    sourceUrl := some modelsDevCatalogUrl
  }

namespace ModelsDevCatalog
variable (crate : UrlCrate) (catalog : ModelsDevCatalog)

/-- `ModelsDevCatalog::provider_id_for_base`. -/
def providerIdForBase (baseUrl : String) : Option String :=
  (normalizeBaseUrl crate baseUrl).bind fun normalizedBase =>
    ((modelsDevProviderBases.find? (·.1 = normalizedBase)).map Prod.snd).filter
        (containsKey catalog.providers) <|>
      (catalog.providers.find? fun provider =>
        match (provider.2.get "api").bind Value.asStr with
        | some api => normalizeBaseUrl crate api = some normalizedBase
        | none => false).map Prod.fst

/-- `ModelsDevCatalog::canonical_match`. -/
def canonicalMatch (canonicalId : String) : Option CanonicalModelMatch :=
  (catalog.models.lookup canonicalId).bind (modelsDevCanonicalMatch canonicalId)

/-- `ModelsDevCatalog::provider_match`. -/
def providerMatch (baseUrl modelId : String) : Option ProviderModelMatch := do
  let providerId ← catalog.providerIdForBase crate baseUrl
  let provider ← catalog.providers.lookup providerId
  let models ← (← provider.get "models").asObject
  let model ← models.lookup modelId
  modelsDevProviderMatch crate baseUrl providerId modelId model

end ModelsDevCatalog

/-! ## Models of the bundled catalog -/

/-- `bundled_canonical_match`. -/
def bundledCanonicalMatch (canonicalId : String) (model : BundledCanonicalModel) :
    CanonicalModelMatch where
  source := .bundledCatalog
  canonicalId
  contextWindow := model.contextWindow
  maxInputTokens := model.maxInputTokens
  maxOutputTokens := model.maxOutputTokens
  capabilitiesJson := model.capabilitiesJson
  modalities := model.modalities
  modelType := model.modelType
  metadata := model.metadata
  sourceUrl := model.sourceUrl

/-- `lookup_bundled_provider`: only the first provider of the base is asked for the model. -/
def lookupBundledProvider (crate : UrlCrate) (catalog : BundledCatalog) (baseUrl modelId : String) :
    Option (ProviderModelMatch × Option String) := do
  let host ← baseHost crate baseUrl
  let normalizedBase ← normalizeBaseUrl crate baseUrl
  let provider ← catalog.providerOverrides.find? fun provider =>
    provider.baseUrls.any fun candidate => normalizeBaseUrl crate candidate = some normalizedBase
  let model ← provider.models.find? (·.id = modelId)
  some ({
    source := .bundledCatalog
    providerId := provider.providerId.getD host
    host
    modelId := model.id
    contextWindow := model.contextWindow
    maxInputTokens := model.maxInputTokens
    maxOutputTokens := model.maxOutputTokens
    capabilitiesJson := model.capabilitiesJson
    modalities := model.modalities
    prices := model.prices
    modelType := model.modelType
    metadata := model.metadata
    sourceUrl := model.sourceUrl
  }, model.canonicalModelId)

end Kinetix.ModelCatalog
