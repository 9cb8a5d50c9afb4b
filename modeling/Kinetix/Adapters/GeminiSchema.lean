import Kinetix.Foundation.JsonText
import Kinetix.Frontends.Request
import Kinetix.Library.Fallible

/-!
# Tool schemas for Gemini

`sanitize_schema` of `adapters/gemini.rs`, which rewrites a JSON schema to the keywords that Gemini
supports.

## Implementation notes

Where the code expects a value to have a shape, and it has not, the result is a panic. The branches
of an `allOf` are sanitized when the keyword is seen, and looked at after the other keywords.
-/

namespace Kinetix.Adapters.Gemini
open Frontends Json Kinetix.Types Fallible

/-- A refusal of the schema, or a panic. -/
inductive SchemaFault where
  | refused (failure : UpstreamFailure)
  | panic (message : String)

/-- The result of sanitizing. -/
abbrev Sanitized (α : Type) : Type := Except SchemaFault α

abbrev Fields : Type := List (String × Value)

/-- `schema_error`. -/
def schemaError {α : Type} (path message : String) : Sanitized α :=
  .error (.refused
    { kind := .badRequest, status := none, retryAfterSecs := none,
      message := s!"Gemini tool schema at {path}: {message}", quotaResetAt := none })

/-! ## Merging -/

/-- The named schemas of a map, after those of another one. -/
def mergeMembers (path : String) (destination : Fields) : Fields → Sanitized Fields
  | [] => .ok destination
  | (name, schema) :: source =>
    match destination.lookup name with
    | some previous =>
      if !previous.eq schema then
        schemaError s!"{path}.{name}" "conflicting allOf schemas cannot be represented safely"
      else mergeMembers path destination source
    | none => mergeMembers path (insertField name schema destination) source

/-- Members of an object are added to those that are there. -/
def mergeMembersField (target : Fields) (path key : String) (value : Value) : Sanitized Fields :=
  match value with
  | .object source =>
    match (target.lookup key).getD (.object []) with
    | .object destination =>
      (mergeMembers s!"{path}.{key}" destination source).map fun merged =>
        insertField key (.object merged) target
    | _ => .error (.panic "schema map initialized as object")
  | _ => schemaError s!"{path}.{key}" "must be an object"

/-- Required names are added once. -/
def mergeRequired (target : Fields) (path : String) (value : Value) : Sanitized Fields :=
  match value with
  | .array source =>
    match (target.lookup "required").getD (.array []) with
    | .array destination =>
      .ok (insertField "required" (.array (source.foldl (fun destination item =>
        if destination.any (·.eq item) then destination else destination ++ [item])
          destination)) target)
    | _ => .error (.panic "required initialized as array")
  | _ => schemaError s!"{path}.required" "must be an array"

/-- A keyword of a branch is merged into the schema. -/
def mergeField (target : Fields) (path key : String) (value : Value) : Sanitized Fields :=
  if key = "properties" ∨ key = "$defs" then mergeMembersField target path key value
  else if key = "required" then mergeRequired target path value
  else
    match target.lookup key with
    | none => .ok (insertField key value target)
    | some previous =>
      if key = "title" ∨ key = "description" ∨ previous.eq value then .ok target
      else
        schemaError s!"{path}.{key}" "conflicting allOf constraints cannot be represented safely"

/-- `merge_schema_maps`, keyword by keyword. -/
def mergeSchemaMaps (target : Fields) (incoming : Fields) (path : String) : Sanitized Fields :=
  incoming.foldlM (fun target field => mergeField target path field.1 field.2) target

def isNullBranch (branch : Value) : Bool := strField branch "type" = some "null"

/-- A branch for `null`, unless there is one. -/
def addNullBranch (schema : Fields) (path : String) : Sanitized Fields :=
  match schema.lookup "anyOf" with
  | some (.array anyOf) =>
    if anyOf.any isNullBranch then .ok schema
    else
      .ok (insertField "anyOf" (.array (anyOf ++ [.object [("type", .string "null")]])) schema)
  | _ => schemaError path "nullable without type or anyOf cannot be normalized safely"

/-- `null` is added to the types. -/
def addNullableType (schema : Fields) (path : String) : Sanitized Fields :=
  match schema.lookup "type" with
  | some (.string existing) =>
    if existing ≠ "null" then
      .ok (insertField "type" (.array [.string existing, .string "null"]) schema)
    else .ok schema
  | some (.array types) =>
    if types.any fun value => value.asStr = some "null" then .ok schema
    else .ok (insertField "type" (.array (types ++ [.string "null"])) schema)
  | some _ => schemaError path "nullable requires a string or array type"
  | none => addNullBranch schema path

/-! ## Keywords -/

/-- Keywords that are left out. -/
def droppedKeywords : List String :=
  ["$schema", "$comment", "strict", "default", "examples", "example", "deprecated", "readOnly",
    "writeOnly"]

/-- Keywords that are handed on with their value. -/
def copiedKeywords : List String :=
  ["$id", "$anchor", "type", "format", "title", "description", "enum", "minLength", "maxLength",
    "minItems", "maxItems", "minimum", "maximum", "pattern", "minProperties", "maxProperties",
    "required", "propertyOrdering"]

/-- What is known of a node after some of its keywords. -/
structure Building where
  out : Fields := []
  nullable : Bool := false
  constValue : Option Value := none
  allOf : Option (Sanitized (List Value)) := none

def Building.insert (b : Building) (key : String) (value : Value) : Building :=
  { b with out := insertField key value b.out }

def localRef (reference : String) : String :=
  match Text.stripPrefix reference "#/definitions/" with
  | some suffix => "#/$defs/" ++ suffix
  | none => reference

section Keyword
/- The value of the keyword, sanitized as a schema, as a map of schemas and as a list of schemas. -/
variable (node : String → Sanitized Value) (members : String → Sanitized Fields)
  (list : String → Sanitized (List Value))

/-- One keyword of a node. -/
def keyword (path : String) (b : Building) (key : String) (value : Value) : Sanitized Building :=
  if key ∈ droppedKeywords then .ok b
  else if key = "definitions" ∨ key = "$defs" then do
    let sanitized ← members s!"{path}.{key}"
    (mergeSchemaMaps b.out [("$defs", .object sanitized)] path).map fun out => { b with out := out }
  else if key = "$ref" then
    match value with
    | .string reference => .ok (b.insert "$ref" (.string (localRef reference)))
    | _ => schemaError s!"{path}.$ref" "must be a string"
  else if key = "properties" then
    (members s!"{path}.properties").map fun sanitized => b.insert "properties" (.object sanitized)
  else if key = "items" then
    if value.asArray.isSome then
      (list s!"{path}.items").map fun sanitized => b.insert "prefixItems" (.array sanitized)
    else (node s!"{path}.items").map fun sanitized => b.insert "items" sanitized
  else if key = "prefixItems" ∨ key = "anyOf" then
    (list s!"{path}.{key}").map fun sanitized => b.insert key (.array sanitized)
  else if key = "oneOf" then
    if containsKey b.out "anyOf" then
      schemaError s!"{path}.oneOf" "cannot combine oneOf and anyOf safely"
    else (list s!"{path}.oneOf").map fun sanitized => b.insert "anyOf" (.array sanitized)
  else if key = "allOf" then .ok { b with allOf := some (list s!"{path}.allOf") }
  else if key = "const" then .ok { b with constValue := some value }
  else if key = "additionalProperties" then
    match value with
    | .bool flag => .ok (b.insert "additionalProperties" (.bool flag))
    | .object _ =>
      (node s!"{path}.additionalProperties").map (b.insert "additionalProperties")
    | _ =>
      schemaError s!"{path}.additionalProperties" "must be a boolean or schema object"
  else if key = "nullable" then
    match value with
    | .bool flag => .ok { b with nullable := flag }
    | _ => schemaError s!"{path}.nullable" "must be a boolean"
  else if key ∈ copiedKeywords then .ok (b.insert key value)
  else schemaError s!"{path}.{key}" s!"unsupported JSON Schema keyword '{key}'"

end Keyword

/-! ## Nodes -/

def applyConst (path : String) (out : Fields) (constValue : Option Value) : Sanitized Fields :=
  match constValue with
  | none => .ok out
  | some value =>
    if ((out.lookup "enum").bind (·.asArray)).any fun existing => !existing.any (·.eq value) then
      schemaError s!"{path}.const" "const conflicts with enum"
    else .ok (insertField "enum" (.array [value]) out)

/-- The branches of an `allOf`, merged one after the other. -/
def mergeBranches (path : String) (merged : Fields) : Nat → List Value → Sanitized Fields
  | _, [] => .ok merged
  | index, branch :: branches =>
    match branch with
    | .object fields => do
      let merged ← mergeSchemaMaps merged fields s!"{path}.allOf[{index}]"
      mergeBranches path merged (index + 1) branches
    | _ => schemaError s!"{path}.allOf[{index}]" "allOf branch must be an object schema"

def applyAllOf (path : String) (out : Fields) (allOf : Option (Sanitized (List Value))) :
    Sanitized Fields :=
  match allOf with
  | none => .ok out
  | some branches => do
    let merged ← mergeBranches path [] 0 (← branches)
    mergeSchemaMaps out merged path

def applyNullable (path : String) (out : Fields) (nullable : Bool) : Sanitized Fields :=
  if nullable then addNullableType out path else .ok out

/-- Whether a reference has constraints beside it. -/
def refBesideOthers (out : Fields) : Bool :=
  containsKey out "$ref" && out.any fun field => !Text.startsWith field.1 "$"

def finishNode (path : String) (b : Building) : Sanitized Value := do
  let out ← applyConst path b.out b.constValue
  let out ← applyAllOf path out b.allOf
  let out ← applyNullable path out b.nullable
  if refBesideOthers out then
    schemaError path "$ref cannot be combined with non-$ sibling constraints"
  else .ok (.object out)

mutual
/-- `sanitize_schema_node`. -/
def sanitizeSchemaNode : Value → String → Sanitized Value
  | .object fields, path => do finishNode path (← sanitizeKeywords fields path {})
  | _, path => schemaError path "schema nodes must be JSON objects"

/-- The keywords of a node, one after the other. -/
def sanitizeKeywords : Fields → String → Building → Sanitized Building
  | [], _, b => .ok b
  | (key, value) :: fields, path, b => do
    let b ← keyword (sanitizeSchemaNode value) (sanitizeMembers value) (sanitizeSchemaList value)
      path b key value
    sanitizeKeywords fields path b

/-- The schemas of a map. -/
def sanitizeMembers : Value → String → Sanitized Fields
  | .object fields, path => sanitizeFields fields path []
  | _, path => schemaError path "must be an object"

/-- The schemas under the names of an object. -/
def sanitizeFields : Fields → String → Fields → Sanitized Fields
  | [], _, sanitized => .ok sanitized
  | (name, schema) :: fields, path, sanitized => do
    let node ← sanitizeSchemaNode schema s!"{path}.{name}"
    sanitizeFields fields path (insertField name node sanitized)

/-- The schemas of a list. -/
def sanitizeSchemaList : Value → String → Sanitized (List Value)
  | .array items, path => sanitizeItems items path 0
  | _, path => schemaError path "expected an array of schemas"

def sanitizeItems : List Value → String → Nat → Sanitized (List Value)
  | [], _, _ => .ok []
  | schema :: items, path, index => do
    let node ← sanitizeSchemaNode schema s!"{path}[{index}]"
    return node :: (← sanitizeItems items path (index + 1))
end

/-- `sanitize_schema`. -/
def sanitizeSchema (schema : Value) (rootPath : String) : Sanitized Value :=
  sanitizeSchemaNode schema rootPath

/-! ## Clean schemas -/

mutual
/-- A schema with supported keywords only, at every depth, in the form to which they
are rewritten. -/
inductive Clean : Value → Prop
  | object {fields : Fields} (distinct : Distinct fields)
    (refAlone : refBesideOthers fields = false)
      (clean : ∀ field ∈ fields, CleanField field.1 field.2) : Clean (.object fields)

inductive CleanField : String → Value → Prop
  | copied {key : String} {value : Value} (h : key ∈ copiedKeywords) : CleanField key value
  | ref {reference : String} (h : localRef reference = reference) :
      CleanField "$ref" (.string reference)
  | members {key : String} {fields : Fields} (h : key ∈ ["$defs", "properties"])
      (distinct : Distinct fields) (clean : ∀ field ∈ fields, Clean field.2) :
      CleanField key (.object fields)
  | items {value : Value} (clean : Clean value) : CleanField "items" value
  | list {key : String} {items : List Value} (h : key ∈ ["prefixItems", "anyOf"])
      (clean : ∀ item ∈ items, Clean item) : CleanField key (.array items)
  | flag (b : Bool) : CleanField "additionalProperties" (.bool b)
  | additional {value : Value} (clean : Clean value) : CleanField "additionalProperties" value
end

/-- Fields of which each is clean. -/
structure CleanFields (fields : Fields) : Prop where
  distinct : Distinct fields
  clean : ∀ field ∈ fields, CleanField field.1 field.2

theorem CleanFields.nil : CleanFields [] := ⟨List.nodup_nil, fun _ h => (List.not_mem_nil h).elim⟩

variable {path : String} {key : String} {items : List Value} {b : Building}

theorem CleanFields.insert {fields : Fields} (h : CleanFields fields) {value : Value}
    (hvalue : CleanField key value) : CleanFields (insertField key value fields) := by
  refine ⟨h.distinct.insertField key value, fun field hfield => ?_⟩
  rcases mem_insertField hfield with rfl | hfield
  · exact hvalue
  · exact h.clean field hfield

theorem CleanFields.of_lookup {fields : Fields} (h : CleanFields fields) {value : Value}
    (hvalue : fields.lookup key = some value) : CleanField key value :=
  h.clean _ (mem_of_lookup hvalue)

/-- Named schemas of which each is clean. -/
structure CleanMembers (fields : Fields) : Prop where
  distinct : Distinct fields
  clean : ∀ field ∈ fields, Clean field.2

theorem CleanMembers.nil : CleanMembers [] := ⟨List.nodup_nil, fun _ h => (List.not_mem_nil h).elim⟩

theorem CleanMembers.insert {fields : Fields} (h : CleanMembers fields) {name : String}
    {schema : Value} (hschema : Clean schema) : CleanMembers (insertField name schema fields) := by
  refine ⟨h.distinct.insertField name schema, fun field hfield => ?_⟩
  rcases mem_insertField hfield with rfl | hfield
  · exact hschema
  · exact h.clean field hfield

theorem CleanMembers.field {fields : Fields} (h : CleanMembers fields)
    (hkey : key ∈ ["$defs", "properties"]) : CleanField key (.object fields) :=
  .members hkey h.distinct h.clean

/-- A clean map of schemas is one. -/
theorem CleanField.toMembers {fields : Fields} (h : CleanField key (.object fields))
    (hkey : key = "properties" ∨ key = "$defs") : CleanMembers fields := by
  cases h with
  | copied hcopied => rcases hkey with rfl | rfl <;> exact absurd hcopied (by decide)
  | members _ distinct clean => exact ⟨distinct, clean⟩
  | items _ | additional _ => rcases hkey with h | h <;> exact absurd h (by decide)

/-- A clean list of schemas is one. -/
theorem CleanField.toList (h : CleanField key (.array items)) (hkey : key = "anyOf") :
    ∀ item ∈ items, Clean item := by
  cases h with
  | copied hcopied => exact absurd (hkey ▸ hcopied) (by decide)
  | list _ clean => exact clean
  | items clean | additional clean => cases clean

/-! ### Merging keeps schemas clean -/

theorem mergeMembers_clean {destination source merged : Fields}
    (hdestination : CleanMembers destination) (hsource : ∀ field ∈ source, Clean field.2)
    (h : mergeMembers path destination source = .ok merged) : CleanMembers merged := by
  induction source generalizing destination with
  | nil =>
    cases h
    exact hdestination
  | cons field source ih =>
    obtain ⟨hschema, hrest⟩ := List.forall_mem_cons.mp hsource
    rw [mergeMembers] at h
    split at h
    next =>
      split at h
      next => cases h
      next => exact ih hdestination hrest h
    next => exact ih (hdestination.insert hschema) hrest h

theorem mergeMembersField_clean {target out : Fields} {path key : String} {value : Value}
    (htarget : CleanFields target) (hkey : key = "properties" ∨ key = "$defs")
    (hvalue : CleanField key value) (h : mergeMembersField target path key value = .ok out) :
    CleanFields out := by
  unfold mergeMembersField at h
  split at h
  next source =>
    split at h
    next destination hdestination =>
      obtain ⟨merged, hmerged, rfl⟩ := map_eq_ok_iff.mp h
      have hclean : CleanMembers destination := by
        cases hlookup : target.lookup key with
        | none =>
          rw [hlookup] at hdestination
          cases hdestination
          exact .nil
        | some previous =>
          rw [hlookup] at hdestination
          cases hdestination
          exact (htarget.of_lookup hlookup).toMembers hkey
      have hsource := hvalue.toMembers hkey
      refine htarget.insert
        (CleanMembers.field (mergeMembers_clean hclean hsource.clean hmerged) ?_)
      rcases hkey with rfl | rfl <;> decide
    next => cases h
  next => cases h

theorem mergeField_clean {target out : Fields} {path key : String} {value : Value}
    (htarget : CleanFields target) (hvalue : CleanField key value)
    (h : mergeField target path key value = .ok out) : CleanFields out := by
  unfold mergeField at h
  split at h
  next hkey => exact mergeMembersField_clean htarget hkey hvalue h
  next =>
    split at h
    next hkey =>
      unfold mergeRequired at h
      split at h
      next =>
        split at h
        next =>
          cases h
          exact htarget.insert (.copied (by decide))
        next => cases h
      next => cases h
    next =>
      split at h
      next =>
        cases h
        exact htarget.insert hvalue
      next =>
        split at h
        next =>
          cases h
          exact htarget
        next => cases h

theorem mergeSchemaMaps_clean {target incoming out : Fields} (htarget : CleanFields target)
    (hincoming : ∀ field ∈ incoming, CleanField field.1 field.2)
    (h : mergeSchemaMaps target incoming path = .ok out) : CleanFields out := by
  unfold mergeSchemaMaps at h
  induction incoming generalizing target with
  | nil =>
    cases h
    exact htarget
  | cons field incoming ih =>
    obtain ⟨hfield, hrest⟩ := List.forall_mem_cons.mp hincoming
    rw [List.foldlM_cons] at h
    obtain ⟨target', htarget', h⟩ := bind_eq_ok_iff.mp h
    exact ih (mergeField_clean htarget hfield htarget') hrest h

theorem nullBranch_clean : Clean (.object [("type", .string "null")]) :=
  .object (List.nodup_singleton _) (by decide)
    fun field hfield => by
      rw [List.mem_singleton.mp hfield]
      exact .copied (by decide)

theorem addNullBranch_clean {schema out : Fields} (hschema : CleanFields schema)
    (h : addNullBranch schema path = .ok out) : CleanFields out := by
  unfold addNullBranch at h
  split at h
  next anyOf hanyOf =>
    split at h
    next =>
      cases h
      exact hschema
    next =>
      cases h
      refine hschema.insert (.list (by decide) fun item hitem => ?_)
      rcases List.mem_append.mp hitem with hitem | hitem
      · exact (hschema.of_lookup hanyOf).toList rfl item hitem
      · rw [List.mem_singleton.mp hitem]
        exact nullBranch_clean
  next => cases h

theorem addNullableType_clean {schema out : Fields} (hschema : CleanFields schema)
    (h : addNullableType schema path = .ok out) : CleanFields out := by
  unfold addNullableType at h
  split at h
  next =>
    split at h
    next =>
      cases h
      exact hschema.insert (.copied (by decide))
    next =>
      cases h
      exact hschema
  next =>
    split at h
    next =>
      cases h
      exact hschema
    next =>
      cases h
      exact hschema.insert (.copied (by decide))
  next => cases h
  next => exact addNullBranch_clean hschema h

/-! ### Sanitized schemas are clean -/

/-- What is known of a node is clean, and so are the branches of its `allOf`. -/
structure Building.Clean (b : Building) : Prop where
  out : CleanFields b.out
  allOf : ∀ branches, b.allOf = some (.ok branches) → ∀ branch ∈ branches, Gemini.Clean branch

theorem Building.Clean.start : Building.Clean {} := ⟨.nil, fun _ h => by cases h⟩

theorem Building.Clean.insert (h : b.Clean) {value : Value} (hvalue : CleanField key value) :
    (b.insert key value).Clean :=
  ⟨h.out.insert hvalue, h.allOf⟩

/-- A value whose sanitized forms are clean. -/
structure SanitizedClean (v : Value) : Prop where
  node : ∀ path s, sanitizeSchemaNode v path = .ok s → Clean s
  members : ∀ path fields, sanitizeMembers v path = .ok fields → CleanMembers fields
  list : ∀ path items, sanitizeSchemaList v path = .ok items → ∀ item ∈ items, Clean item

theorem localRef_localRef (reference : String) :
    localRef (localRef reference) = localRef reference := by
  cases h : Text.stripPrefix reference "#/definitions/" with
  | none => simp only [localRef, h]
  | some suffix =>
    have hprefix : Text.stripPrefix ("#/$defs/" ++ suffix) "#/definitions/" = none := by
      rw [Text.stripPrefix, String.toList_append]
      rfl
    simp only [localRef, h, hprefix]

theorem keyword_clean {path key : String} {value : Value} {b b' : Building}
    (hvalue : SanitizedClean value) (hb : b.Clean)
    (h : keyword (sanitizeSchemaNode value) (sanitizeMembers value) (sanitizeSchemaList value)
      path b key value = .ok b') : b'.Clean := by
  unfold keyword at h
  by_cases hdropped : key ∈ droppedKeywords
  · rw [if_pos hdropped] at h
    cases h
    exact hb
  rw [if_neg hdropped] at h
  by_cases hdefs : key = "definitions" ∨ key = "$defs"
  · rw [if_pos hdefs] at h
    obtain ⟨sanitized, hsanitized, h⟩ := bind_eq_ok_iff.mp h
    obtain ⟨out, hout, rfl⟩ := map_eq_ok_iff.mp h
    refine ⟨mergeSchemaMaps_clean hb.out (fun field hfield => ?_) hout, hb.allOf⟩
    rw [List.mem_singleton.mp hfield]
    exact (hvalue.members _ _ hsanitized).field List.mem_cons_self
  rw [if_neg hdefs] at h
  by_cases href : key = "$ref"
  · rw [if_pos href] at h
    cases value with
    | string reference =>
      cases h
      exact hb.insert (.ref (localRef_localRef _))
    | _ => cases h
  rw [if_neg href] at h
  by_cases hproperties : key = "properties"
  · rw [if_pos hproperties] at h
    obtain ⟨sanitized, hsanitized, rfl⟩ := map_eq_ok_iff.mp h
    exact hb.insert ((hvalue.members _ _ hsanitized).field (by decide))
  rw [if_neg hproperties] at h
  by_cases hitems : key = "items"
  · rw [if_pos hitems] at h
    by_cases harray : value.asArray.isSome
    · rw [if_pos harray] at h
      obtain ⟨sanitized, hsanitized, rfl⟩ := map_eq_ok_iff.mp h
      exact hb.insert (.list (by decide) (hvalue.list _ _ hsanitized))
    · rw [if_neg harray] at h
      obtain ⟨sanitized, hsanitized, rfl⟩ := map_eq_ok_iff.mp h
      exact hb.insert (.items (hvalue.node _ _ hsanitized))
  rw [if_neg hitems] at h
  by_cases hlist : key = "prefixItems" ∨ key = "anyOf"
  · rw [if_pos hlist] at h
    obtain ⟨sanitized, hsanitized, rfl⟩ := map_eq_ok_iff.mp h
    refine hb.insert (.list ?_ (hvalue.list _ _ hsanitized))
    rcases hlist with rfl | rfl <;> decide
  rw [if_neg hlist] at h
  by_cases honeOf : key = "oneOf"
  · rw [if_pos honeOf] at h
    by_cases hanyOf : containsKey b.out "anyOf"
    · rw [if_pos hanyOf] at h
      cases h
    · rw [if_neg hanyOf] at h
      obtain ⟨sanitized, hsanitized, rfl⟩ := map_eq_ok_iff.mp h
      exact hb.insert (.list (by decide) (hvalue.list _ _ hsanitized))
  rw [if_neg honeOf] at h
  by_cases hallOf : key = "allOf"
  · rw [if_pos hallOf] at h
    cases h
    exact ⟨hb.out, fun branches hbranches => hvalue.list _ _ (Option.some.inj hbranches)⟩
  rw [if_neg hallOf] at h
  by_cases hconst : key = "const"
  · rw [if_pos hconst] at h
    cases h
    exact ⟨hb.out, hb.allOf⟩
  rw [if_neg hconst] at h
  by_cases hadditional : key = "additionalProperties"
  · rw [if_pos hadditional] at h
    cases value with
    | bool flag =>
      cases h
      exact hb.insert (.flag _)
    | object fields =>
      obtain ⟨sanitized, hsanitized, rfl⟩ := map_eq_ok_iff.mp h
      exact hb.insert (.additional (hvalue.node _ _ hsanitized))
    | _ => cases h
  rw [if_neg hadditional] at h
  by_cases hnullable : key = "nullable"
  · rw [if_pos hnullable] at h
    cases value with
    | bool flag =>
      cases h
      exact ⟨hb.out, hb.allOf⟩
    | _ => cases h
  rw [if_neg hnullable] at h
  by_cases hcopied : key ∈ copiedKeywords
  · rw [if_pos hcopied] at h
    cases h
    exact hb.insert (.copied hcopied)
  · rw [if_neg hcopied] at h
    cases h

theorem sanitizeKeywords_clean {fields : Fields}
    (hfields : ∀ field ∈ fields, SanitizedClean field.2) {b b' : Building} (hb : b.Clean)
    (h : sanitizeKeywords fields path b = .ok b') : b'.Clean := by
  induction fields generalizing b with
  | nil =>
    cases h
    exact hb
  | cons field fields ih =>
    obtain ⟨hfield, hrest⟩ := List.forall_mem_cons.mp hfields
    rw [sanitizeKeywords] at h
    obtain ⟨b₁, hb₁, h⟩ := bind_eq_ok_iff.mp h
    exact ih hrest (keyword_clean hfield hb hb₁) h

theorem sanitizeFields_clean {fields : Fields}
    (hfields : ∀ field ∈ fields, SanitizedClean field.2) {sanitized out : Fields}
    (hsanitized : CleanMembers sanitized) (h : sanitizeFields fields path sanitized = .ok out) :
    CleanMembers out := by
  induction fields generalizing sanitized with
  | nil =>
    cases h
    exact hsanitized
  | cons field fields ih =>
    obtain ⟨hfield, hrest⟩ := List.forall_mem_cons.mp hfields
    rw [sanitizeFields] at h
    obtain ⟨node, hnode, h⟩ := bind_eq_ok_iff.mp h
    exact ih hrest (hsanitized.insert (hfield.node _ _ hnode)) h

theorem sanitizeItems_clean (hitems : ∀ item ∈ items, SanitizedClean item) {index : Nat}
    {out : List Value} (h : sanitizeItems items path index = .ok out) :
    ∀ item ∈ out, Clean item := by
  induction items generalizing index out with
  | nil =>
    cases h
    exact fun _ h => (List.not_mem_nil h).elim
  | cons item items ih =>
    obtain ⟨hitem, hrest⟩ := List.forall_mem_cons.mp hitems
    rw [sanitizeItems] at h
    obtain ⟨node, hnode, h⟩ := bind_eq_ok_iff.mp h
    obtain ⟨rest, hrest', h⟩ := bind_eq_ok_iff.mp h
    cases h
    exact List.forall_mem_cons.mpr ⟨hitem.node _ _ hnode, ih hrest hrest'⟩

theorem mergeBranches_clean {merged out : Fields} {index : Nat} {branches : List Value}
    (hmerged : CleanFields merged) (hbranches : ∀ branch ∈ branches, Clean branch)
    (h : mergeBranches path merged index branches = .ok out) : CleanFields out := by
  induction branches generalizing merged index with
  | nil =>
    cases h
    exact hmerged
  | cons branch branches ih =>
    obtain ⟨hbranch, hrest⟩ := List.forall_mem_cons.mp hbranches
    cases hbranch with
    | object _ _ clean =>
      rw [mergeBranches] at h
      obtain ⟨merged', hmerged', h⟩ := bind_eq_ok_iff.mp h
      exact ih (mergeSchemaMaps_clean hmerged clean hmerged') hrest h

theorem finishNode_clean {s : Value} (hb : b.Clean) (h : finishNode path b = .ok s) : Clean s := by
  obtain ⟨out₁, hconst, h⟩ := bind_eq_ok_iff.mp h
  obtain ⟨out₂, hallOf, h⟩ := bind_eq_ok_iff.mp h
  obtain ⟨out₃, hnullable, h⟩ := bind_eq_ok_iff.mp h
  have hout₁ : CleanFields out₁ := by
    unfold applyConst at hconst
    split at hconst
    next =>
      cases hconst
      exact hb.out
    next =>
      split at hconst
      next => cases hconst
      next =>
        cases hconst
        exact hb.out.insert (.copied (by decide))
  have hout₂ : CleanFields out₂ := by
    unfold applyAllOf at hallOf
    split at hallOf
    next =>
      cases hallOf
      exact hout₁
    next branches hbranches =>
      obtain ⟨list, hlist, hallOf⟩ := bind_eq_ok_iff.mp hallOf
      obtain ⟨merged, hmerged, hallOf⟩ := bind_eq_ok_iff.mp hallOf
      have hclean := hb.allOf list (hlist ▸ hbranches)
      exact mergeSchemaMaps_clean hout₁ (mergeBranches_clean .nil hclean hmerged).clean hallOf
  have hout₃ : CleanFields out₃ := by
    unfold applyNullable at hnullable
    split at hnullable
    next => exact addNullableType_clean hout₂ hnullable
    next =>
      cases hnullable
      exact hout₂
  split at h
  next => cases h
  next halone =>
    cases h
    exact .object hout₃.distinct (by simpa using halone) hout₃.clean

/-- Whatever is sanitized is clean. -/
theorem sanitizedClean (v : Value) : SanitizedClean v := by
  induction v using Value.parts_induction with
  | object fields ih =>
    refine ⟨fun path s h => ?_, fun path out h => ?_, fun path items h => ?_⟩
    · rw [sanitizeSchemaNode] at h
      obtain ⟨b, hb, h⟩ := bind_eq_ok_iff.mp h
      exact finishNode_clean (sanitizeKeywords_clean ih .start hb) h
    · rw [sanitizeMembers] at h
      exact sanitizeFields_clean ih .nil h
    · cases h
  | array items ih =>
    refine ⟨fun path s h => ?_, fun path out h => ?_, fun path out h => ?_⟩
    · cases h
    · cases h
    · rw [sanitizeSchemaList] at h
      exact sanitizeItems_clean ih h
  | null | bool _ | number _ | string _ =>
    refine ⟨fun path s h => ?_, fun path out h => ?_, fun path out h => ?_⟩
    · cases h
    · cases h
    · cases h

/-! ### Clean schemas stay -/

theorem mergeMembers_append {destination source : Fields} (h : Distinct (destination ++ source)) :
    mergeMembers path destination source = .ok (destination ++ source) := by
  induction source generalizing destination with
  | nil => rw [mergeMembers, List.append_nil]
  | cons field source ih =>
    have hname := h.notMem
    rw [mergeMembers, lookup_eq_none_of_notMem hname, insertField_of_notMem hname]
    have hassoc : destination ++ field :: source = (destination ++ [field]) ++ source := by simp
    rw [hassoc] at h ⊢
    exact ih h

/-- A value that is as it is sanitized. -/
structure Stays (v : Value) : Prop where
  node : Clean v → ∀ path, sanitizeSchemaNode v path = .ok v
  members : ∀ fields, v = .object fields → CleanMembers fields →
    ∀ path, sanitizeMembers v path = .ok fields
  list : ∀ items, v = .array items → (∀ item ∈ items, Clean item) →
    ∀ path, sanitizeSchemaList v path = .ok items

theorem copiedKeyword_facts : ∀ key ∈ copiedKeywords, key ∉ droppedKeywords ∧
    ¬ (key = "definitions" ∨ key = "$defs") ∧ key ≠ "$ref" ∧ key ≠ "properties" ∧ key ≠ "items" ∧
      ¬ (key = "prefixItems" ∨ key = "anyOf") ∧ key ≠ "oneOf" ∧ key ≠ "allOf" ∧ key ≠ "const" ∧
        key ≠ "additionalProperties" ∧ key ≠ "nullable" := by
  decide

/-- Schemas that are the first of their names are inserted as they are. -/
theorem mergeSchemaMaps_members (path : String) {out fields : Fields}
    (hkey : key = "properties" ∨ key = "$defs") (hnew : key ∉ out.map Prod.fst)
    (hfields : Distinct fields) : mergeSchemaMaps out [(key, .object fields)] path =
      .ok (insertField key (.object fields) out) := by
  have hmerged : mergeMembers s!"{path}.{key}" [] fields = .ok fields := mergeMembers_append hfields
  rw [mergeSchemaMaps, List.foldlM_cons, mergeField, if_pos hkey, mergeMembersField,
    lookup_eq_none_of_notMem hnew]
  simp only [Option.getD_none, hmerged]
  rfl

theorem keyword_stays {path key : String} {value : Value} (hvalue : Stays value)
    (hclean : CleanField key value) (hkey : key ∉ b.out.map Prod.fst) :
    keyword (sanitizeSchemaNode value) (sanitizeMembers value) (sanitizeSchemaList value)
      path b key value = .ok (b.insert key value) := by
  cases hclean with
  | copied h =>
    obtain ⟨h₁, h₂, h₃, h₄, h₅, h₆, h₇, h₈, h₉, h₁₀, h₁₁⟩ := copiedKeyword_facts key h
    unfold keyword
    rw [if_neg h₁, if_neg h₂, if_neg h₃, if_neg h₄, if_neg h₅, if_neg h₆, if_neg h₇,
      if_neg h₈, if_neg h₉, if_neg h₁₀, if_neg h₁₁, if_pos h]
  | @ref reference h =>
    change Except.ok (b.insert "$ref" (.string (localRef reference))) = _
    rw [h]
  | @members key fields h distinct clean =>
    have hsame (path : String) := hvalue.members fields rfl ⟨distinct, clean⟩ path
    have hcases : key = "$defs" ∨ key = "properties" := by simpa using h
    rcases hcases with rfl | rfl
    · unfold keyword
      rw [if_neg (by decide), if_pos (.inr rfl), hsame]
      have hmerged := mergeSchemaMaps_members path (.inr rfl) hkey distinct
      exact congrArg (Except.map fun out => { b with out := out }) hmerged
    · unfold keyword
      rw [if_neg (by decide), if_neg (by decide), if_neg (by decide), if_pos rfl, hsame]
      rfl
  | items clean =>
    have hsame := hvalue.node clean s!"{path}.items"
    have hobject : ¬ value.asArray.isSome := by
      cases clean
      exact Bool.false_ne_true
    unfold keyword
    rw [if_neg (by decide), if_neg (by decide), if_neg (by decide), if_neg (by decide),
      if_pos rfl, if_neg hobject, hsame]
    rfl
  | @list key items h clean =>
    have hsame (path : String) := hvalue.list items rfl clean path
    have hcases : key = "prefixItems" ∨ key = "anyOf" := by simpa using h
    rcases hcases with rfl | rfl
    · unfold keyword
      rw [if_neg (by decide), if_neg (by decide), if_neg (by decide), if_neg (by decide),
        if_neg (by decide), if_pos (.inl rfl), hsame]
      rfl
    · unfold keyword
      rw [if_neg (by decide), if_neg (by decide), if_neg (by decide), if_neg (by decide),
        if_neg (by decide), if_pos (.inr rfl), hsame]
      rfl
  | flag flag => rfl
  | additional clean =>
    have hsame := hvalue.node clean s!"{path}.additionalProperties"
    cases clean with
    | @object fields _ _ _ =>
      change (sanitizeSchemaNode (.object fields) s!"{path}.additionalProperties").map
        (b.insert "additionalProperties") = _
      rw [hsame]
      rfl

theorem sanitizeKeywords_stay {fields : Fields} (hfields : ∀ field ∈ fields, Stays field.2)
    (hclean : ∀ field ∈ fields, CleanField field.1 field.2)
    (hdistinct : Distinct (b.out ++ fields)) :
    sanitizeKeywords fields path b = .ok { b with out := b.out ++ fields } := by
  induction fields generalizing b with
  | nil => rw [sanitizeKeywords, List.append_nil]
  | cons field fields ih =>
    obtain ⟨hfield, hrest⟩ := List.forall_mem_cons.mp hfields
    obtain ⟨hfirst, hlater⟩ := List.forall_mem_cons.mp hclean
    have hnew := hdistinct.notMem
    have hassoc : b.out ++ field :: fields = (b.insert field.1 field.2).out ++ fields := by
      rw [Building.insert, insertField_of_notMem hnew]
      simp
    rw [sanitizeKeywords, keyword_stays hfield hfirst hnew]
    rw [hassoc] at hdistinct ⊢
    exact ih hrest hlater hdistinct

theorem sanitizeFields_stay {fields : Fields} (hfields : ∀ field ∈ fields, Stays field.2)
    (hclean : ∀ field ∈ fields, Clean field.2) {sanitized : Fields}
    (hdistinct : Distinct (sanitized ++ fields)) :
    sanitizeFields fields path sanitized = .ok (sanitized ++ fields) := by
  induction fields generalizing sanitized with
  | nil => rw [sanitizeFields, List.append_nil]
  | cons field fields ih =>
    obtain ⟨hfield, hrest⟩ := List.forall_mem_cons.mp hfields
    obtain ⟨hfirst, hlater⟩ := List.forall_mem_cons.mp hclean
    have hassoc : sanitized ++ field :: fields =
        insertField field.1 field.2 sanitized ++ fields := by
      rw [insertField_of_notMem hdistinct.notMem]
      simp
    rw [sanitizeFields, hfield.node hfirst]
    rw [hassoc] at hdistinct ⊢
    exact ih hrest hlater hdistinct

theorem sanitizeItems_stay (hitems : ∀ item ∈ items, Stays item)
    (hclean : ∀ item ∈ items, Clean item) (path : String) (index : Nat) :
    sanitizeItems items path index = .ok items := by
  induction items generalizing index with
  | nil => rfl
  | cons item items ih =>
    obtain ⟨hitem, hrest⟩ := List.forall_mem_cons.mp hitems
    obtain ⟨hfirst, hlater⟩ := List.forall_mem_cons.mp hclean
    rw [sanitizeItems, hitem.node hfirst, ih hrest hlater]
    rfl

/-- A clean schema is sanitized to itself. -/
theorem stays (v : Value) : Stays v := by
  induction v using Value.parts_induction with
  | object fields ih =>
    refine ⟨fun hclean path => ?_, fun fields' heq hclean path => ?_, fun items heq => ?_⟩
    · cases hclean with
      | object distinct refAlone clean =>
        have hstart : Distinct (Building.out {} ++ fields) := distinct
        rw [sanitizeSchemaNode, sanitizeKeywords_stay ih clean hstart]
        change (if refBesideOthers fields then _ else _) = _
        rw [refAlone]
        rfl
    · cases heq
      have hstart : Distinct ([] ++ fields) := hclean.distinct
      rw [sanitizeMembers, sanitizeFields_stay ih hclean.clean hstart]
      rfl
    · cases heq
  | array items ih =>
    refine ⟨fun hclean => ?_, fun fields heq => ?_, fun items' heq hclean path => ?_⟩
    · cases hclean
    · cases heq
    · cases heq
      rw [sanitizeSchemaList, sanitizeItems_stay ih hclean]
  | null | bool _ | number _ | string _ =>
    refine ⟨fun hclean => ?_, fun fields heq => ?_, fun items heq => ?_⟩
    · cases hclean
    · cases heq
    · cases heq

/-! ## Schema positions -/

/-- The keywords that Gemini supports. -/
def supportedKeywords : List String :=
  ["$defs", "$ref", "properties", "items", "prefixItems", "anyOf", "additionalProperties", "$id",
    "$anchor", "type", "format", "title", "description", "enum", "minLength", "maxLength",
    "minItems", "maxItems", "minimum", "maximum", "pattern", "minProperties", "maxProperties",
    "required", "propertyOrdering"]

/-- The values at the schema positions of a schema, at any depth. -/
inductive Reaches (s : Value) : Value → Prop
  | root : Reaches s s
  | member {fields members : Fields} {key : String} {member : String × Value}
      (reached : Reaches s (.object fields)) (hkey : key ∈ ["$defs", "definitions", "properties"])
      (hfield : (key, .object members) ∈ fields) (hmember : member ∈ members) :
      Reaches s member.2
  | listed {fields : Fields} {key : String} {items : List Value} {item : Value}
      (reached : Reaches s (.object fields))
      (hkey : key ∈ ["items", "prefixItems", "anyOf", "oneOf", "allOf"])
      (hfield : (key, .array items) ∈ fields) (hitem : item ∈ items) : Reaches s item
  | value {fields : Fields} {key : String} {v : Value} (reached : Reaches s (.object fields))
      (hkey : key ∈ ["items", "additionalProperties"]) (hfield : (key, v) ∈ fields) : Reaches s v

theorem CleanField.supported {value : Value} (h : CleanField key value) :
    key ∈ supportedKeywords := by
  have hcopied : ∀ key ∈ copiedKeywords, key ∈ supportedKeywords := by decide
  have hmembers : ∀ key ∈ ["$defs", "properties"], key ∈ supportedKeywords := by decide
  have hlists : ∀ key ∈ ["prefixItems", "anyOf"], key ∈ supportedKeywords := by decide
  cases h with
  | copied hkey => exact hcopied key hkey
  | ref _ | items _ | flag _ | additional _ => decide
  | members hkey _ _ => exact hmembers key hkey
  | list hkey _ => exact hlists key hkey

theorem not_copied : ∀ key ∈ ["$defs", "definitions", "properties", "items", "prefixItems", "anyOf",
    "oneOf", "allOf", "additionalProperties"], key ∉ copiedKeywords := by
  decide

theorem CleanField.member {members : Fields} {member : String × Value}
    (h : CleanField key (.object members)) (hkey : key ∈ ["$defs", "definitions", "properties"])
    (hmember : member ∈ members) : Clean member.2 := by
  cases h with
  | copied hcopied => exact absurd hcopied (not_copied key (by revert key; decide))
  | members _ _ clean => exact clean member hmember
  | items _ | additional _ => exact absurd hkey (by decide)

theorem CleanField.listed {item : Value} (h : CleanField key (.array items))
    (hkey : key ∈ ["items", "prefixItems", "anyOf", "oneOf", "allOf"]) (hitem : item ∈ items) :
    Clean item := by
  cases h with
  | copied hcopied => exact absurd hcopied (not_copied key (by revert key; decide))
  | list _ clean => exact clean item hitem
  | items clean | additional clean => cases clean

theorem CleanField.value {fields : Fields} (h : CleanField key (.object fields))
    (hkey : key ∈ ["items", "additionalProperties"]) : Clean (.object fields) := by
  have hother : ∀ key ∈ ["items", "additionalProperties"], key ∉ ["$defs", "properties"] := by
    decide
  cases h with
  | copied hcopied => exact absurd hcopied (not_copied key (by revert key; decide))
  | members hmembers _ _ => exact absurd hmembers (hother key hkey)
  | items clean | additional clean => exact clean

/-- Every object at a schema position of a clean schema is clean. -/
theorem Reaches.clean {s v : Value} (hs : Clean s) (h : Reaches s v) :
    ∀ fields, v = .object fields → Clean v := by
  have hfield {fields : Fields} (hclean : Clean (.object fields)) {field : String × Value}
      (hmem : field ∈ fields) : CleanField field.1 field.2 := by
    cases hclean with
    | object _ _ clean => exact clean field hmem
  induction h with
  | root => exact fun _ _ => hs
  | member reached hkey hmem hmember ih =>
    exact fun _ _ => (hfield (ih _ rfl) hmem).member hkey hmember
  | listed reached hkey hmem hitem ih =>
    exact fun _ _ => (hfield (ih _ rfl) hmem).listed hkey hitem
  | value reached hkey hmem ih =>
    rintro fields rfl
    exact (hfield (ih _ rfl) hmem).value hkey

/-- A schema that is sanitized has supported keywords only, wherever it has a schema, and is
sanitized to itself. -/
theorem sanitize_schema_closed_idempotent (schema s : Value) (rootPath : String)
    (h : sanitizeSchema schema rootPath = .ok s) :
    (∀ fields, Reaches s (.object fields) → ∀ field ∈ fields, field.1 ∈ supportedKeywords) ∧
      ∀ path, sanitizeSchema s path = .ok s := by
  have hclean := (sanitizedClean schema).node rootPath s h
  refine ⟨fun fields hreaches field hmem => ?_, (stays s).node hclean⟩
  cases hreaches.clean hclean fields rfl with
  | object _ _ clean => exact (clean field hmem).supported

/-- A schema in which keywords are rewritten at several depths. -/
def tupleSchema : Value :=
  .object [("$schema", .string "draft-07"), ("type", .string "object"), ("nullable", .bool true),
    ("definitions", .object [("id", .object [("const", .string "a")])]),
    ("properties", .object [("pair", .object [("items", .array
      [.object [("$ref", .string "#/definitions/id")], .object [("oneOf", .array
        [.object [("type", .string "string")]])]])])]),
    ("allOf", .array [.object [("required", .array [.string "pair"])]])]

theorem tuple_schema_sanitized : ∃ s, sanitizeSchema tupleSchema "tool 'pair'" = .ok s ∧
    (∀ fields, Reaches s (.object fields) → ∀ field ∈ fields, field.1 ∈ supportedKeywords) ∧
      ∀ path, sanitizeSchema s path = .ok s :=
  ⟨_, rfl, sanitize_schema_closed_idempotent tupleSchema _ "tool 'pair'" rfl⟩

end Kinetix.Adapters.Gemini
