import Kinetix.Adapters.Reasoning

/-!
# Stored reasoning capabilities

A stored capability is read back with the same levels and mode. Its tokens are the names of the
levels, so it is sent as before exactly if the provider has no other tokens.
-/

namespace Kinetix.Adapters
open Json Spellings

variable {c c' : ReasoningCapability} {m value : Value} {level raw token : String}
  {fields : List (String × Value)} {index : Index String String}

/-! ## Names of levels -/

theorem canonicalLevel_name (h : canonicalLevel raw = some level) :
    canonicalLevel level = some level := by
  have hnames : ∀ e ∈ levelSpellings, canonicalLevel e.1 = some e.1 := by decide +kernel
  rw [canonicalLevel, Option.map_eq_some_iff] at h
  obtain ⟨e, he, rfl⟩ := h
  exact hnames e (List.mem_of_find?_eq_some he)

theorem canonicalLevel_of_mem (h : level ∈ (canonicalReasoningLevels value).names) :
    canonicalLevel level = some level := by
  obtain ⟨raw, -, hraw⟩ := mem_names_collect.mp h
  exact canonicalLevel_name hraw

/-! ## Tokens -/

/-- What is given explicitly is put in the place of what was there. -/
theorem foldl_explicit {names : List String} (hlevel : level ∈ names)
    (tokens : String → Option String) (fields : List (String × Value)) :
    fields.foldl (putExplicit names) tokens level =
      (fields.reverse.findSome? fun field =>
        if field.1 = level then field.2.asStr else none).or (tokens level) := by
  induction fields using List.reverseRecOn with
  | nil => rfl
  | append_singleton fields field ih =>
    rw [List.foldl_append, List.foldl_cons, List.foldl_nil, List.reverse_append,
      List.reverse_singleton, List.singleton_append, List.findSome?_cons, putExplicit]
    by_cases hfield : field.1 = level
    · rw [if_pos hfield]
      cases htoken : field.2.asStr with
      | none => exact ih
      | some token => simp [hfield, hlevel]
    · rw [if_neg hfield]
      have hne : level ≠ field.1 := Ne.symm hfield
      cases field.2.asStr with
      | none => exact ih
      | some token =>
        dsimp only
        split
        · rw [Function.update_of_ne hne, ih]
        · exact ih

theorem declaredTokens_eq (h : level ∈ index.names) :
    declaredTokens value index level = (explicitToken value level).or
      (if namesNone (declaredFormat value) ∧ level = "off" then some "none"
        else index.spelling level) := by
  rw [declaredTokens, foldl_explicit h, explicitToken]
  congr 1
  by_cases hoff : level = "off"
  · subst hoff
    by_cases hnone : namesNone (declaredFormat value) = true
    · rw [if_pos ⟨hnone, h⟩, if_pos ⟨hnone, rfl⟩, Function.update_self]
    · rw [if_neg fun hand => hnone hand.1, if_neg fun hand => hnone hand.1]
  · have hnot : ¬ (namesNone (declaredFormat value) = true ∧ level = "off") := fun h => hoff h.2
    rw [if_neg hnot]
    split
    · rw [Function.update_of_ne hoff]
    · rfl

/-! ## What is read -/

/-- What every capability has that was read. -/
structure Normal (c : ReasoningCapability) : Prop where
  distinct : c.levels.Nodup
  named : ∀ level ∈ c.levels, canonicalLevel level = some level
  fits : modeFits c.mode c.levels = true
  unset : c.mode = none → c.levels = []
  default : c.default = none

theorem normalizeDeclared_eq_some (h : normalizeDeclared value = some c) :
    c.levels = (canonicalReasoningLevels ((value.get "levels").getD .null)).names ∧
      c.upstreamFormat = declaredFormat value ∧
      c.upstreamLevels =
        declaredTokens value (canonicalReasoningLevels ((value.get "levels").getD .null)) ∧
      declaredMode value c.levels = some c.mode ∧ modeFits c.mode c.levels = true ∧
      c.default = none := by
  rw [normalizeDeclared] at h
  split at h
  · cases h
  dsimp only at h
  split at h
  · cases h
  next mode hmode =>
    split at h
    next hfits =>
      cases h
      exact ⟨rfl, rfl, rfl, hmode, hfits, rfl⟩
    next => cases h

theorem declaredMode_eq_none {levels : List String} (h : declaredMode value levels = some none) :
    levels = [] := by
  rw [declaredMode] at h
  split at h <;> try cases h
  split at h
  · assumption
  · cases h

theorem declaredMode_eq_level {levels : List String} (hlevels : levels ≠ []) :
    declaredMode value levels = some (some .level) ↔
      (value.get "mode").bind Value.asStr = none ∨
        (value.get "mode").bind Value.asStr = some "level" := by
  rw [declaredMode]
  generalize (value.get "mode").bind Value.asStr = mode
  split
  next => simp
  next => simp
  next => simp
  next => simp
  next other _ hlevel _ _ =>
    simp only [reduceCtorEq, Option.some.injEq, false_or, false_iff]
    exact hlevel
  next => simp [hlevels]

theorem normal_of_eq_some (h : normalizeReasoningCapability m = some c) : Normal c := by
  rw [normalizeReasoningCapability] at h
  split at h
  next value _ =>
    obtain ⟨hlevels, -, -, hmode, hfits, hdefault⟩ := normalizeDeclared_eq_some h
    refine ⟨hlevels ▸ nodup_names_collect, fun level hl => ?_, hfits, fun hnone => ?_, hdefault⟩
    · rw [hlevels] at hl
      exact canonicalLevel_of_mem hl
    · rw [hnone] at hmode
      exact declaredMode_eq_none hmode
  next =>
    obtain ⟨list, -, h⟩ := Option.bind_eq_some_iff.mp h
    rw [reasoningCapability] at h
    split at h
    next => cases h
    next hsome =>
      cases h
      refine ⟨nodup_names_collect, fun _ => canonicalLevel_of_mem, ?_, ?_, rfl⟩
      · exact decide_eq_true hsome
      · rintro ⟨⟩

/-! ## Reading back -/

/-- What is read where a capability is stored. -/
def reread (c : ReasoningCapability) : ReasoningCapability :=
  { c with
    upstreamLevels :=
      declaredTokens c.toJson (canonicalReasoningLevels (.array (c.levels.map .string))) }

theorem texts_strings (levels : List String) : texts (.array (levels.map .string)) = levels := by
  have hall (levels : List String) : (levels.map Value.string).filterMap Value.asStr = levels := by
    induction levels with
    | nil => rfl
    | cons level levels ih => exact congrArg (level :: ·) ih
  exact hall levels

theorem names_reread (h : Normal c) :
    (canonicalReasoningLevels (.array (c.levels.map .string))).names = c.levels := by
  have hnames := names_collect_map id h.distinct h.named
  rw [List.map_id] at hnames
  rw [canonicalReasoningLevels, texts_strings, hnames]

theorem toJson_eq (h : c.default = none) :
    c.toJson = .object ((c.mode.map fun mode => ("mode", .string mode.name)).toList ++
      [("levels", .array (c.levels.map .string)), ("can_disable", .bool c.canDisable),
        ("upstream_format", .string c.upstreamFormat)]) := by
  rw [ReasoningCapability.toJson, h, List.append_assoc, List.append_assoc]
  rfl

theorem get_toJson_mode (h : c.default = none) :
    (c.toJson.get "mode").bind Value.asStr = c.mode.map ReasoningCapabilityMode.name := by
  rw [toJson_eq h]
  cases c.mode <;> rfl

/-- The fields that are serialized in any case, and those that are not. -/
theorem get_toJson {name : String} (h : c.default = none) (hname : name ≠ "mode") :
    c.toJson.get name = [("levels", .array (c.levels.map .string)),
      ("can_disable", .bool c.canDisable),
        ("upstream_format", .string c.upstreamFormat)].lookup name := by
  have hbeq : (name == "mode") = false := beq_eq_false_iff_ne.mpr hname
  rw [toJson_eq h]
  cases c.mode with
  | none => rfl
  | some mode =>
    rw [Value.get, Option.map_some, Option.toList_some, List.singleton_append, List.lookup_cons,
      hbeq]

theorem declaredMode_toJson (h : Normal c) : declaredMode c.toJson c.levels = some c.mode := by
  rw [declaredMode, get_toJson_mode h.default]
  cases hmode : c.mode with
  | none => simp [h.unset hmode]
  | some mode => cases mode <;> rfl

theorem declaredFormat_toJson (h : Normal c) : declaredFormat c.toJson = c.upstreamFormat := by
  rw [declaredFormat, get_toJson h.default (by decide)]
  rfl

/-- A stored capability is read back, with the tokens that can be made out of it. -/
theorem normalize_storeCapability (h : Normal c) :
    normalizeReasoningCapability (storeCapability fields c) = some (reread c) := by
  have hget : (storeCapability fields c).get "reasoning_capability" = some c.toJson :=
    lookup_insertField ..
  have hlevels : (c.toJson.get "levels").getD .null = .array (c.levels.map .string) := by
    rw [get_toJson h.default (by decide)]
    rfl
  have hsupported : (c.toJson.get "supported").bind Value.asBool = none := by
    rw [get_toJson h.default (by decide)]
    rfl
  have hdisable : ((c.toJson.get "can_disable").bind Value.asBool) = some c.canDisable := by
    rw [get_toJson h.default (by decide)]
    rfl
  rw [normalizeReasoningCapability, declaredReasoning, hget, Option.some_or]
  dsimp only
  rw [normalizeDeclared, hsupported, if_neg (by simp), hlevels]
  dsimp only
  rw [names_reread h, declaredMode_toJson h]
  dsimp only
  rw [if_pos h.fits, hdisable, declaredFormat_toJson h, Option.getD_some, reread, h.default]

/-- A level is read back with its name for its token. -/
theorem token_reread (h : Normal c) (hlevel : level ∈ c.levels) :
    (reread c).token level = storedToken c.upstreamFormat level := by
  have hexplicit : explicitToken c.toJson level = none := by
    rw [explicitToken, explicitLevels, get_toJson h.default (by decide)]
    rfl
  have hspelling : (canonicalReasoningLevels (.array (c.levels.map .string))).spelling level =
      some level := by
    rw [canonicalReasoningLevels, texts_strings, spelling_collect]
    cases hfind : c.levels.find? fun raw => canonicalLevel raw = some level with
    | none =>
      rw [List.find?_eq_none] at hfind
      exact absurd (h.named level hlevel) (by simpa using hfind level hlevel)
    | some raw =>
      have hraw := List.find?_some hfind
      rw [h.named raw (List.mem_of_find?_eq_some hfind)] at hraw
      simpa using hraw
  have hmem : level ∈ (canonicalReasoningLevels (.array (c.levels.map .string))).names := by
    rwa [names_reread h]
  rw [ReasoningCapability.token, reread]
  dsimp only
  rw [declaredTokens_eq hmem, hexplicit, Option.none_or, hspelling,
    declaredFormat_toJson h, storedToken]
  split <;> rfl

/-! ## Thinking maps -/

theorem exists_levelField_iff {format : String} :
    (∃ transport field, levelField transport format = some field) ↔ Executable format := by
  constructor
  · rintro ⟨transport, field, h⟩
    cases transport with
    | openAiChat | openAiResponses =>
      exact Or.inl (by_contra fun hnot => by simp [levelField, hnot] at h)
    | gemini => exact Or.inr (by_contra fun hnot => by simp [levelField, hnot] at h)
    | anthropic | plugin reference => cases h
  · rintro (h | rfl)
    · exact ⟨.openAiChat, _, if_pos h⟩
    · exact ⟨.gemini, _, rfl⟩

/-- What was read back has the same maps exactly if the tokens that are sent are those that can be
made out of what is stored. -/
theorem maps_reread_iff (h : Normal c) :
    (∀ transport, thinkingMapForTransport (reread c) transport =
        thinkingMapForTransport c transport) ↔
      (c.mode = some .level → Executable c.upstreamFormat →
        ∀ level ∈ c.levels, c.token level = storedToken c.upstreamFormat level) := by
  constructor
  · intro hmaps hmode hformat level hlevel
    obtain ⟨transport, field, hfield⟩ := exists_levelField_iff.mpr hformat
    have hmap := hmaps transport
    have hmode' : (reread c).mode = some .level := hmode
    have hformat' : (reread c).upstreamFormat = c.upstreamFormat := rfl
    rw [thinkingMapForTransport, thinkingMapForTransport, if_neg (not_not.mpr hmode'),
      if_neg (not_not.mpr hmode), hformat', hfield, Option.map_some, Option.map_some,
      Option.some.injEq, ThinkingMap.mk.injEq] at hmap
    have hpair := List.map_inj_left.mp hmap.1 level hlevel
    rw [token_reread h hlevel] at hpair
    exact (Value.string.inj (Prod.mk.inj hpair).2).symm
  · intro htokens transport
    rw [thinkingMapForTransport, thinkingMapForTransport]
    by_cases hmode : c.mode = some .level
    · have hmode' : (reread c).mode = some .level := hmode
      have hformat' : (reread c).upstreamFormat = c.upstreamFormat := rfl
      rw [if_neg (not_not.mpr hmode'), if_neg (not_not.mpr hmode), hformat']
      cases hfield : levelField transport c.upstreamFormat with
      | none => rfl
      | some field =>
        have hformat := exists_levelField_iff.mp ⟨transport, field, hfield⟩
        have hlevels :
            (reread c).levels.map (fun level => (level, Value.string ((reread c).token level))) =
            c.levels.map fun level => (level, Value.string (c.token level)) := by
          refine List.map_congr_left fun level hlevel => ?_
          rw [token_reread h hlevel, htokens hmode hformat level hlevel]
        rw [Option.map_some, Option.map_some, hlevels]
    · have hmode' : (reread c).mode ≠ some .level := hmode
      rw [if_pos hmode', if_pos hmode]

/-! ## Exactly when -/

theorem exists_spelling_iff {list : Value} :
    level ∈ (canonicalReasoningLevels list).names ↔
      ∃ raw, (texts list).find? (canonicalLevel · = some level) = some raw := by
  rw [canonicalReasoningLevels, mem_names_collect, ← Option.isSome_iff_exists, List.find?_isSome]
  simp

/-- The tokens of a declared capability. -/
theorem token_declared (h : normalizeDeclared value = some c)
    (hraw : (texts ((value.get "levels").getD .null)).find? (canonicalLevel · = some level) =
      some raw) :
    c.token level = (explicitToken value level).getD
      (if namesNone (declaredFormat value) ∧ level = "off" then "none" else raw) := by
  obtain ⟨-, -, htokens, -⟩ := normalizeDeclared_eq_some h
  rw [ReasoningCapability.token, htokens,
    declaredTokens_eq (exists_spelling_iff.mpr ⟨raw, hraw⟩), canonicalReasoningLevels,
    spelling_collect, hraw]
  cases explicitToken value level with
  | none => split <;> rfl
  | some token => rfl

theorem mode_declared_iff (h : normalizeDeclared value = some c) (hlevels : c.levels ≠ []) :
    c.mode = some .level ↔ (value.get "mode").bind Value.asStr = none ∨
      (value.get "mode").bind Value.asStr = some "level" := by
  obtain ⟨-, -, -, hmode, -⟩ := normalizeDeclared_eq_some h
  rw [← declaredMode_eq_level hlevels, hmode, Option.some.injEq]

theorem format_of_listedLevels {list : Value} {format : String}
    (h : listedLevels m = some (list, format)) : namesNone format = false := by
  obtain ⟨e, he, hsome⟩ := List.exists_of_findSome?_eq_some h
  obtain ⟨_, -, heq⟩ := Option.map_eq_some_iff.mp hsome
  cases heq
  have hall : ∀ e ∈ levelLists, namesNone e.2 = false := by decide
  exact hall e he

/-- Metadata is stored without loss exactly if it names its tokens. -/
theorem tokens_eq_iff (h : normalizeReasoningCapability m = some c) :
    (c.mode = some .level → Executable c.upstreamFormat →
      ∀ level ∈ c.levels, c.token level = storedToken c.upstreamFormat level) ↔
      NamesItsTokens m := by
  rw [normalizeReasoningCapability] at h
  split at h
  next value hvalue =>
    obtain ⟨hlevels, hformat, -⟩ := normalizeDeclared_eq_some h
    rw [hformat]
    constructor
    · intro htokens
      refine ⟨fun value' hvalue' hmode hexecutable level raw hraw => ?_, fun hnone => ?_⟩
      · cases hvalue.symm.trans hvalue'
        have hmem : level ∈ c.levels := hlevels ▸ exists_spelling_iff.mpr ⟨raw, hraw⟩
        rw [← token_declared h hraw]
        exact htokens ((mode_declared_iff h (List.ne_nil_of_mem hmem)).mpr hmode) hexecutable level
          hmem
      · cases hvalue.symm.trans hnone
    · intro hnames hmode hexecutable level hmem
      obtain ⟨raw, hraw⟩ := exists_spelling_iff.mp (hlevels ▸ hmem)
      rw [token_declared h hraw]
      exact hnames.declared value hvalue
        ((mode_declared_iff h (List.ne_nil_of_mem hmem)).mp hmode) hexecutable level raw hraw
  next hnone =>
    obtain ⟨⟨list, format⟩, hlist, h⟩ := Option.bind_eq_some_iff.mp h
    have hstored (level : String) : storedToken format level = level := by
      rw [storedToken, format_of_listedLevels hlist, if_neg (by simp)]
    rw [reasoningCapability] at h
    split at h
    next => cases h
    next =>
      cases h
      have htoken {level raw : String}
          (hraw : (texts list).find? (canonicalLevel · = some level) = some raw) :
          ((canonicalReasoningLevels list).spelling level).getD level = raw := by
        rw [canonicalReasoningLevels, spelling_collect, hraw, Option.getD_some]
      simp only [ReasoningCapability.token, hstored]
      constructor
      · intro htokens
        refine ⟨fun value hvalue => ?_, fun _ list' format' hlist' hexecutable level raw hraw => ?_⟩
        · cases hnone.symm.trans hvalue
        · cases hlist.symm.trans hlist'
          rw [← htoken hraw]
          exact htokens trivial hexecutable level (exists_spelling_iff.mpr ⟨raw, hraw⟩)
      · intro hnames _ hexecutable level hmem
        obtain ⟨raw, hraw⟩ := exists_spelling_iff.mp hmem
        rw [htoken hraw]
        exact hnames.listed hnone list format hlist hexecutable level raw hraw

/-- A stored capability is read back with its levels, its mode and the rest, and with the same
tokens exactly if the metadata has no tokens but those that the names stand for. -/
theorem stored_capability_same_iff (h : normalizeReasoningCapability m = some c)
    (fields : List (String × Value)) :
    (∃ c', normalizeReasoningCapability (storeCapability fields c) = some c' ∧ SameMeaning c c') ↔
      NamesItsTokens m := by
  have hnormal := normal_of_eq_some h
  rw [← tokens_eq_iff h, ← maps_reread_iff hnormal, normalize_storeCapability hnormal]
  constructor
  · rintro ⟨c', hc', hsame⟩
    cases hc'
    exact hsame.maps
  · exact fun hmaps => ⟨reread c, rfl, rfl, rfl, rfl, rfl, hmaps⟩

/-! ## Capital letters -/

/-- Providers that list an effort, one of them with a capital. -/
def efforts (spelling : String) : Value :=
  .object [("supportedThinkingEfforts", .array [.string spelling])]

def lowCapability (spelling : String) : ReasoningCapability where
  mode := some .level
  levels := ["low"]
  default := none
  canDisable := false
  upstreamFormat := "provider_supported_thinking_efforts"
  upstreamLevels := Function.update (fun _ => none) "low" (some spelling)

theorem normalize_efforts {spelling : String} (h : canonicalLevel spelling = some "low") :
    normalizeReasoningCapability (efforts spelling) = some (lowCapability spelling) := by
  have hcollect : canonicalReasoningLevels (.array [.string spelling]) =
      ⟨["low"], Function.update (fun _ => none) "low" (some spelling)⟩ := by
    change add canonicalLevel ⟨[], fun _ => none⟩ spelling = _
    rw [add, h]
    rfl
  change reasoningCapability (canonicalReasoningLevels (.array [.string spelling])) .level
    "provider_supported_thinking_efforts" none = _
  rw [hcollect]
  rfl

/-- An effort that is spelled as its name is stored without loss. -/
theorem low_effort_same : NamesItsTokens (efforts "low") ∧
    ∃ c', normalizeReasoningCapability (storeCapability [] (lowCapability "low")) = some c' ∧
      SameMeaning (lowCapability "low") c' := by
  have hread : normalizeReasoningCapability (efforts "low") = some (lowCapability "low") :=
    normalize_efforts (by decide +kernel)
  have hnames : NamesItsTokens (efforts "low") := by
    refine (tokens_eq_iff hread).mp fun _ _ level hlevel => ?_
    obtain rfl := List.mem_singleton.mp hlevel
    decide
  exact ⟨hnames, (stored_capability_same_iff hread []).mpr hnames⟩

/-- The provider's `Low` is read back as `low`. -/
theorem capital_effort_not_same :
    ¬ ∀ m c fields, normalizeReasoningCapability m = some c →
      ∃ c', normalizeReasoningCapability (storeCapability fields c) = some c' ∧
        SameMeaning c c' := by
  intro h
  have hread : normalizeReasoningCapability (efforts "Low") = some (lowCapability "Low") :=
    normalize_efforts (by decide +kernel)
  obtain ⟨c', hc', hsame⟩ := h (efforts "Low") (lowCapability "Low") [] hread
  have hnormal := normal_of_eq_some hread
  cases (normalize_storeCapability hnormal).symm.trans hc'
  have htoken := (maps_reread_iff hnormal).mp hsame.maps rfl (Or.inl (by decide)) "low"
    (List.mem_singleton.mpr rfl)
  exact absurd htoken (by decide)

end Kinetix.Adapters
