import Kinetix.Foundation.AsciiCase
import Kinetix.Foundation.JsonText
import Kinetix.ModelCatalog.Matches
import Mathlib.Data.String.Basic

/-!
# Canonical identities

The lookups that take the id of an upstream model to a canonical one, `resolve_with_bundled` of
`model_catalog.rs`, and when the canonical identities of a catalog are clear: answers are justified,
a hint that names no known model is as good as none, and an alias leads to its target.

## Implementation notes

The text of the bundled catalog, which the code includes as a file, is an argument.
-/

namespace Kinetix.ModelCatalog
open Text Candidates

inductive CanonicalMatchKind where
  | explicitHint
  | exactCanonicalId
  | exactModelId
  | caseInsensitiveModelId
  | explicitAlias
  deriving DecidableEq

inductive CanonicalIdentityStatus where
  | resolved
  | ambiguous
  | unresolved
  deriving DecidableEq

/-- `CanonicalIdentity`. -/
structure CanonicalIdentity where
  status : CanonicalIdentityStatus
  upstreamModelId : String
  canonicalModelId : Option String := none
  matchKind : Option CanonicalMatchKind := none
  candidates : List String := []
  source : Option CatalogSource := none
  deriving DecidableEq

/-- `CanonicalIdentity::unresolved`. -/
def CanonicalIdentity.unresolved (upstreamModelId : String) : CanonicalIdentity where
  status := .unresolved
  upstreamModelId

/-- The answer where several ids come into question. -/
def CanonicalIdentity.ambiguous (upstreamModelId : String) (candidates : List String) :
    CanonicalIdentity where
  status := .ambiguous
  upstreamModelId
  candidates

/-- The answer is an id. -/
def CanonicalIdentity.Answers (identity : CanonicalIdentity) (canonicalId : String) : Prop :=
  identity.status = .resolved ∧ identity.canonicalModelId = some canonicalId

section Lookups
variable (modelsDev : Option ModelsDevCatalog) (bundled : BundledCatalog)

/-- `canonical_exists`. -/
def canonicalExists (canonicalId : String) : Bool :=
  modelsDev.any (·.containsCanonical canonicalId) || containsKey bundled.models canonicalId

/-- `exact_model_candidates`. -/
def exactModelCandidates (modelId : String) : List String :=
  let candidates := (modelsDev.map (·.canonicalIndex.exact modelId)).getD []
  dedupeSorted (candidates ++ (keys bundled.models).filter fun canonicalId =>
    canonicalLocalId canonicalId = some modelId)

/-- `case_insensitive_model_candidates`. -/
def caseInsensitiveModelCandidates (modelId : String) : List String :=
  let normalized := toAsciiLowercase modelId
  let candidates := (modelsDev.map (·.canonicalIndex.caseInsensitive modelId)).getD []
  dedupeSorted (candidates ++ (keys bundled.models).filter fun canonicalId =>
    (canonicalLocalId canonicalId).any fun localId => toAsciiLowercase localId = normalized)

/-- `source_for` of `identity_for`. -/
def sourceFor (canonicalId : String) : Option CatalogSource :=
  if modelsDev.any (·.containsCanonical canonicalId) then some .modelsDev
  else if containsKey bundled.models canonicalId then some .bundledCatalog
  else none

/-- `resolved` of `identity_for`. -/
def resolved (upstreamModelId canonicalId : String) (matchKind : CanonicalMatchKind) :
    CanonicalIdentity where
  status := .resolved
  upstreamModelId
  source := sourceFor modelsDev bundled canonicalId
  canonicalModelId := some canonicalId
  matchKind := some matchKind

/-- The last lookup of `identity_for`. -/
def aliasIdentity (upstreamModelId : String) : CanonicalIdentity :=
  match bundled.aliases.find? (·.id == upstreamModelId) with
  | some entry => resolved modelsDev bundled upstreamModelId entry.canonicalModelId .explicitAlias
  | none => .unresolved upstreamModelId

/-- The lookup of a local id in any case, and those after it. -/
def caseInsensitiveIdentity (upstreamModelId : String) : CanonicalIdentity :=
  match caseInsensitiveModelCandidates modelsDev bundled upstreamModelId with
  | [] => aliasIdentity modelsDev bundled upstreamModelId
  | [canonicalId] =>
    resolved modelsDev bundled upstreamModelId canonicalId .caseInsensitiveModelId
  | candidates => .ambiguous upstreamModelId candidates

/-- The lookup of a local id, and those after it. -/
def modelIdIdentity (upstreamModelId : String) : CanonicalIdentity :=
  match exactModelCandidates modelsDev bundled upstreamModelId with
  | [] => caseInsensitiveIdentity modelsDev bundled upstreamModelId
  | [canonicalId] => resolved modelsDev bundled upstreamModelId canonicalId .exactModelId
  | candidates => .ambiguous upstreamModelId candidates

/-- The lookups of `identity_for` where no hint counts. -/
def unhintedIdentity (upstreamModelId : String) : CanonicalIdentity :=
  if canonicalExists modelsDev bundled upstreamModelId then
    resolved modelsDev bundled upstreamModelId upstreamModelId .exactCanonicalId
  else modelIdIdentity modelsDev bundled upstreamModelId

/-- `identity_for`. -/
def identityFor (upstreamModelId : String) (explicitHint : Option String) : CanonicalIdentity :=
  match explicitHint.filter (canonicalExists modelsDev bundled) with
  | some hint => resolved modelsDev bundled upstreamModelId hint .explicitHint
  | none => unhintedIdentity modelsDev bundled upstreamModelId

end Lookups

/-! ## The ids of both catalogs -/

section Ids
variable (modelsDev : Option ModelsDevCatalog) (bundled : BundledCatalog)

/-- A canonical id is in one of the catalogs. -/
def Known (canonicalId : String) : Prop :=
  (∃ catalog ∈ modelsDev, canonicalId ∈ keys catalog.models) ∨ canonicalId ∈ keys bundled.models

/-- The local part of a canonical id is an id. -/
def HasLocal (modelId canonicalId : String) : Prop := canonicalLocalId canonicalId = some modelId

/-- The local part of a canonical id is an id in any case. -/
def HasLocalIgnoringCase (modelId canonicalId : String) : Prop :=
  ∃ localId, canonicalLocalId canonicalId = some localId ∧ eqIgnoreAsciiCase localId modelId = true

instance (modelId canonicalId : String) : Decidable (HasLocal modelId canonicalId) :=
  inferInstanceAs (Decidable (_ = _))

instance (modelId canonicalId : String) : Decidable (HasLocalIgnoringCase modelId canonicalId) :=
  decidable_of_iff ((canonicalLocalId canonicalId).any (eqIgnoreAsciiCase · modelId) = true)
    (Option.any_eq_true _ _)

/-- A canonical id is the only known one with a property. -/
def OnlyKnown (P : String → Prop) (canonicalId : String) : Prop :=
  ∀ other, Known modelsDev bundled other ∧ P other ↔ other = canonicalId

/-- There are two known ids with a property. -/
def SeveralKnown (P : String → Prop) : Prop :=
  ∃ one other, (Known modelsDev bundled one ∧ P one) ∧ (Known modelsDev bundled other ∧ P other) ∧
    one ≠ other

variable {modelsDev : Option ModelsDevCatalog} {bundled : BundledCatalog}
  {modelId canonicalId upstreamModelId : String} {explicitHint : Option String}

theorem known_bundled (h : canonicalId ∈ keys bundled.models) :
    Known modelsDev bundled canonicalId := .inr h

theorem known_none : Known none bundled canonicalId ↔ canonicalId ∈ keys bundled.models :=
  or_iff_right fun ⟨_, hmem, _⟩ => absurd hmem (Option.not_mem_none _)

theorem canonicalExists_iff :
    canonicalExists modelsDev bundled canonicalId = true ↔ Known modelsDev bundled canonicalId := by
  rw [canonicalExists, Bool.or_eq_true, containsKey_iff]
  refine or_congr_left ?_
  cases modelsDev with
  | none => simp
  | some catalog => simp [ModelsDevCatalog.containsCanonical, containsKey_iff]

/-- Ids of both catalogs are candidates by one property. -/
theorem mem_candidates (index : CanonicalModelIndex → List String) (p : String → Bool)
    (h : ∀ models, index (.fromModels models) = (keys models).filter p) :
    canonicalId ∈ dedupeSorted ((modelsDev.map (index ·.canonicalIndex)).getD [] ++
        (keys bundled.models).filter p) ↔
      Known modelsDev bundled canonicalId ∧ p canonicalId = true := by
  rw [mem_dedupeSorted, List.mem_append, Known, or_and_right, List.mem_filter]
  refine or_congr_left ?_
  cases modelsDev with
  | none => simp
  | some catalog => simp [catalog.indexed, h, List.mem_filter]

theorem mem_exactModelCandidates :
    canonicalId ∈ exactModelCandidates modelsDev bundled modelId ↔
      Known modelsDev bundled canonicalId ∧ HasLocal modelId canonicalId := by
  rw [exactModelCandidates, mem_candidates (·.exact modelId) _
    (CanonicalModelIndex.exact_fromModels · modelId), decide_eq_true_iff, HasLocal]

theorem mem_caseInsensitiveModelCandidates :
    canonicalId ∈ caseInsensitiveModelCandidates modelsDev bundled modelId ↔
      Known modelsDev bundled canonicalId ∧ HasLocalIgnoringCase modelId canonicalId := by
  rw [caseInsensitiveModelCandidates, mem_candidates (·.caseInsensitive modelId) _
    (CanonicalModelIndex.caseInsensitive_fromModels · modelId), Option.any_eq_true]
  simp only [decide_eq_true_eq, HasLocalIgnoringCase, eqIgnoreAsciiCase_iff]

/-! ## What the lookups answer -/

/-- The identity that the lookups give where no hint counts, and what has to be so. -/
inductive Unhinted (modelsDev : Option ModelsDevCatalog) (bundled : BundledCatalog)
    (modelId : String) : CanonicalIdentity → Prop
  | canonical (known : Known modelsDev bundled modelId) :
      Unhinted modelsDev bundled modelId
        (resolved modelsDev bundled modelId modelId .exactCanonicalId)
  | exact {canonicalId : String} (unknown : ¬ Known modelsDev bundled modelId)
      (only : OnlyKnown modelsDev bundled (HasLocal modelId) canonicalId) :
      Unhinted modelsDev bundled modelId
        (resolved modelsDev bundled modelId canonicalId .exactModelId)
  | exactAmbiguous {candidates : List String} (unknown : ¬ Known modelsDev bundled modelId)
      (several : SeveralKnown modelsDev bundled (HasLocal modelId)) :
      Unhinted modelsDev bundled modelId (.ambiguous modelId candidates)
  | ignoringCase {canonicalId : String} (unknown : ¬ Known modelsDev bundled modelId)
      (inexact : ∀ other, Known modelsDev bundled other → ¬ HasLocal modelId other)
      (only : OnlyKnown modelsDev bundled (HasLocalIgnoringCase modelId) canonicalId) :
      Unhinted modelsDev bundled modelId
        (resolved modelsDev bundled modelId canonicalId .caseInsensitiveModelId)
  | ignoringCaseAmbiguous {candidates : List String} (unknown : ¬ Known modelsDev bundled modelId)
      (inexact : ∀ other, Known modelsDev bundled other → ¬ HasLocal modelId other)
      (several : SeveralKnown modelsDev bundled (HasLocalIgnoringCase modelId)) :
      Unhinted modelsDev bundled modelId (.ambiguous modelId candidates)
  | listed {entry : BundledAlias} (unknown : ¬ Known modelsDev bundled modelId)
      (other : ∀ other, Known modelsDev bundled other → ¬ HasLocalIgnoringCase modelId other)
      (found : bundled.aliases.find? (·.id == modelId) = some entry) :
      Unhinted modelsDev bundled modelId
        (resolved modelsDev bundled modelId entry.canonicalModelId .explicitAlias)
  | unresolved (unknown : ¬ Known modelsDev bundled modelId)
      (other : ∀ other, Known modelsDev bundled other → ¬ HasLocalIgnoringCase modelId other)
      (unlisted : bundled.aliases.find? (·.id == modelId) = none) :
      Unhinted modelsDev bundled modelId (.unresolved modelId)

theorem unhinted_aliasIdentity (unknown : ¬ Known modelsDev bundled modelId)
    (other : ∀ other, Known modelsDev bundled other → ¬ HasLocalIgnoringCase modelId other) :
    Unhinted modelsDev bundled modelId (aliasIdentity modelsDev bundled modelId) := by
  rw [aliasIdentity]
  split
  · exact .listed unknown other ‹_›
  · exact .unresolved unknown other ‹_›

theorem unhinted_caseInsensitiveIdentity (unknown : ¬ Known modelsDev bundled modelId)
    (inexact : ∀ other, Known modelsDev bundled other → ¬ HasLocal modelId other) :
    Unhinted modelsDev bundled modelId (caseInsensitiveIdentity modelsDev bundled modelId) := by
  rw [caseInsensitiveIdentity]
  split
  next h =>
    apply unhinted_aliasIdentity unknown
    intro other hknown hlocal
    exact List.ne_nil_of_mem (mem_caseInsensitiveModelCandidates.mpr ⟨hknown, hlocal⟩) h
  next canonicalId h =>
    apply Unhinted.ignoringCase unknown inexact
    intro other
    rw [← mem_caseInsensitiveModelCandidates, h, List.mem_singleton]
  next candidates hnil hone =>
    apply Unhinted.ignoringCaseAmbiguous unknown inexact
    obtain ⟨one, hmem, other, hother, hne⟩ := exists_ne_of_dedupeSorted hnil hone
    exact ⟨one, other, mem_caseInsensitiveModelCandidates.mp hmem,
      mem_caseInsensitiveModelCandidates.mp hother, hne⟩

theorem unhinted_modelIdIdentity (unknown : ¬ Known modelsDev bundled modelId) :
    Unhinted modelsDev bundled modelId (modelIdIdentity modelsDev bundled modelId) := by
  rw [modelIdIdentity]
  split
  next h =>
    apply unhinted_caseInsensitiveIdentity unknown
    intro other hknown hlocal
    exact List.ne_nil_of_mem (mem_exactModelCandidates.mpr ⟨hknown, hlocal⟩) h
  next canonicalId h =>
    apply Unhinted.exact unknown
    intro other
    rw [← mem_exactModelCandidates, h, List.mem_singleton]
  next candidates hnil hone =>
    apply Unhinted.exactAmbiguous unknown
    obtain ⟨one, hmem, other, hother, hne⟩ := exists_ne_of_dedupeSorted hnil hone
    exact ⟨one, other, mem_exactModelCandidates.mp hmem, mem_exactModelCandidates.mp hother, hne⟩

theorem unhinted_unhintedIdentity :
    Unhinted modelsDev bundled modelId (unhintedIdentity modelsDev bundled modelId) := by
  rw [unhintedIdentity]
  split
  next h => exact .canonical (canonicalExists_iff.mp h)
  next h => exact unhinted_modelIdIdentity fun hknown => h (canonicalExists_iff.mpr hknown)

/-- No lookup but that of a hint answers as one. -/
theorem Unhinted.matchKind {identity : CanonicalIdentity}
    (h : Unhinted modelsDev bundled modelId identity) :
    identity.matchKind ≠ some .explicitHint := by
  cases h <;> simp [resolved, CanonicalIdentity.ambiguous, CanonicalIdentity.unresolved]

/-- A hint that is known decides. -/
theorem identityFor_of_known {hint : String} (h : Known modelsDev bundled hint) :
    identityFor modelsDev bundled modelId (some hint) =
      resolved modelsDev bundled modelId hint .explicitHint := by
  rw [identityFor, Option.filter_some, if_pos (canonicalExists_iff.mpr h)]

theorem identityFor_none :
    identityFor modelsDev bundled modelId none = unhintedIdentity modelsDev bundled modelId := rfl

/-- A hint that is not known counts for nothing. -/
theorem identityFor_of_not_known {hint : String} (h : ¬ Known modelsDev bundled hint) :
    identityFor modelsDev bundled modelId (some hint) =
      unhintedIdentity modelsDev bundled modelId := by
  have hno : canonicalExists modelsDev bundled hint ≠ true :=
    fun hc => h (canonicalExists_iff.mp hc)
  rw [identityFor, Option.filter_some, if_neg hno]

/-- A hint makes a difference exactly if it is known. -/
theorem identityFor_eq_unhinted_iff {hint : String} :
    identityFor modelsDev bundled modelId (some hint) = unhintedIdentity modelsDev bundled modelId ↔
      ¬ Known modelsDev bundled hint := by
  refine ⟨fun h hknown => ?_, identityFor_of_not_known⟩
  rw [identityFor_of_known hknown] at h
  exact unhinted_unhintedIdentity.matchKind (congrArg CanonicalIdentity.matchKind h).symm

end Ids

structure CatalogResolution where
  identity : CanonicalIdentity
  canonical : Option CanonicalModelMatch
  provider : Option ProviderModelMatch
  fallbackCanonical : Option CanonicalModelMatch
  fallbackProvider : Option ProviderModelMatch

section Resolve
variable (crate : UrlCrate) (serde : Serde)

/-- The canonical id that the bundled offer of a provider names. -/
def bundledHint (bundled : BundledCatalog) (baseUrl modelId : String) : Option String :=
  (lookupBundledProvider crate bundled baseUrl modelId).bind Prod.snd

/-- What both catalogs say of an identity and of the offer of the provider. -/
def resolutionOf (modelsDev : Option ModelsDevCatalog) (bundled : BundledCatalog)
    (baseUrl modelId : String) (identity : CanonicalIdentity) : CatalogResolution :=
  let bundledProvider := (lookupBundledProvider crate bundled baseUrl modelId).map Prod.fst
  let bundledCanonical := identity.canonicalModelId.bind fun canonicalId =>
    (bundled.models.lookup canonicalId).map (bundledCanonicalMatch canonicalId)
  let modelsDevCanonical := identity.canonicalModelId.bind fun canonicalId =>
    modelsDev.bind (·.canonicalMatch canonicalId)
  let modelsDevProvider := modelsDev.bind (·.providerMatch crate baseUrl modelId)
  { identity
    canonical := modelsDevCanonical <|> bundledCanonical
    provider := modelsDevProvider <|> bundledProvider
    fallbackCanonical := modelsDevCanonical.bind fun _ => bundledCanonical
    fallbackProvider := modelsDevProvider.bind fun _ => bundledProvider }

/-- `resolve_with_bundled`. -/
def resolveWithBundled (baseUrl modelId : String) (explicitHint : Option String)
    (modelsDev : Option ModelsDevCatalog) (bundledJson : String) : CatalogResolution :=
  let bundled := (parseBundled serde bundledJson).getD {}
  let identity := identityFor modelsDev bundled modelId
    (explicitHint <|> bundledHint crate bundled baseUrl modelId)
  resolutionOf crate modelsDev bundled baseUrl modelId identity

/-- `resolve_with_hint`. -/
def resolveWithHint (bundledCatalogJson baseUrl modelId : String) (explicitHint : Option String)
    (modelsDev : Option ModelsDevCatalog) : CatalogResolution :=
  resolveWithBundled crate serde baseUrl modelId explicitHint modelsDev bundledCatalogJson

end Resolve

/-! ## Clear identities -/

section Clear
variable (crate : UrlCrate) (serde : Serde) (catalogJson : String)
  (modelsDev : Option ModelsDevCatalog) (bundled : BundledCatalog) (baseUrl modelId : String)
  (explicitHint : Option String)

/-- What a canonical id may be taken for the one of a model by. -/
inductive Justified (canonicalId : String) : Prop
  | hint (given : explicitHint = some canonicalId)
  | itself (same : canonicalId = modelId)
  | only (only : OnlyKnown modelsDev bundled (HasLocal modelId) canonicalId)
  | onlyIgnoringCase (inexact : ∀ other, Known modelsDev bundled other → ¬ HasLocal modelId other)
      (only : OnlyKnown modelsDev bundled (HasLocalIgnoringCase modelId) canonicalId)
  | target {entry : BundledAlias} (listed : entry ∈ bundled.aliases) (named : entry.id = modelId)
      (same : entry.canonicalModelId = canonicalId)

/-- The canonical identities of a bundled catalog are clear, for a model and a hint. -/
structure Clear : Prop where
  justified : ∀ canonicalId,
    (identityFor modelsDev bundled modelId explicitHint).Answers canonicalId →
      Known modelsDev bundled canonicalId ∧
        Justified modelsDev bundled modelId explicitHint canonicalId
  hint : ∀ hint, explicitHint = some hint → ¬ Known modelsDev bundled hint →
    identityFor modelsDev bundled modelId explicitHint =
      identityFor modelsDev bundled modelId none ∧
      resolveWithHint crate serde catalogJson baseUrl modelId explicitHint modelsDev =
        resolveWithHint crate serde catalogJson baseUrl modelId none modelsDev
  target : ∀ entry ∈ bundled.aliases,
    (identityFor none bundled entry.id none).Answers entry.canonicalModelId

/-- No lookup before that of an alias takes it to another id. -/
def Undisturbed (entry : BundledAlias) : Prop :=
  entry.id ∈ keys bundled.models ∨ (∃ other ∈ keys bundled.models, HasLocal entry.id other) ∨
    ∀ other ∈ keys bundled.models, HasLocalIgnoringCase entry.id other →
      other = entry.canonicalModelId

instance (entry : BundledAlias) : Decidable (Undisturbed bundled entry) :=
  inferInstanceAs (Decidable (_ ∨ _))

end Clear

variable {crate : UrlCrate} {serde : Serde} {catalogJson : String}
  {modelsDev : Option ModelsDevCatalog} {bundled : BundledCatalog} {baseUrl modelId : String}
  {explicitHint : Option String} {identity : CanonicalIdentity} {canonicalId : String}

/-! ## Justified answers -/

theorem answers_resolved {kind : CanonicalMatchKind} {answer : String} :
    (resolved modelsDev bundled modelId answer kind).Answers canonicalId ↔
      answer = canonicalId := by
  simp [CanonicalIdentity.Answers, resolved]

theorem not_answers_ambiguous {candidates : List String} :
    ¬ (CanonicalIdentity.ambiguous modelId candidates).Answers canonicalId := by
  simp [CanonicalIdentity.Answers, CanonicalIdentity.ambiguous]

theorem not_answers_unresolved : ¬ (CanonicalIdentity.unresolved modelId).Answers canonicalId := by
  simp [CanonicalIdentity.Answers, CanonicalIdentity.unresolved]

theorem OnlyKnown.known {P : String → Prop} (h : OnlyKnown modelsDev bundled P canonicalId) :
    Known modelsDev bundled canonicalId := ((h canonicalId).mpr rfl).1

/-- Each lookup gives an id that is known and stands for the model. -/
theorem Unhinted.justified (hvalid : AliasesValid bundled.models bundled.aliases)
    (h : Unhinted modelsDev bundled modelId identity) (hanswer : identity.Answers canonicalId) :
    Known modelsDev bundled canonicalId ∧
      Justified modelsDev bundled modelId explicitHint canonicalId := by
  cases h with
  | canonical known =>
    obtain rfl := answers_resolved.mp hanswer
    exact ⟨known, .itself rfl⟩
  | exact unknown only =>
    obtain rfl := answers_resolved.mp hanswer
    exact ⟨only.known, .only only⟩
  | exactAmbiguous | ignoringCaseAmbiguous => exact absurd hanswer not_answers_ambiguous
  | ignoringCase unknown inexact only =>
    obtain rfl := answers_resolved.mp hanswer
    exact ⟨only.known, .onlyIgnoringCase inexact only⟩
  | listed unknown other found =>
    obtain rfl := answers_resolved.mp hanswer
    have hmem := List.mem_of_find?_eq_some found
    have hid := List.find?_some found
    exact ⟨known_bundled (hvalid.target _ hmem), .target hmem (by simpa using hid) rfl⟩
  | unresolved => exact absurd hanswer not_answers_unresolved

variable (modelsDev bundled modelId explicitHint) in
/-- The answer for a hint is the one where none counts, or the hint. -/
theorem identityFor_cases :
    (∃ hint, explicitHint = some hint ∧ Known modelsDev bundled hint ∧
      identityFor modelsDev bundled modelId explicitHint =
        resolved modelsDev bundled modelId hint .explicitHint) ∨
    identityFor modelsDev bundled modelId explicitHint =
      unhintedIdentity modelsDev bundled modelId := by
  cases explicitHint with
  | none => exact .inr identityFor_none
  | some hint =>
    by_cases hknown : Known modelsDev bundled hint
    · exact .inl ⟨hint, rfl, hknown, identityFor_of_known hknown⟩
    · exact .inr (identityFor_of_not_known hknown)

theorem identityFor_justified (hvalid : AliasesValid bundled.models bundled.aliases)
    (h : (identityFor modelsDev bundled modelId explicitHint).Answers canonicalId) :
    Known modelsDev bundled canonicalId ∧
      Justified modelsDev bundled modelId explicitHint canonicalId := by
  obtain ⟨hint, hgiven, hknown, heq⟩ | heq :=
    identityFor_cases modelsDev bundled modelId explicitHint
  · rw [heq] at h
    obtain rfl := answers_resolved.mp h
    exact ⟨hknown, .hint hgiven⟩
  · rw [heq] at h
    exact unhinted_unhintedIdentity.justified hvalid h

/-! ## Hints -/

/-- Without an explicit hint that of the provider's offer counts. -/
theorem identity_resolveWithHint (hparse : parseBundled serde catalogJson = some bundled) :
    (resolveWithHint crate serde catalogJson baseUrl modelId explicitHint modelsDev).identity =
      identityFor modelsDev bundled modelId
        (explicitHint <|> bundledHint crate bundled baseUrl modelId) := by
  simp only [resolveWithHint, resolveWithBundled, hparse, Option.getD_some]
  rfl

/-- Resolutions differ exactly in their identities. -/
theorem resolutionOf_inj {other : CanonicalIdentity} :
    resolutionOf crate modelsDev bundled baseUrl modelId identity =
      resolutionOf crate modelsDev bundled baseUrl modelId other ↔ identity = other :=
  ⟨congrArg CatalogResolution.identity, fun h => h ▸ rfl⟩

/-- A hint that is not known is as good as none exactly if there is no known one in the bundled
offer of the provider, whose place it takes. -/
theorem resolveWithHint_unknown_iff {hint : String}
    (hparse : parseBundled serde catalogJson = some bundled) (h : ¬ Known modelsDev bundled hint) :
    resolveWithHint crate serde catalogJson baseUrl modelId (some hint) modelsDev =
        resolveWithHint crate serde catalogJson baseUrl modelId none modelsDev ↔
      ∀ named, bundledHint crate bundled baseUrl modelId = some named →
        ¬ Known modelsDev bundled named := by
  simp only [resolveWithHint, resolveWithBundled, hparse, Option.getD_some]
  rw [resolutionOf_inj]
  cases hbundled : bundledHint crate bundled baseUrl modelId with
  | none =>
    refine iff_of_true ?_ fun _ h => absurd h (Option.some_ne_none _).symm
    exact identityFor_of_not_known h
  | some named =>
    have hunhinted : identityFor modelsDev bundled modelId (some hint <|> some named) =
        unhintedIdentity modelsDev bundled modelId := identityFor_of_not_known h
    rw [hunhinted, eq_comm]
    refine identityFor_eq_unhinted_iff.trans ⟨fun hno other heq => ?_, fun hall => hall named rfl⟩
    exact Option.some.inj heq ▸ hno

/-! ## Aliases -/

/-- Without models.dev an alias leads to its target exactly if no earlier lookup takes it. -/
theorem alias_answers_iff (hvalid : AliasesValid bundled.models bundled.aliases)
    {entry : BundledAlias} (hmem : entry ∈ bundled.aliases) :
    (identityFor none bundled entry.id none).Answers entry.canonicalModelId ↔
      Undisturbed bundled entry := by
  have hexact : ∀ other, Known none bundled other → HasLocal entry.id other →
      other = entry.canonicalModelId := fun other hknown hlocal =>
    hvalid.collisions entry hmem other (known_none.mp hknown) hlocal
  rw [identityFor_none]
  generalize hidentity : unhintedIdentity none bundled entry.id = identity
  have hun : Unhinted none bundled entry.id identity := hidentity ▸ unhinted_unhintedIdentity
  cases hun with
  | canonical known =>
    have hin := known_none.mp known
    exact iff_of_true (answers_resolved.mpr (hvalid.own entry hmem hin)) (.inl hin)
  | @exact canonicalId unknown only =>
    obtain ⟨hknown, hlocal⟩ := (only canonicalId).mpr rfl
    refine iff_of_true (answers_resolved.mpr (hexact _ hknown hlocal)) (.inr (.inl ?_))
    exact ⟨canonicalId, known_none.mp hknown, hlocal⟩
  | exactAmbiguous unknown several =>
    obtain ⟨one, other, ⟨hone, hlocal⟩, ⟨hother, hlocal'⟩, hne⟩ := several
    exact absurd ((hexact one hone hlocal).trans (hexact other hother hlocal').symm) hne
  | @ignoringCase canonicalId unknown inexact only =>
    rw [answers_resolved]
    constructor
    · rintro rfl
      refine .inr (.inr fun other hin hlocal => ?_)
      exact (only other).mp ⟨known_none.mpr hin, hlocal⟩
    · rintro (hin | ⟨other, hin, hlocal⟩ | hall)
      · exact absurd (known_none.mpr hin) unknown
      · exact absurd hlocal (inexact other (known_none.mpr hin))
      · obtain ⟨hknown, hlocal⟩ := (only canonicalId).mpr rfl
        exact hall canonicalId (known_none.mp hknown) hlocal
  | ignoringCaseAmbiguous unknown inexact several =>
    refine iff_of_false not_answers_ambiguous ?_
    obtain ⟨one, other, ⟨hone, hlocal⟩, ⟨hother, hlocal'⟩, hne⟩ := several
    rintro (hin | ⟨third, hin, hthird⟩ | hall)
    · exact unknown (known_none.mpr hin)
    · exact inexact third (known_none.mpr hin) hthird
    · have htarget := hall one (known_none.mp hone) hlocal
      exact hne (htarget.trans (hall other (known_none.mp hother) hlocal').symm)
  | listed unknown other found =>
    obtain rfl := Option.some.inj ((hvalid.find hmem).symm.trans found)
    refine iff_of_true (answers_resolved.mpr rfl) (.inr (.inr fun third hin hlocal => ?_))
    exact absurd hlocal (other third (known_none.mpr hin))
  | unresolved unknown other unlisted =>
    exact absurd ((hvalid.find hmem).symm.trans unlisted) (Option.some_ne_none _)

/-- The identities of a catalog that was accepted are clear exactly if a hint that is not known does
not take the place of a known one, and no alias is a local id in another case. -/
theorem identities_clear_iff (hparse : parseBundled serde catalogJson = some bundled) :
    Clear crate serde catalogJson modelsDev bundled baseUrl modelId explicitHint ↔
      (∀ hint, explicitHint = some hint → ¬ Known modelsDev bundled hint →
        ∀ named, bundledHint crate bundled baseUrl modelId = some named →
          ¬ Known modelsDev bundled named) ∧
        ∀ entry ∈ bundled.aliases, Undisturbed bundled entry := by
  have hvalid := parseBundled_valid hparse
  constructor
  · intro h
    refine ⟨fun hint hgiven hunknown => ?_, fun entry hmem => ?_⟩
    · have hsame := (h.hint hint hgiven hunknown).2
      rw [hgiven] at hsame
      exact (resolveWithHint_unknown_iff hparse hunknown).mp hsame
    · exact (alias_answers_iff hvalid hmem).mp (h.target entry hmem)
  · rintro ⟨hhint, halias⟩
    refine ⟨fun canonicalId => identityFor_justified hvalid, fun hint hgiven hunknown => ?_, ?_⟩
    · have hnamed := hhint hint hgiven hunknown
      subst hgiven
      refine ⟨identityFor_of_not_known hunknown, ?_⟩
      exact (resolveWithHint_unknown_iff hparse hunknown).mpr hnamed
    · exact fun entry hmem => (alias_answers_iff hvalid hmem).mpr (halias entry hmem)

/-- The JSON of a catalog of the second version, without overrides of providers or with them. -/
def catalogValue (models : List String) (aliases : List BundledAlias)
    (overrides : List Json.Value) : Json.Value :=
  .object [("schema_version", .number (.int 2)),
    ("models", .object (models.map fun id => (id, .object []))),
    ("aliases", .array (aliases.map fun entry => .object [("id", .string entry.id),
      ("canonical_model_id", .string entry.canonicalModelId)])),
    ("provider_overrides", .array overrides)]

def catalogText (value : Json.Value) : String := value.toText fun _ => ""

/-- A reader of the text of one catalog of the second version. -/
def readerOf (value : Json.Value) (catalog : BundledCatalogV2) : Serde where
  fromStr text := if text = catalogText value then some value else none
  catalogV2 _ := some catalog
  catalogV1 _ := none

theorem fromStr_catalogText (value : Json.Value) (catalog : BundledCatalogV2) :
    (readerOf value catalog).fromStr (catalogText value) = some value := if_pos rfl

/-- A parser of the base urls of one host. -/
def oneBase : UrlCrate where
  Url := String
  parse text := Text.stripPrefix text "https://api.b.ai"
  hostStr _ := some "api.b.ai"
  path := id
  withoutQuery := id
  withoutFragment := id
  setPath _ path := path
  toString path := "https://api.b.ai" ++ path

def verifiedCatalog : BundledCatalogV2 where
  schemaVersion := 2
  models := [("anthropic/claude-opus-4-6", {}), ("xiaomi/mimo-v2.6-flash", {})]
  aliases := [⟨"mimo-v2.6-flash-free", "xiaomi/mimo-v2.6-flash"⟩]

def verifiedValue : Json.Value :=
  catalogValue (keys verifiedCatalog.models) verifiedCatalog.aliases []

theorem verifiedCatalog_clear :
    Clear oneBase (readerOf verifiedValue verifiedCatalog) (catalogText verifiedValue) none
      { models := verifiedCatalog.models, aliases := verifiedCatalog.aliases }
      "https://api.b.ai/v1" "claude-opus-4-6" (some "invented/not-real") := by
  have hparse : parseBundled (readerOf verifiedValue verifiedCatalog) (catalogText verifiedValue) =
      some { models := verifiedCatalog.models, aliases := verifiedCatalog.aliases } := by
    rw [parseBundled, fromStr_catalogText]
    rfl
  refine (identities_clear_iff hparse).mpr ⟨fun _ _ _ named h => ?_, by decide +kernel⟩
  exact absurd h (by simp [bundledHint, lookupBundledProvider])

/-- The alias is a local id in another case, and the provider offers a model under a hint. -/
def cloudedCatalog : BundledCatalogV2 where
  schemaVersion := 2
  models := [("vendor-a/Foo", {}), ("vendor-b/bar", {})]
  aliases := [⟨"foo", "vendor-b/bar"⟩]
  providerOverrides :=
    [{ baseUrls := ["https://api.b.ai/v1"]
       models := [{ id := "offer", canonicalModelId := some "vendor-b/bar" }] }]

def cloudedValue : Json.Value :=
  catalogValue (keys cloudedCatalog.models) cloudedCatalog.aliases
    [.object [("base_urls", .array [.string "https://api.b.ai/v1"]),
      ("models", .array [.object [("id", .string "offer"),
        ("canonical_model_id", .string "vendor-b/bar")]])]]

theorem cloudedCatalog_not_clear :
    let S := readerOf cloudedValue cloudedCatalog
    let text := catalogText cloudedValue
    ∃ bundled, parseBundled S text = some bundled ∧
      (identityFor none bundled "foo" none).Answers "vendor-a/Foo" ∧
      (resolveWithHint oneBase S text "https://api.b.ai/v1" "offer" none
        none).identity.Answers "vendor-b/bar" ∧
      (resolveWithHint oneBase S text "https://api.b.ai/v1" "offer"
        (some "invented/not-real") none).identity.status = .unresolved ∧
      ¬ Clear oneBase S text none bundled "https://api.b.ai/v1" "offer"
        (some "invented/not-real") := by
  let bundled : BundledCatalog :=
    ⟨cloudedCatalog.models, cloudedCatalog.aliases, cloudedCatalog.providerOverrides⟩
  have hparse : parseBundled (readerOf cloudedValue cloudedCatalog) (catalogText cloudedValue) =
      some bundled := by
    rw [parseBundled, fromStr_catalogText]
    rfl
  have hfoo : (identityFor none bundled "foo" none).status = .resolved ∧
      (identityFor none bundled "foo" none).canonicalModelId = some "vendor-a/Foo" := by
    decide +kernel
  refine ⟨_, hparse, hfoo, ?_, ?_, ?_⟩
  · rw [identity_resolveWithHint hparse]
    exact ⟨by decide +kernel, by decide +kernel⟩
  · rw [identity_resolveWithHint hparse]
    decide +kernel
  · intro h
    have htarget := (h.target ⟨"foo", "vendor-b/bar"⟩ List.mem_cons_self).2
    rw [hfoo.2] at htarget
    exact absurd htarget (by decide)

end Kinetix.ModelCatalog
