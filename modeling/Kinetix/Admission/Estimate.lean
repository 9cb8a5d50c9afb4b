import Kinetix.Admission.Ledger
import Kinetix.Admission.Pricing
import Kinetix.Config.Resolution
import Kinetix.Frontends.Request
import Kinetix.VirtualKeys.Policy

/-!
# The estimate of a request

`estimate_request` of `admission.rs` looks at every model that may serve a request and reserves the
tokens and the cost of the most expensive one.

## Implementation notes

The length of a string is that of its UTF-8 bytes. A sum of such lengths is a natural number, since
the strings are all in memory.
-/

namespace Kinetix.Admission
open Config Frontends Json Kinetix.Types VirtualKeys Words

/-- `DEFAULT_OUTPUT_RESERVATION`. -/
def defaultOutputReservation : Nat := 8192

/-- The characters that `approx_input_tokens` counts for a part. -/
def partChars : Part → Nat
  | .text t => t.utf8ByteSize
  | .thinking text _ => text.utf8ByteSize
  | .toolCall _ name arguments _ => name.utf8ByteSize + arguments.utf8ByteSize
  | .toolResult _ _ content _ => content.utf8ByteSize
  | .image _ => 1000

/-- `approx_input_tokens`: about four characters a token, rounded up. -/
def approxInputTokens (req : InternalRequest) : Nat :=
  let chars := (req.system.map String.utf8ByteSize).sum +
    (req.messages.map fun m => (m.parts.map partChars).sum).sum
  (chars + 3) / 4

/-- `estimated_input_tokens`. -/
def estimatedInputTokens (J : SerdeJson) (req : InternalRequest) : Nat :=
  let toolChars := (req.tools.map fun tool =>
    tool.name.utf8ByteSize + (tool.description.map String.utf8ByteSize).getD 0 +
      (J.toString tool.parameters).utf8ByteSize + 32).sum
  max (saturatingAdd (approxInputTokens req) ((toolChars + 3) / 4)) 1

/-- `output_reservation`. -/
def outputReservation (req : InternalRequest) (model : Config.ModelRow) : Nat :=
  let modelMax := (model.maxOutputTokens.filter fun value => 0 < value.toInt).map fun value =>
    value.toInt.toNat
  match req.params.maxTokens, modelMax with
  | some requested, some maximum => min requested maximum
  | some requested, none => requested
  | none, some maximum => maximum
  | none, none => defaultOutputReservation

/-- `ModelRow::prices`, with the reader of the stored text. -/
def modelPrices (readPrices : String → Option Prices) (model : Config.ModelRow) : Prices :=
  (readPrices model.prices).getD {}

/-- The models of the permitted targets, each id once. -/
def collectModels (allowed : List String) (seen : List String) :
    List Config.ResolvedTarget → List Config.ModelRow
  | [] => []
  | t :: targets =>
    if !permitsProvider allowed t.provider.id then collectModels allowed seen targets
    else if t.model.id ∈ seen then collectModels allowed seen targets
    else t.model :: collectModels allowed (t.model.id :: seen) targets

/-- The models that may serve the request. -/
def modelsOf (snap : Snapshot) (allowed : List String) :
    Config.Resolved → Except ProxyError (List Config.ModelRow)
  | .single providerId modelId =>
    if permitsProvider allowed providerId then .ok (snap.models modelId).toList
    else .error ⟨.forbidden, "this key is not allowed to use the resolved provider", none⟩
  | .route _ targets =>
    let models := collectModels allowed [] targets
    if models.isEmpty then
      .error ⟨.forbidden, "this key is not allowed to use any provider in the resolved route",
        none⟩
    else .ok models

/-- What the loop over the models has found. -/
structure Bound where
  tokens : Nat := 0
  maxCost : ℚ := 0
  costKnown : Bool := true

section
variable (S : SerdeStrings) (J : SerdeJson) (readPrices : String → Option Prices)

/-- The loop body of `estimate_request`. -/
def Bound.cover (req : InternalRequest) (b : Bound) (model : Config.ModelRow) : Bound :=
  let input := estimatedInputTokens J req
  let output := outputReservation req model
  let b := { b with tokens := max b.tokens (saturatingAdd input output) }
  match conservativeCost (modelPrices readPrices model) input output with
  | some cost => { b with maxCost := max b.maxCost cost }
  | none => { b with costKnown := false }

/-- `estimate_request`: the dearest candidate counts. -/
def estimateRequest {snap : Snapshot} (values : Iteration snap) (key : VirtualKeys.VirtualKeyRow)
    (req : InternalRequest) : Except ProxyError AdmissionEstimate :=
  match Snapshot.resolveIn values req.requestedModel with
  | none => .error <| .notFound <|
      s!"model '{req.requestedModel}' is not configured. Use GET /v1/models to list available " ++
        "models."
  | some resolved =>
    match modelsOf snap (key.providers S) resolved with
    | .error e => .error e
    | .ok models =>
      let b := models.foldl (Bound.cover J readPrices req) {}
      .ok {
        tokens := max b.tokens (estimatedInputTokens J req)
        cost := if b.costKnown then some b.maxCost else none }

/-- The models that may serve a request of a key: that of the single target, or that of a target of
the route whose provider is permitted. -/
def MayServe (snap : Snapshot) (allowed : List String) (m : Config.ModelRow) :
    Config.Resolved → Prop
  | .single providerId modelId => permitsProvider allowed providerId ∧ snap.models modelId = some m
  | .route _ targets => ∃ t ∈ targets, permitsProvider allowed t.provider.id ∧ t.model = m

end

/-! ## The models that are looked at -/

theorem target_of_mem_collectModels {allowed seen : List String}
    {targets : List Config.ResolvedTarget} {m : Config.ModelRow}
    (h : m ∈ collectModels allowed seen targets) : ∃ t ∈ targets, t.model = m := by
  induction targets generalizing seen with
  | nil => cases h
  | cons t targets ih =>
    have later : ∀ {seen}, m ∈ collectModels allowed seen targets →
        ∃ t' ∈ t :: targets, t'.model = m := by
      intro seen h
      obtain ⟨t', ht', heq⟩ := ih h
      exact ⟨t', List.mem_cons_of_mem t ht', heq⟩
    rw [collectModels] at h
    split at h
    · exact later h
    · split at h
      · exact later h
      · rcases List.mem_cons.mp h with rfl | h
        · exact ⟨t, List.mem_cons_self, rfl⟩
        · exact later h

/-- A permitted target's model is looked at, unless its id was seen before. -/
theorem exists_mem_collectModels {allowed seen : List String}
    {targets : List Config.ResolvedTarget} {t : Config.ResolvedTarget} (ht : t ∈ targets)
    (hp : permitsProvider allowed t.provider.id) (hseen : t.model.id ∉ seen) :
    ∃ m ∈ collectModels allowed seen targets, m.id = t.model.id := by
  induction targets generalizing seen with
  | nil => cases ht
  | cons t' targets ih =>
    rw [collectModels]
    split
    case isTrue hforbidden =>
      rcases List.mem_cons.mp ht with rfl | ht
      · simp [hp] at hforbidden
      · exact ih ht hseen
    case isFalse =>
      split
      case isTrue hold =>
        rcases List.mem_cons.mp ht with rfl | ht
        · exact absurd hold hseen
        · exact ih ht hseen
      case isFalse =>
        by_cases heq : t.model.id = t'.model.id
        · exact ⟨t'.model, List.mem_cons_self, heq.symm⟩
        · rcases List.mem_cons.mp ht with rfl | ht
          · exact absurd rfl heq
          · have hlater : t.model.id ∉ t'.model.id :: seen := by simp [heq, hseen]
            obtain ⟨m, hm, hid⟩ := ih ht hlater
            exact ⟨m, List.mem_cons_of_mem _ hm, hid⟩

/-- Every model that may serve the request is looked at. -/
theorem mem_modelsOf {snap : Snapshot} (hsnap : snap.Loaded) {values : Iteration snap}
    {requested : String} {resolved : Config.Resolved}
    (hr : Snapshot.resolveIn values requested = some resolved) {allowed : List String}
    {models : List Config.ModelRow} (hm : modelsOf snap allowed resolved = .ok models)
    {m : Config.ModelRow} (hserve : MayServe snap allowed m resolved) : m ∈ models := by
  cases resolved with
  | single providerId modelId =>
    obtain ⟨hp, hmodel⟩ := hserve
    rw [modelsOf, if_pos hp, hmodel] at hm
    cases hm
    exact List.mem_singleton_self m
  | route route targets =>
    obtain ⟨t, ht, hp, rfl⟩ := hserve
    dsimp only [modelsOf] at hm
    split at hm
    · cases hm
    · cases hm
      obtain ⟨m, hmem, hid⟩ := exists_mem_collectModels ht hp (List.not_mem_nil (a := t.model.id))
      obtain ⟨t', ht', rfl⟩ := target_of_mem_collectModels hmem
      -- The snapshot has one model for each id.
      have hboth := Snapshot.models_of_resolveIn hsnap.modelsById hr ht'
      rw [hid, Snapshot.models_of_resolveIn hsnap.modelsById hr ht] at hboth
      rwa [Option.some.inj hboth]

/-! ## The loop -/

section
variable {S : SerdeStrings} {J : SerdeJson} {readPrices : String → Option Prices}
  {req : InternalRequest}

/-- One model raises the bound to its own and forgets no unknown cost. -/
theorem Bound.cover_spec (b : Bound) (model : Config.ModelRow) :
    b.maxCost ≤ (b.cover J readPrices req model).maxCost ∧
    ((b.cover J readPrices req model).costKnown → b.costKnown ∧
      ∃ cost, conservativeCost (modelPrices readPrices model) (estimatedInputTokens J req)
        (outputReservation req model) = some cost ∧
        cost ≤ (b.cover J readPrices req model).maxCost) := by
  unfold Bound.cover
  dsimp only
  split
  case h_1 cost hcost =>
    exact ⟨le_max_left _ _, fun hknown => ⟨hknown, cost, hcost, le_max_right _ _⟩⟩
  case h_2 =>
    exact ⟨le_rfl, fun hknown => absurd hknown Bool.false_ne_true⟩

/-- If the loop knows the cost, it knows that of each model, and it has found none above its own. -/
theorem Bound.foldl_cover (b : Bound) (models : List Config.ModelRow) :
    b.maxCost ≤ (models.foldl (Bound.cover J readPrices req) b).maxCost ∧
    ((models.foldl (Bound.cover J readPrices req) b).costKnown → b.costKnown ∧
      ∀ m ∈ models, ∃ cost, conservativeCost (modelPrices readPrices m)
        (estimatedInputTokens J req) (outputReservation req m) = some cost ∧
        cost ≤ (models.foldl (Bound.cover J readPrices req) b).maxCost) := by
  induction models generalizing b with
  | nil => exact ⟨le_rfl, fun hknown => ⟨hknown, fun m hm => (List.not_mem_nil hm).elim⟩⟩
  | cons model models ih =>
    obtain ⟨hle, hall⟩ := ih (b.cover J readPrices req model)
    obtain ⟨hfirst, hone⟩ := @Bound.cover_spec J readPrices req b model
    rw [List.foldl_cons]
    refine ⟨hfirst.trans hle, fun hknown => ?_⟩
    obtain ⟨hcovered, hrest⟩ := hall hknown
    obtain ⟨hbefore, cost, hcost, hcostle⟩ := hone hcovered
    refine ⟨hbefore, fun m hm => ?_⟩
    rcases List.mem_cons.mp hm with rfl | hm
    · exact ⟨cost, hcost, hcostle.trans hle⟩
    · exact hrest m hm

/-- The estimated cost is no lower than the conservative cost of any model that may serve. -/
theorem conservativeCost_le_estimate {snap : Snapshot} (hsnap : snap.Loaded)
    {values : Iteration snap} {key : VirtualKeys.VirtualKeyRow} {estimate : AdmissionEstimate}
    (he : estimateRequest S J readPrices values key req = .ok estimate)
    {resolved : Config.Resolved}
    (hr : Snapshot.resolveIn values req.requestedModel = some resolved) {m : Config.ModelRow}
    (hserve : MayServe snap (key.providers S) m resolved) {bound : ℚ}
    (hb : estimate.cost = some bound) :
    ∃ cost, conservativeCost (modelPrices readPrices m) (estimatedInputTokens J req)
      (outputReservation req m) = some cost ∧ cost ≤ bound := by
  unfold estimateRequest at he
  rw [hr] at he
  dsimp only at he
  split at he
  · cases he
  next models hmodels =>
    cases he
    rw [Option.ite_none_right_eq_some] at hb
    obtain ⟨hknown, hmax⟩ := hb
    obtain ⟨cost, hcost, hle⟩ :=
      ((Bound.foldl_cover {} models).2 hknown).2 m (mem_modelsOf hsnap hr hmodels hserve)
    exact ⟨cost, hcost, hle.trans (Option.some.inj hmax).le⟩

variable (S J readPrices) in
/-- The cost of a usage within the reservation is known if the conservative cost is, and no higher.
So the estimate of a request bounds its cost, whichever model serves it. -/
theorem cost_le_estimate :
    (∀ (prices : Prices) (usage : TokenUsage) (input output : ℕ) (bound : ℚ), prices.Nonneg →
      Within usage input output → conservativeCost prices input output = some bound →
      ∃ cost, computeCost prices usage = some cost ∧ cost ≤ bound) ∧
    ∀ (snap : Snapshot) (values : Iteration snap) (key : VirtualKeys.VirtualKeyRow)
      (req : InternalRequest) (estimate : AdmissionEstimate) (resolved : Config.Resolved)
      (m : Config.ModelRow) (usage : TokenUsage) (bound : ℚ), snap.Loaded →
      estimateRequest S J readPrices values key req = .ok estimate →
      Snapshot.resolveIn values req.requestedModel = some resolved →
      MayServe snap (key.providers S) m resolved → (modelPrices readPrices m).Nonneg →
      Within usage (estimatedInputTokens J req) (outputReservation req m) →
      estimate.cost = some bound →
      ∃ cost, computeCost (modelPrices readPrices m) usage = some cost ∧ cost ≤ bound := by
  constructor
  · exact fun prices usage input output bound hp hu hb => computeCost_le_conservativeCost hp hu hb
  · intro snap values key req estimate resolved m usage bound hsnap he hr hserve hp hu hb
    obtain ⟨reserved, hreserved, hle⟩ := conservativeCost_le_estimate hsnap he hr hserve hb
    obtain ⟨cost, hcost, hcostle⟩ := computeCost_le_conservativeCost hp hu hreserved
    exact ⟨cost, hcost, hcostle.trans hle⟩

end

/-- A model at one dollar for a million input tokens, and two for a million output tokens. -/
def pricedModel : Config.ModelRow where
  id := "m"
  providerId := "p"
  upstreamId := "m"
  displayName := "m"
  enabled := 1
  contextWindow := none
  maxOutputTokens := some 1000
  capabilities := ""
  prices := "1:2"
  parameters := ""
  thinkingMap := ""
  extraRequest := ""
  discovery := ""
  createdAt := ""
  opaqueStatePlugin := ""

def pricedTables : Tables where
  providers := []
  accounts := []
  models := [pricedModel]
  aliases := []
  routes := []
  routeTargets := []

/-- The snapshot of one model. -/
def pricedSnapshot : Snapshot := Snapshot.addModel {} pricedModel

theorem pricedSnapshot_loaded : pricedSnapshot.Loaded :=
  ⟨fun q => some (pricedTables.rows q), reload_answer⟩

def pricedValues : Iteration pricedSnapshot where
  routes := []
  providers := []
  accounts := []
  models := [pricedModel]
  mem_routes c := by simp [pricedSnapshot, Snapshot.addModel]
  mem_providers p := by simp [pricedSnapshot, Snapshot.addModel]
  mem_accounts a := by simp [pricedSnapshot, Snapshot.addModel]
  mem_models m := by
    simp only [List.mem_singleton, pricedSnapshot, Snapshot.addModel, Function.update_apply,
      Option.ite_none_right_eq_some, Option.some.injEq]
    exact ⟨fun h => ⟨_, rfl, h.symm⟩, fun ⟨_, _, h⟩ => h.symm⟩

/-- A reader of one list of prices. -/
def readOneTwo (text : String) : Option Prices :=
  if text = "1:2" then some { inputPer1m := some 1, outputPer1m := some 2 } else none

def plainRequest : InternalRequest where
  requestedModel := "m"
  system := []
  messages := [⟨.user, [.text "hello"]⟩]
  tools := []
  toolChoice := none
  toolChoiceName := none
  params := {}
  stream := false
  includeUsage := false
  thinking := none
  extra := []
  rawBody := none

theorem oneTwo_nonneg : (modelPrices readOneTwo pricedModel).Nonneg where
  input p h := Option.some.inj h ▸ zero_le_one
  output p h := Option.some.inj h ▸ zero_le_two
  cached p h := by cases h
  cacheWrite p h := by cases h
  thinking p h := by cases h

/-- Cached input at half the price. -/
def cachedPrices : Prices :=
  { inputPer1m := some 1, outputPer1m := some 2, cachedPer1m := some (1 / 2) }

theorem cachedPrices_nonneg : cachedPrices.Nonneg where
  input p h := Option.some.inj h ▸ zero_le_one
  output p h := Option.some.inj h ▸ zero_le_two
  cached p h := Option.some.inj h ▸ by norm_num
  cacheWrite p h := by cases h
  thinking p h := by cases h

/-- The key that admits any provider. -/
def anyProvider : VirtualKeys.VirtualKeyRow := ⟨"[\"*\"]", "[]", none, "active", "[]"⟩

theorem cost_le_estimate_priced :
    (∃ cost, computeCost cachedPrices
      { input := some 10, output := some 20, cached := some 4 } = some cost ∧ cost ≤ 1) ∧
    ∃ estimate bound, estimateRequest plainJson SerdeJson.ofEmptyObject readOneTwo pricedValues
        anyProvider plainRequest = .ok estimate ∧ estimate.cost = some bound ∧
      ∃ cost, computeCost (modelPrices readOneTwo pricedModel)
        { input := some 2, output := some 300, thinking := some 100 } = some cost ∧
          cost ≤ bound := by
  obtain ⟨hcost, hestimate⟩ := cost_le_estimate plainJson SerdeJson.ofEmptyObject readOneTwo
  constructor
  · obtain ⟨cost, hc, hle⟩ := hcost cachedPrices
      { input := some 10, output := some 20, cached := some 4 } 10 20 _ cachedPrices_nonneg
      ⟨by decide, by decide⟩ rfl
    exact ⟨cost, hc, hle.trans (by norm_num [cachedPrices])⟩
  · refine ⟨_, _, rfl, rfl, ?_⟩
    exact hestimate pricedSnapshot pricedValues anyProvider plainRequest _ (.single "p" "m")
      pricedModel _ _ pricedSnapshot_loaded rfl rfl ⟨rfl, rfl⟩ oneTwo_nonneg
      ⟨by decide, by decide⟩ rfl

end Kinetix.Admission
