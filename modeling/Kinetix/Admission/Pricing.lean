import Kinetix.Frontends.Events
import Kinetix.Library.Binary64

/-!
# Prices

`compute_cost` of `cost.rs` prices the usage that an upstream reports, and `conservative_cost` of
`admission.rs` the tokens that were reserved for it before. Whatever the parts of the usage are, the
second is no smaller than the first.

## Implementation notes

Amounts are rational, and the rounding of the arithmetic is a parameter. Token counts are natural
numbers, and a price is for one million of them.
-/

namespace Kinetix.Admission
open Binary64 Frontends

structure Prices where
  inputPer1m : Option ℚ := none
  outputPer1m : Option ℚ := none
  cachedPer1m : Option ℚ := none
  cacheWritePer1m : Option ℚ := none
  thinkingPer1m : Option ℚ := none
  deriving DecidableEq

def Prices.isConfigured (prices : Prices) : Bool :=
  prices.inputPer1m.isSome || prices.outputPer1m.isSome

/-- A price that is missing is only missed if there are tokens. -/
def basePrice (price : Option ℚ) (tokens : Nat) : Option ℚ :=
  match price with
  | some price => some price
  | none => if tokens = 0 then some 0 else none

/-- The input that was read from a cache, written to one, and neither. -/
structure InputParts where
  cached : ℚ
  cacheWrite : ℚ
  regular : ℚ

/-- The parts of the input in `compute_cost`. -/
def inputParts (round : ℚ → ℚ) (usage : TokenUsage) : InputParts :=
  let input := round (usage.input.getD 0 : ℕ)
  let cached := min (round (usage.cached.getD 0 : ℕ)) input
  let rest := round (input - cached)
  let cacheWrite := min (round (usage.cacheWrite.getD 0 : ℕ)) rest
  { cached, cacheWrite, regular := round (rest - cacheWrite) }

/-- `compute_cost`: the parts of the usage are cut down to its totals. -/
def computeCostWith (round : ℚ → ℚ) (prices : Prices) (usage : TokenUsage) : Option ℚ :=
  if !prices.isConfigured then none
  else
    let parts := inputParts round usage
    let output := round (usage.output.getD 0 : ℕ)
    let thinking := min (round (usage.thinking.getD 0 : ℕ)) output
    let regularOutput := round (output - thinking)
    let sum (x y : ℚ) : ℚ := round (x + y)
    match basePrice prices.inputPer1m (usage.input.getD 0) with
    | none => none
    | some inputPrice =>
      let cachedPrice := prices.cachedPer1m.getD inputPrice
      let cacheWritePrice := prices.cacheWritePer1m.getD inputPrice
      match basePrice prices.outputPer1m (usage.output.getD 0) with
      | none => none
      | some outputPrice =>
        let thinkingPrice := prices.thinkingPer1m.getD outputPrice
        let input := sum
          (sum (round (parts.regular * inputPrice)) (round (parts.cached * cachedPrice)))
          (round (parts.cacheWrite * cacheWritePrice))
        some (round (sum (sum input (round (regularOutput * outputPrice)))
          (round (thinking * thinkingPrice)) / 1000000))

/-- `compute_cost` without rounding. -/
def computeCost : Prices → TokenUsage → Option ℚ := computeCostWith id

/-- `conservative_cost`: every token at the highest price that it may have. -/
def conservativeCost (prices : Prices) (input output : Nat) : Option ℚ :=
  if !prices.isConfigured then none
  else
    match basePrice prices.inputPer1m input with
    | none => none
    | some inputBase =>
      let inputRate := max (max inputBase (prices.cachedPer1m.getD inputBase))
        (prices.cacheWritePer1m.getD inputBase)
      match basePrice prices.outputPer1m output with
      | none => none
      | some outputBase =>
        let outputRate := max outputBase (prices.thinkingPer1m.getD outputBase)
        some ((input * inputRate + output * outputRate) / 1000000)

/-- No price is negative. -/
structure Prices.Nonneg (prices : Prices) : Prop where
  input : ∀ p, prices.inputPer1m = some p → 0 ≤ p
  output : ∀ p, prices.outputPer1m = some p → 0 ≤ p
  cached : ∀ p, prices.cachedPer1m = some p → 0 ≤ p
  cacheWrite : ∀ p, prices.cacheWritePer1m = some p → 0 ≤ p
  thinking : ∀ p, prices.thinkingPer1m = some p → 0 ≤ p

/-- The totals of a usage are within those that were reserved. -/
structure Within (usage : TokenUsage) (input output : Nat) : Prop where
  input : usage.input.getD 0 ≤ input
  output : usage.output.getD 0 ≤ output

theorem basePrice_nonneg {price : Option ℚ} {tokens : Nat} {base : ℚ}
    (h : ∀ p, price = some p → 0 ≤ p) (hb : basePrice price tokens = some base) : 0 ≤ base := by
  cases price with
  | some p => exact (Option.some.inj hb) ▸ h p rfl
  | none =>
    simp only [basePrice, Option.ite_none_right_eq_some, Option.some.injEq] at hb
    exact hb.2.le

/-- A base price serves for fewer tokens as well. -/
theorem basePrice_of_le {price : Option ℚ} {tokens tokens' : Nat} {base : ℚ}
    (hle : tokens' ≤ tokens)
    (hb : basePrice price tokens = some base) : basePrice price tokens' = some base := by
  cases price with
  | some p => exact hb
  | none =>
    simp only [basePrice, Option.ite_none_right_eq_some] at hb ⊢
    exact ⟨by omega, hb.2⟩

/-- The input is priced in three parts, each at no more than the rate. -/
theorem input_le (input cached cacheWrite : ℕ) {inputPrice cachedPrice cacheWritePrice rate : ℚ}
    (hi : inputPrice ≤ rate) (hc : cachedPrice ≤ rate) (hw : cacheWritePrice ≤ rate) :
    (input - min (cached : ℚ) input - min (cacheWrite : ℚ) (input - min (cached : ℚ) input)) *
        inputPrice + min (cached : ℚ) input * cachedPrice +
      min (cacheWrite : ℚ) (input - min (cached : ℚ) input) * cacheWritePrice ≤ input * rate := by
  have hread : 0 ≤ min (cached : ℚ) input := le_min (Nat.cast_nonneg _) (Nat.cast_nonneg _)
  have hrest : 0 ≤ (input : ℚ) - min (cached : ℚ) input := sub_nonneg.mpr (min_le_right _ _)
  generalize min (cached : ℚ) input = read at hread hrest ⊢
  have hwritten : 0 ≤ min (cacheWrite : ℚ) (input - read) := le_min (Nat.cast_nonneg _) hrest
  have hregular : 0 ≤ input - read - min (cacheWrite : ℚ) (input - read) :=
    sub_nonneg.mpr (min_le_right _ _)
  generalize min (cacheWrite : ℚ) (input - read) = written at hwritten hregular ⊢
  calc (input - read - written) * inputPrice + read * cachedPrice + written * cacheWritePrice
      ≤ (input - read - written) * rate + read * rate + written * rate := by gcongr
    _ = input * rate := by ring

/-- The output is priced in two parts, each at no more than the rate. -/
theorem output_le (output thinking : ℕ) {outputPrice thinkingPrice rate : ℚ}
    (ho : outputPrice ≤ rate) (ht : thinkingPrice ≤ rate) :
    (output - min (thinking : ℚ) output) * outputPrice + min (thinking : ℚ) output * thinkingPrice ≤
      output * rate := by
  have hthought : 0 ≤ min (thinking : ℚ) output := le_min (Nat.cast_nonneg _) (Nat.cast_nonneg _)
  have hregular : 0 ≤ (output : ℚ) - min (thinking : ℚ) output := sub_nonneg.mpr (min_le_right _ _)
  generalize min (thinking : ℚ) output = thought at hthought hregular ⊢
  calc (output - thought) * outputPrice + thought * thinkingPrice
      ≤ (output - thought) * rate + thought * rate := by gcongr
    _ = output * rate := by ring

/-- A known bound has known base prices. -/
theorem conservativeCost_eq_some {prices : Prices} {input output : Nat} {bound : ℚ}
    (h : conservativeCost prices input output = some bound) :
    prices.isConfigured = true ∧ ∃ inputBase outputBase,
      basePrice prices.inputPer1m input = some inputBase ∧
      basePrice prices.outputPer1m output = some outputBase ∧
      bound = (input * max (max inputBase (prices.cachedPer1m.getD inputBase))
          (prices.cacheWritePer1m.getD inputBase) +
        output * max outputBase (prices.thinkingPer1m.getD outputBase)) / 1000000 := by
  unfold conservativeCost at h
  split at h
  · cases h
  next hconf =>
    refine ⟨by simpa using hconf, ?_⟩
    split at h
    · cases h
    next inputBase hin =>
      dsimp only at h
      split at h
      · cases h
      next outputBase hout =>
        exact ⟨inputBase, outputBase, hin, hout, (Option.some.inj h).symm⟩

/-- The cost of a usage is known if that of its reservation is, and it is no higher. -/
theorem computeCost_le_conservativeCost {prices : Prices} (hp : prices.Nonneg) {usage : TokenUsage}
    {input output : Nat} (hu : Within usage input output) {bound : ℚ}
    (hb : conservativeCost prices input output = some bound) :
    ∃ cost, computeCost prices usage = some cost ∧ cost ≤ bound := by
  obtain ⟨hconf, inputBase, outputBase, hin, hout, rfl⟩ := conservativeCost_eq_some hb
  have hinput0 : 0 ≤ inputBase := basePrice_nonneg hp.input hin
  have houtput0 : 0 ≤ outputBase := basePrice_nonneg hp.output hout
  unfold computeCost computeCostWith
  rw [hconf, basePrice_of_le hu.input hin, basePrice_of_le hu.output hout]
  refine ⟨_, rfl, ?_⟩
  set inputRate := max (max inputBase (prices.cachedPer1m.getD inputBase))
    (prices.cacheWritePer1m.getD inputBase) with hinputRate
  set outputRate := max outputBase (prices.thinkingPer1m.getD outputBase) with houtputRate
  have hbase : inputBase ≤ inputRate := (le_max_left _ _).trans (le_max_left _ _)
  have hused : ((usage.input.getD 0 : ℕ) : ℚ) * inputRate ≤ input * inputRate :=
    mul_le_mul_of_nonneg_right (Nat.cast_le.mpr hu.input) (hinput0.trans hbase)
  have hmade : ((usage.output.getD 0 : ℕ) : ℚ) * outputRate ≤ output * outputRate :=
    mul_le_mul_of_nonneg_right (Nat.cast_le.mpr hu.output) (houtput0.trans (le_max_left _ _))
  have hinput := input_le (usage.input.getD 0) (usage.cached.getD 0) (usage.cacheWrite.getD 0) hbase
    ((le_max_right inputBase _).trans (le_max_left _ _)) (le_max_right _ _)
  have houtput := output_le (usage.output.getD 0) (usage.thinking.getD 0)
    (show outputBase ≤ outputRate from le_max_left _ _) (le_max_right outputBase _)
  simp only [id_eq, inputParts]
  refine div_le_div_of_nonneg_right ?_ (by norm_num)
  linarith only [hinput, houtput, hused, hmade]

/-! ## What rounding changes -/

variable {usage : TokenUsage}

/-- Counts that a float can hold give the exact parts. -/
theorem regular_inputParts_of_lt (hfit : usage.input.getD 0 < 2 ^ 53)
    (hparts : usage.cached.getD 0 + usage.cacheWrite.getD 0 ≤ usage.input.getD 0) :
    (inputParts roundF64 usage).regular = (inputParts id usage).regular := by
  obtain ⟨rest, hrest⟩ := Nat.exists_eq_add_of_le hparts
  have hround : ∀ n ≤ usage.input.getD 0, roundF64 n = n := fun n hn =>
    roundF64_natCast (hn.trans_lt hfit)
  have hleft : ((usage.input.getD 0 : ℕ) : ℚ) - (usage.cached.getD 0 : ℕ) =
      (usage.cacheWrite.getD 0 + rest : ℕ) := by
    rw [hrest]
    push_cast
    ring
  have hregular : ((usage.cacheWrite.getD 0 + rest : ℕ) : ℚ) - (usage.cacheWrite.getD 0 : ℕ) =
      rest := by
    push_cast
    ring
  simp only [inputParts, id_eq]
  rw [hround _ le_rfl, hround (usage.cached.getD 0) (by omega),
    hround (usage.cacheWrite.getD 0) (by omega), min_eq_left (Nat.cast_le.mpr (by omega)), hleft,
    hround _ (by omega), min_eq_left (Nat.cast_le.mpr (by omega)), hregular, hround _ (by omega)]

/-- Rounding hardly changes the regular input. -/
theorem abs_regular_inputParts_sub_le (hpos : 0 < usage.input.getD 0) :
    |(inputParts roundF64 usage).regular - (inputParts id usage).regular| ≤
      (usage.input.getD 0 : ℕ) / 2 ^ 50 := by
  have hone : (1 : ℚ) ≤ (usage.input.getD 0 : ℕ) := by exact_mod_cast hpos
  have hcached : (0 : ℚ) ≤ (usage.cached.getD 0 : ℕ) := Nat.cast_nonneg _
  have hwritten : (0 : ℚ) ≤ (usage.cacheWrite.getD 0 : ℕ) := Nat.cast_nonneg _
  have htiny : (2 : ℚ) ^ (-1022 : ℤ) ≤ 2 ^ (-10 : ℤ) := zpow_le_zpow_right₀ one_le_two (by decide)
  rw [show (2 : ℚ) ^ (-10 : ℤ) = 1 / 1024 by norm_num] at htiny
  simp only [inputParts, id_eq]
  generalize ((usage.input.getD 0 : ℕ) : ℚ) = input at *
  -- Each error is a multiple of that of the total.
  have htotal : |roundF64 input - input| ≤ 1001 / 1000 * (input / 2 ^ 53) := by
    refine (abs_roundF64_sub_le input).trans ?_
    rw [abs_of_nonneg (by linarith)]
    linarith
  have hread := abs_min_roundF64_sub_le hcached htotal (by linarith)
  have hread0 := le_min hcached (zero_le_one.trans hone)
  have hreadle := min_le_right ((usage.cached.getD 0 : ℕ) : ℚ) input
  generalize min ((usage.cached.getD 0 : ℕ) : ℚ) input = read at *
  have hrest := (abs_roundF64_sub_sub_le htotal hread
    (abs_le.mpr ⟨by linarith, sub_le_self input hread0⟩)).trans
      (c := 302 / 100 * (input / 2 ^ 53)) (by linarith)
  have hwrite := abs_min_roundF64_sub_le hwritten hrest (by linarith)
  have hwrite0 := le_min hwritten (sub_nonneg.mpr hreadle)
  have hwritele := min_le_right ((usage.cacheWrite.getD 0 : ℕ) : ℚ) (input - read)
  generalize min ((usage.cacheWrite.getD 0 : ℕ) : ℚ) (input - read) = written at *
  exact (abs_roundF64_sub_sub_le hrest hwrite (b := input)
    (abs_le.mpr ⟨by linarith, by linarith⟩)).trans (by linarith)

end Kinetix.Admission
