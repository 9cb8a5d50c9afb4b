import Kinetix.Adapters.Responses
import Kinetix.Foundation.JsonFields
import Kinetix.Frontends.Request

/-!
# What a model sets in a request

The parameter policy and the thinking map of a model row, the check of a request's parameters before
the attempts, and the number that an adapter sends for a parameter.

## Implementation notes

A float is rational, and its text in an error is a parameter. The levels of a thinking map are a
list, of which the first entry counts.
-/

namespace Kinetix.Adapters
open Checks Frontends Json Kinetix.Types

/-! ## The settings of a model -/

inductive ParamPolicy where
  | drop
  | clamp
  | reject
  | forward
  deriving DecidableEq

/-- `ParamSpec`. -/
structure ParamSpec where
  supported : Bool
  min : Option ℚ := none
  max : Option ℚ := none
  default : Option ℚ := none
  policy : ParamPolicy := .forward

inductive ThinkingMode where
  | manualBudget
  | level
  | adaptive
  deriving DecidableEq

/-- `ThinkingMap`. -/
structure ThinkingMap where
  levels : List (String × Value) := []
  mode : Option ThinkingMode := none
  budgetField : Option String := none
  levelField : Option String := none

/-- What the check of the parameters takes from the model. -/
structure ModelContext where
  displayName : String
  params : List (String × ParamSpec)

/-! ## Parameters -/

def ParamSpec.clamp (spec : ParamSpec) (x : ℚ) : ℚ :=
  let x := (spec.min.map (Max.max x)).getD x
  (spec.max.map (Min.min x)).getD x

/-- The number that is sent for a parameter: what is not supported is dropped, what is out of range
is clamped, and a default stands for what is absent. -/
def emitNumber (spec : Option ParamSpec) : Option ℚ → Option ℚ
  | some x =>
    match spec with
    | some spec => if spec.supported then some (spec.clamp x) else none
    | none => some x
  | none =>
    match spec with
    | some spec => if spec.supported then spec.default else none
    | none => none

section
variable (showF64 : ℚ → String) (ctx : ModelContext)

/-- The number that is sent for a parameter, or the refusal. -/
def Responses.policyNumber (name : String) : Option ℚ → Except UpstreamFailure (Option ℚ)
  | some requested =>
    match ctx.params.lookup name with
    | none => .ok (some requested)
    | some spec =>
      if !spec.supported ∧ spec.policy = .reject then
        .error (badRequest s!"parameter '{name}' is not supported by this model")
      else if !spec.supported ∧ spec.policy = .drop then .ok none
      else if spec.policy = .reject ∧ spec.min.any (requested < ·) then
        .error (badRequest
          s!"parameter '{name}' below minimum {showF64 (spec.min.getD 0)}")
      else if spec.policy = .reject ∧ spec.max.any (· < requested) then
        .error (badRequest
          s!"parameter '{name}' above maximum {showF64 (spec.max.getD 0)}")
      else .ok (some (spec.clamp requested))
  | none =>
    match ctx.params.lookup name with
    | none => .ok none
    | some spec => .ok (if spec.supported then spec.default else none)

/-! ## The check before the attempts -/

/-- One turn of the loop of `check_param_policy`. -/
def checkParam (name : String) (value : Option ℚ) : Except ProxyError Unit :=
  match value, ctx.params.lookup name with
  | some v, some spec => do
    refuseIf (!spec.supported ∧ spec.policy = .reject)
      (.unsupported s!"parameter '{name}' is not supported by model '{ctx.displayName}'")
    refuseIf (spec.policy = .reject ∧ spec.min.any (v < ·))
      (.badRequest s!"parameter '{name}' below minimum {showF64 (spec.min.getD 0)}")
    refuseIf (spec.policy = .reject ∧ spec.max.any (· < v))
      (.badRequest s!"parameter '{name}' above maximum {showF64 (spec.max.getD 0)}")
  | _, _ => .ok ()

def checkedParams (params : SamplingParams) : List (String × Option ℚ) :=
  [("temperature", params.temperature), ("top_p", params.topP), ("top_k", params.topK)]

/-- `check_param_policy`: the first parameter refused decides. -/
def checkParamPolicy (params : SamplingParams) : Except ProxyError Unit :=
  (checkedParams params).forM fun (name, value) => checkParam showF64 ctx name value

variable {showF64 ctx}

theorem clamp_of_any {spec : ParamSpec} {x : ℚ} (hmin : ¬ spec.min.any (x < ·))
    (hmax : ¬ spec.max.any (· < x)) : spec.clamp x = x := by
  have hlow : (spec.min.map (max x)).getD x = x := by
    cases h : spec.min with
    | none => rfl
    | some m => exact max_eq_left (by simpa [h] using hmin)
  rw [ParamSpec.clamp, hlow]
  cases h : spec.max with
  | none => rfl
  | some m => exact min_eq_left (by simpa [h] using hmax)

/-- A model with a bound on `top_p`. -/
def boundedContext : ModelContext :=
  ⟨"", [("top_p", ⟨true, some 0, some 1, none, .reject⟩)]⟩

end

end Kinetix.Adapters
