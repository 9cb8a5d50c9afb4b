import Mathlib.Data.List.AList
import Kinetix.Foundation.Clock
import Kinetix.Foundation.Types
import Kinetix.Foundation.Words
import Kinetix.Library.Binary64

/-!
# The admission ledger of a virtual key

`KeyLedger` of `admission.rs`: the requests of the last minute, the reservations that have not been
settled, and the spend of the current UTC day and month. Every operation holds the ledger's lock for
its whole body and reads both clocks under it.

## Implementation notes

A cost or a budget is the rational that its `f64` stands for, and every addition is rounded. The
`HashMap` of active reservations is an `AList`, whose values are visited in an arbitrary order.
-/

namespace Kinetix.Admission
open Binary64 Clock Kinetix.Types Words

/-- `MINUTE_WINDOW`, in nanoseconds. -/
def minuteWindow : Nat := 60000000000

/-- `{v:.places}`. -/
def fixed (places : Nat) (v : ℚ) : String :=
  let digits := toString (roundTiesEven (|v| * 10 ^ places)).toNat
  let padded := "".pushn '0' (places + 1 - digits.length) ++ digits
  let whole := String.ofList (padded.toList.take (padded.length - places))
  let rest := String.ofList (padded.toList.drop (padded.length - places))
  (if v < 0 then "-" else "") ++ whole ++ "." ++ rest

/-- `cost::format_usd`: tiny amounts keep their precision. -/
def formatUsd (v : ℚ) : String :=
  if v ≠ 0 ∧ |v| < 1 / 100 then fixed 6 v else fixed 2 v

/-- The limits of a `VirtualKeyRow`. -/
structure VirtualKeyRow where
  rpmLimit : Option Int64 := none
  tpmLimit : Option Int64 := none
  dailyBudget : Option ℚ := none
  monthlyBudget : Option ℚ := none

/-- `AdmissionEstimate`. -/
structure AdmissionEstimate where
  tokens : Nat
  cost : Option ℚ

/-- A completed request of the minute window. -/
structure MinuteUse where
  startedAt : Nat
  tokens : Nat
  deriving DecidableEq

/-- `ActiveReservation`. -/
structure ActiveReservation where
  startedAt : Nat
  tokens : Nat
  cost : Option ℚ
  day : Int
  month : Int × Int
  deriving DecidableEq

/-- The order in which `HashMap::values` goes over the active reservations at an instant. -/
structure HashOrder where
  values : Nat → AList (fun _ : Nat => ActiveReservation) → List ActiveReservation
  perm : ∀ now active, (values now active).Perm (active.entries.map (·.2))

/-- The newest reservation comes first. -/
def HashOrder.newestFirst : HashOrder :=
  ⟨fun _ active => active.entries.map (·.2), fun _ _ => .refl _⟩

/-- `KeyLedger`, of one key. -/
structure KeyLedger where
  minute : List MinuteUse := []
  active : AList (fun _ : Nat => ActiveReservation) := ∅
  dailyDay : Option Int := none
  dailySpend : ℚ := 0
  monthlyKey : Option (Int × Int) := none
  monthlySpend : ℚ := 0

/-- What `current` reports: the requests and tokens of the last minute, and the spend of the day and
of the month. -/
structure Totals where
  requests : Nat
  tokens : Nat
  daily : ℚ
  monthly : ℚ

/-- Whether a start lies outside the minute window. -/
def expired (now startedAt : Nat) : Bool := decide (minuteWindow ≤ now - startedAt)

/-- The loop body of `current`: count one active reservation. -/
def Totals.addActive (nowWall : Int) (now : Nat) (t : Totals) (a : ActiveReservation) : Totals where
  requests := if expired now a.startedAt then t.requests else saturatingAdd t.requests 1
  tokens := if expired now a.startedAt then t.tokens else saturatingAdd t.tokens a.tokens
  daily := match a.cost with
    | some cost => if a.day = dateNaive nowWall then addF64 t.daily cost else t.daily
    | none => t.daily
  monthly := match a.cost with
    | some cost => if a.month = yearMonth nowWall then addF64 t.monthly cost else t.monthly
    | none => t.monthly

/-- A check against one optional limit. -/
def refuseOver {α : Type} (limit : Option α) (exceeded : α → Bool) (error : α → ProxyError) :
    Except ProxyError Unit :=
  match limit with
  | some limit => if exceeded limit then .error (error limit) else .ok ()
  | none => .ok ()

/-- Limits that are not positive do not limit. -/
def positiveLimit (limit : Option Int64) : Option Int64 := limit.filter fun value => 0 < value.toInt

def positiveBudget (budget : Option ℚ) : Option ℚ := budget.filter fun value => 0 < value

/-- The checks of `check_current`: is a limit used up already? -/
def VirtualKeyRow.checkTotals (key : VirtualKeyRow) (t : Totals) : Except ProxyError Unit := do
  refuseOver (positiveLimit key.rpmLimit) (fun rpm => rpm.toInt.toNat ≤ t.requests) fun rpm =>
    .rateLimited s!"rate limit exceeded: {rpm} requests per minute" (some 60)
  refuseOver (positiveLimit key.tpmLimit) (fun tpm => tpm.toInt.toNat ≤ t.tokens) fun tpm =>
    .rateLimited s!"token rate limit exceeded: {tpm} tokens per minute" (some 60)
  refuseOver (positiveBudget key.dailyBudget) (fun limit => limit ≤ t.daily) fun limit =>
    .budgetExceeded <|
      s!"daily budget exceeded (USD {formatUsd t.daily} of USD {formatUsd limit}); " ++
        "resets at 00:00 UTC"
  refuseOver (positiveBudget key.monthlyBudget) (fun limit => limit ≤ t.monthly) fun limit =>
    .budgetExceeded <|
      s!"monthly budget exceeded (USD {formatUsd t.monthly} of USD {formatUsd limit}); " ++
        "resets on the 1st"

/-- The budget checks of `reserve`, for a request whose cost is known. -/
def VirtualKeyRow.checkCost (key : VirtualKeyRow) (t : Totals) (cost : ℚ) :
    Except ProxyError Unit := do
  refuseOver (positiveBudget key.dailyBudget) (fun limit => limit < addF64 t.daily cost)
    fun limit => .budgetExceeded <|
      s!"daily budget would be exceeded (USD {formatUsd t.daily} reserved/spent + " ++
        s!"USD {formatUsd cost} request > USD {formatUsd limit}); resets at 00:00 UTC"
  refuseOver (positiveBudget key.monthlyBudget) (fun limit => limit < addF64 t.monthly cost)
    fun limit => .budgetExceeded <|
      s!"monthly budget would be exceeded (USD {formatUsd t.monthly} reserved/spent + " ++
        s!"USD {formatUsd cost} request > USD {formatUsd limit}); resets on the 1st"

/-- The checks of `reserve`: would the request exceed a limit? -/
def VirtualKeyRow.checkRequest (key : VirtualKeyRow) (t : Totals) (estimate : AdmissionEstimate) :
    Except ProxyError Unit := do
  refuseOver (positiveLimit key.rpmLimit)
    (fun rpm => rpm.toInt.toNat < saturatingAdd t.requests 1) fun rpm =>
      .rateLimited s!"rate limit exceeded: {rpm} requests per minute" (some 60)
  refuseOver (positiveLimit key.tpmLimit)
    (fun tpm => tpm.toInt.toNat < saturatingAdd t.tokens estimate.tokens) fun tpm =>
      .rateLimited
        (s!"token rate limit exceeded: reserving {estimate.tokens} tokens would exceed " ++
        s!"{tpm} tokens per minute") (some 60)
  match estimate.cost with
  | some cost => key.checkCost t cost
  | none => .ok ()

theorem refuseOver_eq_ok {α : Type} {limit : Option α} {exceeded : α → Bool}
    {error : α → ProxyError} :
    refuseOver limit exceeded error = .ok () ↔ ∀ x, limit = some x → exceeded x = false := by
  cases limit with
  | none => simp [refuseOver]
  | some x => cases h : exceeded x <;> simp [refuseOver, h]

/-- A sequence of checks passes when each of them does. -/
theorem check_bind_eq_ok {x y : Except ProxyError Unit} :
    (do x; y) = .ok () ↔ x = .ok () ∧ y = .ok () := by
  cases x with
  | error e | ok u => simp [bind, Except.bind]

/-- A request passes the checks of `reserve` when it stays within every positive limit. Budgets are
checked if the cost is known. -/
theorem VirtualKeyRow.checkRequest_eq_ok {key : VirtualKeyRow} {t : Totals}
    {estimate : AdmissionEstimate} : key.checkRequest t estimate = .ok () ↔
      (∀ rpm, key.rpmLimit = some rpm → 0 < rpm.toInt →
        saturatingAdd t.requests 1 ≤ rpm.toInt.toNat) ∧
      (∀ tpm, key.tpmLimit = some tpm → 0 < tpm.toInt →
        saturatingAdd t.tokens estimate.tokens ≤ tpm.toInt.toNat) ∧
      ∀ cost, estimate.cost = some cost →
        (∀ limit, key.dailyBudget = some limit → 0 < limit → addF64 t.daily cost ≤ limit) ∧
        (∀ limit, key.monthlyBudget = some limit → 0 < limit → addF64 t.monthly cost ≤ limit) := by
  rw [checkRequest, check_bind_eq_ok, check_bind_eq_ok, refuseOver_eq_ok, refuseOver_eq_ok]
  simp only [positiveLimit, Option.filter_eq_some_iff, decide_eq_true_eq, decide_eq_false_iff_not,
    not_lt, and_imp]
  refine and_congr_right fun _ => and_congr_right fun _ => ?_
  cases hc : estimate.cost with
  | none => simp
  | some cost =>
    simp only [checkCost, check_bind_eq_ok, refuseOver_eq_ok, positiveBudget,
      Option.filter_eq_some_iff, decide_eq_true_eq, decide_eq_false_iff_not, not_lt, and_imp,
      Option.some.injEq, forall_eq']

namespace KeyLedger

/-- Start a new day, and a new month, with nothing spent. -/
def rollPeriods (l : KeyLedger) (now : Int) : KeyLedger :=
  let day := dateNaive now
  let month := yearMonth now
  { l with
    dailyDay := some day
    dailySpend := if l.dailyDay = some day then l.dailySpend else 0
    monthlyKey := some month
    monthlySpend := if l.monthlyKey = some month then l.monthlySpend else 0 }

/-- Drop expired requests from the front of the queue. -/
def prune (l : KeyLedger) (now : Nat) : KeyLedger :=
  { l with minute := l.minute.dropWhile fun entry => expired now entry.startedAt }

/-- The tokens of the queue; a release build adds them up with wrapping. -/
def minuteTokens (l : KeyLedger) : Nat := (l.minute.map (·.tokens)).sum % (u64Max + 1)

section
variable (H : HashOrder)

/-- `current`: what is over is dropped, and the rest added up. -/
def current (l : KeyLedger) (nowWall : Int) (now : Nat) : KeyLedger × Totals :=
  let l := (l.rollPeriods nowWall).prune now
  let start : Totals := ⟨l.minute.length, l.minuteTokens, l.dailySpend, l.monthlySpend⟩
  (l, (H.values now l.active).foldl (Totals.addActive nowWall now) start)

/-- `check_current`. -/
def checkCurrent (l : KeyLedger) (key : VirtualKeyRow) (nowWall : Int) (now : Nat) :
    KeyLedger × Except ProxyError Unit :=
  let (l, totals) := l.current H nowWall now
  (l, key.checkTotals totals)

/-- `reserve`: checked and booked under one lock. -/
def reserve (l : KeyLedger) (id : Nat) (key : VirtualKeyRow) (estimate : AdmissionEstimate)
    (nowWall : Int) (now : Nat) : KeyLedger × Except ProxyError Unit :=
  let (l, totals) := l.current H nowWall now
  match key.checkRequest totals estimate with
  | .error e => (l, .error e)
  | .ok () =>
    ({ l with
      active := l.active.insert id {
        startedAt := now
        tokens := estimate.tokens
        cost := estimate.cost
        day := dateNaive nowWall
        month := yearMonth nowWall } }, .ok ())

end

/-- `reconcile`; what is unknown stays as estimated. -/
def reconcile (l : KeyLedger) (id : Nat) (actualTokens : Option Nat) (actualCost : Option ℚ)
    (nowWall : Int) (now : Nat) : KeyLedger :=
  let l := (l.rollPeriods nowWall).prune now
  match l.active.lookup id with
  | none => l
  | some a =>
    let cost := actualCost.or a.cost
    { l with
      active := l.active.erase id
      minute :=
        if expired now a.startedAt then l.minute
        else l.minute ++ [⟨a.startedAt, actualTokens.getD a.tokens⟩]
      dailySpend := match cost with
        | some cost => if l.dailyDay = some a.day then addF64 l.dailySpend cost else l.dailySpend
        | none => l.dailySpend
      monthlySpend := match cost with
        | some cost =>
          if l.monthlyKey = some a.month then addF64 l.monthlySpend cost else l.monthlySpend
        | none => l.monthlySpend }

/-- The reservation is taken back. -/
def cancel (l : KeyLedger) (id : Nat) : KeyLedger := { l with active := l.active.erase id }

end KeyLedger
end Kinetix.Admission
