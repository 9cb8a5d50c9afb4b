import Kinetix.Admission.Accounting
import Kinetix.Frontends.Events
import Kinetix.Library.Grouping

/-!
# The ledger after a restart

`ensure_initialized` rebuilds the ledger of a key from the usage log. The live ledger keeps the
estimate of a request whose usage or cost is not known, and the log has nothing for it. As long as
every request reports at least what its reservation holds, the rebuilt ledger does not report less
than the live one.

## Implementation notes

The stored times are instants, since RFC 3339 texts compare like them. The log has a row for each
completed request, and a rebuild reads the clock once and the log without an error. The rows are
those of one key. How SQLite adds up costs is a parameter, of which only sums without rounding are
known.
-/

namespace Kinetix.Admission
open Binary64 Clock Words StateMachine PeriodTotal Grouping
open Frontends (TokenUsage)

/-! ## The usage log -/

/-- A stored row of usage. -/
structure UsageLogRow where
  ts : Int
  inputTokens : Option Int
  outputTokens : Option Int
  costUsd : Option ℚ

/-- The row of a completed request. -/
def usageLogRow (usage : TokenUsage) (cost : Option ℚ) (ts : Int) : UsageLogRow where
  ts
  inputTokens := usage.input.map asI64
  outputTokens := usage.output.map asI64
  costUsd := cost

/-- `COALESCE(input_tokens,0) + COALESCE(output_tokens,0)`. -/
def UsageLogRow.tokens (row : UsageLogRow) : Int :=
  row.inputTokens.getD 0 + row.outputTokens.getD 0

def keyUsageEntriesSince (rows : List UsageLogRow) (since : Int) : List (Int × Int) :=
  sortBy Prod.fst ((rows.filter fun row => since ≤ row.ts).map fun row => (row.ts, row.tokens))

/-- No sum of some of the values is rounded. -/
def ExactSums (xs : List ℚ) : Prop := ∀ ys : List ℚ, ys.Sublist xs → roundF64 ys.sum = ys.sum

/-- `SUM` of SQLite; there is nothing to compensate in sums that are not rounded. -/
structure SqlSum where
  sum : List ℚ → ℚ
  exact : ∀ xs, ExactSums xs → sum xs = xs.sum

/-- `COALESCE(SUM(cost_usd),0.0)`. -/
def keySpendSince (Q : SqlSum) (rows : List UsageLogRow) (since : Int) : ℚ :=
  Q.sum ((rows.filter fun row => since ≤ row.ts).filterMap UsageLogRow.costUsd)

/-- Midnight of a day. -/
def midnight (day : Int) : Int := (day - epochShift) * 86400000000000

/-- `window_start("daily", None)`. -/
def dailyStart (now : Int) : Int := midnight (dateNaive now)

/-- `window_start("monthly", None)`. -/
def monthlyStart (now : Int) : Int := midnight (withDay1 (dateNaive now))

/-- A row of the last minute, as of its age. -/
def seedUse (wall : Int) (now : Nat) (entry : Int × Int) : MinuteUse :=
  let age := min (wall - entry.1).toNat minuteWindow
  ⟨if age ≤ now then now - age else now, entry.2.toNat⟩

/-- What `ensure_initialized` makes of a fresh ledger. -/
def ensureInitialized (Q : SqlSum) (rows : List UsageLogRow) (wall : Int) (now : Nat) : KeyLedger :=
  let l := ({} : KeyLedger).rollPeriods wall
  { l with
    minute := (keyUsageEntriesSince rows (wall - seconds 60)).map (seedUse wall now)
    dailySpend := max (keySpendSince Q rows (dailyStart wall)) 0
    monthlySpend := max (keySpendSince Q rows (monthlyStart wall)) 0 }.prune now

/-! ## Histories -/

/-- `actual_tokens` of `AdmissionReservation::reconcile`. -/
def actualTokens (usage : TokenUsage) : Option Nat :=
  match usage.input, usage.output with
  | some input, some output => some (saturatingAdd input output)
  | _, _ => none

def actualCost (usage : TokenUsage) (cost : Option ℚ) : Option ℚ :=
  (actualTokens usage).bind fun _ => cost

/-- A request that was reconciled and then logged. -/
structure Completion where
  reservation : Option ActiveReservation
  usage : TokenUsage
  cost : Option ℚ
  wall : Int
  instant : Nat
  ts : Int

def Completion.row (c : Completion) : UsageLogRow := usageLogRow c.usage c.cost c.ts

/-- The live ledger of a key, what has been logged, and the last readings of the clocks. -/
structure History where
  ledger : KeyLedger := {}
  completions : List Completion := []
  wall : Int
  instant : Nat

inductive HistoryAction where
  | reserve (id : Nat) (key : VirtualKeyRow) (estimate : AdmissionEstimate) (wall : Int) (now : Nat)
  | checkCurrent (key : VirtualKeyRow) (wall : Int) (now : Nat)
  /-- A request is reconciled, and logged at a later reading of the clock. -/
  | complete (id : Nat) (usage : TokenUsage) (cost : Option ℚ) (wall : Int) (now : Nat) (ts : Int)
  | cancel (id : Nat)

def History.step (H : HashOrder) (s : History) : HistoryAction → Option History
  | .reserve id key estimate wall now =>
    if s.wall ≤ wall ∧ s.instant ≤ now then
      some { s with
        ledger := (s.ledger.reserve H id key estimate wall now).1, wall, instant := now }
    else none
  | .checkCurrent key wall now =>
    if s.wall ≤ wall ∧ s.instant ≤ now then
      some { s with ledger := (s.ledger.checkCurrent H key wall now).1, wall, instant := now }
    else none
  | .complete id usage cost wall now ts =>
    if s.wall ≤ wall ∧ s.instant ≤ now ∧ wall ≤ ts then
      some {
        ledger := s.ledger.reconcile id (actualTokens usage) (actualCost usage cost) wall now
        completions := s.completions ++ [⟨s.ledger.active.lookup id, usage, cost, wall, now, ts⟩]
        wall
        instant := now }
    else none
  | .cancel id => some { s with ledger := s.ledger.cancel id }

/-- The history of a key from a fresh ledger and an empty log. -/
def history (H : HashOrder) (wall : Int) (instant : Nat) : Machine History HistoryAction where
  start := { wall, instant }
  step := History.step H

def reportedTokens (usage : TokenUsage) : Nat := usage.input.getD 0 + usage.output.getD 0

/-- The report of a request is complete, or is not less than the reservation. -/
structure ActiveReservation.Reported (a : ActiveReservation) (usage : TokenUsage)
    (cost : Option ℚ) : Prop where
  tokens : usage.input.isSome ∧ usage.output.isSome ∨ a.tokens ≤ reportedTokens usage
  cost : usage.input.isSome ∧ usage.output.isSome ∧ cost.isSome ∨ a.cost.getD 0 ≤ cost.getD 0

/-- Adding the cost of a reservation to the spend of a ledger is not rounded up. -/
structure ActiveReservation.NotRoundedUp (a : ActiveReservation) (l : KeyLedger) (wall : Int)
    (cost : ℚ) : Prop where
  daily : a.day = dateNaive wall → addF64 l.dailySpend cost ≤ l.dailySpend + cost
  monthly : a.month = yearMonth wall → addF64 l.monthlySpend cost ≤ l.monthlySpend + cost

/-- Both clocks advance together, and each request reports what its reservation holds, with no
negative cost, with tokens that fit into an `i64` in all and without a sum that is rounded up. -/
def History.FullyReported (s : History) : HistoryAction → Prop
  | .reserve _ _ _ wall now => wall - s.wall = now - s.instant
  | .checkCurrent _ wall now => wall - s.wall = now - s.instant
  | .complete id usage cost wall now _ =>
    wall - s.wall = now - s.instant ∧
      (((s.completions.map fun c => reportedTokens c.usage).sum + reportedTokens usage : ℕ) : Int) ≤
        i64Max ∧
      0 ≤ cost.getD 0 ∧ ∀ a, s.ledger.active.lookup id = some a → a.Reported usage cost ∧
        ∀ charged, (actualCost usage cost).or a.cost = some charged →
          a.NotRoundedUp (s.ledger.rollPeriods wall) wall charged
  | .cancel _ => True

/-- What one ledger reports is no more than what the other does. -/
structure Totals.Le (t t' : Totals) : Prop where
  requests : t.requests ≤ t'.requests
  tokens : t.tokens ≤ t'.tokens
  daily : t.daily ≤ t'.daily
  monthly : t.monthly ≤ t'.monthly

/-- Whatever is refused with the one ledger is refused with the other one. -/
def Totals.Refuses (t t' : Totals) : Prop :=
  ∀ (key : VirtualKeyRow) (estimate : AdmissionEstimate),
    (key.checkTotals t' = .ok () → key.checkTotals t = .ok ()) ∧
      (key.checkRequest t' estimate = .ok () → key.checkRequest t estimate = .ok ())

theorem VirtualKeyRow.checkTotals_eq_ok {key : VirtualKeyRow} {t : Totals} :
    key.checkTotals t = .ok () ↔
      (∀ rpm, key.rpmLimit = some rpm → 0 < rpm.toInt → t.requests < rpm.toInt.toNat) ∧
      (∀ tpm, key.tpmLimit = some tpm → 0 < tpm.toInt → t.tokens < tpm.toInt.toNat) ∧
      (∀ limit, key.dailyBudget = some limit → 0 < limit → t.daily < limit) ∧
      ∀ limit, key.monthlyBudget = some limit → 0 < limit → t.monthly < limit := by
  rw [checkTotals, check_bind_eq_ok, check_bind_eq_ok, check_bind_eq_ok, refuseOver_eq_ok,
    refuseOver_eq_ok, refuseOver_eq_ok, refuseOver_eq_ok]
  simp only [positiveLimit, positiveBudget, Option.filter_eq_some_iff, decide_eq_true_eq,
    decide_eq_false_iff_not, not_le, and_imp]

theorem saturatingAdd_mono {a b n : Nat} (h : a ≤ b) : saturatingAdd a n ≤ saturatingAdd b n :=
  min_le_min_right _ (Nat.add_le_add_right h n)

/-- A ledger that reports more refuses more. -/
theorem Totals.Le.refuses {t t' : Totals} (h : t.Le t') : t.Refuses t' := by
  intro key estimate
  constructor
  · rw [VirtualKeyRow.checkTotals_eq_ok, VirtualKeyRow.checkTotals_eq_ok]
    rintro ⟨hrpm, htpm, hdaily, hmonthly⟩
    exact ⟨fun rpm hr hp => h.requests.trans_lt (hrpm rpm hr hp),
      fun tpm ht hp => h.tokens.trans_lt (htpm tpm ht hp),
      fun limit hl hp => h.daily.trans_lt (hdaily limit hl hp),
      fun limit hl hp => h.monthly.trans_lt (hmonthly limit hl hp)⟩
  · rw [VirtualKeyRow.checkRequest_eq_ok, VirtualKeyRow.checkRequest_eq_ok]
    rintro ⟨hrpm, htpm, hcost⟩
    refine ⟨fun rpm hr hp => (saturatingAdd_mono h.requests).trans (hrpm rpm hr hp),
      fun tpm ht hp => (saturatingAdd_mono h.tokens).trans (htpm tpm ht hp), fun cost hc => ?_⟩
    obtain ⟨hdaily, hmonthly⟩ := hcost cost hc
    exact ⟨fun limit hl hp => (addF64_mono h.daily cost).trans (hdaily limit hl hp),
      fun limit hl hp => (addF64_mono h.monthly cost).trans (hmonthly limit hl hp)⟩

/-! ## What the live ledger keeps of the completed requests -/

/-- What a reservation adds to a spend. -/
def charged {κ : Type} [DecidableEq κ] (cost : Option ℚ) (start now : κ) : ℚ :=
  if start = now then cost.getD 0 else 0

/-- A spend to which a reservation is added. -/
def addCharge {κ : Type} [DecidableEq κ] (spend : ℚ) (cost : Option ℚ) (start now : κ) : ℚ :=
  match cost with
  | some cost => if start = now then addF64 spend cost else spend
  | none => spend

theorem addCharge_le {κ : Type} [DecidableEq κ] {spend : ℚ} {cost : Option ℚ} {start now : κ}
    (h : ∀ x, cost = some x → start = now → addF64 spend x ≤ spend + x) :
    addCharge spend cost start now ≤ spend + charged cost start now := by
  unfold addCharge charged
  cases cost with
  | none => simp
  | some x =>
    by_cases hp : start = now
    · simpa [hp] using h x rfl hp
    · simp [hp]

namespace Completion

/-- The entry of the minute window. -/
def use (c : Completion) : Option MinuteUse :=
  c.reservation.bind fun a =>
    if expired c.instant a.startedAt then none
    else some ⟨a.startedAt, (actualTokens c.usage).getD a.tokens⟩

/-- What the request adds to the spend of a period. -/
def charge {κ : Type} [DecidableEq κ] (period : Int → κ) (field : ActiveReservation → κ)
    (c : Completion) : ℚ :=
  match c.reservation with
  | some a => charged ((actualCost c.usage c.cost).or a.cost) (field a) (period c.wall)
  | none => 0

end Completion

/-- The start is outside the minute window. -/
def MinuteUse.old (now : Nat) (use : MinuteUse) : Bool := expired now use.startedAt

/-- What is known of a completed request: its clocks, and that it reported enough. -/
structure Completion.Sound (origin : Int) (now : Nat) (c : Completion) : Prop where
  wall : c.wall = origin + c.instant
  past : c.instant ≤ now
  logged : c.wall ≤ c.ts
  nonneg : 0 ≤ c.cost.getD 0
  reservation : ∀ a, c.reservation = some a → a.startedAt ≤ c.instant ∧ a.Reported c.usage c.cost

/-- A spend is at most what the completed requests of the period of an earlier reading of the clock
add to it. -/
def Bounded {κ : Type} [DecidableEq κ] (period : Int → κ) (field : ActiveReservation → κ)
    (key : Option κ) (spend : ℚ) (wall : Int) (cs : List Completion) : Prop :=
  ∃ exact, spend ≤ exact ∧
    Accumulates period Completion.wall (Completion.charge period field) key exact wall cs

/-- Reading the clock carries the spend over or clears it. -/
theorem Bounded.roll {κ : Type} [DecidableEq κ] {period : Int → κ} {field : ActiveReservation → κ}
    {key : Option κ} {spend : ℚ} {wall wall' : Int} {cs : List Completion} (hp : Convex period)
    (h : Bounded period field key spend wall cs) (hle : wall ≤ wall') : ∃ exact,
      (if key = some (period wall') then spend else 0) ≤ exact ∧
        Holds period Completion.wall (Completion.charge period field) (some (period wall')) exact
          wall' cs := by
  obtain ⟨exact, hspend, h⟩ := h
  refine ⟨_, ?_, h.roll hp hle⟩
  split_ifs
  exacts [hspend, le_rfl]

/-- The ledger has the completed requests of the last minute and at most their charges. -/
structure History.Inv (origin : Int) (s : History) : Prop where
  clock : s.wall = origin + s.instant
  started : ∀ id a, s.ledger.active.lookup id = some a → a.startedAt ≤ s.instant
  sorted : s.completions.Pairwise fun c d => c.instant ≤ d.instant
  sound : ∀ c ∈ s.completions, c.Sound origin s.instant
  fits : (((s.completions.map fun c => reportedTokens c.usage).sum : ℕ) : Int) ≤ i64Max
  minute : ∀ now, s.instant ≤ now → s.ledger.minute.dropWhile (MinuteUse.old now) =
    (s.completions.filterMap Completion.use).dropWhile (MinuteUse.old now)
  daily : Bounded dateNaive ActiveReservation.day s.ledger.dailyDay s.ledger.dailySpend s.wall
    s.completions
  monthly : Bounded yearMonth ActiveReservation.month s.ledger.monthlyKey s.ledger.monthlySpend
    s.wall s.completions

section
variable {origin : Int} {s s' : History}

theorem dropWhile_dropWhile {α : Type} {p q : α → Bool} (h : ∀ a, p a → q a) (l : List α) :
    (l.dropWhile p).dropWhile q = l.dropWhile q := by
  induction l with
  | nil => rfl
  | cons a l ih =>
    by_cases hp : p a
    · rw [List.dropWhile_cons_of_pos hp, ih, List.dropWhile_cons_of_pos (h a hp)]
    · rw [List.dropWhile_cons_of_neg hp]

variable {now : Nat} {l : KeyLedger} {wall : Int} {id : Nat}

/-- What reading the clocks makes of the ledger. -/
theorem History.Inv.advance (h : s.Inv origin) (hw : s.wall ≤ wall) (hn : s.instant ≤ now)
    (hclock : wall - s.wall = now - s.instant) : History.Inv origin
      { s with ledger := (s.ledger.rollPeriods wall).prune now, wall, instant := now } where
  clock := by
    have hc := h.clock
    change wall = origin + now
    omega
  started id a ha := (h.started id a ha).trans hn
  sorted := h.sorted
  sound c hc := { h.sound c hc with past := (h.sound c hc).past.trans hn }
  fits := h.fits
  minute now' hn' := by
    refine (dropWhile_dropWhile (fun use hold => ?_) _).trans (h.minute now' (hn.trans hn'))
    exact expired_mono hn' hold
  daily := (h.daily.roll (fun h₁ h₂ h => dateNaive_between h₁ h₂ h) hw).imp
    fun _ h => ⟨h.1, h.2.accumulates⟩
  monthly := (h.monthly.roll (fun h₁ h₂ h => yearMonth_between h₁ h₂ h) hw).imp
    fun _ h => ⟨h.1, h.2.accumulates⟩

theorem reconcile_of_none {tokens : Option Nat} {cost : Option ℚ} (h : l.active.lookup id = none) :
    l.reconcile id tokens cost wall now = (l.rollPeriods wall).prune now := by
  have h' : ((l.rollPeriods wall).prune now).active.lookup id = none := h
  simp only [KeyLedger.reconcile, h']

/-- A reconciled reservation leaves the active ones and enters the window and the sums. -/
theorem reconcile_of_some {tokens : Option Nat} {cost : Option ℚ} {a : ActiveReservation}
    (h : l.active.lookup id = some a) : l.reconcile id tokens cost wall now =
      { (l.rollPeriods wall).prune now with
        active := l.active.erase id
        minute := ((l.rollPeriods wall).prune now).minute ++
          if expired now a.startedAt then [] else [⟨a.startedAt, tokens.getD a.tokens⟩]
        dailySpend := addCharge (l.rollPeriods wall).dailySpend (cost.or a.cost) a.day
          (dateNaive wall)
        monthlySpend := addCharge (l.rollPeriods wall).monthlySpend (cost.or a.cost) a.month
          (yearMonth wall) } := by
  have h' : ((l.rollPeriods wall).prune now).active.lookup id = some a := h
  simp only [KeyLedger.reconcile, h']
  congr 1
  · split
    · rw [List.append_nil]
    · rfl
  · cases cost.or a.cost <;> simp [addCharge, KeyLedger.prune, KeyLedger.rollPeriods, eq_comm]
  · cases cost.or a.cost <;> simp [addCharge, KeyLedger.prune, KeyLedger.rollPeriods, eq_comm]

/-- A ledger that has one more completed request. -/
theorem History.Inv.push (h : s.Inv origin) {c : Completion} (hw : s.wall ≤ c.wall)
    (hn : s.instant ≤ c.instant) (hclock : c.wall - s.wall = c.instant - s.instant)
    (hc : c.Sound origin c.instant)
    (hfits : (((s.completions.map fun c => reportedTokens c.usage).sum +
      reportedTokens c.usage : ℕ) : Int) ≤ i64Max)
    (hactive : ∀ id a, l.active.lookup id = some a → s.ledger.active.lookup id = some a)
    (hminute : l.minute =
      ((s.ledger.rollPeriods c.wall).prune c.instant).minute ++ c.use.toList)
    (hday : l.dailyDay = some (dateNaive c.wall))
    (hdaily : l.dailySpend ≤ (s.ledger.rollPeriods c.wall).dailySpend +
      c.charge dateNaive ActiveReservation.day) (hmonth : l.monthlyKey = some (yearMonth c.wall))
    (hmonthly : l.monthlySpend ≤ (s.ledger.rollPeriods c.wall).monthlySpend +
      c.charge yearMonth ActiveReservation.month) :
    History.Inv origin ⟨l, s.completions ++ [c], c.wall, c.instant⟩ where
  clock := hc.wall
  started id a ha := (h.started id a (hactive id a ha)).trans hn
  sorted := by
    refine List.pairwise_append.mpr ⟨h.sorted, List.pairwise_singleton _ _, fun x hx y hy => ?_⟩
    rw [List.mem_singleton.mp hy]
    exact (h.sound x hx).past.trans hn
  sound x hx := by
    rcases List.mem_append.mp hx with hx | hx
    · exact { h.sound x hx with past := (h.sound x hx).past.trans hn }
    · rw [List.mem_singleton.mp hx]
      exact hc
  fits := by
    rw [List.map_append, List.map_singleton, List.sum_append, List.sum_singleton]
    exact hfits
  minute now' hn' := by
    have hkept := (h.advance hw hn hclock).minute now' hn'
    have huses : (s.completions ++ [c]).filterMap Completion.use =
        s.completions.filterMap Completion.use ++ c.use.toList := by
      rw [List.filterMap_append]
      cases huse : c.use with
      | none => rw [List.filterMap_cons_none huse, List.filterMap_nil, Option.toList_none]
      | some u => rw [List.filterMap_cons_some huse, List.filterMap_nil, Option.toList_some]
    rw [huses, hminute, List.dropWhile_append, List.dropWhile_append, hkept]
  daily := by
    obtain ⟨exact, hle, hholds⟩ := h.daily.roll (fun h₁ h₂ h => dateNaive_between h₁ h₂ h) hw
    rw [hday]
    exact ⟨_, hdaily.trans (add_le_add_left hle _), (hholds.snoc (e := c) rfl).accumulates⟩
  monthly := by
    obtain ⟨exact, hle, hholds⟩ := h.monthly.roll (fun h₁ h₂ h => yearMonth_between h₁ h₂ h) hw
    rw [hmonth]
    exact ⟨_, hmonthly.trans (add_le_add_left hle _), (hholds.snoc (e := c) rfl).accumulates⟩

theorem History.Inv.complete (h : s.Inv origin) {c : Completion}
    (hl : c.reservation = s.ledger.active.lookup id) (hw : s.wall ≤ c.wall)
    (hn : s.instant ≤ c.instant) (hclock : c.wall - s.wall = c.instant - s.instant)
    (hc : c.Sound origin c.instant)
    (hfits : (((s.completions.map fun c => reportedTokens c.usage).sum +
      reportedTokens c.usage : ℕ) : Int) ≤ i64Max)
    (hround : ∀ a, c.reservation = some a → ∀ charged,
      (actualCost c.usage c.cost).or a.cost = some charged →
        a.NotRoundedUp (s.ledger.rollPeriods c.wall) c.wall charged) : History.Inv origin
      ⟨s.ledger.reconcile id (actualTokens c.usage) (actualCost c.usage c.cost) c.wall c.instant,
        s.completions ++ [c], c.wall, c.instant⟩ := by
  cases hlookup : s.ledger.active.lookup id with
  | none =>
    rw [hlookup] at hl
    rw [reconcile_of_none hlookup]
    refine h.push hw hn hclock hc hfits (fun _ _ ha => ha) ?_ rfl ?_ rfl ?_
    · rw [Completion.use, hl, Option.bind_none, Option.toList_none, List.append_nil]
    · simp only [Completion.charge, hl, add_zero]
      exact le_rfl
    · simp only [Completion.charge, hl, add_zero]
      exact le_rfl
  | some a =>
    rw [hlookup] at hl
    rw [reconcile_of_some hlookup]
    refine h.push hw hn hclock hc hfits (fun id' b hb => ?_) ?_ rfl ?_ rfl ?_
    · by_cases hid : id' = id
      · subst hid
        rw [AList.lookup_erase] at hb
        cases hb
      · rwa [AList.lookup_erase_ne hid] at hb
    · rw [Completion.use, hl, Option.bind_some]
      split <;> rfl
    · simp only [Completion.charge, hl]
      exact addCharge_le fun x hx => (hround a hl x hx).daily
    · simp only [Completion.charge, hl]
      exact addCharge_le fun x hx => (hround a hl x hx).monthly

theorem History.Inv.step {H : HashOrder} (h : s.Inv origin) {a : HistoryAction}
    (hr : s.FullyReported a) (hs : s.step H a = some s') : s'.Inv origin := by
  cases a with
  | reserve id key estimate wall now =>
    rw [History.step] at hs
    split at hs
    · rename_i hle
      cases hs
      have A := h.advance hle.1 hle.2 hr
      rcases s.ledger.reserve_cases H id key estimate wall now with ⟨-, hreserve⟩ | ⟨e, hreserve⟩
      · rw [hreserve]
        refine { A with started := fun id' b hb => ?_ }
        by_cases hid : id' = id
        · subst hid
          rw [AList.lookup_insert] at hb
          obtain rfl := Option.some_injective _ hb
          exact le_rfl
        · rw [AList.lookup_insert_ne hid] at hb
          exact A.started id' b hb
      · rw [hreserve]
        exact A
    · cases hs
  | checkCurrent key wall now =>
    rw [History.step] at hs
    split at hs
    · rename_i hle
      cases hs
      exact h.advance hle.1 hle.2 hr
    · cases hs
  | complete id usage cost wall now ts =>
    rw [History.step] at hs
    split at hs
    · rename_i hle
      cases hs
      obtain ⟨hclock, hfits, h0, hreported⟩ := hr
      refine h.complete (c := ⟨_, usage, cost, wall, now, ts⟩) rfl hle.1 hle.2.1 hclock ?_ hfits
        fun a ha => (hreported a ha).2
      refine ⟨?_, le_rfl, hle.2.2, h0, fun a ha => ⟨?_, (hreported a ha).1⟩⟩
      · exact (h.advance hle.1 hle.2.1 hclock).clock
      · exact (h.started id a ha).trans hle.2.1
    · cases hs
  | cancel id =>
    cases hs
    refine { h with started := fun id' b hb => ?_ }
    by_cases hid : id' = id
    · subst hid
      rw [KeyLedger.cancel, AList.lookup_erase] at hb
      cases hb
    · rw [KeyLedger.cancel, AList.lookup_erase_ne hid] at hb
      exact h.started id' b hb

theorem History.inv_start (H : HashOrder) (wall : Int) (now : Nat) :
    (history H wall now).start.Inv (wall - now) where
  clock := (sub_add_cancel wall (now : Int)).symm
  started id a ha := by cases ha
  sorted := List.Pairwise.nil
  sound c hc := (List.not_mem_nil hc).elim
  fits := show ((0 : ℕ) : Int) ≤ i64Max by decide
  minute _ _ := rfl
  daily := ⟨0, le_rfl, .inl ⟨rfl, rfl⟩⟩
  monthly := ⟨0, le_rfl, .inl ⟨rfl, rfl⟩⟩

/-! ## What the live ledger reports -/

/-- Without active reservations the kept requests and sums are reported. -/
theorem current_of_idle (H : HashOrder) (h : l.active = ∅) : (l.current H wall now).2 =
      ⟨((l.rollPeriods wall).prune now).minute.length,
        ((l.rollPeriods wall).prune now).minuteTokens,
        (l.rollPeriods wall).dailySpend, (l.rollPeriods wall).monthlySpend⟩ := by
  have hactive : H.values now ((l.rollPeriods wall).prune now).active = [] := by
    have hperm : (H.values now l.active).Perm (l.active.entries.map (·.2)) := H.perm now l.active
    rw [h] at hperm
    change H.values now l.active = []
    rw [h]
    exact hperm.eq_nil
  rw [KeyLedger.current]
  simp only [hactive]
  rfl

/-- The request completed in the last minute. -/
def Completion.recent (now : Nat) (c : Completion) : Bool := !expired now c.instant

/-- The kept uses are of requests that completed in the last minute: behind a young use there are
only later completions. -/
theorem uses_le {m : MinuteUse → ℕ} {n : Completion → ℕ} {l : List Completion}
    (hsorted : l.Pairwise fun c d => c.instant ≤ d.instant)
    (hstarted : ∀ c ∈ l, ∀ u, c.use = some u → u.startedAt ≤ c.instant ∧ m u ≤ n c) :
    (((l.filterMap Completion.use).dropWhile (MinuteUse.old now)).map m).sum ≤
      ((l.filter (Completion.recent now)).map n).sum := by
  have hall : ∀ l : List Completion, (∀ c ∈ l, ∀ u, c.use = some u → m u ≤ n c) →
      ((l.filterMap Completion.use).map m).sum ≤ (l.map n).sum := by
    intro l hle
    induction l with
    | nil => exact le_rfl
    | cons c l ih =>
      have hrest := ih fun d hd => hle d (List.mem_cons_of_mem _ hd)
      rw [List.map_cons, List.sum_cons]
      cases huse : c.use with
      | none =>
        rw [List.filterMap_cons_none huse]
        exact hrest.trans (Nat.le_add_left _ _)
      | some u =>
        rw [List.filterMap_cons_some huse, List.map_cons, List.sum_cons]
        exact Nat.add_le_add (hle c List.mem_cons_self u huse) hrest
  induction l with
  | nil => exact le_rfl
  | cons c l ih =>
    obtain ⟨hc, hl⟩ := List.pairwise_cons.mp hsorted
    have hrest := ih hl fun d hd => hstarted d (List.mem_cons_of_mem _ hd)
    have hskip : ((l.filter (Completion.recent now)).map n).sum ≤
        (((c :: l).filter (Completion.recent now)).map n).sum :=
      (((List.sublist_cons_self c l).filter _).map n).sum_le_sum fun _ _ => Nat.zero_le _
    cases huse : c.use with
    | none =>
      rw [List.filterMap_cons_none huse]
      exact hrest.trans hskip
    | some u =>
      rw [List.filterMap_cons_some huse]
      by_cases hold : u.old now
      · rw [List.dropWhile_cons_of_pos hold]
        exact hrest.trans hskip
      · rw [List.dropWhile_cons_of_neg hold, ← List.filterMap_cons_some huse]
        have hrecent : (c :: l).filter (Completion.recent now) = c :: l := by
          refine List.filter_eq_self.mpr fun d hd => ?_
          have hcd : c.instant ≤ d.instant := by
            rcases List.mem_cons.mp hd with rfl | hd
            · exact le_rfl
            · exact hc d hd
          have hu := (hstarted c List.mem_cons_self u huse).1
          simp only [MinuteUse.old, expired, decide_eq_true_eq] at hold
          simp only [Completion.recent, expired, Bool.not_eq_true', decide_eq_false_iff_not]
          omega
        rw [hrecent]
        exact hall _ fun d hd v hv => (hstarted d hd v hv).2

namespace Completion
variable {now : Nat} {c : Completion}

/-- A use starts before its request completes, and has no more tokens than were reported. -/
theorem Sound.use_le (h : c.Sound origin now) {u : MinuteUse} (hu : c.use = some u) :
    u.startedAt ≤ c.instant ∧ u.tokens ≤ reportedTokens c.usage := by
  rw [use] at hu
  obtain ⟨a, ha, hu⟩ := Option.bind_eq_some_iff.mp hu
  obtain ⟨hstarted, hreported⟩ := h.reservation a ha
  split at hu
  · cases hu
  · obtain rfl := Option.some_injective _ hu
    refine ⟨hstarted, ?_⟩
    cases hi : c.usage.input with
    | none =>
      simp only [actualTokens, hi]
      exact hreported.tokens.resolve_left fun hsome => by simp [hi] at hsome
    | some input =>
      cases ho : c.usage.output with
      | none =>
        simp only [actualTokens, hi, ho]
        exact hreported.tokens.resolve_left fun hsome => by simp [ho] at hsome
      | some output =>
        simp only [actualTokens, hi, ho, reportedTokens]
        exact min_le_left _ _

/-- What is charged is no more than what is logged. -/
theorem Sound.charge_le {κ : Type} [DecidableEq κ] {period : Int → κ}
    {field : ActiveReservation → κ}
    (h : c.Sound origin now) : c.charge period field ≤ c.cost.getD 0 := by
  rw [charge]
  cases ha : c.reservation with
  | none => exact h.nonneg
  | some a =>
    simp only [charged]
    split
    · have hreported := (h.reservation a ha).2.cost
      cases hi : c.usage.input with
      | none =>
        simp only [actualCost, actualTokens, hi, Option.bind_none, Option.none_or]
        exact hreported.resolve_left fun hsome => by simp [hi] at hsome
      | some input =>
        cases ho : c.usage.output with
        | none =>
          simp only [actualCost, actualTokens, hi, ho, Option.bind_none, Option.none_or]
          exact hreported.resolve_left fun hsome => by simp [ho] at hsome
        | some output =>
          simp only [actualCost, actualTokens, hi, ho, Option.bind_some]
          cases hcost : c.cost with
          | none =>
            rw [Option.none_or, ← hcost]
            exact hreported.resolve_left fun hsome => by simp [hcost] at hsome
          | some cost => exact le_rfl
    · exact h.nonneg

end Completion

/-! ## What the rebuilt ledger reports -/

/-- An instant of the same day is not before its midnight. -/
theorem dailyStart_le {t now : Int} (h : dateNaive t = dateNaive now) : dailyStart now ≤ t := by
  rw [dailyStart, ← h, midnight, dateNaive]
  omega

theorem monthlyStart_le {t now : Int} (h : yearMonth t = yearMonth now) : monthlyStart now ≤ t := by
  have hindex : monthIndex (dateNaive t) = monthIndex (dateNaive now) := by
    simp only [yearMonth, Prod.mk.injEq] at h
    omega
  have hfirst := withDay1_le hindex
  rw [monthlyStart, midnight]
  generalize withDay1 (dateNaive now) = first at hfirst ⊢
  rw [dateNaive] at hfirst
  omega

variable {wall : Int} {now : Nat}

/-- A row that is younger than a minute is seeded as a young use. -/
theorem seedUse_young {entry : Int × Int} (h : wall - entry.1 < (minuteWindow : Int)) :
    young now (seedUse wall now entry) := by
  have hage : min (wall - entry.1).toNat minuteWindow < minuteWindow := by
    unfold minuteWindow at *
    omega
  rw [young, expired, Bool.not_eq_true', decide_eq_false_iff_not]
  dsimp only [seedUse]
  generalize min (wall - entry.1).toNat minuteWindow = age at hage ⊢
  split <;> omega

theorem row_tokens {c : Completion} (h : (reportedTokens c.usage : Int) ≤ i64Max) :
    c.row.tokens = reportedTokens c.usage := by
  have hword : ∀ x : Option ℕ, ((x.getD 0 : ℕ) : Int) ≤ i64Max →
      (x.map asI64).getD 0 = ((x.getD 0 : ℕ) : Int) := by
    intro x hx
    cases x with
    | none => rfl
    | some n =>
      simp only [Option.getD_some, i64Max] at hx
      simp only [Option.map_some, Option.getD_some, asI64]
      rw [if_pos (by omega)]
  rw [reportedTokens] at h ⊢
  rw [UsageLogRow.tokens, Completion.row, usageLogRow, hword _ (by omega), hword _ (by omega)]
  push_cast
  rfl

/-- A sum over the seeded uses is one over the completed requests. -/
theorem sum_seeds (cs : List Completion) (wall since : Int) (now : Nat) (p : MinuteUse → Bool)
    (m : MinuteUse → ℕ) :
    ((((keyUsageEntriesSince (cs.map Completion.row) since).map (seedUse wall now)).filter p).map
        m).sum =
      ((cs.filter fun c => p (seedUse wall now (c.ts, c.row.tokens)) && decide (since ≤ c.ts)).map
        fun c => m (seedUse wall now (c.ts, c.row.tokens))).sum := by
  have hperm :
      ((((keyUsageEntriesSince (cs.map Completion.row) since).map (seedUse wall now)).filter
      p).map m).Perm ((((((cs.map Completion.row).filter fun row => since ≤ row.ts).map fun row =>
        (row.ts, row.tokens)).map (seedUse wall now)).filter p).map m) :=
    ((sortBy_perm.map _).filter _).map _
  rw [hperm.sum_eq]
  simp only [List.filter_map, List.map_map, List.filter_filter, Function.comp_def]
  rfl

theorem sum_filterMap_cost (cs : List Completion) :
    (cs.filterMap Completion.cost).sum = (cs.map fun c => c.cost.getD 0).sum := by
  induction cs with
  | nil => rfl
  | cons c cs ih => cases hc : c.cost <;> simp [hc, ih]

/-- Without rounding the log has the sum of the costs. -/
theorem keySpendSince_rows (Q : SqlSum) {cs : List Completion}
    (hexact : ExactSums (cs.filterMap Completion.cost)) (since : Int) :
    keySpendSince Q (cs.map Completion.row) since =
      ((cs.filter fun c => since ≤ c.ts).map fun c => c.cost.getD 0).sum := by
  have hrows : ((cs.map Completion.row).filter fun row => since ≤ row.ts).filterMap
      UsageLogRow.costUsd = (cs.filter fun c => since ≤ c.ts).filterMap Completion.cost := by
    rw [List.filter_map, List.filterMap_map]
    rfl
  rw [keySpendSince, hrows, Q.exact _ fun ys hys => hexact ys
    (hys.trans (List.filter_sublist.filterMap _)), sum_filterMap_cost]

/-- What the live ledger reports, and what a ledger reports that is rebuilt at the same time. -/
def History.live (H : HashOrder) (s : History) (wall : Int) (now : Nat) : Totals :=
  (s.ledger.current H wall now).2

def History.rebuilt (H : HashOrder) (Q : SqlSum) (s : History) (wall : Int) (now : Nat) : Totals :=
  ((ensureInitialized Q (s.completions.map Completion.row) wall now).current H wall now).2

/-- The spend of the rebuilt ledger's period. -/
theorem spend_le_rebuilt {κ : Type} [DecidableEq κ] {period : Int → κ}
    {field : ActiveReservation → κ} {start : Int → Int}
    (hbetween : ∀ {t u v : Int}, t ≤ u → u ≤ v → period t = period v → period u = period t)
    (hstart : ∀ {t : Int}, period t = period wall → start wall ≤ t) {cs : List Completion}
    (hsound : ∀ c ∈ cs, c.Sound origin now) (hlogged : ∀ c ∈ cs, c.ts ≤ wall) (Q : SqlSum)
    (hexact : ExactSums (cs.filterMap Completion.cost)) :
    total period Completion.wall (Completion.charge period field) wall cs ≤
      keySpendSince Q (cs.map Completion.row) (start wall) := by
  rw [keySpendSince_rows Q hexact, total]
  refine sum_filter_le (fun c hc hperiod => ⟨?_, (hsound c hc).charge_le⟩) fun c hc =>
    (hsound c hc).nonneg
  have heq : period c.wall = period wall := of_decide_eq_true hperiod
  refine decide_eq_true (hstart ?_)
  exact (hbetween (hsound c hc).logged (hlogged c hc) heq).trans heq

variable {H : HashOrder} {Q : SqlSum}

/-- The rebuilt window has no more tokens than all requests reported. -/
theorem rebuilt_tokens_le {cs : List Completion}
    (hrow : ∀ c ∈ cs, (seedUse wall now (c.ts, c.row.tokens)).tokens = reportedTokens c.usage) :
    (((((ensureInitialized Q (cs.map Completion.row) wall now).rollPeriods wall).prune
      now).minute).map MinuteUse.tokens).sum ≤ (cs.map fun c => reportedTokens c.usage).sum := by
  have hsub : (((ensureInitialized Q (cs.map Completion.row) wall now).rollPeriods wall).prune
      now).minute.Sublist ((keyUsageEntriesSince (cs.map Completion.row) (wall - seconds 60)).map
        (seedUse wall now)) :=
    (List.dropWhile_sublist _).trans (List.dropWhile_sublist _)
  refine ((hsub.map _).sum_le_sum fun _ _ => Nat.zero_le _).trans ?_
  have hseeds := sum_seeds cs wall (wall - seconds 60) now (fun _ => true) MinuteUse.tokens
  rw [List.filter_true] at hseeds
  rw [hseeds]
  refine (sum_filter_le (q := fun _ => true) (g := fun c => reportedTokens c.usage)
    (fun c hc _ => ⟨rfl, (hrow c hc).le⟩) fun _ _ => Nat.zero_le _).trans ?_
  rw [List.filter_true]

/-- What the live queue adds up to is no more than what the seeded one does. -/
theorem History.Inv.minute_le (h : s.Inv origin) (hn : s.instant ≤ now)
    (hwall : wall = origin + now) (hsound : ∀ c ∈ s.completions, c.Sound origin now)
    (m : MinuteUse → ℕ) (n : Completion → ℕ)
    (hmn : ∀ c ∈ s.completions, (∀ u, c.use = some u → m u ≤ n c) ∧
      n c ≤ m (seedUse wall now (c.ts, c.row.tokens))) :
    (((s.ledger.rollPeriods wall).prune now).minute.map m).sum ≤
      ((((ensureInitialized Q (s.completions.map Completion.row) wall now).rollPeriods wall).prune
        now).minute.map m).sum := by
  -- A recently completed request is seeded.
  have hseed : ∀ c ∈ s.completions, c.recent now →
      young now (seedUse wall now (c.ts, c.row.tokens)) ∧ wall - seconds 60 ≤ c.ts := by
    intro c hc hrecent
    have hage : wall - c.ts < (minuteWindow : Int) := by
      have hinstant := (hsound c hc).wall
      have hts := (hsound c hc).logged
      simp only [Completion.recent, expired, Bool.not_eq_true', decide_eq_false_iff_not] at hrecent
      omega
    refine ⟨seedUse_young hage, ?_⟩
    unfold minuteWindow at hage
    unfold seconds
    omega
  calc (((s.ledger.rollPeriods wall).prune now).minute.map m).sum
      = (((s.completions.filterMap Completion.use).dropWhile (MinuteUse.old now)).map m).sum :=
        congrArg (fun l => (l.map m).sum) (h.minute now hn)
    _ ≤ ((s.completions.filter (Completion.recent now)).map n).sum :=
        uses_le h.sorted fun c hc u hu => ⟨((hsound c hc).use_le hu).1, (hmn c hc).1 u hu⟩
    _ ≤ ((s.completions.filter fun c => young now (seedUse wall now (c.ts, c.row.tokens)) &&
          decide (wall - seconds 60 ≤ c.ts)).map fun c =>
            m (seedUse wall now (c.ts, c.row.tokens))).sum := by
        refine sum_filter_le (fun c hc hrecent => ⟨?_, (hmn c hc).2⟩) fun _ _ => Nat.zero_le _
        exact Bool.and_eq_true_iff.mpr ⟨(hseed c hc hrecent).1,
          decide_eq_true (hseed c hc hrecent).2⟩
    _ = ((((keyUsageEntriesSince (s.completions.map Completion.row) (wall - seconds 60)).map
          (seedUse wall now)).filter (young now)).map m).sum := (sum_seeds ..).symm
    _ = (((((ensureInitialized Q (s.completions.map Completion.row) wall now).rollPeriods
          wall).prune now).minute.filter (young now)).map m).sum := by
        rw [filter_young_prune, KeyLedger.rollPeriods, ensureInitialized, filter_young_prune]
    _ ≤ _ := (List.filter_sublist.map m).sum_le_sum fun _ _ => Nat.zero_le _

/-- What the live ledger reports is no more than what the rebuilt one does. -/
theorem History.Inv.live_le (h : s.Inv origin) (hw : s.wall ≤ wall) (hn : s.instant ≤ now)
    (hclock : wall - s.wall = now - s.instant) (hidle : s.ledger.active = ∅)
    (hlogged : ∀ c ∈ s.completions, c.ts ≤ wall)
    (hexact : ExactSums (s.completions.filterMap Completion.cost)) :
    (s.live H wall now).Le (s.rebuilt H Q wall now) := by
  have A := h.advance hw hn hclock
  have hwall : wall = origin + now := A.clock
  have hsound : ∀ c ∈ s.completions, c.Sound origin now := A.sound
  have hreported : ∀ c ∈ s.completions, (reportedTokens c.usage : Int) ≤ i64Max := by
    intro c hc
    refine le_trans ?_ h.fits
    exact_mod_cast List.single_le_sum (fun _ _ => Nat.zero_le _) _
      (List.mem_map_of_mem (f := fun c => reportedTokens c.usage) hc)
  have hrow : ∀ c ∈ s.completions,
      (seedUse wall now (c.ts, c.row.tokens)).tokens = reportedTokens c.usage := by
    intro c hc
    dsimp only [seedUse]
    rw [row_tokens (hreported c hc), Int.toNat_natCast]
  rw [History.live, History.rebuilt, current_of_idle H hidle, current_of_idle H rfl]
  constructor
  · have hle := h.minute_le (Q := Q) hn hwall hsound (fun _ => 1) (fun _ => 1)
      fun c _ => ⟨fun _ _ => le_rfl, le_rfl⟩
    simpa using hle
  · have hle := h.minute_le (Q := Q) hn hwall hsound MinuteUse.tokens
      (fun c => reportedTokens c.usage) fun c hc =>
        ⟨fun u hu => ((hsound c hc).use_le hu).2, (hrow c hc).ge⟩
    refine (Nat.mod_le _ _).trans (hle.trans ?_)
    rw [KeyLedger.minuteTokens, Nat.mod_eq_of_lt]
    have hfits := h.fits
    refine (rebuilt_tokens_le hrow).trans_lt ?_
    unfold u64Max
    unfold i64Max at hfits
    omega
  · obtain ⟨exact, hle, hdaily⟩ := h.daily.roll (fun h₁ h₂ h => dateNaive_between h₁ h₂ h) hw
    rw [KeyLedger.rollPeriods]
    refine (hle.trans hdaily.sum.le).trans ?_
    refine (spend_le_rebuilt (fun h₁ h₂ h => dateNaive_between h₁ h₂ h) dailyStart_le hsound
      hlogged Q hexact).trans ?_
    rw [KeyLedger.rollPeriods, ensureInitialized]
    simp [KeyLedger.rollPeriods, KeyLedger.prune]
  · obtain ⟨exact, hle, hmonthly⟩ := h.monthly.roll (fun h₁ h₂ h => yearMonth_between h₁ h₂ h) hw
    rw [KeyLedger.rollPeriods]
    refine (hle.trans hmonthly.sum.le).trans ?_
    refine (spend_le_rebuilt (fun h₁ h₂ h => yearMonth_between h₁ h₂ h) monthlyStart_le hsound
      hlogged Q hexact).trans ?_
    rw [KeyLedger.rollPeriods, ensureInitialized]
    simp [KeyLedger.rollPeriods, KeyLedger.prune]

end

/-- In every fully reported history, once no reservation is active and all completed requests are
logged with costs that add up without rounding, the rebuilt ledger reports no less than the live one
and refuses whatever it refuses. -/
theorem restart_never_forgives {wall₀ : Int} {now₀ : Nat} {as : List HistoryAction} {s : History}
    (hrun : (history H wall₀ now₀).run as = some s)
    (hreported : (history H wall₀ now₀).Meets (fun _ => History.FullyReported) as) {wall : Int}
    {now : Nat} (hw : s.wall ≤ wall) (hn : s.instant ≤ now)
    (hclock : wall - s.wall = now - s.instant) (hidle : s.ledger.active = ∅)
    (hlogged : ∀ c ∈ s.completions, c.ts ≤ wall)
    (hexact : ExactSums (s.completions.filterMap Completion.cost)) :
    (s.live H wall now).Le (s.rebuilt H Q wall now) ∧
      (s.live H wall now).Refuses (s.rebuilt H Q wall now) := by
  have hinv : s.Inv (wall₀ - now₀) :=
    (history H wall₀ now₀).run_induction_of_meets (I := fun _ s => s.Inv (wall₀ - now₀))
      (History.inv_start H wall₀ now₀) (fun _ _ _ _ h hr hs => h.step hr hs) as s hreported hrun
  have hle : (s.live H wall now).Le (s.rebuilt H Q wall now) :=
    hinv.live_le hw hn hclock hidle hlogged hexact
  exact ⟨hle, hle.refuses⟩

/-- A sum that is rounded at every step. -/
def SqlSum.naive : SqlSum := ⟨sumF64, fun _ h => sumF64_eq_sum h⟩

/-- A request that reserves 100 tokens and a dollar, and what it reports. -/
def oneRequest (usage : TokenUsage) (cost : Option ℚ) : List HistoryAction :=
  [.reserve 1 {} ⟨100, some 1⟩ 0 0, .complete 1 usage cost 0 0 0]

theorem restart_never_forgives_complete :
    ∃ s, (history .newestFirst 0 0).run
        (oneRequest { input := some 10, output := some 20 } (some (1 / 4))) = some s ∧
      (s.live .newestFirst 0 0).tokens = 30 ∧ (s.live .newestFirst 0 0).daily = 1 / 4 ∧
      (s.live .newestFirst 0 0).Le (s.rebuilt .newestFirst .naive 0 0) ∧
        (s.live .newestFirst 0 0).Refuses (s.rebuilt .newestFirst .naive 0 0) := by
  have hquarter : roundF64 (1 / 4) = 1 / 4 := by decide +kernel
  have hmeets : (history .newestFirst 0 0).Meets (fun _ => History.FullyReported)
      (oneRequest { input := some 10, output := some 20 } (some (1 / 4))) := by
    refine Machine.Along.meets _ ⟨rfl, ⟨rfl, by decide, by decide +kernel, fun a ha => ?_⟩, trivial⟩
    obtain rfl : (⟨0, 100, some 1, dateNaive 0, yearMonth 0⟩ : ActiveReservation) = a :=
      Option.some_injective _ ha
    refine ⟨⟨.inl ⟨rfl, rfl⟩, .inl ⟨rfl, rfl, rfl⟩⟩, fun charged hcharged => ?_⟩
    obtain rfl : 1 / 4 = charged := Option.some_injective _ hcharged
    exact ⟨fun _ => by decide +kernel, fun _ => by decide +kernel⟩
  refine ⟨_, rfl, rfl, by decide +kernel,
    restart_never_forgives rfl hmeets le_rfl le_rfl rfl rfl (fun c hc => ?_) fun ys hys => ?_⟩
  · rw [List.mem_singleton.mp hc]
  · rcases List.sublist_singleton.mp hys with rfl | rfl
    · exact roundF64_zero
    · simpa using hquarter

/-- A response without usage keeps its estimate, and the log has no tokens for it. -/
theorem restart_forgives_unknown :
    ∃ s, (history .newestFirst 0 0).run (oneRequest {} none) = some s ∧ s.ledger.active = ∅ ∧
      (∀ c ∈ s.completions, c.ts ≤ 0) ∧ (s.live .newestFirst 0 0).tokens = 100 ∧
      (s.rebuilt .newestFirst .naive 0 0).tokens = 0 ∧
      ¬ (s.live .newestFirst 0 0).Le (s.rebuilt .newestFirst .naive 0 0) := by
  refine ⟨_, rfl, rfl, fun c hc => ?_, rfl, rfl, fun h => absurd h.tokens (by decide)⟩
  rw [List.mem_singleton.mp hc]

end Kinetix.Admission
