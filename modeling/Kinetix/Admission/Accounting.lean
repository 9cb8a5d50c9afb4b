import Kinetix.Library.Machine
import Kinetix.Library.PeriodTotal
import Kinetix.Admission.Ledger

/-!
# Every reservation is accounted for

The book records every reservation that was ever granted, with its own start and its outcome, and
never forgets one. The ledger keeps less: active reservations in one collection, recent completed
ones in another, and two sums. The invariant says that this is enough: what the ledger reports never
falls short of the book.

## Implementation notes

Reservation ids come from one counter of the controller, so no id is used twice. The clocks that an
operation reads do not go backwards, since it reads them under the ledger's lock. A spend is a sum
of rounded additions in some order, so the book knows it as the collection of its terms.
-/

namespace Kinetix.Admission
open Binary64 Clock Words StateMachine PeriodTotal

/-- What became of a reservation; a settled one has its final tokens and cost. -/
inductive Outcome
  | active
  | settled (tokens : Nat) (cost : Option ℚ)
  | cancelled

/-- A granted reservation, with the readings of both clocks at its start. -/
structure Reservation where
  id : Nat
  startedAt : Nat
  wall : Int
  estimate : AdmissionEstimate
  outcome : Outcome := .active

/-- A cost, if it is known. -/
def known (cost : Option ℚ) : Multiset ℚ := cost.elim 0 fun cost => {cost}

namespace Reservation

def isActive (r : Reservation) : Bool := r.outcome matches .active

def isSettled (r : Reservation) : Bool := r.outcome matches .settled ..

/-- Whether the reservation counts towards the limits. -/
def counts (r : Reservation) : Bool := r.isActive || r.isSettled

/-- The actual tokens of a settled reservation, and the estimate of another. -/
def tokens (r : Reservation) : Nat :=
  match r.outcome with
  | .settled tokens _ => tokens
  | .active | .cancelled => r.estimate.tokens

/-- The cost that a reservation adds to the spend, if it is known. -/
def charge (r : Reservation) : Multiset ℚ :=
  match r.outcome with
  | .active => known r.estimate.cost
  | .settled _ cost => known cost
  | .cancelled => 0

/-- Replace the estimate by what is known of the actual usage. -/
def settle (actualTokens : Option Nat) (actualCost : Option ℚ) (r : Reservation) : Reservation :=
  { r with
    outcome := .settled (actualTokens.getD r.estimate.tokens) (actualCost.or r.estimate.cost) }

def cancel (r : Reservation) : Reservation := { r with outcome := .cancelled }

end Reservation

/-- Change the active reservation of an id. -/
def change (id : Nat) (f : Reservation → Reservation) (book : List Reservation) :
    List Reservation :=
  book.map fun r => if r.id = id ∧ r.isActive then f r else r

/-- The reservations that count and began in the last minute. -/
def inWindow (book : List Reservation) (now : Nat) : List Reservation :=
  book.filter fun r => r.counts && !expired now r.startedAt

/-- The costs of the period of an instant, each reservation counted in the period of its start. -/
def charges {κ : Type} [DecidableEq κ] (period : Int → κ) (book : List Reservation) (wall : Int) :
    Multiset ℚ :=
  total period Reservation.wall Reservation.charge wall book

/-- The ledger of one key, the book of its reservations, and the last readings of the clocks. -/
structure KeyAdmission where
  ledger : KeyLedger := {}
  book : List Reservation := []
  wall : Int
  instant : Nat

inductive Action
  | reserve (id : Nat) (key : VirtualKeyRow) (estimate : AdmissionEstimate) (wall : Int)
      (now : Nat)
  | checkCurrent (key : VirtualKeyRow) (wall : Int) (now : Nat)
  | reconcile (id : Nat) (actualTokens : Option Nat) (actualCost : Option ℚ) (wall : Int)
      (now : Nat)
  | cancel (id : Nat)

namespace KeyAdmission
variable (H : HashOrder)

/-- Only a successful reservation enters the book. -/
def step (s : KeyAdmission) : Action → Option KeyAdmission
  | .reserve id key estimate wall now =>
    if s.wall ≤ wall ∧ s.instant ≤ now ∧ id ∉ s.book.map Reservation.id then
      match s.ledger.reserve H id key estimate wall now with
      | (ledger, .ok ()) =>
        some ⟨ledger, s.book ++ [⟨id, now, wall, estimate, .active⟩], wall, now⟩
      | (ledger, .error _) => some ⟨ledger, s.book, wall, now⟩
    else none
  | .checkCurrent key wall now =>
    if s.wall ≤ wall ∧ s.instant ≤ now then
      some ⟨(s.ledger.checkCurrent H key wall now).1, s.book, wall, now⟩
    else none
  | .reconcile id actualTokens actualCost wall now =>
    if s.wall ≤ wall ∧ s.instant ≤ now then
      some ⟨s.ledger.reconcile id actualTokens actualCost wall now,
        change id (·.settle actualTokens actualCost) s.book, wall, now⟩
    else none
  | .cancel id => some { s with ledger := s.ledger.cancel id, book := change id (·.cancel) s.book }

end KeyAdmission

/-- A fresh ledger, at given readings of the clocks. -/
def machine (H : HashOrder) (wall : Int) (instant : Nat) : Machine KeyAdmission Action where
  start := { wall := wall, instant := instant }
  step := KeyAdmission.step H

/-! ## What the ledger keeps of a reservation -/

namespace Reservation

/-- An active reservation in the ledger. -/
def entry (r : Reservation) : Sigma fun _ : Nat => ActiveReservation :=
  ⟨r.id, r.startedAt, r.estimate.tokens, r.estimate.cost, dateNaive r.wall, yearMonth r.wall⟩

/-- A completed reservation in the ledger. -/
def use (r : Reservation) : MinuteUse := ⟨r.startedAt, r.tokens⟩

/-- The part of the charge that the ledger has added to its sums. -/
def settledCharge (r : Reservation) : Multiset ℚ := if r.isSettled then r.charge else 0

/-- The part of the charge that the ledger adds up anew each time. -/
def activeCharge (r : Reservation) : Multiset ℚ := if r.isActive then r.charge else 0

theorem charge_eq (r : Reservation) : r.charge = r.settledCharge + r.activeCharge := by
  cases h : r.outcome <;> simp [charge, settledCharge, activeCharge, isSettled, isActive, h]

theorem not_settled_of_active {r : Reservation} (h : r.isActive) : r.isSettled = false := by
  cases ho : r.outcome <;> simp_all [isActive, isSettled]

theorem settledCharge_of_active {r : Reservation} (h : r.isActive) : r.settledCharge = 0 := by
  rw [settledCharge, not_settled_of_active h]
  rfl

end Reservation

/-- Whether a completed request is still in the minute window. -/
def young (now : Nat) (use : MinuteUse) : Bool := !expired now use.startedAt

theorem expired_mono {now now' startedAt : Nat} (h : now ≤ now') (he : expired now startedAt) :
    expired now' startedAt := by
  simp only [expired, decide_eq_true_eq] at he ⊢
  omega

/-- The ledger has every active reservation and every completed one of the last minute. -/
structure Recorded (l : KeyLedger) (book : List Reservation) (now : Nat) : Prop where
  ids : (book.map Reservation.id).Nodup
  active : l.active.entries.Perm ((book.filter Reservation.isActive).map Reservation.entry)
  minute : (l.minute.filter (young now)).Perm
    (((book.filter Reservation.isSettled).map Reservation.use).filter (young now))

/-- The sum is one of the settled costs of the period of an earlier reading of the clock. -/
def Accrued {κ : Type} [DecidableEq κ] (period : Int → κ) (key : Option κ) (sum : ℚ)
    (book : List Reservation) (wall : Int) : Prop :=
  ∃ terms, SumsTo sum terms ∧
    Accumulates period Reservation.wall Reservation.settledCharge key terms wall book

/-- The sum is one of the settled costs of the period of the clock. -/
def Kept {κ : Type} [DecidableEq κ] (period : Int → κ) (key : Option κ) (sum : ℚ)
    (book : List Reservation) (wall : Int) : Prop :=
  ∃ terms, SumsTo sum terms ∧
    Holds period Reservation.wall Reservation.settledCharge key terms wall book

/-- The ledger agrees with the book, and its sums are for the day and month of an earlier reading
of the clock. -/
structure Accounted (l : KeyLedger) (book : List Reservation) (wall : Int) (now : Nat) : Prop
    extends Recorded l book now where
  daily : Accrued dateNaive l.dailyDay l.dailySpend book wall
  monthly : Accrued yearMonth l.monthlyKey l.monthlySpend book wall

/-- The ledger agrees with the book, and its sums are for the day and month of the clock. -/
structure Current (l : KeyLedger) (book : List Reservation) (wall : Int) (now : Nat) : Prop
    extends Recorded l book now where
  daily : Kept dateNaive l.dailyDay l.dailySpend book wall
  monthly : Kept yearMonth l.monthlyKey l.monthlySpend book wall

section
variable {κ : Type} [DecidableEq κ] {period : Int → κ} {key : Option κ} {sum : ℚ}
  {book l₁ l₂ : List Reservation} {r : Reservation} {wall wall' : Int}

theorem Kept.accrued : Kept period key sum book wall → Accrued period key sum book wall
  | ⟨terms, hsum, h⟩ => ⟨terms, hsum, h.accumulates⟩

/-- Reading the clock carries the sum over or clears it. -/
theorem Accrued.roll (hp : Convex period) (h : Accrued period key sum book wall)
    (hle : wall ≤ wall') : Kept period (some (period wall'))
      (if key = some (period wall') then sum else 0) book wall' := by
  obtain ⟨terms, hsum, h⟩ := h
  exact ⟨_, hsum.ite .zero, h.roll hp hle⟩

/-- A reservation that is settled adds its known cost, if it is of the kept period. -/
theorem Kept.charge (h : Kept period key sum (l₁ ++ r :: l₂) wall) (ha : r.isActive)
    (tokens : Option Nat) (cost : Option ℚ) : Kept period key
      (match cost.or r.estimate.cost with
        | some cost => if key = some (period r.wall) then addF64 sum cost else sum
        | none => sum)
      (l₁ ++ r.settle tokens cost :: l₂) wall := by
  obtain ⟨terms, hsum, h⟩ := h
  have hcharge := h.charge (r.settle tokens cost) rfl (Reservation.settledCharge_of_active ha)
  refine ⟨_, ?_, hcharge⟩
  have hterms : (r.settle tokens cost).settledCharge = known (cost.or r.estimate.cost) := rfl
  rw [hterms]
  cases cost.or r.estimate.cost with
  | none => simpa [known] using hsum
  | some cost => exact (hsum.add cost).ite hsum

end

theorem Current.accounted {l : KeyLedger} {book : List Reservation} {wall : Int} {now : Nat}
    (C : Current l book wall now) : Accounted l book wall now :=
  { C with
    daily := C.daily.accrued
    monthly := C.monthly.accrued }

/-- Pruning the front of the queue keeps every young entry. -/
theorem filter_young_prune (l : KeyLedger) (now : Nat) :
    (l.prune now).minute.filter (young now) = l.minute.filter (young now) := by
  simp only [KeyLedger.prune]
  induction l.minute with
  | nil => rfl
  | cons use rest ih =>
    rw [List.dropWhile_cons]
    split_ifs with h
    · rw [ih, List.filter_cons_of_neg]
      simpa [young] using h
    · rfl

/-- What is young later is young now. -/
theorem filter_young_later {now now' : Nat} (h : now ≤ now') (uses : List MinuteUse) :
    (uses.filter (young now)).filter (young now') = uses.filter (young now') := by
  rw [List.filter_filter]
  refine List.filter_congr fun use _ => ?_
  cases hy : expired now use.startedAt with
  | false => simp [young, hy]
  | true => simp [young, hy, expired_mono h hy]

/-- Rolling the periods and pruning the queue bring the ledger up to the clock. -/
theorem Accounted.advance {l : KeyLedger} {book : List Reservation} {wall wall' : Int}
    {now now' : Nat} (A : Accounted l book wall now) (hw : wall ≤ wall') (hn : now ≤ now') :
    Current ((l.rollPeriods wall').prune now') book wall' now' where
  toRecorded := {
    ids := A.ids
    active := A.active
    minute := by
      rw [filter_young_prune]
      have h := A.minute.filter (young now')
      rwa [filter_young_later hn, filter_young_later hn] at h }
  daily := A.daily.roll (fun h₁ h₂ h => dateNaive_between h₁ h₂ h) hw
  monthly := A.monthly.roll (fun h₁ h₂ h => yearMonth_between h₁ h₂ h) hw

/-! ## What the ledger reports -/

variable (nowWall : Int) (now : Nat)

theorem addActive_requests (t : Totals) (a : ActiveReservation) :
    (t.addActive nowWall now a).requests =
      if expired now a.startedAt then t.requests else saturatingAdd t.requests 1 := rfl

theorem addActive_tokens (t : Totals) (a : ActiveReservation) : (t.addActive nowWall now a).tokens =
      if expired now a.startedAt then t.tokens else saturatingAdd t.tokens a.tokens := rfl

/-- The saturating counts of the loop do not exceed what they count, and reach it or the end of the
range. -/
theorem foldl_addActive_counts (as : List ActiveReservation) (t : Totals) :
    (min (t.requests + (as.filter fun a => !expired now a.startedAt).length) u64Max ≤
        (as.foldl (Totals.addActive nowWall now) t).requests ∧
      (as.foldl (Totals.addActive nowWall now) t).requests ≤
        t.requests + (as.filter fun a => !expired now a.startedAt).length) ∧
    (min (t.tokens + ((as.filter fun a => !expired now a.startedAt).map (·.tokens)).sum) u64Max ≤
        (as.foldl (Totals.addActive nowWall now) t).tokens ∧
      (as.foldl (Totals.addActive nowWall now) t).tokens ≤
        t.tokens + ((as.filter fun a => !expired now a.startedAt).map (·.tokens)).sum) := by
  induction as generalizing t with
  | nil => simp
  | cons a as ih =>
    obtain ⟨hr, ht⟩ := ih (t.addActive nowWall now a)
    rw [List.foldl_cons]
    rw [addActive_requests] at hr
    rw [addActive_tokens] at ht
    cases he : expired now a.startedAt with
    | true =>
      simp only [he, if_true] at hr ht
      rw [List.filter_cons_of_neg (by simp [he])]
      exact ⟨hr, ht⟩
    | false =>
      simp only [he, Bool.false_eq_true, if_false, saturatingAdd] at hr ht
      rw [List.filter_cons_of_pos (by simp [he]), List.length_cons, List.map_cons,
        List.sum_cons]
      generalize u64Max = m at hr ht ⊢
      omega

/-- The loop adds the known costs of the active reservations of a period to a field. -/
theorem foldl_addActive_spend {f : Totals → ℚ} {q : ActiveReservation → Bool}
    (hf : ∀ (t : Totals) (a : ActiveReservation), f (t.addActive nowWall now a) =
      match a.cost with
      | some cost => if q a then addF64 (f t) cost else f t
      | none => f t)
    (as : List ActiveReservation) {t : Totals} {terms : Multiset ℚ} (h : SumsTo (f t) terms) :
    SumsTo (f (as.foldl (Totals.addActive nowWall now) t))
      (terms + ((as.filter q).map fun a => known a.cost).sum) := by
  induction as generalizing t terms with
  | nil => simpa using h
  | cons a as ih =>
    rw [List.foldl_cons]
    have hstep := hf t a
    by_cases hq : q a
    · rw [List.filter_cons_of_pos hq, List.map_cons, List.sum_cons, ← add_assoc]
      refine ih ?_
      cases hc : a.cost with
      | none => simpa [hc, known, hstep] using h
      | some cost => simpa [hc, known, hstep, hq] using h.add cost
    · rw [List.filter_cons_of_neg hq]
      refine ih ?_
      cases hc : a.cost <;> simpa [hc, hstep, hq] using h

/-- The reservations that count are the active ones and the settled ones. -/
theorem inWindow_perm (book : List Reservation) (now : Nat) :
    (inWindow book now).Perm
      ((book.filter Reservation.isActive).filter (fun r => !expired now r.startedAt) ++
        (book.filter Reservation.isSettled).filter fun r => !expired now r.startedAt) := by
  have h := (List.filter_append_perm Reservation.isActive (inWindow book now)).symm
  simp only [inWindow, List.filter_filter] at h ⊢
  refine h.trans (List.Perm.of_eq ?_)
  congr 1
  · refine List.filter_congr fun r _ => ?_
    cases ha : r.isActive <;> simp [Reservation.counts, ha]
  · refine List.filter_congr fun r _ => ?_
    cases ho : r.outcome <;>
      simp [Reservation.counts, Reservation.isActive, Reservation.isSettled, ho]

section Totals
variable {l : KeyLedger} {book : List Reservation} {wall : Int} {now : Nat}

/-- The values that the loop of `current` goes over are the active reservations of the book. -/
theorem Recorded.actives (H : HashOrder) (R : Recorded l book now) : (H.values now l.active).Perm
    ((book.filter Reservation.isActive).map fun r => r.entry.2) := by
  have h := R.active.map (·.2)
  rw [List.map_map] at h
  exact (H.perm now l.active).trans h

theorem Recorded.young_uses (R : Recorded l book now) : (l.minute.filter (young now)).Perm
    (((book.filter Reservation.isSettled).filter fun r => !expired now r.startedAt).map
      Reservation.use) := by
  have h := R.minute
  rwa [List.filter_map] at h

/-- The costs of a period are the settled ones, which the ledger has summed up, and the active ones,
which the loop adds. -/
theorem Recorded.charges_eq {κ : Type} [DecidableEq κ] {period : Int → κ} {key : Option κ}
    {terms : Multiset ℚ} {field : ActiveReservation → κ} (H : HashOrder) (R : Recorded l book now)
    (hf : ∀ r : Reservation, field r.entry.2 = period r.wall)
    (h : Holds period Reservation.wall Reservation.settledCharge key terms wall book) :
    terms + (((H.values now l.active).filter fun a => field a = period wall).map
      fun a => known a.cost).sum = charges period book wall := by
  have hp := (((R.actives H).filter fun a => field a = period wall).map
    fun a => known a.cost).sum_eq
  have hactive : total period Reservation.wall Reservation.activeCharge wall book =
      (((book.filter Reservation.isActive).filter fun r => period r.wall = period wall).map
        fun r => known r.entry.2.cost).sum := by
    refine (total_ite Reservation.isActive).trans (congrArg List.sum ?_)
    refine List.map_congr_left fun r hr => ?_
    have ha := (List.mem_filter.mp (List.mem_filter.mp hr).1).2
    simp only [Reservation.isActive] at ha
    cases ho : r.outcome <;> simp_all [Reservation.charge, Reservation.entry]
  rw [hp, h.sum, List.filter_map, List.map_map, charges, funext Reservation.charge_eq, total_add,
    hactive]
  simp only [Function.comp_def, hf]

/-- What `current` reports at a time covers the book: no reservation of the last minute is missing
from the counts, and the spend is that of the day and the month. -/
structure Covers (t : Totals) (book : List Reservation) (wall : Int) (now : Nat) : Prop where
  requests : min (inWindow book now).length u64Max ≤ t.requests
  daily : SumsTo t.daily (charges dateNaive book wall)
  monthly : SumsTo t.monthly (charges yearMonth book wall)

/-- The tokens of the queue do not overflow. -/
def Summable (l : KeyLedger) : Prop := (l.minute.map (·.tokens)).sum ≤ u64Max

theorem Recorded.young_actives (H : HashOrder) (R : Recorded l book now) :
    ((H.values now l.active).filter fun a => !expired now a.startedAt).Perm
      (((book.filter Reservation.isActive).filter fun r => !expired now r.startedAt).map
        fun r => r.entry.2) := by
  refine ((R.actives H).filter _).trans (List.Perm.of_eq ?_)
  rw [List.filter_map]
  rfl

/-- Every young request is counted once, in the loop or in the queue. -/
theorem Recorded.window_length (H : HashOrder) (R : Recorded l book now) :
    (inWindow book now).length =
      ((H.values now l.active).filter fun a => !expired now a.startedAt).length +
        (l.minute.filter (young now)).length := by
  rw [(inWindow_perm book now).length_eq, List.length_append, (R.young_actives H).length_eq,
    R.young_uses.length_eq, List.length_map, List.length_map]

theorem Recorded.window_tokens (H : HashOrder) (R : Recorded l book now) :
    ((inWindow book now).map Reservation.tokens).sum =
      (((H.values now l.active).filter fun a => !expired now a.startedAt).map (·.tokens)).sum +
        ((l.minute.filter (young now)).map (·.tokens)).sum := by
  rw [((inWindow_perm book now).map _).sum_eq, List.map_append, List.sum_append,
    ((R.young_actives H).map _).sum_eq, (R.young_uses.map _).sum_eq, List.map_map, List.map_map]
  congr 2
  refine List.map_congr_left fun r hr => ?_
  have ha := (List.mem_filter.mp (List.mem_filter.mp hr).1).2
  simp only [Reservation.isActive] at ha
  cases ho : r.outcome <;> simp_all [Reservation.tokens, Reservation.entry]

theorem Current.covers (H : HashOrder) (C : Current l book wall now) :
    let t := (H.values now l.active).foldl (Totals.addActive wall now)
      ⟨l.minute.length, l.minuteTokens, l.dailySpend, l.monthlySpend⟩
    Covers t book wall now ∧
      (Summable l → min ((inWindow book now).map Reservation.tokens).sum u64Max ≤ t.tokens) := by
  have hcount := foldl_addActive_counts wall now (H.values now l.active)
    ⟨l.minute.length, l.minuteTokens, l.dailySpend, l.monthlySpend⟩
  obtain ⟨daily, hdaily, hday⟩ := C.daily
  obtain ⟨monthly, hmonthly, hmonth⟩ := C.monthly
  have hsub : (l.minute.filter (young now)).Sublist l.minute := List.filter_sublist
  refine ⟨⟨?_, ?_, ?_⟩, fun hs => ?_⟩
  · refine le_trans (min_le_min_right _ ?_) hcount.1.1
    have hlen := hsub.length_le
    have hwin := C.window_length H
    dsimp only at hwin ⊢
    omega
  · rw [← C.charges_eq H (fun r => (rfl : r.entry.2.day = _)) hday]
    refine foldl_addActive_spend wall now (f := Totals.daily) (fun t a => ?_) _ hdaily
    cases hc : a.cost <;> simp [Totals.addActive, hc]
  · rw [← C.charges_eq H (fun r => (rfl : r.entry.2.month = _)) hmonth]
    refine foldl_addActive_spend wall now (f := Totals.monthly) (fun t a => ?_) _ hmonthly
    cases hc : a.cost <;> simp [Totals.addActive, hc]
  · refine le_trans (min_le_min_right _ ?_) hcount.2.1
    have hsum := (hsub.map (·.tokens)).sum_le_sum (by simp)
    have hmod : l.minuteTokens = (l.minute.map (·.tokens)).sum :=
      Nat.mod_eq_of_lt (Nat.lt_succ_of_le hs)
    have hwin := C.window_tokens H
    dsimp only at hwin ⊢
    rw [hmod]
    omega

end Totals

/-! ## Every operation keeps the account -/

/-- An id without an active reservation changes nothing. -/
theorem change_of_idle {id : Nat} {f : Reservation → Reservation} {book : List Reservation}
    (h : ∀ r ∈ book, r.id = id → r.isActive = false) : change id f book = book := by
  refine (List.map_congr_left fun r hr => ?_).trans (List.map_id book)
  rw [if_neg]
  · rfl
  · rintro ⟨hid, ha⟩
    simp [h r hr hid] at ha

/-- Changing the active reservation of an id changes one place of the book. -/
theorem change_of_mem {id : Nat} (f : Reservation → Reservation) {book : List Reservation}
    {r : Reservation} (hids : (book.map Reservation.id).Nodup) (hr : r ∈ book) (hid : r.id = id)
    (ha : r.isActive) : ∃ l₁ l₂, book = l₁ ++ r :: l₂ ∧ (∀ x ∈ l₁, x.id ≠ id) ∧
      change id f book = l₁ ++ f r :: l₂ := by
  obtain ⟨l₁, l₂, rfl⟩ := List.append_of_mem hr
  have hne : (∀ x ∈ l₁, x.id ≠ id) ∧ ∀ x ∈ l₂, x.id ≠ id := by
    simp only [List.map_append, List.map_cons, List.nodup_append, List.nodup_cons, List.mem_map,
      List.mem_cons, forall_exists_index, and_imp, not_exists, not_and, hid] at hids
    refine ⟨fun x hx h => hids.2.2 x.id x hx rfl id (.inl rfl) h, fun x hx h => hids.2.1.1 x hx h⟩
  have keep : ∀ l : List Reservation, (∀ x ∈ l, x.id ≠ id) → change id f l = l :=
    fun l hl => change_of_idle fun x hx h => absurd h (hl x hx)
  refine ⟨l₁, l₂, rfl, hne.1, ?_⟩
  have happ : change id f (l₁ ++ r :: l₂) = change id f l₁ ++ f r :: change id f l₂ := by
    simp [change, hid, ha]
  rw [happ, keep l₁ hne.1, keep l₂ hne.2]

section Operations
variable {l : KeyLedger} {book l₁ l₂ : List Reservation} {r r' : Reservation} {wall : Int}
  {now : Nat}

/-- The ledger finds an active reservation of the book by its id. -/
theorem Recorded.lookup_eq_some {id : Nat} {a : ActiveReservation} (R : Recorded l book now) :
    l.active.lookup id = some a ↔
      ∃ r ∈ book, r.isActive ∧ r.id = id ∧ r.entry.2 = a := by
  rw [← Option.mem_def, AList.mem_lookup_iff, R.active.mem_iff, List.mem_map]
  constructor
  · rintro ⟨r, hr, he⟩
    obtain ⟨hb, ha⟩ := List.mem_filter.mp hr
    cases he
    exact ⟨r, hb, ha, rfl, rfl⟩
  · rintro ⟨r, hb, ha, rfl, rfl⟩
    exact ⟨r, List.mem_filter.mpr ⟨hb, ha⟩, rfl⟩

/-- A reservation that is no longer active leaves the collection of active ones. -/
theorem Recorded.erase (R : Recorded l (l₁ ++ r :: l₂) now) (ha : r.isActive)
    (hne : ∀ x ∈ l₁, x.id ≠ r.id) (ha' : r'.isActive = false) :
    (l.active.erase r.id).entries.Perm
      (((l₁ ++ r' :: l₂).filter Reservation.isActive).map Reservation.entry) := by
  have h := R.active.kerase l.active.nodupKeys (a := r.id)
  rw [List.filter_append, List.filter_cons_of_pos ha, List.map_append, List.map_cons,
    List.kerase_append_right, List.kerase_cons_eq (show r.id = r.entry.1 from rfl)] at h
  · rw [List.filter_append, List.filter_cons_of_neg (by simp [ha']), List.map_append]
    exact h
  · intro hk
    obtain ⟨e, he, hid⟩ := List.mem_map.mp hk
    obtain ⟨x, hx, rfl⟩ := List.mem_map.mp he
    exact hne x (List.mem_filter.mp hx).1 hid

/-- Settling an active reservation moves it to the queue, if it is young, and to the sums. -/
theorem Current.settle (C : Current l (l₁ ++ r :: l₂) wall now) (ha : r.isActive)
    (hne : ∀ x ∈ l₁, x.id ≠ r.id) (tokens : Option Nat) (cost : Option ℚ) :
    Current { l with
      active := l.active.erase r.id
      minute :=
        if expired now r.startedAt then l.minute
        else l.minute ++ [⟨r.startedAt, tokens.getD r.estimate.tokens⟩]
      dailySpend := match cost.or r.estimate.cost with
        | some cost =>
          if l.dailyDay = some (dateNaive r.wall) then addF64 l.dailySpend cost
          else l.dailySpend
        | none => l.dailySpend
      monthlySpend := match cost.or r.estimate.cost with
        | some cost =>
          if l.monthlyKey = some (yearMonth r.wall) then addF64 l.monthlySpend cost
          else l.monthlySpend
        | none => l.monthlySpend }
      (l₁ ++ r.settle tokens cost :: l₂) wall now where
  ids := by
    simpa [Reservation.settle] using C.ids
  active := C.toRecorded.erase ha hne rfl
  minute := by
    have h := C.minute
    have hs : r.isSettled = false := Reservation.not_settled_of_active ha
    rw [List.filter_append, List.filter_cons_of_neg (by simp [hs])] at h
    rw [List.filter_append, List.filter_cons_of_pos rfl, List.map_append, List.map_cons,
      List.filter_append]
    rw [List.map_append, List.filter_append] at h
    cases hy : expired now r.startedAt with
    | true =>
      rw [if_pos rfl, List.filter_cons_of_neg (by simp [young, Reservation.use,
        Reservation.settle, hy])]
      exact h
    | false =>
      have hu : young now (r.settle tokens cost).use = true := by
        simp [young, Reservation.use, Reservation.settle, hy]
      rw [if_neg (by simp), List.filter_cons_of_pos hu, List.filter_append]
      refine (h.append_right _).trans ?_
      have hone : [(⟨r.startedAt, tokens.getD r.estimate.tokens⟩ : MinuteUse)].filter
          (young now) = [(r.settle tokens cost).use] := List.filter_cons_of_pos hu
      rw [hone]
      exact (List.perm_append_singleton _ _).trans List.perm_middle.symm
  daily := C.daily.charge ha tokens cost
  monthly := C.monthly.charge ha tokens cost

end Operations

namespace Accounted
variable {l : KeyLedger} {book : List Reservation} {wall wall' : Int} {now now' : Nat}

theorem reconcile (A : Accounted l book wall now) (hw : wall ≤ wall') (hn : now ≤ now') (id : Nat)
    (tokens : Option Nat) (cost : Option ℚ) :
    Accounted (l.reconcile id tokens cost wall' now') (change id (·.settle tokens cost) book)
      wall' now' := by
  have C := A.advance hw hn
  unfold KeyLedger.reconcile
  dsimp only
  split
  case h_1 hnone =>
    have hidle : ∀ r ∈ book, r.id = id → r.isActive = false := by
      intro r hr hid
      refine Bool.eq_false_iff.mpr fun ha => ?_
      rw [C.lookup_eq_some.mpr ⟨r, hr, ha, hid, rfl⟩] at hnone
      cases hnone
    rw [change_of_idle hidle]
    exact C.accounted
  case h_2 a hsome =>
    obtain ⟨r, hr, ha, rfl, rfl⟩ := C.lookup_eq_some.mp hsome
    obtain ⟨l₁, l₂, rfl, hne, hch⟩ :=
      change_of_mem (·.settle tokens cost) C.ids hr rfl ha
    rw [hch]
    exact (C.settle ha hne tokens cost).accounted

/-- A cancelled reservation leaves the account, whenever it is cancelled. -/
theorem cancel (A : Accounted l book wall now) (id : Nat) :
    Accounted (l.cancel id) (change id (·.cancel) book) wall now := by
  by_cases hex : ∃ r ∈ book, r.id = id ∧ r.isActive
  · obtain ⟨r, hr, rfl, ha⟩ := hex
    obtain ⟨l₁, l₂, rfl, hne, hch⟩ := change_of_mem (·.cancel) A.ids hr rfl ha
    have h0 := Reservation.settledCharge_of_active ha
    rw [hch]
    exact {
      ids := by simpa [Reservation.cancel] using A.ids
      active := A.toRecorded.erase ha hne rfl
      minute := by
        have h := A.minute
        rw [List.filter_append, List.filter_cons_of_neg
          (by simp [Reservation.not_settled_of_active ha])] at h
        rw [List.filter_append, List.filter_cons_of_neg (by simp [Reservation.cancel,
          Reservation.isSettled])]
        exact h
      daily := A.daily.imp fun _ h => ⟨h.1, h.2.blank rfl h0 rfl⟩
      monthly := A.monthly.imp fun _ h => ⟨h.1, h.2.blank rfl h0 rfl⟩ }
  · have hidle : ∀ r ∈ book, r.id = id → r.isActive = false := by
      intro r hr hid
      exact Bool.eq_false_iff.mpr fun ha => hex ⟨r, hr, hid, ha⟩
    have herase : l.active.erase id = l.active := by
      refine AList.ext (List.kerase_of_notMem_keys fun hk => hex ?_)
      obtain ⟨a, ha⟩ := AList.lookup_isSome.mpr hk |> Option.isSome_iff_exists.mp
      obtain ⟨r, hr, hact, hid, -⟩ := A.lookup_eq_some.mp ha
      exact ⟨r, hr, hid, hact⟩
    rw [change_of_idle hidle, KeyLedger.cancel, herase]
    exact A

end Accounted

/-- A granted reservation enters the book and the collection of active ones. -/
theorem Current.insert {l : KeyLedger} {book : List Reservation} {wall : Int} {now : Nat}
    (C : Current l book wall now) {r : Reservation} (hid : r.id ∉ book.map Reservation.id)
    (ha : r.outcome = .active) (hw : r.wall = wall) :
    Current { l with active := l.active.insert r.id r.entry.2 } (book ++ [r]) wall now := by
  have hact : r.isActive := by simp [Reservation.isActive, ha]
  have h0 := Reservation.settledCharge_of_active hact
  exact {
    ids := by
      rw [List.map_append, List.nodup_append]
      refine ⟨C.ids, List.nodup_singleton _, ?_⟩
      intro a ha' b hb hab
      rw [List.map_singleton, List.mem_singleton] at hb
      exact hid (hb ▸ hab ▸ ha')
    active := by
      have hnot : r.id ∉ l.active := by
        intro hk
        obtain ⟨a, ha⟩ := Option.isSome_iff_exists.mp (AList.lookup_isSome.mpr hk)
        obtain ⟨x, hx, -, hxid, -⟩ := C.lookup_eq_some.mp ha
        exact hid (List.mem_map.mpr ⟨x, hx, hxid⟩)
      rw [AList.insert_of_notMem hnot, List.filter_append, List.filter_cons_of_pos hact,
        List.map_append]
      exact (C.active.cons _).trans (List.perm_append_singleton _ _).symm
    minute := by
      rw [List.filter_append, List.filter_cons_of_neg
        (by simp [Reservation.not_settled_of_active hact])]
      simpa using C.minute
    daily := C.daily.imp fun _ h => ⟨h.1, h.2.push hw.le h0⟩
    monthly := C.monthly.imp fun _ h => ⟨h.1, h.2.push hw.le h0⟩ }

/-- What `reserve` does when it grants the reservation, and when it does not. -/
theorem KeyLedger.reserve_cases (H : HashOrder) (l : KeyLedger) (id : Nat) (key : VirtualKeyRow)
    (estimate : AdmissionEstimate) (wall : Int) (now : Nat) :
    let l' := (l.rollPeriods wall).prune now
    (key.checkRequest (l.current H wall now).2 estimate = .ok () ∧
      l.reserve H id key estimate wall now =
        ({ l' with
          active := l'.active.insert id
            (Reservation.entry ⟨id, now, wall, estimate, .active⟩).2 }, .ok ())) ∨
    ∃ e, l.reserve H id key estimate wall now = (l', .error e) := by
  dsimp only
  unfold reserve
  cases h : key.checkRequest (l.current H wall now).2 estimate with
  | ok u =>
    left
    refine ⟨rfl, ?_⟩
    dsimp only
    rw [h]
    rfl
  | error e =>
    right
    refine ⟨e, ?_⟩
    dsimp only
    rw [h]
    rfl

/-- Every operation keeps the ledger in agreement with the book. -/
theorem Accounted.step {H : HashOrder} {s s' : KeyAdmission} {a : Action}
    (A : Accounted s.ledger s.book s.wall s.instant) (hs : s.step H a = some s') :
    Accounted s'.ledger s'.book s'.wall s'.instant := by
  cases a with
  | reserve id key estimate wall now =>
    simp only [KeyAdmission.step] at hs
    split at hs
    case isFalse => cases hs
    case isTrue h =>
      have C := A.advance h.1 h.2.1
      rcases s.ledger.reserve_cases H id key estimate wall now with ⟨-, hr⟩ | ⟨e, hr⟩
      · rw [hr] at hs
        cases hs
        exact (C.insert (r := ⟨id, now, wall, estimate, .active⟩) h.2.2 rfl rfl).accounted
      · rw [hr] at hs
        cases hs
        exact C.accounted
  | checkCurrent key wall now =>
    simp only [KeyAdmission.step] at hs
    split at hs
    case isFalse => cases hs
    case isTrue h =>
      cases hs
      exact (A.advance h.1 h.2).accounted
  | reconcile id tokens cost wall now =>
    simp only [KeyAdmission.step] at hs
    split at hs
    case isFalse => cases hs
    case isTrue h =>
      cases hs
      exact A.reconcile h.1 h.2 id tokens cost
  | cancel id =>
    cases hs
    exact A.cancel id

/-- A fresh ledger has an empty book. -/
theorem accounted_start (wall : Int) (now : Nat) : Accounted {} [] wall now where
  ids := List.nodup_nil
  active := List.Perm.refl _
  minute := List.Perm.refl _
  daily := ⟨0, .zero, .inl ⟨rfl, rfl⟩⟩
  monthly := ⟨0, .zero, .inl ⟨rfl, rfl⟩⟩

theorem accounted_run {H : HashOrder} {wall : Int} {now : Nat} {as : List Action} {s : KeyAdmission}
    (h : (machine H wall now).run as = some s) : Accounted s.ledger s.book s.wall s.instant :=
  (machine H wall now).invariant (I := fun s => Accounted s.ledger s.book s.wall s.instant)
    (accounted_start wall now) (fun _ _ _ A => A.step) h

theorem inWindow_append (book : List Reservation) (r : Reservation) (now : Nat)
    (hc : r.counts = true) (hy : expired now r.startedAt = false) :
    inWindow (book ++ [r]) now = inWindow book now ++ [r] := by
  simp [inWindow, hc, hy]

theorem charges_append {κ : Type} [DecidableEq κ] (period : Int → κ) (book : List Reservation)
    (r : Reservation) :
    charges period (book ++ [r]) r.wall = charges period book r.wall + r.charge := by
  rw [charges, total_append, total_singleton, if_pos rfl]
  rfl

/-- A limit of the code is far from the end of the counters' range. -/
theorem toNat_lt_u64Max (limit : Int64) : limit.toInt.toNat < u64Max := by
  have := limit.toInt_lt
  simp only [u64Max]
  omega

/-- A check of saturating counters against a limit bounds what they cover. -/
theorem within_of_saturated {covered reported more limit : Nat} (hl : limit < u64Max)
    (hc : min covered u64Max ≤ reported) (h : saturatingAdd reported more ≤ limit) :
    covered + more ≤ limit := by
  have := add_le_of_saturatingAdd_le hl h
  generalize u64Max = m at hl hc
  omega

/-- Adding up the costs in some order gives no more than the budget, and what they are in fact
exceeds it by no more than the rounding of so many additions. -/
structure WithinBudget (costs : Multiset ℚ) (limit : ℚ) : Prop where
  computed : ∃ v ≤ limit, SumsTo v costs
  exact : costs.sum ≤ limit +
    ((1 + 1 / 2 ^ 53) ^ costs.card - 1) * ((costs.map abs).sum + 2 ^ (-1022 : ℤ))

theorem withinBudget_of_sumsTo {v limit : ℚ} {costs : Multiset ℚ} (h : SumsTo v costs)
    (hle : v ≤ limit) : WithinBudget costs limit where
  computed := ⟨v, hle, h⟩
  exact := by
    have herror := (abs_le.mp h.abs_sub_le).1
    linarith

/-- In every state that a run reaches, what the ledger reports covers every reservation of the last
minute and is the spend of the day and of the month. A reservation that is granted next stays
within the positive limits together with all that are covered. -/
theorem reserve_within_limits {H : HashOrder} {wall₀ : Int} {now₀ : Nat} {as : List Action}
    {s : KeyAdmission} (h : (machine H wall₀ now₀).run as = some s) :
    (∀ wall now, s.wall ≤ wall → s.instant ≤ now →
      Covers (s.ledger.current H wall now).2 s.book wall now ∧
      (Summable (s.ledger.current H wall now).1 →
        min ((inWindow s.book now).map Reservation.tokens).sum u64Max ≤
          (s.ledger.current H wall now).2.tokens)) ∧
    ∀ id key estimate wall now s', s.step H (.reserve id key estimate wall now) = some s' →
      (s.ledger.reserve H id key estimate wall now).2 = .ok () →
      (∀ rpm, key.rpmLimit = some rpm → 0 < rpm.toInt →
        ((inWindow s'.book now).length : Int) ≤ rpm.toInt) ∧
      (∀ tpm, key.tpmLimit = some tpm → 0 < tpm.toInt → Summable (s.ledger.current H wall now).1 →
        (((inWindow s'.book now).map Reservation.tokens).sum : Int) ≤ tpm.toInt) ∧
      (estimate.cost.isSome →
        (∀ limit, key.dailyBudget = some limit → 0 < limit →
          WithinBudget (charges dateNaive s'.book wall) limit) ∧
        ∀ limit, key.monthlyBudget = some limit → 0 < limit →
          WithinBudget (charges yearMonth s'.book wall) limit) := by
  have A := accounted_run h
  refine ⟨fun wall now hw hn => (A.advance hw hn).covers H, ?_⟩
  intro id key estimate wall now s' hs hok
  simp only [KeyAdmission.step] at hs
  split at hs
  case isFalse => cases hs
  case isTrue hg =>
    obtain ⟨covers, htok⟩ := (A.advance hg.1 hg.2.1).covers H
    rcases s.ledger.reserve_cases H id key estimate wall now with ⟨hcheck, hr⟩ | ⟨e, hr⟩
    case inr => simp [hr] at hok
    rw [hr] at hs
    cases hs
    obtain ⟨hrpm, htpm, hcost⟩ := VirtualKeyRow.checkRequest_eq_ok.mp hcheck
    have hwin := inWindow_append s.book ⟨id, now, wall, estimate, .active⟩ now rfl
      (by simp [expired, minuteWindow])
    rw [hwin]
    refine ⟨?_, ?_, ?_⟩
    · intro rpm hl hpos
      have hle := within_of_saturated (toNat_lt_u64Max rpm) covers.requests (hrpm rpm hl hpos)
      rw [List.length_append, List.length_singleton]
      omega
    · intro tpm hl hpos hsum
      have hle := within_of_saturated (toNat_lt_u64Max tpm) (htok hsum) (htpm tpm hl hpos)
      rw [List.map_append, List.map_singleton, List.sum_append, List.sum_singleton]
      have htokens : Reservation.tokens ⟨id, now, wall, estimate, .active⟩ = estimate.tokens := rfl
      rw [htokens]
      omega
    · intro hsome
      obtain ⟨cost, hc⟩ := Option.isSome_iff_exists.mp hsome
      obtain ⟨hday, hmonth⟩ := hcost cost hc
      have hcharge : Reservation.charge ⟨id, now, wall, estimate, .active⟩ = {cost} := by
        simp [Reservation.charge, known, hc]
      constructor
      · intro limit hl hpos
        rw [charges_append dateNaive s.book ⟨id, now, wall, estimate, .active⟩, hcharge]
        exact withinBudget_of_sumsTo (covers.daily.add cost) (hday limit hl hpos)
      · intro limit hl hpos
        rw [charges_append yearMonth s.book ⟨id, now, wall, estimate, .active⟩, hcharge]
        exact withinBudget_of_sumsTo (covers.monthly.add cost) (hmonth limit hl hpos)

/-- The limits of an example key. -/
def sampleKey : VirtualKeyRow :=
  { rpmLimit := some 4, tpmLimit := some 100, dailyBudget := some 1 }

/-- A request settles below its estimate, which makes room for the next one. -/
def settleRun : List Action :=
  [.reserve 1 sampleKey ⟨80, some (4 / 5)⟩ 0 0,
    .reconcile 1 (some 20) (some (1 / 5)) (seconds 5) 5000000000]

theorem reserve_within_limits_settled :
    ∃ s s', (machine .newestFirst 0 0).run settleRun = some s ∧
      s.step .newestFirst (.reserve 2 sampleKey ⟨70, some (1 / 10)⟩ (seconds 6) 6000000000) =
        some s' ∧
      (((inWindow s'.book 6000000000).map Reservation.tokens).sum : Int) ≤ 100 ∧
      WithinBudget (charges dateNaive s'.book (seconds 6)) 1 := by
  obtain ⟨s, hs, hstep, hok, hsum⟩ : ∃ s ∈ (machine .newestFirst 0 0).run settleRun,
      (s.step .newestFirst
        (.reserve 2 sampleKey ⟨70, some (1 / 10)⟩ (seconds 6) 6000000000)).isSome ∧
        (s.ledger.reserve .newestFirst 2 sampleKey ⟨70, some (1 / 10)⟩ (seconds 6)
          6000000000).2 = .ok () ∧
        ((s.ledger.current .newestFirst (seconds 6) 6000000000).1.minute.map (·.tokens)).sum ≤
          u64Max := by
    decide +kernel
  obtain ⟨s', hs'⟩ := Option.isSome_iff_exists.mp hstep
  obtain ⟨-, htpm, hcost⟩ := (reserve_within_limits hs).2 2 sampleKey _ _ _ s' hs' hok
  exact ⟨s, s', hs, hs', htpm 100 rfl (by decide) hsum, (hcost rfl).1 1 rfl (by decide)⟩

/-- The nearest `f64`s to 0.1 and 0.9, whose sum is rounded to 1. -/
def tenth : ℚ := 3602879701896397 / 36028797018963968

def nineTenths : ℚ := 8106479329266893 / 9007199254740992

/-- The second request is granted, though its cost and that of the first one exceed the budget. -/
theorem budget_exceeded_by_rounding : ¬ ∀ (H : HashOrder) (wall₀ : Int) (now₀ : Nat)
    (as : List Action) (s : KeyAdmission), (machine H wall₀ now₀).run as = some s →
    ∀ id key estimate wall now s', s.step H (.reserve id key estimate wall now) = some s' →
      (s.ledger.reserve H id key estimate wall now).2 = .ok () → estimate.cost.isSome →
      ∀ limit, key.dailyBudget = some limit → 0 < limit →
        (charges dateNaive s'.book wall).sum ≤ limit := by
  intro hall
  obtain ⟨s, hs, s', hstep, hok, hover⟩ :
      ∃ s ∈ (machine .newestFirst 0 0).run [.reserve 1 sampleKey ⟨10, some tenth⟩ 0 0],
        ∃ s' ∈ s.step .newestFirst (.reserve 2 sampleKey ⟨10, some nineTenths⟩ 0 0),
          (s.ledger.reserve .newestFirst 2 sampleKey ⟨10, some nineTenths⟩ 0 0).2 = .ok () ∧
            1 < (charges dateNaive s'.book 0).sum := by
    decide +kernel
  exact absurd (hall _ _ _ _ s hs 2 sampleKey _ _ _ s' hstep hok rfl 1 rfl (by decide))
    (not_le.mpr hover)

end Kinetix.Admission
