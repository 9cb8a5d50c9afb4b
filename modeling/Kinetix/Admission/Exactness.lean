import Kinetix.Admission.Accounting
import Kinetix.Library.RecentEvents

/-!
# When the minute window is exact, and when its sum fits

The queue of completed requests is pruned at its front only. A request that completes after one that
began later is queued behind it, and its entry stays counted after its minute is over, until the
younger entry in front of it expires. While requests complete in the order in which they began, the
queue is in order of time and the ledger reports the last minute of the book exactly.

`current` adds up the tokens of the completed requests with the plain `sum`, which overflows, and
the tokens of the active ones with `saturating_add`, which does not. The sum fits the counter in
every state of a run if and only if it fits each time that a completed request joins the queue.
-/

namespace Kinetix.Admission
open Clock Words StateMachine RecentEvents

/-- A key with its budgets as the only limits. -/
def VirtualKeyRow.budgetsOnly (key : VirtualKeyRow) : VirtualKeyRow :=
  { key with rpmLimit := none, tpmLimit := none }

/-- The requests and tokens stay within the positive rate limits of a key. -/
def VirtualKeyRow.RatesAllow (key : VirtualKeyRow) (requests tokens : Nat) : Prop :=
  (∀ rpm, positiveLimit key.rpmLimit = some rpm → requests ≤ rpm.toInt.toNat) ∧
  ∀ tpm, positiveLimit key.tpmLimit = some tpm → tokens ≤ tpm.toInt.toNat

/-- What is reported at a time is exactly the last minute of the book, as far as it fits the
counters, and a request that the last minute leaves room for is decided by the budgets alone. -/
structure WindowExact (H : HashOrder) (s : KeyAdmission) (wall : Int) (now : Nat) : Prop where
  requests : (inWindow s.book now).length ≤ u64Max →
    (s.ledger.current H wall now).2.requests = (inWindow s.book now).length
  tokens : ((inWindow s.book now).map Reservation.tokens).sum ≤ u64Max →
    (s.ledger.current H wall now).2.tokens = ((inWindow s.book now).map Reservation.tokens).sum
  reserve : ∀ id key estimate, VirtualKeyRow.RatesAllow key ((inWindow s.book now).length + 1)
      (((inWindow s.book now).map Reservation.tokens).sum + estimate.tokens) →
    (s.ledger.reserve H id key estimate wall now).2 =
      (s.ledger.reserve H id key.budgetsOnly estimate wall now).2
  checkCurrent : ∀ key, VirtualKeyRow.RatesAllow key ((inWindow s.book now).length + 1)
      (((inWindow s.book now).map Reservation.tokens).sum + 1) →
    (s.ledger.checkCurrent H key wall now).2 = (s.ledger.checkCurrent H key.budgetsOnly wall now).2

/-- A reservation that is reconciled within its minute began no earlier than any that was reconciled
before it. -/
def InOrder (s : KeyAdmission) : Action → Prop
  | .reconcile id _ _ _ now =>
    ∀ r ∈ s.book, r.id = id → r.isActive → expired now r.startedAt = false →
      ∀ done ∈ s.book, done.isSettled → done.startedAt ≤ r.startedAt
  | .reserve .. | .checkCurrent .. | .cancel _ => True

instance (s : KeyAdmission) (a : Action) : Decidable (InOrder s a) :=
  match a with
  | .reconcile id _ _ _ now => inferInstanceAs <| Decidable <|
      ∀ r ∈ s.book, r.id = id → r.isActive → expired now r.startedAt = false →
        ∀ done ∈ s.book, done.isSettled → done.startedAt ≤ r.startedAt
  | .reserve .. | .checkCurrent .. | .cancel _ => .isTrue trivial

/-! ## The queue in order of time -/

/-- The queue is in order of the starts. -/
def KeyLedger.Sorted (l : KeyLedger) : Prop :=
  l.minute.Pairwise fun a b => (a.startedAt : Int) ≤ b.startedAt

theorem expired_iff {now startedAt : Nat} :
    expired now startedAt = decide ((startedAt : Int) < now - minuteWindow + 1) := by
  unfold expired minuteWindow
  congr 1
  apply propext
  omega

variable {H : HashOrder} {l : KeyLedger} {book : List Reservation} {now : Nat}

/-- In order of time, pruning leaves the young entries and no other. -/
theorem KeyLedger.Sorted.minute_prune (h : l.Sorted) (now : Nat) :
    (l.prune now).minute = l.minute.filter (young now) := by
  have hrecent :
      l.minute.dropWhile (fun use => decide ((use.startedAt : Int) < now - minuteWindow + 1))
      = recent (fun use : MinuteUse => (use.startedAt : Int)) (now - minuteWindow + 1) l.minute :=
    dropWhile_eq_recent h
  simp only [KeyLedger.prune, expired_iff]
  rw [hrecent]
  refine List.filter_congr fun use _ => ?_
  simp only [young, expired_iff, ← decide_not, not_lt]

theorem KeyLedger.Sorted.prune (h : l.Sorted) (now : Nat) : (l.prune now).Sorted :=
  List.Pairwise.sublist (List.dropWhile_suffix _).sublist h

/-- A pruned queue in order of time has completed reservations of the book only. -/
theorem Recorded.settled_of_mem (R : Recorded l book now)
    (hyoung : l.minute.filter (young now) = l.minute) {use : MinuteUse} (hu : use ∈ l.minute) :
    ∃ r ∈ book, r.isSettled ∧ r.use = use := by
  rw [← hyoung] at hu
  have hmem := (List.mem_filter.mp (R.minute.subset hu)).1
  obtain ⟨r, hr, rfl⟩ := List.mem_map.mp hmem
  exact ⟨r, (List.mem_filter.mp hr).1, (List.mem_filter.mp hr).2, rfl⟩

/-- A young request that is reconciled is appended to the pruned queue. -/
theorem Accounted.minute_reconcile_of_mem {wall wall' : Int} {now now' : Nat}
    (A : Accounted l book wall now) (hw : wall ≤ wall') (hn : now ≤ now') {r : Reservation}
    (hr : r ∈ book) (hact : r.isActive) (hy : expired now' r.startedAt = false)
    (tokens : Option Nat) (cost : Option ℚ) : (l.reconcile r.id tokens cost wall' now').minute =
      (l.prune now').minute ++ [⟨r.startedAt, tokens.getD r.estimate.tokens⟩] := by
  have hlookup := (A.advance hw hn).lookup_eq_some.mpr ⟨r, hr, hact, rfl, rfl⟩
  unfold KeyLedger.reconcile
  dsimp only
  rw [hlookup]
  exact if_neg (by simp [Reservation.entry, hy])

/-- Any other reconciliation only prunes the queue. -/
theorem Accounted.minute_reconcile {wall wall' : Int} {now now' : Nat}
    (A : Accounted l book wall now) (hw : wall ≤ wall') (hn : now ≤ now') (id : Nat)
    (tokens : Option Nat) (cost : Option ℚ) :
    (l.reconcile id tokens cost wall' now').minute = (l.prune now').minute ∨
    ∃ r ∈ book, r.id = id ∧ r.isActive ∧ expired now' r.startedAt = false := by
  unfold KeyLedger.reconcile
  dsimp only
  split
  case h_1 => exact .inl rfl
  case h_2 a hsome =>
    obtain ⟨r, hr, hact, rfl, rfl⟩ := (A.advance hw hn).lookup_eq_some.mp hsome
    cases hy : expired now' r.startedAt with
    | true => exact .inl (if_pos hy)
    | false => exact .inr ⟨r, hr, rfl, hact, hy⟩

/-- A step leaves the queue as it was or pruned, unless it completes a young request. -/
theorem Accounted.minute_step {s s' : KeyAdmission} {a : Action}
    (A : Accounted s.ledger s.book s.wall s.instant) (hs : s.step H a = some s') :
    s'.ledger.minute = s.ledger.minute ∨
    (∃ now, s.instant ≤ now ∧ s'.ledger.minute = (s.ledger.prune now).minute) ∨
    ∃ id tokens cost wall now, a = .reconcile id tokens cost wall now ∧ s.wall ≤ wall ∧
      s.instant ≤ now ∧ ∃ r ∈ s.book, r.id = id ∧ r.isActive ∧ expired now r.startedAt = false ∧
        s'.ledger.minute =
          (s.ledger.prune now).minute ++ [⟨r.startedAt, tokens.getD r.estimate.tokens⟩] := by
  cases a with
  | reserve id key estimate wall now =>
    simp only [KeyAdmission.step] at hs
    split at hs
    case isFalse => cases hs
    case isTrue hg =>
      refine .inr (.inl ⟨now, hg.2.1, ?_⟩)
      rcases s.ledger.reserve_cases H id key estimate wall now with ⟨-, hr⟩ | ⟨e, hr⟩
      · rw [hr] at hs
        cases hs
        rfl
      · rw [hr] at hs
        cases hs
        rfl
  | checkCurrent key wall now =>
    simp only [KeyAdmission.step] at hs
    split at hs
    case isFalse => cases hs
    case isTrue hg =>
      cases hs
      exact .inr (.inl ⟨now, hg.2, rfl⟩)
  | reconcile id tokens cost wall now =>
    simp only [KeyAdmission.step] at hs
    split at hs
    case isFalse => cases hs
    case isTrue hg =>
      cases hs
      rcases A.minute_reconcile hg.1 hg.2 id tokens cost with h | ⟨r, hr, rfl, hact, hy⟩
      · exact .inr (.inl ⟨now, hg.2, h⟩)
      · exact .inr (.inr ⟨r.id, tokens, cost, wall, now, rfl, hg.1, hg.2, r, hr, rfl, hact, hy,
          A.minute_reconcile_of_mem hg.1 hg.2 hr hact hy tokens cost⟩)
  | cancel id =>
    cases hs
    exact .inl rfl

/-- A step that completes requests in order keeps the queue in order of time. -/
theorem KeyLedger.Sorted.step {s s' : KeyAdmission} {a : Action} (h : s.ledger.Sorted)
    (A : Accounted s.ledger s.book s.wall s.instant) (hin : InOrder s a)
    (hs : s.step H a = some s') : s'.ledger.Sorted := by
  unfold KeyLedger.Sorted
  obtain hm | ⟨now, -, hm⟩ | ⟨id, tokens, cost, wall, now, rfl, hw, hn, r, hr, hid, hact, hy, hm⟩ :=
    A.minute_step hs
  · rwa [hm]
  · rw [hm]
    exact h.prune now
  · rw [hm, List.pairwise_append]
    refine ⟨h.prune now, List.pairwise_singleton _ _, ?_⟩
    intro use hu last hlast
    rw [List.mem_singleton.mp hlast]
    obtain ⟨done, hd, hset, rfl⟩ := (A.advance hw hn).toRecorded.settled_of_mem
      (by rw [filter_young_prune]; exact (h.minute_prune now).symm) hu
    exact Int.ofNat_le.mpr (hin r hr hid hact hy done hd hset)

/-! ## What is reported -/

/-- A queue in order of time reports no request that is outside the window. -/
theorem Current.reported_le {wall : Int} (C : Current l book wall now)
    (hyoung : l.minute.filter (young now) = l.minute) :
    let t := (H.values now l.active).foldl (Totals.addActive wall now)
      ⟨l.minute.length, l.minuteTokens, l.dailySpend, l.monthlySpend⟩
    t.requests ≤ (inWindow book now).length ∧
      t.tokens ≤ ((inWindow book now).map Reservation.tokens).sum := by
  obtain ⟨⟨-, hr⟩, ⟨-, ht⟩⟩ := foldl_addActive_counts wall now (H.values now l.active)
    ⟨l.minute.length, l.minuteTokens, l.dailySpend, l.monthlySpend⟩
  have hlen := C.window_length H
  have htok := C.window_tokens H
  have hmod : l.minuteTokens ≤ (l.minute.map (·.tokens)).sum := Nat.mod_le _ _
  rw [hyoung] at hlen htok
  dsimp only at hr ht ⊢
  constructor
  · omega
  · omega

/-- The decision of `reserve` is that of its checks. -/
theorem KeyLedger.snd_reserve (l : KeyLedger) (id : Nat) (key : VirtualKeyRow)
    (estimate : AdmissionEstimate) (wall : Int) (now : Nat) :
    (l.reserve H id key estimate wall now).2 =
      key.checkRequest (l.current H wall now).2 estimate := by
  unfold KeyLedger.reserve
  cases h : key.checkRequest (l.current H wall now).2 estimate with
  | ok u | error e => simp [h]

/-- Totals within the rate limits leave the decision of `reserve` to the budgets. -/
theorem VirtualKeyRow.RatesAllow.checkRequest {key : VirtualKeyRow} {t : Totals}
    {estimate : AdmissionEstimate} {requests tokens : Nat}
    (h : key.RatesAllow (requests + 1) (tokens + estimate.tokens)) (hr : t.requests ≤ requests)
    (ht : t.tokens ≤ tokens) :
    key.checkRequest t estimate = key.budgetsOnly.checkRequest t estimate := by
  have hrpm : ∀ error, refuseOver (positiveLimit key.rpmLimit)
      (fun rpm => rpm.toInt.toNat < saturatingAdd t.requests 1) error = .ok () := by
    refine fun error => refuseOver_eq_ok.mpr fun rpm hl => ?_
    have := h.1 rpm hl
    refine decide_eq_false ?_
    unfold saturatingAdd
    omega
  have htpm : ∀ error, refuseOver (positiveLimit key.tpmLimit)
      (fun tpm => tpm.toInt.toNat < saturatingAdd t.tokens estimate.tokens) error = .ok () := by
    refine fun error => refuseOver_eq_ok.mpr fun tpm hl => ?_
    have := h.2 tpm hl
    refine decide_eq_false ?_
    unfold saturatingAdd
    omega
  unfold VirtualKeyRow.checkRequest
  rw [hrpm, htpm]
  rfl

theorem VirtualKeyRow.RatesAllow.checkTotals {key : VirtualKeyRow} {t : Totals}
    {requests tokens : Nat} (h : key.RatesAllow (requests + 1) (tokens + 1))
    (hr : t.requests ≤ requests) (ht : t.tokens ≤ tokens) :
    key.checkTotals t = key.budgetsOnly.checkTotals t := by
  have hrpm : ∀ error, refuseOver (positiveLimit key.rpmLimit)
      (fun rpm => rpm.toInt.toNat ≤ t.requests) error = .ok () := by
    refine fun error => refuseOver_eq_ok.mpr fun rpm hl => ?_
    have := h.1 rpm hl
    refine decide_eq_false ?_
    omega
  have htpm : ∀ error, refuseOver (positiveLimit key.tpmLimit)
      (fun tpm => tpm.toInt.toNat ≤ t.tokens) error = .ok () := by
    refine fun error => refuseOver_eq_ok.mpr fun tpm hl => ?_
    have := h.2 tpm hl
    refine decide_eq_false ?_
    omega
  unfold VirtualKeyRow.checkTotals
  rw [hrpm, htpm]
  rfl

/-- A queue in order of time makes every later report exact. -/
theorem Accounted.windowExact {s : KeyAdmission} {wall : Int}
    (A : Accounted s.ledger s.book s.wall s.instant) (hsorted : s.ledger.Sorted)
    (hw : s.wall ≤ wall) (hn : s.instant ≤ now) : WindowExact H s wall now := by
  have C := A.advance hw hn
  have hyoung := KeyLedger.Sorted.minute_prune (l := s.ledger.rollPeriods wall) hsorted now
  obtain ⟨covers, htokens⟩ := C.covers H
  obtain ⟨hr, ht⟩ := C.reported_le (by rw [filter_young_prune, hyoung])
  exact {
    requests := fun hfit => le_antisymm hr ((min_eq_left hfit).symm.le.trans covers.requests)
    tokens := by
      intro hfit
      refine le_antisymm ht ((min_eq_left hfit).symm.le.trans (htokens ?_))
      -- The queue is a part of the window, so its sum fits as well.
      have hwin := C.window_tokens H
      rw [filter_young_prune, ← hyoung] at hwin
      unfold Summable
      omega
    reserve := by
      intro id key estimate hallow
      rw [KeyLedger.snd_reserve, KeyLedger.snd_reserve]
      exact hallow.checkRequest hr ht
    checkCurrent := fun key hallow => hallow.checkTotals hr ht }

/-- In every run in which requests complete in the order in which they began, each later report is
exact, and no request is refused on account of a reservation outside the window. -/
theorem window_exact {wall₀ : Int} {now₀ : Nat} {as : List Action} {s : KeyAdmission}
    (h : (machine H wall₀ now₀).run as = some s)
    (hin : (machine H wall₀ now₀).Meets (fun _ => InOrder) as)
    {wall : Int} {now : Nat} (hw : s.wall ≤ wall) (hn : s.instant ≤ now) :
    WindowExact H s wall now := by
  have hinv : Accounted s.ledger s.book s.wall s.instant ∧ s.ledger.Sorted :=
    (machine H wall₀ now₀).run_induction_of_meets
      (I := fun _ s => Accounted s.ledger s.book s.wall s.instant ∧ s.ledger.Sorted)
      ⟨accounted_start wall₀ now₀, List.Pairwise.nil⟩
      (fun _ _ _ _ hI hC hs => ⟨hI.1.step hs, hI.2.step hI.1 hC hs⟩) as s hin h
  exact hinv.1.windowExact hinv.2 hw hn

/-- Two requests that complete in the order of their starts. -/
def orderlyRun : List Action :=
  [.reserve 1 sampleKey ⟨10, none⟩ 0 0,
    .reserve 2 sampleKey ⟨10, none⟩ (seconds 30) 30000000000,
    .reconcile 1 (some 5) none (seconds 40) 40000000000,
    .reconcile 2 (some 5) none (seconds 50) 50000000000]

theorem window_exact_orderly : ∃ s, (machine .newestFirst 0 0).run orderlyRun = some s ∧
    (s.ledger.current .newestFirst (seconds 61) 61000000000).2.requests = 1 := by
  obtain ⟨s, hs, hw, hn, hone⟩ : ∃ s ∈ (machine .newestFirst 0 0).run orderlyRun,
      s.wall ≤ seconds 61 ∧
      s.instant ≤ 61000000000 ∧ (inWindow s.book 61000000000).length = 1 := by
    decide +kernel
  have hin : (machine .newestFirst 0 0).Meets (fun _ => InOrder) orderlyRun :=
    Machine.Along.meets _ (by decide +kernel)
  have hexact := (window_exact hs hin hw hn).requests (by rw [hone]; decide)
  exact ⟨s, hs, hexact.trans hone⟩

/-- The limits of a key that admits two requests a minute. -/
def twoPerMinute : VirtualKeyRow := { rpmLimit := some 2 }

/-- The request of second 30 completes before the one of second 0. -/
def overtakingRun : List Action :=
  [.reserve 1 twoPerMinute ⟨10, none⟩ 0 0,
    .reserve 2 twoPerMinute ⟨10, none⟩ (seconds 30) 30000000000,
    .reconcile 2 (some 5) none (seconds 31) 31000000000,
    .reconcile 1 (some 5) none (seconds 59) 59000000000]

/-- After the minute of the first request, its entry still counts, and the limit of two refuses what
would be the second request of the minute. -/
theorem window_not_exact :
    (∃ s, (machine .newestFirst 0 0).run overtakingRun = some s ∧ s.wall ≤ seconds 61 ∧
      s.instant ≤ 61000000000 ∧ (inWindow s.book 61000000000).length = 1 ∧
      (s.ledger.reserve .newestFirst 3 twoPerMinute ⟨10, none⟩ (seconds 61) 61000000000).2 =
        .error (.rateLimited "rate limit exceeded: 2 requests per minute" (some 60))) ∧
    ¬ ∀ as s wall now, (machine .newestFirst 0 0).run as = some s → s.wall ≤ wall →
      s.instant ≤ now →
      WindowExact .newestFirst s wall now := by
  obtain ⟨s, hs, hw, hn, hone, hrefused, htwo⟩ :
      ∃ s ∈ (machine .newestFirst 0 0).run overtakingRun, s.wall ≤ seconds 61 ∧
        s.instant ≤ 61000000000 ∧
        (inWindow s.book 61000000000).length = 1 ∧
        (s.ledger.reserve .newestFirst 3 twoPerMinute ⟨10, none⟩ (seconds 61) 61000000000).2 =
          .error (.rateLimited "rate limit exceeded: 2 requests per minute" (some 60)) ∧
        (s.ledger.current .newestFirst (seconds 61) 61000000000).2.requests = 2 := by
    decide +kernel
  refine ⟨⟨s, hs, hw, hn, hone, hrefused⟩, fun hall => ?_⟩
  have hexact := (hall _ s _ _ hs hw hn).requests (by rw [hone]; decide)
  rw [htwo, hone] at hexact
  exact absurd hexact (by decide)

/-- Whatever the order in which requests complete, an idle minute empties the window: what stayed in
the queue behind younger entries no longer counts. -/
theorem idle_window_empty {wall₀ : Int} {now₀ : Nat} {as : List Action} {s : KeyAdmission}
    (h : (machine H wall₀ now₀).run as = some s) {wall : Int} {now : Nat} (hw : s.wall ≤ wall)
    (hn : s.instant ≤ now) (hidle : inWindow s.book now = []) :
    (s.ledger.current H wall now).2.requests = 0 ∧ (s.ledger.current H wall now).2.tokens = 0 := by
  have C := (accounted_run h).advance hw hn
  have hlen := C.window_length H
  rw [hidle, List.length_nil] at hlen
  have hqueue : ((s.ledger.rollPeriods wall).prune now).minute = [] := by
    have hnone := List.eq_nil_of_length_eq_zero (Nat.eq_zero_of_add_eq_zero_left hlen.symm)
    rw [filter_young_prune, List.filter_eq_nil_iff] at hnone
    exact List.dropWhile_eq_nil_iff.mpr fun use huse => by simpa [young] using hnone use huse
  obtain ⟨hr, ht⟩ := C.reported_le (by rw [hqueue]; rfl)
  rw [hidle] at hr ht
  exact ⟨Nat.le_zero.mp hr, Nat.le_zero.mp ht⟩

theorem idle_window_empty_overtaken : ∃ s, (machine .newestFirst 0 0).run overtakingRun = some s ∧
    (s.ledger.current .newestFirst (seconds 91) 91000000000).2.requests = 0 := by
  obtain ⟨s, hs, hw, hn, hidle⟩ : ∃ s ∈ (machine .newestFirst 0 0).run overtakingRun,
      s.wall ≤ seconds 91 ∧
      s.instant ≤ 91000000000 ∧ (inWindow s.book 91000000000).length = 0 := by
    decide +kernel
  exact ⟨s, hs, (idle_window_empty hs hw hn (List.eq_nil_of_length_eq_zero hidle)).1⟩

/-- Every sum that is computed for the minute window at a time is in the range of the counter. -/
structure SumsInRange (H : HashOrder) (l : KeyLedger) (wall : Int) (now : Nat) : Prop where
  queue : Summable (l.current H wall now).1
  window : (l.current H wall now).2.tokens ≤ u64Max
  withEstimate : ∀ estimate : AdmissionEstimate,
    saturatingAdd (l.current H wall now).2.tokens estimate.tokens ≤ u64Max

/-- The sums are in range whenever they are computed next. -/
def NoOverflow (H : HashOrder) (s : KeyAdmission) : Prop :=
  ∀ wall now, s.wall ≤ wall → s.instant ≤ now → SumsInRange H s.ledger wall now

/-- The tokens of a request that is reconciled within its minute fit the counter together with those
of the queue. -/
def FitsQueue (s : KeyAdmission) : Action → Prop
  | .reconcile id actualTokens _ wall now => s.wall ≤ wall → s.instant ≤ now →
      ∀ r ∈ s.book, r.id = id → r.isActive → expired now r.startedAt = false →
        ((s.ledger.prune now).minute.map (·.tokens)).sum +
          actualTokens.getD r.estimate.tokens ≤ u64Max
  | .reserve .. | .checkCurrent .. | .cancel _ => True

variable {l : KeyLedger}

theorem Summable.prune (h : Summable l) (now : Nat) : Summable (l.prune now) := by
  refine le_trans ?_ h
  exact ((List.dropWhile_suffix _).sublist.map _).sum_le_sum (by simp)

/-- The loop over the active reservations saturates. -/
theorem foldl_addActive_tokens_le (nowWall : Int) (now : Nat) (as : List ActiveReservation)
    {t : Totals} (h : t.tokens ≤ u64Max) :
    (as.foldl (Totals.addActive nowWall now) t).tokens ≤ u64Max := by
  induction as generalizing t with
  | nil => exact h
  | cons a as ih =>
    rw [List.foldl_cons]
    refine ih ?_
    simp only [Totals.addActive]
    split
    · exact h
    · exact min_le_right _ _

/-- Only the sum of the queue can leave the range. -/
theorem sumsInRange_iff {wall : Int} {now : Nat} :
    SumsInRange H l wall now ↔ Summable (l.prune now) := by
  constructor
  · exact fun h => h.queue
  · intro h
    have hqueue : KeyLedger.minuteTokens ((l.rollPeriods wall).prune now) ≤ u64Max :=
      Nat.le_of_lt_succ (Nat.mod_lt _ (Nat.succ_pos _))
    exact {
      queue := h
      window := foldl_addActive_tokens_le wall now _ hqueue
      withEstimate := fun _ => min_le_right _ _ }

/-- A step whose completed request fits keeps the sum of the queue in range. -/
theorem Summable.step {s s' : KeyAdmission} {a : Action} (h : Summable s.ledger)
    (A : Accounted s.ledger s.book s.wall s.instant) (hfits : FitsQueue s a)
    (hs : s.step H a = some s') : Summable s'.ledger := by
  obtain hm | ⟨now, -, hm⟩ | ⟨id, tokens, cost, wall, now, rfl, hw, hn, r, hr, hid, hact, hy, hm⟩ :=
    A.minute_step hs
  · rwa [Summable, hm]
  · rw [Summable, hm]
    exact h.prune now
  · rw [Summable, hm, List.map_append, List.sum_append, List.map_singleton, List.sum_singleton]
    exact hfits hw hn r hr hid hact hy

/-- The queue that a young request has joined needs no pruning. -/
theorem prune_of_append {q : List MinuteUse} {use : MinuteUse} {now : Nat}
    (hm : l.minute = q.dropWhile (fun entry => expired now entry.startedAt) ++ [use])
    (hy : expired now use.startedAt = false) : (l.prune now).minute = l.minute := by
  simp only [KeyLedger.prune, hm, List.dropWhile_append, List.dropWhile_idempotent]
  split
  case isTrue hnil =>
    rw [List.isEmpty_iff.mp hnil, List.dropWhile_cons_of_neg (by simp [hy]), List.nil_append]
  case isFalse => rfl

theorem noOverflow_iff {s : KeyAdmission} :
    NoOverflow H s ↔ ∀ now, s.instant ≤ now → Summable (s.ledger.prune now) := by
  constructor
  · exact fun h now hn => sumsInRange_iff.mp (h s.wall now le_rfl hn)
  · exact fun h wall now _ hn => sumsInRange_iff.mpr (h now hn)

/-- A step after which no sum overflows has recorded a request that fits. -/
theorem NoOverflow.fitsQueue {s : KeyAdmission} {a : Action}
    (A : Accounted s.ledger s.book s.wall s.instant)
    (h : ∀ s', s.step H a = some s' → NoOverflow H s') : FitsQueue s a := by
  cases a with
  | reconcile id tokens cost wall now =>
    intro hw hn r hr hid hact hy
    subst hid
    have hafter := noOverflow_iff.mp (h _ (if_pos ⟨hw, hn⟩)) now le_rfl
    have hm := A.minute_reconcile_of_mem hw hn hr hact hy tokens cost
    rw [Summable, prune_of_append hm hy, hm, List.map_append, List.sum_append, List.map_singleton,
      List.sum_singleton] at hafter
    exact hafter
  | reserve | checkCurrent | cancel => trivial

/-- In every state of a run the sums are in range whenever they are computed next, if and only if
each completed request fits the counter with the queue that it joins. -/
theorem no_overflow_iff (wall₀ : Int) (now₀ : Nat) (as : List Action) :
    (∀ pre post s, as = pre ++ post → (machine H wall₀ now₀).run pre = some s → NoOverflow H s) ↔
      (machine H wall₀ now₀).Meets (fun _ => FitsQueue) as := by
  constructor
  · intro h pre a post s he hs
    refine NoOverflow.fitsQueue (H := H) (accounted_run hs) fun s' hstep => ?_
    refine h (pre ++ [a]) post s' (by simp [he]) ?_
    exact (Machine.run_snoc_eq_some _).mpr ⟨s, hs, hstep⟩
  · rintro h pre post s rfl hs
    have hinv : Accounted s.ledger s.book s.wall s.instant ∧ Summable s.ledger :=
      (machine H wall₀ now₀).run_induction_of_meets
        (I := fun _ s => Accounted s.ledger s.book s.wall s.instant ∧ Summable s.ledger)
        ⟨accounted_start wall₀ now₀, Nat.zero_le _⟩
        (fun _ _ _ _ hI hC hs => ⟨hI.1.step hs, hI.2.step hI.1 hC hs⟩) pre s (h.of_append _) hs
    exact noOverflow_iff.mpr fun now _ => hinv.2.prune now

/-- Two upstreams report usages that together exceed the counter by one. -/
def hugeUsages : List Action :=
  [.reserve 1 {} ⟨10, none⟩ 0 0,
    .reserve 2 {} ⟨10, none⟩ 0 0,
    .reconcile 1 (some u64Max) none 0 0,
    .reconcile 2 (some 1) none 0 0]

/-- The sum wraps to zero, and the token limit lets the next request in. -/
theorem sum_overflows :
    (∃ s, (machine .newestFirst 0 0).run hugeUsages = some s ∧
      (s.ledger.current .newestFirst 0 0).2.tokens = 0 ∧
      (s.ledger.reserve .newestFirst 3 sampleKey ⟨10, none⟩ 0 0).2 = .ok ()) ∧
    ¬ ∀ as s, (machine .newestFirst 0 0).run as = some s → NoOverflow .newestFirst s := by
  obtain ⟨s, hs, hzero, hok, hnow, hsum⟩ : ∃ s ∈ (machine .newestFirst 0 0).run hugeUsages,
      (s.ledger.current .newestFirst 0 0).2.tokens = 0 ∧
        (s.ledger.reserve .newestFirst 3 sampleKey ⟨10, none⟩ 0 0).2 = .ok () ∧
        s.instant ≤ 0 ∧ u64Max < ((s.ledger.prune 0).minute.map (·.tokens)).sum := by
    decide +kernel
  refine ⟨⟨s, hs, hzero, hok⟩, fun hall => ?_⟩
  exact absurd (noOverflow_iff.mp (hall _ s hs) 0 hnow) (not_le.mpr hsum)

end Kinetix.Admission
