import Kinetix.Alerts.Evaluation

/-!
# Alerts end with their conditions

The latches agree with the active alerts, so each block of an evaluation is the edge-triggered test
of one condition, and the tests of an evaluation are of different keys. What is sent for a key
alternates. An evaluation leaves just the alerts active whose conditions hold, if it still tests
each alert that was active before it.
-/

namespace Kinetix.Alerts
open EdgeTrigger KeyedTable StateMachine

/-! ## One block -/

namespace Test

def key : Test → AlertKey
  | condition key _ => key
  | latency .. => .highAddedLatency
  | credentials _ => .credentialRefreshFailed

/-- The condition that is tested, if the latency has been too high since an instant. -/
def holds (since : Option Nat) : Test → Bool
  | condition _ holds => holds
  | latency p95 breach now =>
    match p95 with
    | some p95 => breach < p95 && sustained ≤ now - since.getD now
    | none => false
  | credentials fails => 0 < fails

end Test

/-- The latches agree with the active alerts. -/
structure AlertState.Latched (s : AlertState) (now : Nat) : Prop where
  credentials : s.credentialFailureAlerted = true ↔ .credentialRefreshFailed ∈ s.active
  latency : .highAddedLatency ∈ s.active →
    ∃ since, s.latencyBreachSince = some since ∧ sustained ≤ now - since

namespace AlertState
variable {s : AlertState} {now now' : Nat} {key : AlertKey} {t : Test}

theorem Latched.mono (h : s.Latched now) (hle : now ≤ now') : s.Latched now' where
  credentials := h.credentials
  latency hmem := by
    obtain ⟨since, hsince, hlong⟩ := h.latency hmem
    exact ⟨since, hsince, hlong.trans (Nat.sub_le_sub_right hle since)⟩

theorem fire_eq (s : AlertState) (key : AlertKey) :
    s.fire key = ({ s with active := (test key true s.active).1 }, (test key true s.active).2) := by
  rw [fire, shouldFire, test, if_pos rfl]
  by_cases hmem : key ∈ s.active <;> simp [hmem]

theorem resolve_eq (s : AlertState) (key : AlertKey) :
    s.resolve key =
      ({ s with active := (test key false s.active).1 }, (test key false s.active).2) := by
  rw [resolve, shouldResolve, test, if_neg Bool.false_ne_true]
  by_cases hmem : key ∈ s.active <;> simp [hmem]

/-- A block is the test of its condition. -/
structure Tests (s : AlertState) (now : Nat) (t : Test) : Prop where
  active : (s.take t).1.active = (test t.key (t.holds s.latencyBreachSince) s.active).1
  signals : (s.take t).2 = (test t.key (t.holds s.latencyBreachSince) s.active).2
  latched : (s.take t).1.Latched now
  since : t.key ≠ .highAddedLatency → (s.take t).1.latencyBreachSince = s.latencyBreachSince

theorem Latched.condition (h : s.Latched now) (holds : Bool)
    (hcredentials : key ≠ .credentialRefreshFailed) (hlatency : key ≠ .highAddedLatency) :
    s.Tests now (.condition key holds) := by
  have htake : s.take (.condition key holds) =
      ({ s with active := (test key holds s.active).1 }, (test key holds s.active).2) := by
    rw [take]
    cases holds with
    | true => exact s.fire_eq key
    | false => exact s.resolve_eq key
  constructor
  · rw [htake]
    rfl
  · rw [htake]
    rfl
  · rw [htake]
    constructor
    · rw [mem_test, if_neg hcredentials.symm]
      exact h.credentials
    · rw [mem_test, if_neg hlatency.symm]
      exact h.latency
  · intro _
    rw [htake]

theorem Latched.credentialsTest (h : s.Latched now) (fails : Nat) :
    s.Tests now (.credentials fails) := by
  have htake : s.take (.credentials fails) =
      ({ s with
          active := (test .credentialRefreshFailed (0 < fails) s.active).1
          credentialFailureAlerted := 0 < fails },
        (test .credentialRefreshFailed (0 < fails) s.active).2) := by
    rw [take]
    by_cases hfails : 0 < fails
    · rw [if_pos hfails]
      by_cases halerted : s.credentialFailureAlerted = true
      · have hmem := h.credentials.mp halerted
        cases s
        simp_all [test]
      · rw [if_neg halerted, fire_eq]
        simp [hfails]
    · rw [if_neg hfails, resolve_eq]
      simp [hfails]
  constructor
  · rw [htake]
    rfl
  · rw [htake]
    rfl
  · rw [htake]
    constructor
    · rw [mem_test, if_pos rfl]
    · rw [mem_test, if_neg (by decide)]
      exact h.latency
  · intro _
    rw [htake]

theorem Latched.latencyReset (h : s.Latched now) {p95 : Option Nat} {breach : Nat}
    (htake : s.take (.latency p95 breach now) =
      ({ s with latencyBreachSince := none } : AlertState).resolve .highAddedLatency)
    (hholds : Test.holds s.latencyBreachSince (.latency p95 breach now) = false) :
    s.Tests now (.latency p95 breach now) := by
  rw [resolve_eq] at htake
  constructor
  · rw [htake, hholds]
    rfl
  · rw [htake, hholds]
    rfl
  · rw [htake]
    constructor
    · rw [mem_test, if_neg (by decide)]
      exact h.credentials
    · rw [mem_test, if_pos rfl]
      exact fun hfalse => absurd hfalse Bool.false_ne_true
  · exact fun hne => absurd rfl hne

theorem Latched.latencyTest (h : s.Latched now) (p95 : Option Nat) (breach : Nat) :
    s.Tests now (.latency p95 breach now) := by
  cases p95 with
  | none => exact h.latencyReset rfl rfl
  | some p95 =>
    by_cases hbreach : breach < p95
    · have hholds : Test.holds s.latencyBreachSince (.latency (some p95) breach now) =
          decide (sustained ≤ now - s.latencyBreachSince.getD now) := by
        simp [Test.holds, hbreach]
      have htake : s.take (.latency (some p95) breach now) =
          ({ s with
              active := (test .highAddedLatency
                (sustained ≤ now - s.latencyBreachSince.getD now) s.active).1
              latencyBreachSince := some (s.latencyBreachSince.getD now) },
            (test .highAddedLatency
              (sustained ≤ now - s.latencyBreachSince.getD now) s.active).2) := by
        simp only [take, if_pos hbreach]
        by_cases hlong : sustained ≤ now - s.latencyBreachSince.getD now
        · rw [if_pos hlong, fire_eq, decide_eq_true hlong]
        · -- An active alert has been sustained, so there is nothing to be cleared.
          have hmem : .highAddedLatency ∉ s.active := by
            intro hmem
            obtain ⟨since, hsince, hsustained⟩ := h.latency hmem
            rw [hsince, Option.getD_some] at hlong
            exact hlong hsustained
          rw [if_neg hlong, decide_eq_false hlong, test, if_neg Bool.false_ne_true, if_neg hmem]
      constructor
      · rw [htake, hholds]
        rfl
      · rw [htake, hholds]
        rfl
      · rw [htake]
        constructor
        · rw [mem_test, if_neg (by decide)]
          exact h.credentials
        · rw [mem_test, if_pos rfl, decide_eq_true_iff]
          exact fun hlong => ⟨_, rfl, hlong⟩
      · exact fun hne => absurd rfl hne
    · refine h.latencyReset ?_ (by simp [Test.holds, hbreach])
      simp only [take, if_neg hbreach]

/-- Each block is the test of its condition. -/
theorem Latched.tests (h : s.Latched now)
    (hnow : ∀ p95 breach n, t = .latency p95 breach n → n = now)
    (hkey : ∀ key holds, t = .condition key holds →
      key ≠ .credentialRefreshFailed ∧ key ≠ .highAddedLatency) : s.Tests now t := by
  cases t with
  | condition key holds =>
    obtain ⟨hcredentials, hlatency⟩ := hkey key holds rfl
    exact h.condition holds hcredentials hlatency
  | latency p95 breach n =>
    obtain rfl := hnow p95 breach n rfl
    exact h.latencyTest p95 breach
  | credentials fails => exact h.credentialsTest fails

/-! ## The blocks of an evaluation -/

/-- The blocks of one evaluation: each is of another key. -/
structure Blocks (now : Nat) (tests : List Test) : Prop where
  distinct : (tests.map Test.key).Nodup
  now : ∀ t ∈ tests, ∀ p95 breach n, t = .latency p95 breach n → n = now
  own : ∀ t ∈ tests, ∀ key holds, t = .condition key holds →
    key ≠ .credentialRefreshFailed ∧ key ≠ .highAddedLatency

/-- The tests that the blocks are. -/
def conditions (since : Option Nat) (tests : List Test) : List (AlertKey × Bool) :=
  tests.map fun t => (t.key, t.holds since)

theorem holds_of_ne {since since' : Option Nat} (h : t.key ≠ .highAddedLatency) :
    t.holds since = t.holds since' := by
  cases t with
  | condition key holds | credentials fails => rfl
  | latency p95 breach n => exact absurd rfl h

theorem takeAll_spec {tests : List Test} (hb : Blocks now tests) (h : s.Latched now) :
    (s.takeAll tests).1.active = (round (conditions s.latencyBreachSince tests) s.active).1 ∧
      (s.takeAll tests).2 = (round (conditions s.latencyBreachSince tests) s.active).2 ∧
      (s.takeAll tests).1.Latched now := by
  induction tests generalizing s with
  | nil => exact ⟨rfl, rfl, h⟩
  | cons t tests ih =>
    obtain ⟨hnew, htail⟩ := List.nodup_cons.mp (List.map_cons ▸ hb.distinct)
    have hb' : Blocks now tests :=
      { distinct := htail
        now := fun u hu => hb.now u (List.mem_cons_of_mem t hu)
        own := fun u hu => hb.own u (List.mem_cons_of_mem t hu) }
    have ht := h.tests (hb.now t List.mem_cons_self) (hb.own t List.mem_cons_self)
    -- The other blocks see the latch of the latency as it was, or do not look at it.
    have hconditions : conditions (s.take t).1.latencyBreachSince tests =
        conditions s.latencyBreachSince tests := by
      refine List.map_congr_left fun u hu => congrArg (Prod.mk u.key) ?_
      by_cases hkey : t.key = .highAddedLatency
      · refine holds_of_ne fun hu' => hnew ?_
        rw [hkey, ← hu']
        exact List.mem_map_of_mem hu
      · rw [ht.since hkey]
    obtain ⟨hactive, hsignals, hlatched⟩ := ih hb' ht.latched
    rw [hconditions, ht.active] at hactive hsignals
    refine ⟨hactive, ?_, hlatched⟩
    change (s.take t).2 ++ ((s.take t).1.takeAll tests).2 = _
    rw [hsignals, ht.signals]
    rfl

end AlertState

/-! ## The blocks of a plan -/

open AlertState (Blocks)

/-- The place of a key's block in an evaluation. -/
def AlertKey.place (key : AlertKey) : Nat := key.parts.1

/-- The blocks are of keys from a place on. -/
structure Plan.From (now n : Nat) (p : Plan) : Prop where
  blocks : Blocks now p.tests
  place : ∀ t ∈ p.tests, n ≤ t.key.place

theorem blocks_nil (now : Nat) : Blocks now [] where
  distinct := List.nodup_nil
  now _ ht := absurd ht List.not_mem_nil
  own _ ht := absurd ht List.not_mem_nil

/-- Blocks of different conditions. -/
theorem blocks_conditions {α : Type} {now : Nat} {l : List α} (key : α → AlertKey)
    (holds : α → Bool) (hkeys : (l.map key).Nodup)
    (hown : ∀ a ∈ l, key a ≠ .credentialRefreshFailed ∧ key a ≠ .highAddedLatency) :
    Blocks now (l.map fun a => .condition (key a) (holds a)) where
  distinct := by
    rw [List.map_map]
    exact hkeys
  now t ht p95 breach n heq := by
    obtain ⟨a, -, rfl⟩ := List.mem_map.mp ht
    cases heq
  own t ht k h heq := by
    obtain ⟨a, ha, rfl⟩ := List.mem_map.mp ht
    cases heq
    exact hown a ha

namespace Plan.From
variable {now n m : Nat} {p : Plan} {tests : List Test}

theorem empty (complete : Bool) : Plan.From now n ⟨[], complete⟩ where
  blocks := blocks_nil now
  place _ ht := absurd ht List.not_mem_nil

theorem reading {α : Type} {r : Option α} {p : α → Plan} (h : ∀ a, Plan.From now n (p a)) :
    Plan.From now n (.reading r p) := by
  cases r with
  | none => exact empty false
  | some a => exact h a

theorem andThen (hb : Blocks now tests) (hn : ∀ t ∈ tests, n ≤ t.key.place)
    (hm : ∀ t ∈ tests, t.key.place < m) (hnm : n ≤ m) (h : Plan.From now m p) :
    Plan.From now n (.andThen tests p) where
  blocks := {
    distinct := by
      rw [Plan.andThen, List.map_append]
      refine List.nodup_append.mpr ⟨hb.distinct, h.blocks.distinct, ?_⟩
      intro k hk k' hk' heq
      obtain ⟨t, ht, rfl⟩ := List.mem_map.mp hk
      obtain ⟨t', ht', rfl⟩ := List.mem_map.mp hk'
      have hlt := hm t ht
      have hle := h.place t' ht'
      rw [heq] at hlt
      omega
    now := fun t ht => (List.mem_append.mp ht).elim (hb.now t) (h.blocks.now t)
    own := fun t ht => (List.mem_append.mp ht).elim (hb.own t) (h.blocks.own t) }
  place t ht := (List.mem_append.mp ht).elim (hn t) fun ht => hnm.trans (h.place t ht)

end Plan.From

section
variable {F : Type} (A : Arithmetic F) (c : Config F) (r : Reading F)

theorem place_rateTests {recent : List UsageLogRow} :
    ∀ t ∈ rateTests A c recent, t.key.place < 2 := by
  intro t ht
  rw [rateTests] at ht
  split at ht
  · rcases List.mem_cons.mp ht with rfl | ht
    · exact Nat.zero_lt_two
    · rw [List.mem_singleton.mp ht]
      exact Nat.one_lt_two
  · cases ht

variable {t : Test} (now : Nat)

theorem blocks_rateTests (recent : List UsageLogRow) : Blocks now (rateTests A c recent) := by
  rw [rateTests]
  split
  · exact blocks_conditions (l := [(AlertKey.highFallbackRate, _), (.highErrorRate, _)])
      Prod.fst Prod.snd (by simp) (by simp)
  · exact blocks_nil now

theorem blocks_accountTests (accounts : Table AccountRow.id) :
    Blocks now (accountTests accounts.rows) := by
  refine blocks_conditions (fun a => .accountUnhealthy a.id) isUnhealthy ?_ (by simp)
  have hids := accounts.primaryKey.map (f := AlertKey.accountUnhealthy)
    fun a b h => by simpa using h
  rwa [List.map_map] at hids

theorem mem_budgetTests {rows : List (KeyBudgetRow F)} :
    t ∈ budgetTests A rows ↔ ∃ row ∈ rows, ∃ budget ∈ positiveBudget A row,
      t = .condition (.keyBudget row.id) (A.atLeast row.spend (A.share budget)) := by
  simp [budgetTests, List.mem_filterMap, eq_comm]

theorem blocks_budgetTests (rows : Table (KeyBudgetRow.id (F := F))) :
    Blocks now (budgetTests A rows.rows) where
  distinct := by
    have hsublist : ∀ rows : List (KeyBudgetRow F),
        ((budgetTests A rows).map Test.key).Sublist (rows.map fun row => .keyBudget row.id) := by
      intro rows
      induction rows with
      | nil => exact List.Sublist.refl _
      | cons row rows ih =>
        rw [budgetTests] at ih ⊢
        rw [List.filterMap_cons, List.map_cons]
        cases positiveBudget A row with
        | none => exact ih.cons _
        | some budget => exact ih.cons_cons _
    have hids := rows.primaryKey.map (f := AlertKey.keyBudget) fun a b h => by simpa using h
    rw [List.map_map] at hids
    exact hids.sublist (hsublist rows.rows)
  now t ht p95 breach n heq := by
    obtain ⟨row, -, budget, -, rfl⟩ := (mem_budgetTests A).mp ht
    cases heq
  own t ht k h heq := by
    obtain ⟨row, -, budget, -, rfl⟩ := (mem_budgetTests A).mp ht
    cases heq
    simp

theorem from_routePlan (accounts : List AccountRow) {rest : Plan} (hrest : Plan.From r.now 4 rest)
    {routes : List RouteRow} (hids : (routes.map RouteRow.id).Nodup) :
    Plan.From r.now 3 (routePlan r accounts rest routes) ∧
      ∀ t ∈ (routePlan r accounts rest routes).tests, t.key.place < 4 →
        ∃ route ∈ routes, t.key = .routeUnavailable route.id := by
  induction routes with
  | nil =>
    refine ⟨⟨hrest.blocks, fun t ht => (Nat.le_succ 3).trans (hrest.place t ht)⟩, ?_⟩
    exact fun t ht hlt => absurd (hrest.place t ht) (Nat.not_le_of_lt hlt)
  | cons route routes ih =>
    obtain ⟨hnew, htail⟩ := List.nodup_cons.mp (List.map_cons ▸ hids)
    obtain ⟨hfrom, hroutes⟩ := ih htail
    have later : ∀ t ∈ (routePlan r accounts rest routes).tests, t.key.place < 4 →
        ∃ route' ∈ route :: routes, t.key = .routeUnavailable route'.id := by
      intro t ht hlt
      obtain ⟨route', hmem, hkey⟩ := hroutes t ht hlt
      exact ⟨route', List.mem_cons_of_mem route hmem, hkey⟩
    rw [routePlan]
    split
    · exact ⟨hfrom, later⟩
    · cases r.routeTargets route.id with
      | none => exact ⟨Plan.From.empty false, fun t ht => absurd ht List.not_mem_nil⟩
      | some targets =>
        constructor
        · constructor
          · constructor
            · refine List.nodup_cons.mpr ⟨fun hmem => ?_, hfrom.blocks.distinct⟩
              obtain ⟨t, ht, hkey⟩ := List.mem_map.mp hmem
              have hplace : t.key.place < 4 := by
                rw [hkey]
                exact Nat.lt_succ_self 3
              obtain ⟨route', hroute', hkey'⟩ := hroutes t ht hplace
              rw [hkey] at hkey'
              injection hkey' with hid
              exact hnew (hid ▸ List.mem_map_of_mem hroute')
            · intro t ht p95 breach n heq
              rcases List.mem_cons.mp ht with rfl | ht
              · cases heq
              · exact hfrom.blocks.now t ht p95 breach n heq
            · intro t ht key holds heq
              rcases List.mem_cons.mp ht with rfl | ht
              · cases heq
                simp
              · exact hfrom.blocks.own t ht key holds heq
          · intro t ht
            rcases List.mem_cons.mp ht with rfl | ht
            · exact Nat.le_refl 3
            · exact hfrom.place t ht
        · intro t ht hlt
          rcases List.mem_cons.mp ht with rfl | ht
          · exact ⟨route, List.mem_cons_self, rfl⟩
          · exact later t ht hlt

theorem from_plan : Plan.From r.now 0 (plan A c r) := by
  refine .reading fun recent => ?_
  refine .andThen (blocks_rateTests A c r.now recent) (fun _ _ => Nat.zero_le _)
    (place_rateTests A c) (Nat.zero_le 2) (.reading fun accounts => ?_)
  refine .andThen (m := 3) (blocks_accountTests r.now accounts) ?_ ?_ (Nat.le_succ 2)
    (.reading fun routes => ?_)
  · intro t ht
    obtain ⟨a, -, rfl⟩ := List.mem_map.mp ht
    exact Nat.le_refl 2
  · intro t ht
    obtain ⟨a, -, rfl⟩ := List.mem_map.mp ht
    exact Nat.lt_succ_self 2
  refine (from_routePlan r accounts.rows ?_ routes.primaryKey).1
  refine .andThen (m := 7) ?_ ?_ ?_ (by omega) (.reading fun rows => ?_)
  · constructor
    · simp [Test.key]
    · intro t ht p95 breach n heq
      simp only [List.mem_cons, List.not_mem_nil, or_false] at ht
      rcases ht with rfl | rfl | rfl <;> cases heq
      rfl
    · intro t ht key holds heq
      simp only [List.mem_cons, List.not_mem_nil, or_false] at ht
      rcases ht with rfl | rfl | rfl <;> cases heq <;> simp
  · intro t ht
    simp only [List.mem_cons, List.not_mem_nil, or_false] at ht
    rcases ht with rfl | rfl | rfl
    · exact Nat.le_refl 4
    · exact Nat.le_succ 4
    · exact (Nat.le_succ 4).trans (Nat.le_succ 5)
  · intro t ht
    simp only [List.mem_cons, List.not_mem_nil, or_false] at ht
    rcases ht with rfl | rfl | rfl
    · exact (Nat.lt_succ_self 4).trans ((Nat.lt_succ_self 5).trans (Nat.lt_succ_self 6))
    · exact (Nat.lt_succ_self 5).trans (Nat.lt_succ_self 6)
    · exact Nat.lt_succ_self 6
  have hcredentials : Plan.From r.now 8 ⟨[.credentials r.credentialFailures], true⟩ := by
    constructor
    · constructor
      · exact List.nodup_singleton _
      · intro t ht p95 breach n heq
        rw [List.mem_singleton.mp ht] at heq
        cases heq
      · intro t ht key holds heq
        rw [List.mem_singleton.mp ht] at heq
        cases heq
    · intro t ht
      rw [List.mem_singleton.mp ht]
      exact Nat.le_refl 8
  have hbudgets : ∀ t ∈ budgetTests A rows.rows, t.key.place = 7 := by
    intro t ht
    obtain ⟨row, -, budget, -, rfl⟩ := (mem_budgetTests A).mp ht
    rfl
  have hfrom := Plan.From.andThen (n := 7) (blocks_budgetTests A r.now rows)
    (fun t ht => (hbudgets t ht).ge) (fun t ht => (hbudgets t ht).trans_lt (Nat.lt_succ_self 7))
    (Nat.le_succ 7) hcredentials
  simpa [Plan.andThen] using hfrom

/-! ## What is tested, and what holds -/

/-- Every read succeeds. -/
structure Reading.Complete (r : Reading F) : Prop where
  recent : r.recent.isSome
  accounts : r.accounts.isSome
  routes : ∃ routes, r.routes = some routes ∧
    ∀ route ∈ routes.rows, route.enabled ≠ 0 → (r.routeTargets route.id).isSome
  budgets : r.budgets.isSome

/-- A key's condition is tested: there are enough requests, the account is there, the route is
there and enabled, and the key is there and has a budget. -/
def Looked : AlertKey → Prop
  | .highFallbackRate | .highErrorRate => ∃ recent ∈ r.recent, c.alertMinRequests ≤ recent.length
  | .accountUnhealthy id => ∃ accounts ∈ r.accounts, ∃ a ∈ accounts.rows, a.id = id
  | .routeUnavailable id =>
    ∃ routes ∈ r.routes, ∃ route ∈ routes.rows, route.id = id ∧ route.enabled ≠ 0
  | .keyBudget id =>
    ∃ rows ∈ r.budgets, ∃ row ∈ rows.rows, row.id = id ∧ (positiveBudget A row).isSome
  | _ => True

/-- Which accounts are unhealthy, and which are healthy. -/
structure Health where
  unhealthy : AccountRow → Bool
  healthy : AccountRow → Bool

/-- What the stored status says. -/
def storedHealth : Health := ⟨isUnhealthy, isHealthy⟩

/-- What `pool::effective_status` says at an instant. -/
def currentHealth (R : Account.Rfc3339) (wall : Int) : Health where
  unhealthy a := a.effectiveStatus R wall ∈ [.exhausted, .circuitOpen, .disabled]
  healthy a := a.effectiveStatus R wall = .healthy

/-- A key's condition holds, if the evaluations have seen too high a latency since an instant. -/
def Holds (health : Health) (since : Option Nat) : AlertKey → Prop
  | .highFallbackRate => ∃ recent ∈ r.recent, c.alertMinRequests ≤ recent.length ∧
      rateReaches A isFallback c.alertFallbackRate recent = true
  | .highErrorRate => ∃ recent ∈ r.recent, c.alertMinRequests ≤ recent.length ∧
      rateReaches A isError c.alertErrorRate recent = true
  | .accountUnhealthy id =>
    ∃ accounts ∈ r.accounts, ∃ a ∈ accounts.rows, a.id = id ∧ health.unhealthy a = true
  | .routeUnavailable id =>
    ∃ accounts ∈ r.accounts, ∃ routes ∈ r.routes, ∃ route ∈ routes.rows, route.id = id ∧
      route.enabled ≠ 0 ∧ ∃ targets ∈ r.routeTargets id,
        isUnavailable r health.healthy accounts.rows targets = true
  | .highAddedLatency =>
    ∃ p95 ∈ latencyP95 A r.latency, c.alertP95LatencyMs < p95 ∧
      sustained ≤ r.now - since.getD r.now
  | .usageQueueSaturated => queueSaturated r = true
  | .backupFailed => r.lastBackupFailed = true
  | .keyBudget id =>
    ∃ rows ∈ r.budgets, ∃ row ∈ rows.rows, row.id = id ∧ ∃ budget ∈ positiveBudget A row,
      A.atLeast row.spend (A.share budget) = true
  | .credentialRefreshFailed => 0 < r.credentialFailures

variable {A c r} {health : Health}

theorem Holds.looked {since : Option Nat} {key : AlertKey} (h : Holds A c r health since key) :
    Looked A c r key := by
  cases key with
  | highFallbackRate | highErrorRate =>
    obtain ⟨recent, hrecent, henough, -⟩ := h
    exact ⟨recent, hrecent, henough⟩
  | accountUnhealthy id =>
    obtain ⟨accounts, haccounts, a, ha, hid, -⟩ := h
    exact ⟨accounts, haccounts, a, ha, hid⟩
  | routeUnavailable id =>
    obtain ⟨-, -, routes, hroutes, route, hroute, hid, henabled, -⟩ := h
    exact ⟨routes, hroutes, route, hroute, hid, henabled⟩
  | keyBudget id =>
    obtain ⟨rows, hrows, row, hrow, hid, budget, hbudget, -⟩ := h
    exact ⟨rows, hrows, row, hrow, hid, Option.isSome_of_mem hbudget⟩
  | _ => trivial

/-- The tests of the routes, and those that follow. -/
theorem mem_routePlan {accounts : List AccountRow} {rest : Plan} {routes : List RouteRow}
    (h : ∀ route ∈ routes, route.enabled ≠ 0 → (r.routeTargets route.id).isSome) :
    t ∈ (routePlan r accounts rest routes).tests ↔
      (∃ route ∈ routes, route.enabled ≠ 0 ∧ ∃ targets ∈ r.routeTargets route.id,
        t = .condition (.routeUnavailable route.id)
          (isUnavailable r isHealthy accounts targets)) ∨
      t ∈ rest.tests := by
  induction routes with
  | nil => simp [routePlan]
  | cons route routes ih =>
    obtain ⟨hroute, hroutes⟩ := List.forall_mem_cons.mp h
    rw [routePlan]
    split
    next hdisabled => rw [ih hroutes]; simp [hdisabled]
    next henabled =>
      obtain ⟨targets, htargets⟩ := Option.isSome_iff_exists.mp (hroute henabled)
      rw [htargets, Plan.reading, Plan.andThen, List.singleton_append, List.mem_cons, ih hroutes]
      simp [htargets, henabled, or_assoc]

/-- The blocks of an evaluation that comes to its end. -/
structure Reads (r : Reading F) (recent : List UsageLogRow) (accounts : Table AccountRow.id)
    (routes : Table RouteRow.id) (budgets : Table (KeyBudgetRow.id (F := F))) : Prop where
  readRecent : r.recent = some recent
  readAccounts : r.accounts = some accounts
  readRoutes : r.routes = some routes
  readTargets : ∀ route ∈ routes.rows, route.enabled ≠ 0 → (r.routeTargets route.id).isSome
  readBudgets : r.budgets = some budgets

theorem Reading.Complete.reads (h : r.Complete) :
    ∃ recent accounts routes budgets, Reads r recent accounts routes budgets := by
  obtain ⟨recent, hrecent⟩ := Option.isSome_iff_exists.mp h.recent
  obtain ⟨accounts, haccounts⟩ := Option.isSome_iff_exists.mp h.accounts
  obtain ⟨routes, hroutes, htargets⟩ := h.routes
  obtain ⟨budgets, hbudgets⟩ := Option.isSome_iff_exists.mp h.budgets
  exact ⟨recent, accounts, routes, budgets, hrecent, haccounts, hroutes, htargets, hbudgets⟩

theorem mem_plan {recent : List UsageLogRow} {accounts : Table AccountRow.id}
    {routes : Table RouteRow.id} {budgets : Table (KeyBudgetRow.id (F := F))}
    (h : Reads r recent accounts routes budgets) : t ∈ (plan A c r).tests ↔
      t ∈ rateTests A c recent ∨ t ∈ accountTests accounts.rows ∨
      (∃ route ∈ routes.rows, route.enabled ≠ 0 ∧ ∃ targets ∈ r.routeTargets route.id,
        t = .condition (.routeUnavailable route.id)
          (isUnavailable r isHealthy accounts.rows targets)) ∨
      t = .latency (latencyP95 A r.latency) c.alertP95LatencyMs r.now ∨
      t = .condition .usageQueueSaturated (queueSaturated r) ∨
      t = .condition .backupFailed r.lastBackupFailed ∨
      t ∈ budgetTests A budgets.rows ∨ t = .credentials r.credentialFailures := by
  rw [plan, h.readRecent, h.readAccounts, h.readRoutes, h.readBudgets]
  simp only [Plan.reading, Plan.andThen, List.mem_append, mem_routePlan h.readTargets,
    List.mem_cons, List.not_mem_nil, or_false, or_assoc]

/-- Each key that is looked at is tested. -/
theorem exists_test (hc : r.Complete) {key : AlertKey} (h : Looked A c r key) :
    ∃ t ∈ (plan A c r).tests, t.key = key := by
  obtain ⟨recent, accounts, routes, budgets, hr⟩ := hc.reads
  cases key with
  | highFallbackRate =>
    obtain ⟨recent', hrecent, henough⟩ := h
    cases hr.readRecent.symm.trans hrecent
    refine ⟨.condition .highFallbackRate (rateReaches A isFallback c.alertFallbackRate recent),
      (mem_plan hr).mpr (.inl ?_), rfl⟩
    rw [rateTests, if_pos henough]
    exact List.mem_cons_self
  | highErrorRate =>
    obtain ⟨recent', hrecent, henough⟩ := h
    cases hr.readRecent.symm.trans hrecent
    refine ⟨.condition .highErrorRate (rateReaches A isError c.alertErrorRate recent),
      (mem_plan hr).mpr (.inl ?_), rfl⟩
    rw [rateTests, if_pos henough]
    exact List.mem_cons_of_mem _ List.mem_cons_self
  | accountUnhealthy id =>
    obtain ⟨accounts', haccounts, a, ha, rfl⟩ := h
    cases hr.readAccounts.symm.trans haccounts
    exact ⟨_, (mem_plan hr).mpr (.inr (.inl (List.mem_map_of_mem ha))), rfl⟩
  | routeUnavailable id =>
    obtain ⟨routes', hroutes, route, hroute, rfl, henabled⟩ := h
    cases hr.readRoutes.symm.trans hroutes
    obtain ⟨targets, htargets⟩ :=
      Option.isSome_iff_exists.mp (hr.readTargets route hroute henabled)
    exact ⟨_, (mem_plan hr).mpr
      (.inr (.inr (.inl ⟨route, hroute, henabled, targets, htargets, rfl⟩))), rfl⟩
  | keyBudget id =>
    obtain ⟨rows, hrows, row, hrow, rfl, hbudget⟩ := h
    cases hr.readBudgets.symm.trans hrows
    obtain ⟨budget, hbudget⟩ := Option.isSome_iff_exists.mp hbudget
    exact ⟨_, (mem_plan hr).mpr (.inr (.inr (.inr (.inr (.inr (.inr (.inl
      ((mem_budgetTests A).mpr ⟨row, hrow, budget, hbudget, rfl⟩)))))))), rfl⟩
  | highAddedLatency =>
    exact ⟨.latency (latencyP95 A r.latency) c.alertP95LatencyMs r.now,
      (mem_plan hr).mpr (by simp), rfl⟩
  | usageQueueSaturated =>
    exact ⟨.condition .usageQueueSaturated (queueSaturated r), (mem_plan hr).mpr (by simp), rfl⟩
  | backupFailed =>
    exact ⟨.condition .backupFailed r.lastBackupFailed, (mem_plan hr).mpr (by simp), rfl⟩
  | credentialRefreshFailed =>
    exact ⟨.credentials r.credentialFailures, (mem_plan hr).mpr (by simp), rfl⟩

theorem looked_of_mem (hc : r.Complete) (ht : t ∈ (plan A c r).tests) : Looked A c r t.key := by
  obtain ⟨recent, accounts, routes, budgets, hr⟩ := hc.reads
  rcases (mem_plan hr).mp ht with ht | ht | ht | rfl | rfl | rfl | ht | rfl
  · rw [rateTests] at ht
    split at ht
    next henough =>
      rcases List.mem_cons.mp ht with rfl | ht
      · exact ⟨recent, hr.readRecent, henough⟩
      · rw [List.mem_singleton.mp ht]
        exact ⟨recent, hr.readRecent, henough⟩
    next => cases ht
  · obtain ⟨a, ha, rfl⟩ := List.mem_map.mp ht
    exact ⟨accounts, hr.readAccounts, a, ha, rfl⟩
  · obtain ⟨route, hroute, henabled, -, -, rfl⟩ := ht
    exact ⟨routes, hr.readRoutes, route, hroute, rfl, henabled⟩
  · trivial
  · trivial
  · trivial
  · obtain ⟨row, hrow, budget, hbudget, rfl⟩ := (mem_budgetTests A).mp ht
    exact ⟨budgets, hr.readBudgets, row, hrow, rfl, Option.isSome_of_mem hbudget⟩
  · trivial

/-- Rows of one table with one key are equal. -/
theorem row_unique {ρ : Type} {id : ρ → String} (t : Table id) {a b : ρ} (ha : a ∈ t.rows)
    (hb : b ∈ t.rows) (h : id a = id b) : a = b :=
  List.inj_on_of_nodup_map t.primaryKey ha hb h

section
variable {since : Option Nat} {accounts : Table AccountRow.id} {a : AccountRow}

/-- The condition of an account that is listed. -/
theorem holds_account (health : Health) (haccounts : r.accounts = some accounts)
    (ha : a ∈ accounts.rows) :
    Holds A c r health since (.accountUnhealthy a.id) ↔ health.unhealthy a = true := by
  constructor
  · rintro ⟨accounts', haccounts', b, hb, hid, hholds⟩
    cases haccounts.symm.trans haccounts'
    rwa [row_unique accounts hb ha hid] at hholds
  · exact fun hholds => ⟨accounts, haccounts, a, ha, rfl, hholds⟩

/-- The condition of a route that is enabled. -/
theorem holds_route (health : Health) (haccounts : r.accounts = some accounts)
    {routes : Table RouteRow.id}
    (hroutes : r.routes = some routes) {route : RouteRow} (hroute : route ∈ routes.rows)
    (henabled : route.enabled ≠ 0) {targets : List String}
    (htargets : r.routeTargets route.id = some targets) :
    Holds A c r health since (.routeUnavailable route.id) ↔
      isUnavailable r health.healthy accounts.rows targets = true := by
  constructor
  · rintro ⟨accounts', haccounts', -, -, -, -, -, -, targets', htargets', hholds⟩
    cases haccounts.symm.trans haccounts'
    cases htargets.symm.trans htargets'
    exact hholds
  · exact fun hholds => ⟨accounts, haccounts, routes, hroutes, route, hroute, rfl, henabled,
      targets, htargets, hholds⟩

end

/-- A test tells whether the condition of its key holds, by the stored status. -/
theorem holds_iff (hc : r.Complete) {since : Option Nat} (ht : t ∈ (plan A c r).tests) :
    t.holds since = true ↔ Holds A c r storedHealth since t.key := by
  obtain ⟨recent, accounts, routes, budgets, hr⟩ := hc.reads
  rcases (mem_plan hr).mp ht with ht | ht | ht | rfl | rfl | rfl | ht | rfl
  · rw [rateTests] at ht
    split at ht
    next henough =>
      rcases List.mem_cons.mp ht with rfl | ht
      · simp [Test.holds, Test.key, Holds, hr.readRecent, henough]
      · rw [List.mem_singleton.mp ht]
        simp [Test.holds, Test.key, Holds, hr.readRecent, henough]
    next => cases ht
  · obtain ⟨a, ha, rfl⟩ := List.mem_map.mp ht
    exact (holds_account storedHealth hr.readAccounts ha).symm
  · obtain ⟨route, hroute, henabled, targets, htargets, rfl⟩ := ht
    exact (holds_route storedHealth hr.readAccounts hr.readRoutes hroute henabled htargets).symm
  · cases hp95 : latencyP95 A r.latency with
    | none | some p95 => simp [Test.holds, Test.key, Holds, hp95]
  · exact Iff.rfl
  · exact Iff.rfl
  · obtain ⟨row, hrow, budget, hbudget, rfl⟩ := (mem_budgetTests A).mp ht
    constructor
    · exact fun hholds => ⟨budgets, hr.readBudgets, row, hrow, rfl, budget, hbudget, hholds⟩
    · rintro ⟨rows, hrows, row', hrow', hid, budget', hbudget', hholds⟩
      cases hr.readBudgets.symm.trans hrows
      cases row_unique budgets hrow' hrow hid
      cases hbudget.symm.trans hbudget'
      exact hholds
  · exact decide_eq_true_iff

/-! ## Runs -/

/-- What an evaluation sends. -/
def sentBy (A : Arithmetic F) (c : Config F) (s : AlertState) (r : Reading F) :
    List (Signal AlertKey) :=
  (s.takeAll (plan A c r).tests).2

/-- What the evaluations of a run have sent. -/
def sent (A : Arithmetic F) (c : Config F) (as : List (Reading F)) : List (Signal AlertKey) :=
  (alerts A c).emitted (sentBy A c) as

variable {s s' : AlertState} {as : List (Reading F)}

theorem step_eq_some : (alerts A c).step s r = some s' ↔
    s.now ≤ r.now ∧ s' = { (s.takeAll (plan A c r).tests).1 with now := r.now } := by
  simp only [alerts]
  split
  next hle => simp [hle, eq_comm]
  next hle => simp [hle]

theorem now_of_step (hstep : (alerts A c).step s r = some s') : s'.now = r.now := by
  obtain ⟨-, rfl⟩ := step_eq_some.mp hstep
  rfl

/-- An evaluation is a round of tests. -/
theorem step_spec (h : s.Latched s.now) (hstep : (alerts A c).step s r = some s') :
    s'.Latched s'.now ∧
      s'.active = (round (AlertState.conditions s.latencyBreachSince (plan A c r).tests)
        s.active).1 ∧
      sentBy A c s r = (round (AlertState.conditions s.latencyBreachSince (plan A c r).tests)
        s.active).2 := by
  obtain ⟨hle, rfl⟩ := step_eq_some.mp hstep
  obtain ⟨hactive, hsignals, hlatched⟩ :=
    AlertState.takeAll_spec (from_plan A c r).blocks (h.mono hle)
  exact ⟨⟨hlatched.credentials, hlatched.latency⟩, hactive, hsignals⟩

/-- What is true after every run. -/
structure Sound (A : Arithmetic F) (c : Config F) (as : List (Reading F)) (s : AlertState) :
    Prop where
  latched : s.Latched s.now
  tracks : Tracks s.active (sent A c as)

theorem sound_of_run (h : (alerts A c).run as = some s) : Sound A c as s := by
  refine (alerts A c).run_induction (I := Sound A c) ?_ ?_ as s h
  · constructor
    · exact ⟨by simp [alerts], fun hmem => absurd hmem (Finset.notMem_empty _)⟩
    · exact tracks_nil
  · intro as s r s' hrun hs hstep
    obtain ⟨hlatched, hactive, hsent⟩ := step_spec hs.latched hstep
    refine ⟨hlatched, ?_⟩
    rw [sent, (alerts A c).emitted_snoc _ hrun hstep, hactive, hsent]
    exact hs.tracks.round _

/-- After an evaluation that comes to its end, an alert is active if its condition holds by the
stored status, or if it was active and is not tested any more. -/
theorem active_iff (hs : s.Latched s.now) (hstep : (alerts A c).step s r = some s')
    (hc : r.Complete) (key : AlertKey) :
    key ∈ s'.active ↔ Holds A c r storedHealth s.latencyBreachSince key ∨
      ¬ Looked A c r key ∧ key ∈ s.active := by
  have hblocks := (from_plan A c r).blocks
  have hkeys : (AlertState.conditions s.latencyBreachSince (plan A c r).tests).map Prod.fst =
      (plan A c r).tests.map Test.key := by
    rw [AlertState.conditions, List.map_map]
    rfl
  rw [(step_spec hs hstep).2.1, mem_round (hkeys ▸ hblocks.distinct), hkeys]
  have htested : (key, true) ∈ AlertState.conditions s.latencyBreachSince (plan A c r).tests ↔
      Holds A c r storedHealth s.latencyBreachSince key := by
    constructor
    · intro hmem
      obtain ⟨t, ht, heq⟩ := List.mem_map.mp hmem
      obtain ⟨rfl, hholds⟩ := Prod.mk.inj heq
      exact (holds_iff hc ht).mp hholds
    · intro hholds
      obtain ⟨t, ht, rfl⟩ := exists_test hc hholds.looked
      exact List.mem_map.mpr ⟨t, ht, Prod.ext rfl ((holds_iff hc ht).mpr hholds)⟩
  have hlooked : key ∈ (plan A c r).tests.map Test.key ↔ Looked A c r key := by
    constructor
    · intro hmem
      obtain ⟨t, ht, rfl⟩ := List.mem_map.mp hmem
      exact looked_of_mem hc ht
    · intro hlooked
      obtain ⟨t, ht, rfl⟩ := exists_test hc hlooked
      exact List.mem_map_of_mem ht
  rw [htested, hlooked]

/-! ## The stored status and the current one -/

/-- The stored status says whether an account is unhealthy now. -/
def AccountRow.StatusCurrent (R : Account.Rfc3339) (now : Int) (a : AccountRow) : Prop :=
  match Account.AccountStatus.parse a.status with
  | .disabled | .circuitOpen => True
  | .exhausted =>
    Account.AccountRow.elapsed R a.quotaResetAt now = false ∨ a.circuitOpenUntil.isSome
  | .cooldown =>
    Account.AccountRow.elapsed R a.cooldownUntil now = false ∨ a.circuitOpenUntil = none
  | .healthy => a.circuitOpenUntil = none

variable {R : Account.Rfc3339}

theorem statusCurrent_iff {now : Int} {a : AccountRow} :
    isUnhealthy a = (currentHealth R now).unhealthy a ↔ a.StatusCurrent R now := by
  have hstored : isUnhealthy a = decide
      (Account.AccountStatus.parse a.status ∈ [.exhausted, .circuitOpen, .disabled]) := by
    rw [isUnhealthy, Account.AccountStatus.parse]
    split_ifs <;> simp_all
  have hcurrent : (currentHealth R now).unhealthy a =
      decide (a.effectiveStatus R now ∈ [.exhausted, .circuitOpen, .disabled]) := rfl
  have hcircuit : a.circuitStatus = if a.circuitOpenUntil.isSome ∨
      Account.AccountStatus.parse a.status = .circuitOpen then .circuitOpen else .healthy := rfl
  have heffective := Account.AccountRow.effectiveStatus.eq_1 R a.toAccountRow now
  rw [hstored, hcurrent, AccountRow.StatusCurrent]
  cases hstatus : Account.AccountStatus.parse a.status with
  | disabled | circuitOpen | healthy =>
    simp only [hstatus, hcircuit] at heffective
    rw [heffective]
    cases a.circuitOpenUntil <;> simp
  | exhausted =>
    simp only [hstatus, hcircuit] at heffective
    rw [heffective]
    cases Account.AccountRow.elapsed R a.quotaResetAt now <;> cases a.circuitOpenUntil <;> simp
  | cooldown =>
    simp only [hstatus, hcircuit] at heffective
    rw [heffective]
    cases Account.AccountRow.elapsed R a.cooldownUntil now <;> cases a.circuitOpenUntil <;> simp

/-- The stored status of each listed account says whether it is unhealthy now, and the accounts that
are stored as healthy say which enabled routes with targets have a healthy one. -/
structure Reading.StatusCurrent (R : Account.Rfc3339) (r : Reading F) : Prop where
  accounts : ∀ accounts ∈ r.accounts, ∀ a ∈ accounts.rows, a.StatusCurrent R r.wall
  routes : ∀ accounts ∈ r.accounts, ∀ routes ∈ r.routes, ∀ route ∈ routes.rows, route.enabled ≠ 0 →
    ∀ targets ∈ r.routeTargets route.id, targets = [] ∨
      targets.any (isHealthyTarget r isHealthy accounts.rows) =
        targets.any
          (isHealthyTarget r (fun a => a.effectiveStatus R r.wall = .healthy) accounts.rows)

/-- The conditions of the stored status and of the current one are the same. -/
theorem Reading.statusCurrent_iff (since : Option Nat) : r.StatusCurrent R ↔
    ∀ key, Holds A c r storedHealth since key ↔ Holds A c r (currentHealth R r.wall) since key := by
  have hroute (accounts : List AccountRow) (targets : List String) :
      (isUnavailable r isHealthy accounts targets = true ↔
        isUnavailable r (currentHealth R r.wall).healthy accounts targets = true) ↔
      targets = [] ∨ targets.any (isHealthyTarget r isHealthy accounts) =
        targets.any (isHealthyTarget r (currentHealth R r.wall).healthy accounts) := by
    rw [isUnavailable, isUnavailable]
    cases targets with
    | nil => simp
    | cons target targets =>
      generalize (target :: targets).any _ = stored
      generalize (target :: targets).any _ = current
      cases stored <;> cases current <;> simp
  constructor
  · rintro ⟨haccounts, hroutes⟩ key
    cases key with
    | accountUnhealthy id =>
      refine exists_congr fun accounts => and_congr_right fun hread => exists_congr fun a =>
        and_congr_right fun ha => and_congr_right fun _ => ?_
      exact Bool.eq_iff_iff.mp (Alerts.statusCurrent_iff.mpr (haccounts accounts hread a ha))
    | routeUnavailable id =>
      refine exists_congr fun accounts => and_congr_right fun hread => exists_congr fun routes =>
        and_congr_right fun hroutes' => exists_congr fun route => and_congr_right fun hmem =>
          and_congr_right fun hid => and_congr_right fun henabled => exists_congr fun targets =>
            and_congr_right fun htargets => ?_
      exact (hroute accounts.rows targets).mpr
        (hroutes accounts hread routes hroutes' route hmem henabled targets (hid ▸ htargets))
    | _ => exact Iff.rfl
  · intro h
    constructor
    · intro accounts hread a ha
      have hkey := h (.accountUnhealthy a.id)
      rw [holds_account _ hread ha, holds_account _ hread ha] at hkey
      exact Alerts.statusCurrent_iff.mp (Bool.eq_iff_iff.mpr hkey)
    · intro accounts hread routes hroutes route hmem henabled targets htargets
      have hkey := h (.routeUnavailable route.id)
      rw [holds_route _ hread hroutes hmem henabled htargets,
        holds_route _ hread hroutes hmem henabled htargets] at hkey
      exact (hroute accounts.rows targets).mp hkey

/-- The alerts of a run alternate and end with their conditions, an account being what it is at the
time. -/
structure Exact (R : Account.Rfc3339) (A : Arithmetic F) (c : Config F) (as : List (Reading F)) :
    Prop where
  alternate : ∀ pre s, pre <+: as → (alerts A c).run pre = some s →
    ∀ key, Alternates (signalsOf key (sent A c pre))
  active : ∀ pre r post s s', as = pre ++ r :: post → (alerts A c).run pre = some s →
    (alerts A c).step s r = some s' → r.Complete →
      ∀ key, key ∈ s'.active ↔ Holds A c r (currentHealth R r.wall) s.latencyBreachSince key

/-- An evaluation that comes to its end tests each alert that is active, and the stored status of
the accounts is current. -/
def TestsActive (R : Account.Rfc3339) (A : Arithmetic F) (c : Config F) (s : AlertState)
    (r : Reading F) : Prop :=
  r.Complete → s.now ≤ r.now → (∀ key ∈ s.active, Looked A c r key) ∧ r.StatusCurrent R

/-- Exact arithmetic. -/
def exactArithmetic : Arithmetic ℚ where
  ofCount n := n
  div a b := a / b
  atLeast a b := b ≤ a
  notPositive a := a ≤ 0
  share a := a * (4 / 5)
  rank95 n := n * 95 / 100

/-- Nothing is there but some accounts. -/
def readingOf (accounts : Table AccountRow.id) (now : Nat) : Reading ℚ where
  recent := some []
  accounts := some accounts
  routes := some (Table.empty _)
  routeTargets _ := none
  modelProvider _ := none
  latency := []
  now
  wall := 0
  queueDepth := 0
  queueCapacity := 4096
  queueDropped := 0
  lastBackupFailed := false
  budgets := some (Table.empty _)
  credentialFailures := 0

def exampleConfig : Config ℚ where
  alertFallbackRate := 1 / 4
  alertErrorRate := 1 / 10
  alertMinRequests := 20
  alertP95LatencyMs := 100

theorem complete_readingOf (accounts : Table AccountRow.id) (now : Nat) :
    (readingOf accounts now).Complete where
  recent := rfl
  accounts := rfl
  routes := ⟨Table.empty _, rfl, fun _ hroute => absurd hroute List.not_mem_nil⟩
  budgets := rfl

end

end Kinetix.Alerts
