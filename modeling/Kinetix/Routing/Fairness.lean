import Kinetix.Foundation.Text
import Kinetix.Routing.Ordering

/-!
# Ordering the targets of a route is fair

The order is a permutation in which the candidates of a logical target stay together, and under the
adaptive strategy unavailable logical targets neither come before nor influence the others. It
exists if and only if the weights of the accounts of one priority fit into an `i64` together: the
draw in `order_accounts` panics otherwise.

## Implementation notes

The accounts of one priority are drawn without replacement, so a sum that wraps to a positive number
only delays the panic.
-/

namespace Kinetix.Routing
open Grouping Words
open scoped List

/-! ## Accounts -/

/-- The sum from which an account is drawn. -/
def tierSum (accounts : List AccountRow) : Int := (accounts.map fun a => share a.weight).sum

/-- The weights of the accounts of each priority fit. -/
def TiersFit (accounts : List AccountRow) : Prop :=
  ∀ p : Int64, tierSum (accounts.filter (·.priority == p)) ≤ i64Max

theorem one_le_share (weight : Int64) : 1 ≤ share weight := le_max_right _ _

theorem share_le (weight : Int64) : share weight ≤ i64Max := by
  have h : weight.toInt < 2 ^ 63 := Int64.toInt_lt weight
  exact max_le (by rw [i64Max]; omega) (by decide)

theorem tierSum_nil_le : tierSum [] ≤ i64Max := by decide

theorem tiersFit_nil : TiersFit [] := fun _ => tierSum_nil_le

variable {targets : List ResolvedTarget} {accounts : List AccountRow} {draws : Draws}
  {out : List AccountRow × Draws} {gs : List Group} (a : AccountRow) (as : List AccountRow)
  {n : Nat}

theorem tierSum_cons : tierSum (a :: as) = share a.weight + tierSum as := by
  rw [tierSum, List.map_cons, List.sum_cons, tierSum]

theorem tierSum_nonneg : 0 ≤ tierSum as := by
  induction as with
  | nil => exact le_refl 0
  | cons a as ih =>
    rw [tierSum_cons]
    exact add_nonneg (zero_le_one.trans (one_le_share _)) ih

theorem tierSum_perm {as as' : List AccountRow} (h : as.Perm as') : tierSum as = tierSum as' :=
  (h.map _).sum_eq

theorem swapOut_perm {α : Type} (a : α) (as : List α) (i : Nat) :
    ((swapOut a as i).1 :: (swapOut a as i).2).Perm (a :: as) := by
  cases i with
  | zero => exact List.Perm.refl _
  | succ i =>
    rw [swapOut]
    split
    · rename_i b hb
      obtain ⟨hi, rfl⟩ := List.getElem?_eq_some_iff.mp hb
      calc as[i] :: as.set i a
          ~ as[i] :: a :: as.eraseIdx i := (List.set_perm_cons_eraseIdx hi a).cons _
        _ ~ a :: as[i] :: as.eraseIdx i := List.Perm.swap _ _ _
        _ ~ a :: as := (List.getElem_cons_eraseIdx_perm hi).cons _
    · exact List.Perm.refl _

/-! ### One priority -/

theorem wrapI64_eq {n : Int} (h₀ : 0 ≤ n) (h : n ≤ i64Max) : wrapI64 n = n := by
  unfold wrapI64 i64Max at *
  omega

/-- A sum that wraps to a positive number is still too large without one of its terms. -/
theorem lt_sub_of_wrapI64_pos {n d : Int} (hn : i64Max < n) (hpos : 0 < wrapI64 n)
    (hd : d ≤ i64Max) : i64Max < n - d := by
  unfold wrapI64 i64Max at *
  omega

theorem genRange_eq_some {total : Int} {r : Int × Draws} (h : genRange total draws = some r) :
    0 < total := by
  by_contra hpos
  rw [genRange, if_neg hpos] at h
  exact (Option.some_ne_none r h.symm).elim

theorem genRange_isSome {total : Int} (draws : Draws) (h : 0 < total) :
    ∃ r, genRange total draws = some r := ⟨_, if_pos h⟩

/-- One turn of the inner loop. -/
theorem sampleTier_cons (n : Nat) (a : AccountRow) (as : List AccountRow) (draws : Draws) :
    ∃ i : Int → Nat, sampleTier (n + 1) (a :: as) draws =
      (genRange (wrapI64 (tierSum (a :: as))) draws).bind fun r =>
        (sampleTier n (swapOut a as (i r.1)).2 r.2).map fun rest =>
          ((swapOut a as (i r.1)).1 :: rest.1, rest.2) := by
  refine ⟨fun pick => (selected pick ((a :: as).map fun b => share b.weight)).getD 0, ?_⟩
  rw [sampleTier]
  refine congrArg _ (funext fun r => ?_)
  exact (Option.map_eq_bind ..).symm

theorem tierSum_swapOut (i : Nat) :
    share (swapOut a as i).1.weight + tierSum (swapOut a as i).2 = tierSum (a :: as) := by
  rw [← tierSum_cons]
  exact tierSum_perm (swapOut_perm a as i)

/-- Accounts whose weights fit are drawn until there are none. -/
theorem sampleTier_fits {tier : List AccountRow} (hn : tier.length ≤ n)
    (h : tierSum tier ≤ i64Max) : ∃ out, sampleTier n tier draws = some out ∧ out.1.Perm tier := by
  induction n generalizing tier draws with
  | zero =>
    obtain rfl := List.length_eq_zero_iff.mp (Nat.le_zero.mp hn)
    exact ⟨([], draws), rfl, List.Perm.refl _⟩
  | succ n ih =>
    cases tier with
    | nil => exact ⟨([], draws), rfl, List.Perm.refl _⟩
    | cons a as =>
      obtain ⟨i, heq⟩ := sampleTier_cons n a as draws
      have hpos : 0 < tierSum (a :: as) := by
        rw [tierSum_cons]
        exact add_pos_of_pos_of_nonneg (one_le_share _) (tierSum_nonneg as)
      obtain ⟨r, hr⟩ := genRange_isSome draws (wrapI64_eq hpos.le h ▸ hpos)
      have hperm := swapOut_perm a as (i r.1)
      have hlen : (swapOut a as (i r.1)).2.length ≤ n := by
        have hlen := hperm.length_eq
        rw [List.length_cons, List.length_cons] at hlen
        rw [List.length_cons] at hn
        omega
      have hrest : tierSum (swapOut a as (i r.1)).2 ≤ i64Max := by
        have hsum := tierSum_swapOut a as (i r.1)
        have hone := one_le_share (swapOut a as (i r.1)).1.weight
        omega
      obtain ⟨out, hout, houtPerm⟩ := @ih r.2 _ hlen hrest
      refine ⟨((swapOut a as (i r.1)).1 :: out.1, out.2), ?_, (houtPerm.cons _).trans hperm⟩
      rw [heq, hr, Option.bind_some, hout, Option.map_some]

/-- The draw panics at last when the weights do not fit. -/
theorem sampleTier_some {tier : List AccountRow} (hn : tier.length ≤ n)
    (h : sampleTier n tier draws = some out) : tierSum tier ≤ i64Max := by
  induction n generalizing tier draws out with
  | zero =>
    obtain rfl := List.length_eq_zero_iff.mp (Nat.le_zero.mp hn)
    exact tierSum_nil_le
  | succ n ih =>
    cases tier with
    | nil => exact tierSum_nil_le
    | cons a as =>
      obtain ⟨i, heq⟩ := sampleTier_cons n a as draws
      rw [heq] at h
      obtain ⟨r, hr, hrest⟩ := Option.bind_eq_some_iff.mp h
      obtain ⟨rest, hrest, -⟩ := Option.map_eq_some_iff.mp hrest
      have hlen : (swapOut a as (i r.1)).2.length ≤ n := by
        have hlen := (swapOut_perm a as (i r.1)).length_eq
        rw [List.length_cons, List.length_cons] at hlen
        rw [List.length_cons] at hn
        omega
      have hfits := ih hlen hrest
      have hsum := tierSum_swapOut a as (i r.1)
      by_contra hlarge
      have hstill := lt_sub_of_wrapI64_pos (not_le.mp hlarge) (genRange_eq_some hr)
        (share_le (swapOut a as (i r.1)).1.weight)
      omega

/-! ### All priorities -/

/-- Of accounts in the order of their priorities, those of the first one come first. -/
theorem takeWhile_eq_filter {a : AccountRow} {as : List AccountRow}
    (h : (a :: as).Pairwise fun b c => b.priority.toInt ≤ c.priority.toInt) :
    as.takeWhile (·.priority == a.priority) = as.filter (·.priority == a.priority) ∧
      as.dropWhile (·.priority == a.priority) = as.filter fun b => !(b.priority == a.priority) := by
  induction as with
  | nil => exact ⟨rfl, rfl⟩
  | cons b as ih =>
    obtain ⟨ha, hbas⟩ := List.pairwise_cons.mp h
    obtain ⟨hb, has⟩ := List.pairwise_cons.mp hbas
    have htail := ih (List.pairwise_cons.mpr ⟨fun c hc => ha c (List.mem_cons_of_mem _ hc), has⟩)
    by_cases hba : b.priority = a.priority
    · simp [hba, htail.1, htail.2]
    · have hne : ∀ c ∈ as, c.priority ≠ a.priority := by
        intro c hc hca
        have hle := hb c hc
        rw [hca] at hle
        exact hba (Int64.toInt_inj.mp (le_antisymm hle (ha b List.mem_cons_self)))
      have hnone : as.filter (·.priority == a.priority) = [] :=
        List.filter_eq_nil_iff.mpr fun c hc => by simpa using hne c hc
      have hall : as.filter (fun b => !(b.priority == a.priority)) = as :=
        List.filter_eq_self.mpr fun c hc => by simpa using hne c hc
      simp [hba, hnone, hall]

theorem tiersFit_perm {as as' : List AccountRow} (h : as.Perm as') :
    TiersFit as ↔ TiersFit as' := by
  refine forall_congr' fun p => ?_
  rw [tierSum_perm (h.filter _)]

/-- The first priority, and the others. -/
theorem tiersFit_cons :
    TiersFit (a :: as) ↔ tierSum (a :: as.filter (·.priority == a.priority)) ≤ i64Max ∧
      TiersFit (as.filter fun b => !(b.priority == a.priority)) := by
  have hother : ∀ p, p ≠ a.priority →
      (as.filter fun b => !(b.priority == a.priority)).filter (·.priority == p) =
        (a :: as).filter (·.priority == p) := by
    intro p hp
    rw [List.filter_cons_of_neg (by simpa using hp.symm), List.filter_filter]
    refine List.filter_congr fun b _ => ?_
    by_cases hb : b.priority = p
    · simp [hb, hp]
    · simp [hb]
  have hfirst : (a :: as).filter (·.priority == a.priority) =
      a :: as.filter (·.priority == a.priority) := List.filter_cons_of_pos (by simp)
  constructor
  · intro h
    refine ⟨hfirst ▸ h a.priority, fun p => ?_⟩
    by_cases hp : p = a.priority
    · subst hp
      have hnil : (as.filter fun b => !(b.priority == a.priority)).filter
          (·.priority == a.priority) = [] := by
        rw [List.filter_filter]
        exact List.filter_eq_nil_iff.mpr fun b _ => by simp
      rw [hnil]
      decide
    · rw [hother p hp]
      exact h p
  · rintro ⟨htier, hrest⟩ p
    by_cases hp : p = a.priority
    · subst hp
      rw [hfirst]
      exact htier
    · rw [← hother p hp]
      exact hrest p

/-- Accounts whose weights fit are put in an order. -/
theorem sampleTiers_fits (hn : accounts.length ≤ n)
    (hs : accounts.Pairwise fun a b => a.priority.toInt ≤ b.priority.toInt)
    (h : TiersFit accounts) :
    ∃ out, sampleTiers n accounts draws = some out ∧ out.1.Perm accounts := by
  induction n generalizing accounts draws with
  | zero =>
    obtain rfl := List.length_eq_zero_iff.mp (Nat.le_zero.mp hn)
    exact ⟨([], draws), rfl, List.Perm.refl _⟩
  | succ n ih =>
    cases accounts with
    | nil => exact ⟨([], draws), rfl, List.Perm.refl _⟩
    | cons a as =>
      obtain ⟨htake, hdrop⟩ := takeWhile_eq_filter hs
      obtain ⟨htier, hrest⟩ := (tiersFit_cons a as).mp h
      obtain ⟨tier, htierEq, htierPerm⟩ := @sampleTier_fits draws _ _ le_rfl htier
      have hlen : (as.filter fun b => !(b.priority == a.priority)).length ≤ n :=
        (List.length_filter_le _ _).trans (Nat.le_of_succ_le_succ hn)
      obtain ⟨rest, hrestEq, hrestPerm⟩ := @ih _ tier.2 hlen
        ((List.pairwise_cons.mp hs).2.filter _) hrest
      refine ⟨(tier.1 ++ rest.1, rest.2), ?_, ?_⟩
      · rw [sampleTiers, htake, hdrop, htierEq]
        change (sampleTiers n _ tier.2).bind _ = _
        rw [hrestEq]
        rfl
      · calc tier.1 ++ rest.1
            ~ (a :: as.filter (·.priority == a.priority)) ++
                as.filter fun b => !(b.priority == a.priority) := htierPerm.append hrestPerm
          _ ~ a :: as := (List.filter_append_perm _ as).cons a

/-- Accounts are only put in an order if their weights fit. -/
theorem sampleTiers_some (hn : accounts.length ≤ n)
    (hs : accounts.Pairwise fun a b => a.priority.toInt ≤ b.priority.toInt)
    (h : sampleTiers n accounts draws = some out) : TiersFit accounts := by
  induction n generalizing accounts draws out with
  | zero =>
    obtain rfl := List.length_eq_zero_iff.mp (Nat.le_zero.mp hn)
    exact tiersFit_nil
  | succ n ih =>
    cases accounts with
    | nil => exact tiersFit_nil
    | cons a as =>
      obtain ⟨htake, hdrop⟩ := takeWhile_eq_filter hs
      rw [sampleTiers, htake, hdrop] at h
      obtain ⟨tier, htier, h⟩ := Option.bind_eq_some_iff.mp h
      obtain ⟨rest, hrest, -⟩ := Option.bind_eq_some_iff.mp h
      have hlen : (as.filter fun b => !(b.priority == a.priority)).length ≤ n :=
        (List.length_filter_le _ _).trans (Nat.le_of_succ_le_succ hn)
      exact (tiersFit_cons a as).mpr ⟨sampleTier_some le_rfl htier,
        ih hlen ((List.pairwise_cons.mp hs).2.filter _) hrest⟩

/-- `order_accounts` without a preference returns if and only if the weights fit. -/
theorem orderAccounts_fits (draws : Draws) (h : TiersFit accounts) :
    ∃ out, orderAccounts accounts none draws = some out ∧ out.1.Perm accounts := by
  have hperm : (sortBy (fun a : AccountRow => a.priority.toInt) accounts).Perm accounts :=
    sortBy_perm
  obtain ⟨out, hout, houtPerm⟩ := @sampleTiers_fits _ draws _ le_rfl sortBy_pairwise
    ((tiersFit_perm hperm).mpr h)
  refine ⟨out, ?_, houtPerm.trans hperm⟩
  rw [orderAccounts, hout]
  rfl

theorem orderAccounts_some {preferred : Option String}
    (h : orderAccounts accounts preferred draws = some out) : TiersFit accounts := by
  obtain ⟨ordered, hordered, -⟩ := Option.bind_eq_some_iff.mp h
  exact (tiersFit_perm sortBy_perm).mp (sampleTiers_some le_rfl sortBy_pairwise hordered)

/-! ### Candidates -/

/-- Accounts with different identifiers do not take each other's targets. -/
theorem removeAll_eq_filterMap {m : String → Option ResolvedTarget}
    (h : (accounts.map AccountRow.id).Nodup) :
    removeAll m accounts = accounts.filterMap fun a => m a.id := by
  induction accounts generalizing m with
  | nil => rfl
  | cons a as ih =>
    obtain ⟨ha, has⟩ := List.nodup_cons.mp h
    rw [removeAll, List.filterMap_cons]
    cases m a.id with
    | none => exact ih has
    | some t =>
      change t :: removeAll _ as = t :: _
      rw [ih has]
      refine congrArg _ (List.filterMap_congr fun b hb => ?_)
      refine Function.update_of_ne ?_ _ _
      rintro hba
      exact ha (hba ▸ List.mem_map_of_mem hb)

theorem byAccount_eq (h : (targets.map fun t => t.account.id).Nodup) {t : ResolvedTarget}
    (ht : t ∈ targets) : byAccount targets t.account.id = some t := by
  induction targets using List.reverseRecOn with
  | nil => exact (List.not_mem_nil ht).elim
  | append_singleton l u ih =>
    rw [List.map_append, List.map_singleton] at h
    obtain ⟨hl, -, hdisjoint⟩ := List.nodup_append'.mp h
    have heq : byAccount (l ++ [u]) =
        Function.update (byAccount l) u.account.id (some u) := List.foldl_append ..
    rw [heq]
    rcases List.mem_append.mp ht with ht | ht
    · have hne : t.account.id ≠ u.account.id := by
        intro htu
        exact hdisjoint (List.mem_map_of_mem ht) (htu ▸ List.mem_singleton_self _)
      rw [Function.update_of_ne hne]
      exact ih hl ht
    · obtain rfl := List.mem_singleton.mp ht
      exact Function.update_self ..

/-- The candidates of accounts in another order are the candidates in another order. -/
theorem removeAll_perm (h : (targets.map fun t => t.account.id).Nodup)
    (hp : accounts.Perm (targets.map ResolvedTarget.account)) :
    (removeAll (byAccount targets) accounts).Perm targets := by
  have hnodup : (accounts.map AccountRow.id).Nodup := by
    refine ((hp.map AccountRow.id).nodup_iff).mpr ?_
    rw [List.map_map]
    exact h
  rw [removeAll_eq_filterMap hnodup]
  refine (hp.filterMap _).trans (List.Perm.of_eq ?_)
  calc (targets.map ResolvedTarget.account).filterMap (fun a => byAccount targets a.id)
      = targets.filterMap (fun t => byAccount targets t.account.id) := List.filterMap_map
    _ = targets.filterMap some := List.filterMap_congr fun t ht => byAccount_eq h ht
    _ = targets := List.filterMap_some

/-! ## Logical targets -/

/-- The weights of the accounts of a group fit. -/
def GroupFits (g : Group) : Prop := TiersFit (g.2.map ResolvedTarget.account)

/-- Each group keeps its candidates, in another order. -/
theorem orderGroups_fits (draws : Draws) (hd : ∀ g ∈ gs, (g.2.map fun t => t.account.id).Nodup)
    (h : ∀ g ∈ gs, GroupFits g) : ∃ out, orderGroups gs draws = some out ∧
      List.Forall₂ (fun g g' => g'.1 = g.1 ∧ g'.2.Perm g.2) gs out.1 := by
  induction gs generalizing draws with
  | nil => exact ⟨([], draws), rfl, List.Forall₂.nil⟩
  | cons g gs ih =>
    obtain ⟨accounts, haccounts, hperm⟩ :=
      orderAccounts_fits draws (h g List.mem_cons_self)
    obtain ⟨rest, hrest, hall⟩ := ih accounts.2
      (fun g' hg' => hd g' (List.mem_cons_of_mem _ hg'))
      fun g' hg' => h g' (List.mem_cons_of_mem _ hg')
    refine ⟨((g.1, removeAll (byAccount g.2) accounts.1) :: rest.1, rest.2), ?_,
      List.Forall₂.cons ⟨rfl, removeAll_perm (hd g List.mem_cons_self) hperm⟩ hall⟩
    rw [orderGroups, orderRouteAccountCandidates, haccounts]
    change (orderGroups gs accounts.2).bind _ = _
    rw [hrest]
    rfl

theorem orderGroups_some {out : List Group × Draws} (h : orderGroups gs draws = some out) :
    ∀ g ∈ gs, GroupFits g := by
  induction gs generalizing draws out with
  | nil => exact fun g hg => (List.not_mem_nil hg).elim
  | cons g gs ih =>
    obtain ⟨ordered, hordered, h⟩ := Option.bind_eq_some_iff.mp h
    obtain ⟨rest, hrest, -⟩ := Option.bind_eq_some_iff.mp h
    obtain ⟨accounts, haccounts, -⟩ := Option.bind_eq_some_iff.mp hordered
    intro g' hg'
    rcases List.mem_cons.mp hg' with rfl | hg'
    · exact orderAccounts_some haccounts
    · exact ih hrest g' hg'

/-! ## The list of candidates -/

/-- Identifiers are generated. -/
def Generated (id : String) : Prop := '|' ∉ id.toList ∧ id ≠ "direct"

instance (id : String) : Decidable (Generated id) := inferInstanceAs (Decidable (_ ∧ _))

/-- The candidates that a route is resolved to. -/
structure Resolved (targets : List ResolvedTarget) : Prop where
  distinct : (targets.map fun t => (groupKey t, t.account.id)).Nodup
  generated : ∀ t ∈ targets, (∀ id ∈ t.routeTargetId, Generated id) ∧ Generated t.providerId ∧
    Generated t.account.id

/-- The weights of the accounts of one logical target and one priority fit into an
`i64` together. -/
def WeightsFit (targets : List ResolvedTarget) : Prop :=
  ∀ (k : String) (p : Int64),
    ((targets.filter fun t => groupKey t == k && t.account.priority == p).map fun t =>
      share t.account.weight).sum ≤ i64Max

theorem toList_adaptiveCandidateKey (t : ResolvedTarget) :
    (adaptiveCandidateKey t).toList = (t.routeTargetId.getD "direct").toList ++
      '|' :: (t.providerId.toList ++ '|' :: (t.account.id.toList ++ '|' :: t.modelId.toList)) := by
  have hbar : "|".toList = ['|'] := rfl
  simp only [adaptiveCandidateKey, String.toList_append, hbar, List.append_assoc,
    List.cons_append, List.nil_append]

/-- A key names a logical target and an account. -/
theorem groupKey_eq_of_adaptiveCandidateKey_eq (h : Resolved targets) {t u : ResolvedTarget}
    (ht : t ∈ targets) (hu : u ∈ targets) (heq : adaptiveCandidateKey t = adaptiveCandidateKey u) :
    groupKey t = groupKey u ∧ t.account.id = u.account.id := by
  obtain ⟨htr, htp, hta⟩ := h.generated t ht
  obtain ⟨hur, hup, hua⟩ := h.generated u hu
  have hbar : ∀ r : Option String, (∀ id ∈ r, Generated id) →
      '|' ∉ (r.getD "direct").toList := by
    intro r hr
    cases r with
    | none => decide
    | some id => exact (hr id rfl).1
  have hlist := congrArg String.toList heq
  rw [toList_adaptiveCandidateKey, toList_adaptiveCandidateKey] at hlist
  obtain ⟨hroute, hlist⟩ := Text.append_cons_inj (hbar _ htr) (hbar _ hur) hlist
  obtain ⟨-, hlist⟩ := Text.append_cons_inj htp.1 hup.1 hlist
  obtain ⟨hid, -⟩ := Text.append_cons_inj hta.1 hua.1 hlist
  have haccount : t.account.id = u.account.id := String.toList_inj.mp hid
  refine ⟨?_, haccount⟩
  have hroute := String.toList_inj.mp hroute
  unfold groupKey
  cases hrt : t.routeTargetId with
  | none =>
    cases hru : u.routeTargetId with
    | none => rw [haccount]
    | some r =>
      rw [hrt, hru] at hroute
      exact ((hur r hru).2 hroute.symm).elim
  | some r =>
    cases hru : u.routeTargetId with
    | none =>
      rw [hrt, hru] at hroute
      exact ((htr r hrt).2 hroute).elim
    | some r' =>
      rw [hrt, hru] at hroute
      exact hroute

/-- Candidates with one key are one candidate. -/
theorem adaptiveCandidateKey_injOn (h : Resolved targets) {t u : ResolvedTarget}
    (ht : t ∈ targets) (hu : u ∈ targets) (heq : adaptiveCandidateKey t = adaptiveCandidateKey u) :
    t = u := by
  obtain ⟨hgroup, haccount⟩ := groupKey_eq_of_adaptiveCandidateKey_eq h ht hu heq
  exact List.inj_on_of_nodup_map h.distinct ht hu (Prod.ext hgroup haccount)

/-- The accounts of a group are distinct. -/
theorem nodup_group (h : Resolved targets) (hg : Grouped groupKey targets gs) {g : Group}
    (hmem : g ∈ gs) : (g.2.map fun t => t.account.id).Nodup := by
  have hperm := hg.perm_filter hmem
  refine ((hperm.map _).nodup_iff).mpr ?_
  have hsub := List.Nodup.sublist ((List.filter_sublist
    (p := fun t => decide (groupKey t = g.1)) (l := targets)).map _) h.distinct
  refine List.Nodup.of_map (fun id => (g.1, id)) ?_
  rw [List.map_map]
  refine (List.map_congr_left fun t ht => ?_) ▸ hsub
  exact Prod.ext (of_decide_eq_true (List.mem_filter.mp ht).2) rfl

/-- The weights of each group fit if and only if those of the list do. -/
theorem groupFits_iff (hg : Grouped groupKey targets gs) :
    (∀ g ∈ gs, GroupFits g) ↔ WeightsFit targets := by
  have hsum : ∀ g ∈ gs, ∀ p : Int64,
      tierSum ((g.2.map ResolvedTarget.account).filter (·.priority == p)) =
        ((targets.filter fun t => groupKey t == g.1 && t.account.priority == p).map fun t =>
          share t.account.weight).sum := by
    intro g hmem p
    have hperm := (hg.perm_filter hmem).filter fun t => t.account.priority == p
    rw [List.filter_filter] at hperm
    calc tierSum ((g.2.map ResolvedTarget.account).filter (·.priority == p))
        = ((g.2.filter fun t => t.account.priority == p).map fun t =>
            share t.account.weight).sum := by
          rw [tierSum, List.filter_map, List.map_map]
          rfl
      _ = _ := by
          rw [(hperm.map _).sum_eq]
          refine congrArg List.sum (congrArg _ (List.filter_congr fun t _ => ?_))
          exact Bool.and_comm ..
  constructor
  · intro h k p
    by_cases hk : ∃ g ∈ gs, g.1 = k
    · obtain ⟨g, hmem, rfl⟩ := hk
      rw [← hsum g hmem p]
      exact h g hmem p
    · have hnil : (targets.filter fun t => groupKey t == k && t.account.priority == p) = [] := by
        refine List.filter_eq_nil_iff.mpr fun t ht hkey => hk ?_
        obtain ⟨g, hmem, htg⟩ := List.mem_flatMap.mp (hg.perm.mem_iff.mpr ht)
        refine ⟨g, hmem, (hg.key_eq g hmem t htg).symm.trans ?_⟩
        exact eq_of_beq (Bool.and_eq_true_iff.mp hkey).1
      rw [hnil]
      decide
  · intro h g hmem p
    rw [hsum g hmem p]
    exact h g.1 p

/-! ## The adaptive strategy -/

section
variable {F : Type} {w : World F} {targets : List ResolvedTarget} {gs : List Group}
  {p : ResolvedTarget → Bool} {scores : String → Option (AdaptiveSortScore F)}

/-- A logical target has a dispatchable candidate. -/
def keyDispatchable (w : World F) (targets : List ResolvedTarget) (k : String) : Bool :=
  targets.any fun t => groupKey t == k && adaptiveAccountDispatchable w t

/-- The logical target of a candidate has a dispatchable candidate. -/
def logicalDispatchable (w : World F) (targets : List ResolvedTarget) (t : ResolvedTarget) : Bool :=
  keyDispatchable w targets (groupKey t)

theorem isDispatchable_eq (h : Resolved targets) {t : ResolvedTarget} (ht : t ∈ targets) :
    isDispatchable w targets t = adaptiveAccountDispatchable w t := by
  rw [Bool.eq_iff_iff]
  constructor
  · intro hkey
    obtain ⟨u, hu, heq⟩ := List.mem_map.mp (List.contains_iff_mem.mp hkey)
    obtain ⟨hu, hdisp⟩ := List.mem_filter.mp hu
    rwa [← adaptiveCandidateKey_injOn h hu ht heq]
  · intro hdisp
    exact List.contains_iff_mem.mpr (List.mem_map_of_mem (List.mem_filter.mpr ⟨ht, hdisp⟩))

theorem filter_isDispatchable (h : Resolved targets) :
    targets.filter (isDispatchable w targets) = targets.filter (adaptiveAccountDispatchable w) :=
  List.filter_congr fun _ ht => isDispatchable_eq h ht

/-- A group has a dispatchable candidate if and only if its logical target does. -/
theorem any_group_eq (h : Grouped groupKey targets gs) {g : Group} (hg : g ∈ gs) :
    g.2.any (adaptiveAccountDispatchable w) = keyDispatchable w targets g.1 := by
  rw [Bool.eq_iff_iff, List.any_eq_true, keyDispatchable, List.any_eq_true]
  constructor
  · rintro ⟨u, hu, hdisp⟩
    refine ⟨u, h.mem_of_mem hg hu, Bool.and_eq_true_iff.mpr ⟨?_, hdisp⟩⟩
    exact beq_iff_eq.mpr (h.key_eq g hg u hu)
  · rintro ⟨u, hu, hkey⟩
    obtain ⟨hkey, hdisp⟩ := Bool.and_eq_true_iff.mp hkey
    refine ⟨u, (h.perm_filter hg).mem_iff.mpr (List.mem_filter.mpr ⟨hu, ?_⟩), hdisp⟩
    exact decide_eq_true (eq_of_beq hkey)

/-- The groups with a dispatchable candidate are those of the dispatchable logical targets. -/
theorem groups_logicalDispatchable (w : World F) (targets : List ResolvedTarget) :
    (groups groupKey targets).filter (fun g => g.2.any (adaptiveAccountDispatchable w)) =
      groups groupKey (targets.filter (logicalDispatchable w targets)) := by
  have hkeys : groups groupKey (targets.filter fun t => keyDispatchable w targets (groupKey t)) =
      _ :=
    groups_filter (keyDispatchable w targets) targets
  refine Eq.trans ?_ hkeys.symm
  exact List.filter_congr fun g hg => any_group_eq (grouped_groups targets) hg

theorem adaptiveGroupRank_congr {q : ResolvedTarget → Bool} {g : Group}
    (h : ∀ t ∈ g.2, p t = q t) : adaptiveGroupRank p scores g = adaptiveGroupRank q scores g := by
  have hfind : g.2.find? p = g.2.find? q := by
    rw [← List.head?_filter, ← List.head?_filter, List.filter_congr h]
  rw [adaptiveGroupRank, adaptiveGroupRank, hfind]

/-- The dispatchable candidates belong to dispatchable logical targets. -/
theorem filter_logicalDispatchable (w : World F) (targets : List ResolvedTarget) :
    (targets.filter (logicalDispatchable w targets)).filter (adaptiveAccountDispatchable w) =
      targets.filter (adaptiveAccountDispatchable w) := by
  rw [List.filter_filter]
  refine List.filter_congr fun t ht => ?_
  rw [Bool.and_eq_left_iff_imp]
  intro hdisp
  exact List.any_eq_true.mpr ⟨t, ht, Bool.and_eq_true_iff.mpr ⟨beq_self_eq_true _, hdisp⟩⟩

/-- The dispatchable candidates of a group. -/
def keepGroup (p : ResolvedTarget → Bool) (g : Group) : Group := (g.1, g.2.filter p)

theorem flatMap_filter (p : ResolvedTarget → Bool) (gs : List Group) :
    (gs.flatMap Prod.snd).filter p =
      ((gs.filter fun g => g.2.any p).map (keepGroup p)).flatMap Prod.snd := by
  induction gs with
  | nil => rfl
  | cons g gs ih =>
    rw [List.flatMap_cons, List.filter_append, ih, List.filter_cons]
    by_cases hany : g.2.any p
    · rw [if_pos hany, List.map_cons, List.flatMap_cons]
      rfl
    · rw [if_neg hany]
      have hnil : g.2.filter p = [] := List.filter_eq_nil_iff.mpr fun t ht hp =>
        hany (List.any_eq_true.mpr ⟨t, ht, hp⟩)
      rw [hnil, List.nil_append]

/-- The rank of a group with a dispatchable candidate is that of its dispatchable candidates. -/
theorem adaptiveGroupRank_keepGroup {g : Group} (h : g.2.any p) :
    adaptiveGroupRank p scores (keepGroup p g) = adaptiveGroupRank p scores g := by
  obtain ⟨t, ht⟩ := Option.isSome_iff_exists.mp (List.find?_isSome.mpr (List.any_eq_true.mp h))
  have hkeep : (keepGroup p g).2.find? p = some t := by
    rw [← ht, ← List.head?_filter, ← List.head?_filter, keepGroup, List.filter_filter]
    simp only [Bool.and_self]
  rw [adaptiveGroupRank, adaptiveGroupRank, hkeep, ht]

end

section
variable {F : Type} [LinearOrder F] {w : World F} {targets : List ResolvedTarget}
  {gs gs' : List Group} {p : ResolvedTarget → Bool} {scores : String → Option (AdaptiveSortScore F)}

theorem adaptiveGroup_congr {q : ResolvedTarget → Bool} {g : Group} (h : ∀ t ∈ g.2, p t = q t) :
    adaptiveGroup p scores g = adaptiveGroup q scores g := by
  unfold adaptiveGroup
  rw [List.filter_congr h, List.filter_congr fun t ht => congrArg not (h t ht)]

theorem adaptiveGroup_perm (p : ResolvedTarget → Bool)
    (scores : String → Option (AdaptiveSortScore F)) (g : Group) :
    (adaptiveGroup p scores g).2.Perm g.2 :=
  (sortBy_perm.append_right _).trans (List.filter_append_perm p g.2)

theorem adaptiveGroup_forall₂ (p : ResolvedTarget → Bool)
    (scores : String → Option (AdaptiveSortScore F)) (gs : List Group) :
    List.Forall₂ (fun g g' => g'.1 = g.1 ∧ g'.2.Perm g.2) gs (gs.map (adaptiveGroup p scores)) := by
  induction gs with
  | nil => exact List.Forall₂.nil
  | cons g gs ih => exact List.Forall₂.cons ⟨rfl, adaptiveGroup_perm p scores g⟩ ih

/-! ### Strategies -/

/-- Every strategy puts the groups in an order. -/
theorem strategyOrder_grouped (w : World F) (strategy : String) (draws : Draws)
    (h : Grouped groupKey targets gs) :
    ∃ out, strategyOrder w strategy targets gs draws = some out ∧ Grouped groupKey targets out := by
  unfold strategyOrder
  split
  · exact ⟨_, rfl, h.of_perm (List.rotate_perm _ _)⟩
  split
  · dsimp only
    split
    · rename_i hpos
      obtain ⟨r, hr⟩ := genRange_isSome draws hpos
      rw [hr]
      exact ⟨_, rfl, h.of_perm (List.rotate_perm _ _)⟩
    · exact ⟨gs, rfl, h⟩
  split
  · exact ⟨_, rfl, (h.of_forall₂ (adaptiveGroup_forall₂ _ _ gs)).of_perm sortBy_perm⟩
  split
  · exact ⟨_, rfl, h.of_perm sortBy_perm⟩
  · exact ⟨_, rfl, h.of_perm sortBy_perm⟩

/-! ### Order -/

/-- Groups without a dispatchable candidate are behind those with one. -/
theorem any_of_rank_le {g g' : Group}
    (h : adaptiveGroupRank p scores g ≤ adaptiveGroupRank p scores g')
    (hg' : g'.2.any p) : g.2.any p := by
  obtain ⟨t', ht'⟩ := Option.isSome_iff_exists.mp (List.find?_isSome.mpr (List.any_eq_true.mp hg'))
  by_contra hnone
  have hfind : g.2.find? p = none :=
    List.find?_eq_none.mpr fun t ht hp => hnone (List.any_eq_true.mpr ⟨t, ht, hp⟩)
  rw [adaptiveGroupRank, hfind, adaptiveGroupRank, ht'] at h
  exact Sum.Lex.not_inr_le_inl h

/-- Dispatchable logical targets come first. -/
theorem pairwise_logicalDispatchable (h : Grouped groupKey targets gs)
    (hs : gs.Pairwise fun g g' =>
      adaptiveGroupRank (adaptiveAccountDispatchable w) scores g ≤
        adaptiveGroupRank (adaptiveAccountDispatchable w) scores g') :
    (gs.flatMap Prod.snd).Pairwise fun a b =>
      logicalDispatchable w targets b → logicalDispatchable w targets a := by
  refine List.pairwise_flatMap.mpr ⟨fun g hg => ?_, ?_⟩
  · refine List.pairwise_of_forall_mem_list fun a ha b hb hdisp => ?_
    rw [logicalDispatchable, h.key_eq g hg b hb] at hdisp
    rwa [logicalDispatchable, h.key_eq g hg a ha]
  · refine hs.imp_of_mem fun {g g'} hg hg' hrank a ha b hb hdisp => ?_
    rw [logicalDispatchable, h.key_eq g' hg' b hb, ← any_group_eq h hg'] at hdisp
    rw [logicalDispatchable, h.key_eq g hg a ha, ← any_group_eq h hg]
    exact any_of_rank_le hrank hdisp

/-! ### Independence of unavailable targets -/

/-- A dispatchable candidate has a score that names its account. -/
theorem adaptiveScores_eq (h : Resolved targets) {t : ResolvedTarget} (ht : t ∈ targets)
    (hdisp : adaptiveAccountDispatchable w t) :
    ∃ neutral, adaptiveScores w targets (adaptiveCandidateKey t) =
      some (adaptiveScore w neutral t) := by
  refine ⟨(medianObservedTtft w (targets.filter (isDispatchable w targets))).getD w.floats.zero, ?_⟩
  have hmem : t ∈ (targets.filter (isDispatchable w targets)).reverse := by
    rw [List.mem_reverse, filter_isDispatchable h]
    exact List.mem_filter.mpr ⟨ht, hdisp⟩
  obtain ⟨u, hu⟩ := Option.isSome_iff_exists.mp
    (List.find?_isSome (p := fun v => adaptiveCandidateKey v == adaptiveCandidateKey t) |>.mpr
      ⟨t, hmem, beq_self_eq_true (adaptiveCandidateKey t)⟩)
  have hkey : adaptiveCandidateKey u = adaptiveCandidateKey t :=
    eq_of_beq (List.find?_some (p := fun v => adaptiveCandidateKey v == adaptiveCandidateKey t) hu)
  have humem := (List.mem_filter.mp (List.mem_reverse.mp (List.mem_of_find?_eq_some hu))).1
  obtain rfl := adaptiveCandidateKey_injOn h humem ht hkey
  exact congrArg (Option.map (adaptiveScore w _)) hu

/-- Different accounts of a group have different ranks. -/
theorem adaptiveRank_inj (h : Resolved targets) {t u : ResolvedTarget} (ht : t ∈ targets)
    (hu : u ∈ targets) (hkey : groupKey t = groupKey u)
    (htd : adaptiveAccountDispatchable w t) (hud : adaptiveAccountDispatchable w u)
    (heq : adaptiveRank (adaptiveScores w targets) t = adaptiveRank (adaptiveScores w targets) u) :
    t = u := by
  obtain ⟨n, hn⟩ := adaptiveScores_eq h ht htd
  obtain ⟨m, hm⟩ := adaptiveScores_eq h hu hud
  rw [adaptiveRank, adaptiveRank, hn, hm] at heq
  have hsort := congrArg (fun k : SortKey F => k.2.2.2.2.2.2.2.1) (Option.some_injective _ heq)
  exact List.inj_on_of_nodup_map h.distinct ht hu (Prod.ext hkey hsort)

/-- The dispatchable candidates of a group in order. -/
def dispatchableGroup (p : ResolvedTarget → Bool) (scores : String → Option (AdaptiveSortScore F))
    (g : Group) : Group := (g.1, sortBy (adaptiveRank scores) (g.2.filter p))

theorem keepGroup_adaptiveGroup (g : Group) :
    keepGroup p (adaptiveGroup p scores g) = dispatchableGroup p scores g := by
  have hall : (sortBy (adaptiveRank scores) (g.2.filter p)).filter p =
      sortBy (adaptiveRank scores) (g.2.filter p) := by
    rw [filter_sortBy, List.filter_filter]
    simp only [Bool.and_self]
  have hnone : (g.2.filter fun t => !p t).filter p = [] := by
    rw [List.filter_filter]
    exact List.filter_eq_nil_iff.mpr fun t _ => by simp
  refine Prod.ext rfl ?_
  rw [keepGroup, adaptiveGroup, List.filter_append, hall, hnone, List.append_nil]
  rfl

/-- The order of the dispatchable candidates does not depend on that of the accounts. -/
theorem filter_sorted_groups (hgs : List.Forall₂ (fun g g' => g'.1 = g.1 ∧ g'.2.Perm g.2) gs gs')
    (hinj : ∀ g ∈ gs, ∀ t ∈ g.2.filter p, ∀ u ∈ g.2.filter p,
      adaptiveRank scores t = adaptiveRank scores u → t = u) :
    ((sortBy (adaptiveGroupRank p scores) (gs'.map (adaptiveGroup p scores))).flatMap
      Prod.snd).filter p =
      (sortBy (adaptiveGroupRank p scores)
        ((gs.filter fun g => g.2.any p).map (dispatchableGroup p scores))).flatMap Prod.snd := by
  have hkeep : ((gs'.map (adaptiveGroup p scores)).filter fun g => g.2.any p).map (keepGroup p) =
      (gs.filter fun g => g.2.any p).map (dispatchableGroup p scores) := by
    induction hgs with
    | nil => rfl
    | @cons g g' gs gs' hg _ ih =>
      have hrest := ih fun g hg => hinj g (List.mem_cons_of_mem _ hg)
      have hany : (adaptiveGroup p scores g').2.any p = g.2.any p :=
        ((adaptiveGroup_perm p scores g').trans hg.2).any_eq
      have hsort : dispatchableGroup p scores g' = dispatchableGroup p scores g := by
        refine Prod.ext hg.1 (sortBy_eq_of_perm (hg.2.filter p) fun t ht u hu => ?_)
        exact hinj g List.mem_cons_self t ((hg.2.filter p).mem_iff.mp ht) u
          ((hg.2.filter p).mem_iff.mp hu)
      rw [List.map_cons, List.filter_cons, List.filter_cons, hany]
      by_cases h : g.2.any p
      · rw [if_pos h, if_pos h, List.map_cons, List.map_cons, hrest, keepGroup_adaptiveGroup, hsort]
      · rw [if_neg h, if_neg h, hrest]
  have hsorted : (sortBy (adaptiveGroupRank p scores)
      ((gs'.map (adaptiveGroup p scores)).filter fun g => g.2.any p)).map (keepGroup p) =
        sortBy (adaptiveGroupRank p scores) (((gs'.map (adaptiveGroup p scores)).filter
          fun g => g.2.any p).map (keepGroup p)) := by
    refine map_sortBy fun g hg g' hg' => ?_
    rw [adaptiveGroupRank_keepGroup (List.mem_filter.mp hg).2,
      adaptiveGroupRank_keepGroup (List.mem_filter.mp hg').2]
  rw [flatMap_filter, filter_sortBy, hsorted, hkeep]

/-- What the adaptive strategy makes of the groups. -/
def adaptiveOrder (w : World F) (zs : List ResolvedTarget)
    (scores : String → Option (AdaptiveSortScore F)) : List ResolvedTarget :=
  (sortBy (adaptiveGroupRank (adaptiveAccountDispatchable w) scores)
    ((groups groupKey zs).map (dispatchableGroup (adaptiveAccountDispatchable w) scores))).flatMap
      Prod.snd

theorem adaptiveScores_eq_of_filter (h : Resolved targets) {others : List ResolvedTarget}
    (ho : Resolved others) (heq : others.filter (logicalDispatchable w others) =
      targets.filter (logicalDispatchable w targets)) :
    adaptiveScores w others = adaptiveScores w targets := by
  rw [adaptiveScores, adaptiveScores, filter_isDispatchable h, filter_isDispatchable ho,
    ← filter_logicalDispatchable w others, heq, filter_logicalDispatchable]

/-- The dispatchable candidates of an adaptive order are those of the dispatchable logical targets
alone, in order. -/
theorem orderRouteTargets_adaptive (h : Resolved targets) {ordered : OrderedRouteTargets F}
    (hord : orderRouteTargets w "adaptive" targets = some ordered) :
    (ordered.targets.Pairwise fun a b =>
      logicalDispatchable w targets b → logicalDispatchable w targets a) ∧
    ordered.targets.filter (adaptiveAccountDispatchable w) =
      adaptiveOrder w (targets.filter (logicalDispatchable w targets))
        (adaptiveScores w targets) := by
  have hg : Grouped groupKey targets (groups groupKey targets) := grouped_groups targets
  have hfits : ∀ g ∈ groups groupKey targets, GroupFits g := by
    obtain ⟨r, hr, -⟩ := Option.bind_eq_some_iff.mp hord
    exact orderGroups_some hr
  obtain ⟨r, hr, hall⟩ := orderGroups_fits w.draws (fun g hmem => nodup_group h hg hmem) hfits
  have hgr := hg.of_forall₂ hall
  have hcongr : r.1.map (adaptiveGroup (isDispatchable w targets) (adaptiveScores w targets)) =
      r.1.map (adaptiveGroup (adaptiveAccountDispatchable w) (adaptiveScores w targets)) :=
    List.map_congr_left fun g hmem => adaptiveGroup_congr fun t ht =>
      isDispatchable_eq h (hgr.mem_of_mem hmem ht)
  have hga := hgr.of_forall₂ (adaptiveGroup_forall₂ (adaptiveAccountDispatchable w)
    (adaptiveScores w targets) r.1)
  have hout : ordered.targets = (sortBy (adaptiveGroupRank (adaptiveAccountDispatchable w)
      (adaptiveScores w targets)) (r.1.map (adaptiveGroup (adaptiveAccountDispatchable w)
        (adaptiveScores w targets)))).flatMap Prod.snd := by
    rw [orderRouteTargets, hr] at hord
    have hord := (Option.some_injective _ hord).symm
    rw [hord, hcongr, sortBy_congr fun g hmem => adaptiveGroupRank_congr fun t ht =>
      isDispatchable_eq h (hga.mem_of_mem hmem ht)]
  rw [hout]
  refine ⟨pairwise_logicalDispatchable (hga.of_perm sortBy_perm) sortBy_pairwise, ?_⟩
  rw [filter_sorted_groups hall, groups_logicalDispatchable]
  · rfl
  · intro g hmem t ht u hu
    obtain ⟨ht, htd⟩ := List.mem_filter.mp ht
    obtain ⟨hu, hud⟩ := List.mem_filter.mp hu
    exact adaptiveRank_inj h (hg.mem_of_mem hmem ht) (hg.mem_of_mem hmem hu)
      ((hg.key_eq g hmem t ht).trans (hg.key_eq g hmem u hu).symm) htd hud

/-! ## Fairness -/

/-- What makes an order of the targets fair. Other lists have the same dispatchable logical targets
and any unavailable ones, and other draws and another counter. -/
structure Fair (w : World F) (strategy : String) (targets out : List ResolvedTarget) : Prop where
  perm : out.Perm targets
  contiguous : Contiguous groupKey out
  dispatchable_first : strategy = "adaptive" → out.Pairwise fun a b =>
    logicalDispatchable w targets b → logicalDispatchable w targets a
  undisturbed : strategy = "adaptive" → ∀ (draws : Draws) (counter : Nat)
    (others : List ResolvedTarget) (ordered : OrderedRouteTargets F), Resolved others →
    others.filter (logicalDispatchable w others) = targets.filter (logicalDispatchable w targets) →
    orderRouteTargets { w with draws, counter } strategy others = some ordered →
    adaptiveScores w others = adaptiveScores w targets ∧
      ordered.targets.filter (adaptiveAccountDispatchable w) =
        out.filter (adaptiveAccountDispatchable w)

theorem fair_of_some (h : Resolved targets) {strategy : String} {ordered : OrderedRouteTargets F}
    (hord : orderRouteTargets w strategy targets = some ordered) :
    Fair w strategy targets ordered.targets := by
  have hg : Grouped groupKey targets (groups groupKey targets) := grouped_groups targets
  obtain ⟨r, hr, hstrategy⟩ := Option.bind_eq_some_iff.mp hord
  obtain ⟨gs, hgs, heq⟩ := Option.bind_eq_some_iff.mp hstrategy
  have hgrouped : Grouped groupKey targets gs := by
    obtain ⟨r', hr', hall⟩ := orderGroups_fits w.draws (fun g hmem => nodup_group h hg hmem)
      (orderGroups_some hr)
    obtain rfl := Option.some_injective _ (hr.symm.trans hr')
    obtain ⟨gs', hgs', hgrouped⟩ := strategyOrder_grouped w strategy r.2 (hg.of_forall₂ hall)
    obtain rfl := Option.some_injective _ (hgs.symm.trans hgs')
    exact hgrouped
  have hout : ordered.targets = gs.flatMap Prod.snd :=
    (congrArg OrderedRouteTargets.targets (Option.some_injective _ heq)).symm
  constructor
  · rw [hout]
    exact hgrouped.perm
  · rw [hout]
    exact hgrouped.contiguous
  · rintro rfl
    exact (orderRouteTargets_adaptive h hord).1
  · rintro rfl draws counter others ordered' ho hsame hord'
    have hscores := adaptiveScores_eq_of_filter h ho hsame
    refine ⟨hscores, ?_⟩
    have hleft := (orderRouteTargets_adaptive ho hord').2
    have hright := (orderRouteTargets_adaptive h hord).2
    calc ordered'.targets.filter (adaptiveAccountDispatchable w)
        = adaptiveOrder w (others.filter (logicalDispatchable w others))
          (adaptiveScores w others) :=
          hleft
      _ = adaptiveOrder w (targets.filter (logicalDispatchable w targets))
          (adaptiveScores w targets) := by rw [hsame, hscores]
      _ = _ := hright.symm

theorem isSome_of_weightsFit (w : World F) (strategy : String) (h : Resolved targets)
    (hfit : WeightsFit targets) :
    ∃ ordered, orderRouteTargets w strategy targets = some ordered := by
  have hg : Grouped groupKey targets (groups groupKey targets) := grouped_groups targets
  obtain ⟨r, hr, hall⟩ := orderGroups_fits w.draws (fun g hmem => nodup_group h hg hmem)
    ((groupFits_iff hg).mpr hfit)
  obtain ⟨gs, hgs, -⟩ := strategyOrder_grouped w strategy r.2 (hg.of_forall₂ hall)
  refine ⟨⟨gs.flatMap Prod.snd, quotaEvidence w strategy targets⟩, ?_⟩
  rw [orderRouteTargets, hr]
  change (strategyOrder w strategy targets r.1 r.2).bind _ = _
  rw [hgs]
  rfl

/-- The targets of a route are put in a fair order if and only if the weights of the accounts of
each logical target and each priority fit into an `i64` together. -/
theorem orderRouteTargets_fair_iff (w : World F) (strategy : String) {targets : List ResolvedTarget}
    (h : Resolved targets) :
    (∃ ordered, orderRouteTargets w strategy targets = some ordered ∧
      Fair w strategy targets ordered.targets) ↔ WeightsFit targets := by
  constructor
  · rintro ⟨ordered, hord, -⟩
    obtain ⟨r, hr, -⟩ := Option.bind_eq_some_iff.mp hord
    exact (groupFits_iff (grouped_groups targets)).mp (orderGroups_some hr)
  · intro hfit
    obtain ⟨ordered, hord⟩ := isSome_of_weightsFit w strategy h hfit
    exact ⟨ordered, hord, fair_of_some h hord⟩

end

/-- A logical target with two accounts of one weight. -/
def twoAccounts (weight : Int64) : List ResolvedTarget :=
  ["acc_1", "acc_2"].map fun id =>
    { account := { id, priority := 0, weight }
      modelId := "mod_1"
      providerId := "prov_1"
      routeTargetId := some "tgt_1"
      priority := 0
      weight := 1 }

def idleWorld : World Nat where
  rfc := ⟨fun _ => "", fun _ => none⟩
  now := 0
  floats := ⟨0, fun _ => true, fun a b => (a + b) / 2⟩
  snapshot _ _ _ := ⟨true, 0, 0, 0, none⟩
  quotaPreference _ _ := none
  counter := 0
  requests _ := 0
  draws _ := 0

theorem resolved_twoAccounts (weight : Int64) : Resolved (twoAccounts weight) := by
  constructor
  · exact show [("tgt_1", "acc_1"), ("tgt_1", "acc_2")].Nodup by decide
  · intro t ht
    have hids : t.routeTargetId = some "tgt_1" ∧ t.providerId = "prov_1" ∧
        (t.account.id = "acc_1" ∨ t.account.id = "acc_2") := by
      obtain ⟨id, hid, rfl⟩ := List.mem_map.mp ht
      exact ⟨rfl, rfl, by simpa using hid⟩
    obtain ⟨hroute, hprovider, haccount⟩ := hids
    rw [hroute, hprovider]
    refine ⟨fun id hid => ?_, by decide, ?_⟩
    · obtain rfl := Option.some_injective _ hid
      decide
    · rcases haccount with hid | hid <;> rw [hid] <;> decide

/-- Small weights. -/
theorem orderRouteTargets_fair_small : Resolved (twoAccounts 1) ∧
    ((∃ ordered, orderRouteTargets idleWorld "adaptive" (twoAccounts 1) = some ordered ∧
      Fair idleWorld "adaptive" (twoAccounts 1) ordered.targets) ↔ WeightsFit (twoAccounts 1)) :=
  ⟨resolved_twoAccounts 1, orderRouteTargets_fair_iff idleWorld "adaptive" (resolved_twoAccounts 1)⟩

/-- Two accounts with the largest weight. -/
theorem orderRouteTargets_not_fair : Resolved (twoAccounts 9223372036854775807) ∧
    ¬ ∃ ordered, orderRouteTargets idleWorld "adaptive" (twoAccounts 9223372036854775807) =
      some ordered ∧
      Fair idleWorld "adaptive" (twoAccounts 9223372036854775807) ordered.targets := by
  refine ⟨resolved_twoAccounts _, ?_⟩
  rintro ⟨ordered, hord, -⟩
  have hnone : orderRouteTargets idleWorld "adaptive" (twoAccounts 9223372036854775807) = none :=
    rfl
  exact Option.some_ne_none ordered (hord.symm.trans hnone)

end Kinetix.Routing
