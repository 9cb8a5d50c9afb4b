import Kinetix.Routing.Fairness

/-!
# The order of the accounts of a provider

`pool::order_accounts` together with what each draw of its inner loop goes by. The weights of an
account are any 64-bit numbers. Where those of one priority add up to one, the accounts come back in
another order and each draw is from a range that is not empty and selects an account; where they do
not, the sum wraps and the sampling ends in a panic.
-/

namespace Kinetix.Routing
open Grouping Words
open scoped List

/-! ## Draws -/

/-- One turn of the inner loop of `order_accounts`. -/
structure Draw where
  /-- The weights of the accounts that are left, each at least one. -/
  shares : List Int
  total : Int
  /-- What `gen_range(0..total)` returns. -/
  pick : Option Int
  /-- Where the accounts that are left are indexed. -/
  index : Option Nat

/-- The sum did not overflow, the range was not empty, and the index is one of the list. -/
def Draw.Safe (d : Draw) : Prop :=
  d.total = d.shares.sum ∧ 0 < d.total ∧ (∃ pick, d.pick = some pick ∧ 0 ≤ pick ∧ pick < d.total) ∧
    ∃ i, d.index = some i ∧ i < d.shares.length

/-- The turns of the inner loop, up to the one that panics. -/
def tierDraws : Nat → List AccountRow → Draws → List Draw
  | _, [], _ => []
  | 0, _ :: _, _ => []
  | n + 1, a :: as, draws =>
    let shares := (a :: as).map fun b => share b.weight
    match genRange (wrapI64 shares.sum) draws with
    | some (pick, draws) =>
      ⟨shares, wrapI64 shares.sum, some pick, selected pick shares⟩ ::
        tierDraws n (swapOut a as ((selected pick shares).getD 0)).2 draws
    | none => [⟨shares, wrapI64 shares.sum, none, none⟩]

/-- The turns of the inner loop for the accounts of one priority after the others. -/
def tiersDraws : Nat → List AccountRow → Draws → List Draw
  | _, [], _ => []
  | 0, _ :: _, _ => []
  | n + 1, a :: as, draws =>
    let tier := a :: as.takeWhile (·.priority == a.priority)
    tierDraws tier.length tier draws ++
      match sampleTier tier.length tier draws with
      | some (_, draws) => tiersDraws n (as.dropWhile (·.priority == a.priority)) draws
      | none => []

/-- All draws of `order_accounts`. -/
def accountDraws (accounts : List AccountRow) (draws : Draws) : List Draw :=
  let sorted := sortBy (fun a : AccountRow => a.priority.toInt) accounts
  tiersDraws sorted.length sorted draws

variable {accounts : List AccountRow} {draws : Draws} {n : Nat}

/-- A pick below the sum of the shares selects one of them. -/
theorem selected_lt {pick : Int} {shares : List Int} (h₀ : 0 ≤ pick) (h : pick < shares.sum) :
    ∃ i, selected pick shares = some i ∧ i < shares.length := by
  induction shares generalizing pick with
  | nil => simp at h; omega
  | cons w ws ih =>
    rw [List.sum_cons] at h
    by_cases hw : pick - w < 0
    · exact ⟨0, by simp [selected, hw], by simp⟩
    · obtain ⟨i, hi, hlt⟩ := ih (not_lt.mp hw) (by omega)
      exact ⟨i + 1, by simp [selected, hw, hi], by simpa using hlt⟩

/-- `gen_range` returns a number of its range. -/
theorem genRange_mem {total : Int} {r : Int × Draws} (h : genRange total draws = some r) :
    0 ≤ r.1 ∧ r.1 < total := by
  have hpos := genRange_eq_some h
  rw [genRange, if_pos hpos] at h
  obtain rfl := Option.some.inj h
  exact ⟨Int.emod_nonneg _ hpos.ne', Int.emod_lt_of_pos _ hpos⟩

/-- What the turns of the loop leave fits if the whole does. -/
theorem tierDraws_safe {tier : List AccountRow} (h : tierSum tier ≤ i64Max) :
    ∀ d ∈ tierDraws n tier draws, d.Safe := by
  induction n generalizing tier draws with
  | zero =>
    cases tier with
    | nil | cons a as => exact fun d hd => absurd hd List.not_mem_nil
  | succ n ih =>
    cases tier with
    | nil => exact fun d hd => absurd hd List.not_mem_nil
    | cons a as =>
      have hpos : 0 < tierSum (a :: as) := by
        rw [tierSum_cons]
        exact add_pos_of_pos_of_nonneg (one_le_share _) (tierSum_nonneg as)
      have htotal : wrapI64 (tierSum (a :: as)) = tierSum (a :: as) := wrapI64_eq hpos.le h
      obtain ⟨⟨pick, draws'⟩, hr⟩ := genRange_isSome draws (htotal.symm ▸ hpos)
      obtain ⟨h₀, hlt⟩ := genRange_mem hr
      rw [tierSum] at hr htotal
      intro d hd
      simp only [tierDraws, hr, List.mem_cons] at hd
      rcases hd with rfl | hd
      · rw [tierSum, htotal] at hlt
        obtain ⟨i, hi, hlen⟩ := selected_lt h₀ hlt
        exact ⟨htotal, htotal.symm ▸ hpos, ⟨pick, rfl, h₀, htotal.symm ▸ hlt⟩, i, hi, hlen⟩
      · refine ih ?_ d hd
        have hsum := tierSum_swapOut a as
          ((selected pick ((a :: as).map fun b => share b.weight)).getD 0)
        have hone := one_le_share (swapOut a as
          ((selected pick ((a :: as).map fun b => share b.weight)).getD 0)).1.weight
        omega

/-! ## Order -/

/-- Sorted by priority, lower first. -/
def ByPriority (accounts : List AccountRow) : Prop :=
  accounts.Pairwise fun a b => a.priority.toInt ≤ b.priority.toInt

theorem tiersDraws_safe (hs : ByPriority accounts) (h : TiersFit accounts) :
    ∀ d ∈ tiersDraws n accounts draws, d.Safe := by
  induction n generalizing accounts draws with
  | zero =>
    cases accounts with
    | nil | cons a as => exact fun d hd => absurd hd List.not_mem_nil
  | succ n ih =>
    cases accounts with
    | nil => exact fun d hd => absurd hd List.not_mem_nil
    | cons a as =>
      obtain ⟨htake, hdrop⟩ := takeWhile_eq_filter hs
      obtain ⟨htier, hrest⟩ := (tiersFit_cons a as).mp h
      intro d hd
      simp only [tiersDraws, htake, hdrop, List.mem_append] at hd
      rcases hd with hd | hd
      · exact tierDraws_safe htier d hd
      · split at hd
        · exact ih ((List.pairwise_cons.mp hs).2.filter _) hrest d hd
        · exact absurd hd List.not_mem_nil

/-- Sampling keeps the order of the priorities. -/
theorem sampleTiers_byPriority {out : List AccountRow × Draws} (hn : accounts.length ≤ n)
    (hs : ByPriority accounts) (h : TiersFit accounts)
    (hout : sampleTiers n accounts draws = some out) : ByPriority out.1 := by
  induction n generalizing accounts draws out with
  | zero =>
    obtain rfl := List.length_eq_zero_iff.mp (Nat.le_zero.mp hn)
    obtain rfl := Option.some.inj hout
    exact List.Pairwise.nil
  | succ n ih =>
    cases accounts with
    | nil =>
      obtain rfl := Option.some.inj hout
      exact List.Pairwise.nil
    | cons a as =>
      obtain ⟨htake, hdrop⟩ := takeWhile_eq_filter hs
      obtain ⟨htier, hrest⟩ := (tiersFit_cons a as).mp h
      obtain ⟨hfirst, hsorted⟩ := List.pairwise_cons.mp hs
      have hlen : (as.filter fun b => !(b.priority == a.priority)).length ≤ n :=
        (List.length_filter_le _ _).trans (Nat.le_of_succ_le_succ hn)
      obtain ⟨tier, htierEq, htierPerm⟩ := @sampleTier_fits draws _ _ le_rfl htier
      obtain ⟨rest, hrestEq, hrestPerm⟩ :=
        @sampleTiers_fits _ tier.2 _ hlen (hsorted.filter _) hrest
      have hall := ih hlen (hsorted.filter _) hrest hrestEq
      have hsplit : sampleTiers (n + 1) (a :: as) draws =
          some (tier.1 ++ rest.1, rest.2) := by
        rw [sampleTiers, htake, hdrop, htierEq]
        change (sampleTiers n _ tier.2).bind _ = _
        rw [hrestEq]
        rfl
      obtain rfl := Option.some.inj (hsplit.symm.trans hout)
      have heq : ∀ b ∈ tier.1, b.priority = a.priority := by
        intro b hb
        rcases List.mem_cons.mp (htierPerm.mem_iff.mp hb) with rfl | hb
        · rfl
        · exact beq_iff_eq.mp (List.mem_filter.mp hb).2
      refine List.pairwise_append.mpr ⟨?_, hall, ?_⟩
      · refine List.pairwise_of_forall_mem_list fun b hb c hc => ?_
        rw [heq b hb, heq c hc]
      · intro b hb c hc
        rw [heq b hb]
        exact hfirst c (List.mem_filter.mp (hrestPerm.mem_iff.mp hc)).1

/-- Sorted by priority but for the preferred account, which is in front if it is there. -/
def SortedExcept (preferred : Option String) (accounts : List AccountRow) : Prop :=
  ((∀ a ∈ accounts, preferred ≠ some a.id) ∧ ByPriority accounts) ∨
    ∃ a rest, accounts = a :: rest ∧ preferred = some a.id ∧ ByPriority rest

theorem promote_eq_self {preferred : Option String} (h : ∀ a ∈ accounts, preferred ≠ some a.id) :
    promote preferred accounts = accounts := by
  cases preferred with
  | none => rfl
  | some id =>
    have hnone : accounts.find? (·.id == id) = none := by
      rw [List.find?_eq_none]
      intro a ha hid
      exact h a ha (congrArg some (beq_iff_eq.mp hid).symm)
    simp [promote, hnone]

/-- The preferred account is taken from its place and put in front. -/
theorem promote_append {a : AccountRow} {before after : List AccountRow}
    (h : ∀ b ∈ before, b.id ≠ a.id) :
    promote (some a.id) (before ++ a :: after) = a :: (before ++ after) := by
  have hbefore : ∀ b ∈ before, (!(b.id == a.id)) = true := by simpa using h
  have hfind : (before ++ a :: after).find? (·.id == a.id) = some a :=
    List.find?_eq_some_iff_append.mpr ⟨beq_self_eq_true a.id, before, after, rfl, hbefore⟩
  simp only [promote, Option.bind_some, hfind]
  rw [List.eraseP_append_right _ (by simpa using h), List.eraseP_cons_of_pos (by simp)]

theorem promote_sortedExcept (preferred : Option String) (h : ByPriority accounts) :
    (promote preferred accounts).Perm accounts ∧
      SortedExcept preferred (promote preferred accounts) := by
  by_cases hmem : ∃ a ∈ accounts, preferred = some a.id
  · obtain ⟨a', ha', rfl⟩ := hmem
    -- The first account with the identifier is the one that moves.
    have hfind : (accounts.find? (·.id == a'.id)).isSome :=
      List.find?_isSome.mpr ⟨a', ha', beq_self_eq_true a'.id⟩
    obtain ⟨a, ha⟩ := Option.isSome_iff_exists.mp hfind
    obtain ⟨hid, before, after, rfl, hbefore⟩ := List.find?_eq_some_iff_append.mp ha
    rw [← beq_iff_eq.mp hid] at hbefore ⊢
    rw [promote_append (by simpa using hbefore)]
    refine ⟨List.perm_middle.symm, .inr ⟨a, before ++ after, rfl, rfl, ?_⟩⟩
    exact h.sublist ((List.sublist_cons_self a after).append_left before)
  · have hnone : ∀ a ∈ accounts, preferred ≠ some a.id := fun a ha hid => hmem ⟨a, ha, hid⟩
    rw [promote_eq_self hnone]
    exact ⟨List.Perm.refl _, .inl ⟨hnone, h⟩⟩

/-- `order_accounts` returns its accounts in another order, by priority but for the preferred one,
and each of its draws is safe, exactly if the weights of each priority fit into 64 bits. -/
theorem order_accounts_safe (accounts : List AccountRow) (preferred : Option String)
    (draws : Draws) :
    (∃ out, orderAccounts accounts preferred draws = some out ∧ out.1.Perm accounts ∧
      SortedExcept preferred out.1 ∧ ∀ d ∈ accountDraws accounts draws, d.Safe) ↔
      TiersFit accounts := by
  constructor
  · rintro ⟨out, hout, -⟩
    exact orderAccounts_some hout
  · intro h
    have hsorted : ByPriority (sortBy (fun a : AccountRow => a.priority.toInt) accounts) :=
      sortBy_pairwise
    have hsort : (sortBy (fun a : AccountRow => a.priority.toInt) accounts).Perm accounts :=
      sortBy_perm
    have hfits := (tiersFit_perm hsort).mpr h
    obtain ⟨out, hout, hperm⟩ := @sampleTiers_fits _ draws _ le_rfl hsorted hfits
    have hby := sampleTiers_byPriority le_rfl hsorted hfits hout
    obtain ⟨hpromote, hexcept⟩ := promote_sortedExcept preferred hby
    refine ⟨(promote preferred out.1, out.2), ?_, hpromote.trans (hperm.trans hsort), hexcept,
      tiersDraws_safe hsorted hfits⟩
    rw [orderAccounts, hout]
    rfl

/-- Two accounts of one priority with the largest weight that the admin API takes. -/
def heaviestAccounts : List AccountRow :=
  ["acc_1", "acc_2"].map fun id => { id, priority := 1, weight := 9223372036854775807 }

/-- Their sum wraps to a negative number, and the draw from the empty range panics. -/
theorem order_accounts_panics : ¬ ∀ (accounts : List AccountRow) (preferred : Option String)
    (draws : Draws), ∃ out, orderAccounts accounts preferred draws = some out ∧
      out.1.Perm accounts ∧ SortedExcept preferred out.1 ∧
        ∀ d ∈ accountDraws accounts draws, d.Safe := by
  intro hall
  obtain ⟨out, hout, -⟩ := hall heaviestAccounts none fun _ => 0
  have hnone : orderAccounts heaviestAccounts none (fun _ => 0) = none := rfl
  exact Option.some_ne_none out (hout.symm.trans hnone)

end Kinetix.Routing
