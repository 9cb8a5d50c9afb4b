import Kinetix.Account.SoonestRecovery
import Kinetix.Library.Promotion
import Kinetix.Pipeline.Affinity

/-!
# The promotion of the session's target

The candidate of the session is brought to the front by a rotation. This is a promotion, which
leaves the others in the order of the route's strategy, only if what is before the candidate and
what is behind it repeat one list; without repetitions, only if it is the first or the last one. The
rotation does not look at the health of the account either.
-/

namespace Kinetix.Pipeline
open Account Promotion

namespace SessionRequest
variable (R : Rfc3339) (r : SessionRequest) (originKey : Option String) (now : Int)

/-- The position of the candidate of the session, if the route keeps to it. -/
def stickyPosition : Option Nat :=
  r.route.bind fun route => originKey.bind fun key =>
    if route.cacheAffinity || route.stickyRouting then
      r.targets.findIdx? (r.targetKey route · = key)
    else none

/-- Whether the account of a candidate can be used, for a request or for a probe. -/
def dispatchable (t : ResolvedTarget) : Bool :=
  t.account.isAvailable R now || t.account.shouldProbe R now

/-- What the promotion is for: the candidate of the session, if it is there and can be used, and the
others in their order. -/
def stickyFirst : List ResolvedTarget :=
  match r.stickyPosition originKey with
  | some pos =>
    if r.targets[pos]?.any (dispatchable R now) then promote r.targets pos else r.targets
  | none => r.targets

/-- A candidate that can be used has the same list, some number of times, before it and behind it;
one that cannot is the first one. -/
def KeepsOrder : Prop :=
  ∀ pos, r.stickyPosition originKey = some pos →
    if r.targets[pos]?.any (dispatchable R now) then
      ∃ w m n, r.targets.take pos = repeated m w ∧ r.targets.drop (pos + 1) = repeated n w
    else pos = 0

theorem promotedTargets_eq :
    r.promotedTargets originKey =
      match r.stickyPosition originKey with
      | some pos => r.targets.rotate pos
      | none => r.targets := by
  cases hroute : r.route with
  | none => simp [promotedTargets, stickyPosition, hroute]
  | some route =>
    cases originKey with
    | none => simp [promotedTargets, stickyPosition, hroute]
    | some key =>
      simp only [promotedTargets, stickyPosition, hroute, Option.bind_some]
      by_cases hkeep : (route.cacheAffinity || route.stickyRouting) = true
      · cases hfind : r.targets.findIdx? (r.targetKey route · = key) with
        | none | some pos => simp [hkeep]
      · rw [if_neg hkeep, if_neg hkeep]

/-- The candidate is the first one with the key of the session. -/
theorem stickyPosition_spec {pos : Nat} (h : r.stickyPosition originKey = some pos) :
    pos < r.targets.length ∧ (r.targets.head? = r.targets[pos]? → pos = 0) := by
  simp only [stickyPosition, Option.bind_eq_some_iff, Option.ite_none_right_eq_some] at h
  obtain ⟨route, -, key, -, -, hfind⟩ := h
  obtain ⟨hpos, hkey, hbefore⟩ := List.findIdx?_eq_some_iff_getElem.mp hfind
  refine ⟨hpos, fun hhead => ?_⟩
  by_contra hne
  have hfirst := hbefore 0 (Nat.pos_of_ne_zero hne)
  rw [List.head?_eq_getElem?, List.getElem?_eq_getElem hpos,
    List.getElem?_eq_getElem (Nat.zero_lt_of_lt hpos)] at hhead
  rw [Option.some.inj hhead] at hfirst
  exact hfirst hkey

/-- Sticky promotion changes nothing but the front exactly if the candidate of the session can be
used and is between two repetitions of one list, or cannot be used and is the first one. -/
theorem sticky_promotion :
    r.promotedTargets originKey = r.stickyFirst R originKey now ↔ r.KeepsOrder R originKey now := by
  rw [promotedTargets_eq, stickyFirst]
  cases hpos : r.stickyPosition originKey with
  | none => simp [KeepsOrder, hpos]
  | some pos =>
    obtain ⟨hlt, hfirst⟩ := r.stickyPosition_spec originKey hpos
    have hkeeps : r.KeepsOrder R originKey now ↔
        if r.targets[pos]?.any (dispatchable R now) then
          ∃ w m n, r.targets.take pos = repeated m w ∧ r.targets.drop (pos + 1) = repeated n w
        else pos = 0 := by
      simp only [KeepsOrder, hpos, Option.some.injEq, forall_eq']
    rw [hkeeps]
    by_cases hdispatch : r.targets[pos]?.any (dispatchable R now) = true
    · simp only [hdispatch, if_true]
      exact rotate_eq_promote_iff hlt
    · simp only [hdispatch]
      constructor
      · intro heq
        exact hfirst (head?_eq_of_rotate_eq_self hlt heq)
      · rintro rfl
        simp

end SessionRequest

/-- A request whose plan has three candidates. -/
def threeCandidates : SessionRequest :=
  { sessionRequest "key_a" "a" with
    targets := [stickyTarget "acc_1", stickyTarget "acc_2", stickyTarget "acc_3"] }

/-- The candidate in the middle takes the one behind it along, in front of the first one. -/
theorem sticky_promotion_reorders : ¬ ∀ (R : Rfc3339) (r : SessionRequest)
    (originKey : Option String) (now : Int),
    r.promotedTargets originKey = r.stickyFirst R originKey now := by
  intro hall
  have heq := hall exampleTimes threeCandidates (some "rte_1|acc_2|mod_1") 0
  have haccounts := congrArg (List.map ResolvedTarget.accountId) heq
  have hrotated : (threeCandidates.promotedTargets (some "rte_1|acc_2|mod_1")).map
      ResolvedTarget.accountId = ["acc_2", "acc_3", "acc_1"] := rfl
  have hwanted : (threeCandidates.stickyFirst exampleTimes (some "rte_1|acc_2|mod_1") 0).map
      ResolvedTarget.accountId = ["acc_2", "acc_1", "acc_3"] := rfl
  rw [hrotated, hwanted] at haccounts
  exact absurd haccounts (by decide)

end Kinetix.Pipeline
