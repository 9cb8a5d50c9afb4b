import Mathlib.Data.Finset.Card
import Mathlib.Data.Finset.Dedup
import Mathlib.Data.List.Basic
import Mathlib.Data.List.DropRight
import Mathlib.Data.List.Infix

/-!
# Events in order

Events are appended to a log. An event of a kind is current at a length of the log if no event of
the kind follows it among the first events of that length.

Events that carry a time and a key arrive in order of time. A monitor that asks whether the recent
events have two different keys may keep a queue from which old events are purged and whose length is
capped: as long as the answer has been no, the queue gives the same answer as the unbounded record.
-/

namespace EventLog

universe u
variable {α : Type u} {log more : List α} {m n : Nat} {p : α → Prop} {x y : α}

/-- The event is of the kind, and none of the kind follows it among the first `n` events. -/
def Current (log : List α) (n : Nat) (p : α → Prop) (x : α) : Prop :=
  p x ∧ ∃ i, log[i]? = some x ∧ ∀ j y, i < j → j < n → log[j]? = some y → ¬ p y

namespace Current

theorem mono (h : Current log n p x) (hmn : m ≤ n) : Current log m p x := by
  obtain ⟨hx, i, hi, hlast⟩ := h
  exact ⟨hx, i, hi, fun j y hij hj => hlast j y hij (Nat.lt_of_lt_of_le hj hmn)⟩

/-- Events that come later do not matter. -/
theorem append (h : Current log n p x) (hn : n ≤ log.length) : Current (log ++ more) n p x := by
  obtain ⟨hx, i, hi, hlast⟩ := h
  refine ⟨hx, i, ?_, fun j y hij hj hy => ?_⟩
  · rw [List.getElem?_append_left (List.getElem?_eq_some_iff.mp hi).1]
    exact hi
  · rw [List.getElem?_append_left (Nat.lt_of_lt_of_le hj hn)] at hy
    exact hlast j y hij hj hy

/-- An event that is current stays so as long as no event of the kind comes after it. -/
theorem extend (h : Current log n p x) (hmore : ∀ y ∈ log.drop n, ¬ p y) :
    Current log log.length p x := by
  obtain ⟨hx, i, hi, hlast⟩ := h
  refine ⟨hx, i, hi, fun j y hij hj hy => ?_⟩
  rcases Nat.lt_or_ge j n with hjn | hjn
  · exact hlast j y hij hjn hy
  · refine hmore y (List.mem_iff_getElem?.mpr ⟨j - n, ?_⟩)
    rw [List.getElem?_drop, Nat.add_sub_cancel' hjn]
    exact hy

theorem snoc_of_not (h : Current log log.length p x) (hy : ¬ p y) :
    Current (log ++ [y]) (log.length + 1) p x := by
  have hlater : Current (log ++ [y]) log.length p x := h.append (Nat.le_refl _)
  have hlong := hlater.extend (by simpa using hy)
  rwa [List.length_append, List.length_singleton] at hlong

/-- The last event of the log is the only current one of its kind. -/
theorem eq_of_snoc (h : Current (log ++ [y]) (log.length + 1) p x) (hy : p y) : x = y := by
  obtain ⟨-, i, hi, hlast⟩ := h
  have hbound := (List.getElem?_eq_some_iff.mp hi).1
  rw [List.length_append, List.length_singleton] at hbound
  rcases Nat.lt_or_ge i log.length with hlt | hge
  · exact absurd hy (hlast log.length y hlt (Nat.lt_succ_self _) (by simp))
  · obtain rfl : i = log.length := by omega
    simpa using hi.symm

end Current

theorem current_snoc (h : p x) : Current (log ++ [x]) (log.length + 1) p x := by
  refine ⟨h, log.length, by simp, fun j y hlt hj => ?_⟩
  omega

/-- The last event of the kind since some length of the log is current. -/
theorem current_of_find [DecidablePred p] (h : (log.drop n).reverse.find? p = some x) :
    Current log log.length p x := by
  obtain ⟨hx, later, before, hsplit, hlater⟩ := List.find?_eq_some_iff_append.mp h
  have hdrop : log.drop n = before.reverse ++ x :: later.reverse := by
    rw [← List.reverse_reverse (log.drop n), hsplit]
    simp
  have hlog : log = log.take n ++ before.reverse ++ x :: later.reverse := by
    rw [List.append_assoc, ← hdrop, List.take_append_drop]
  have hpre : Current (log.take n ++ before.reverse ++ [x])
      ((log.take n ++ before.reverse).length + 1) p x :=
    current_snoc (by simpa using hx)
  have hall : log = (log.take n ++ before.reverse ++ [x]) ++ later.reverse := by
    rw [List.append_assoc _ [x], List.singleton_append]
    exact hlog
  rw [hall]
  have hlen : (log.take n ++ before.reverse ++ [x]).length =
      (log.take n ++ before.reverse).length + 1 :=
    List.length_append
  rw [← hlen] at hpre
  refine (hpre.append (Nat.le_refl _)).extend fun y hy => ?_
  rw [List.drop_left] at hy
  simpa using hlater y (List.mem_reverse.mp hy)

end EventLog

namespace RecentEvents

universe u v
variable {ε : Type u} {κ : Type v} (time : ε → Int) (key : ε → κ)

/-- The events that are not older than the cutoff. -/
def recent (cutoff : Int) (l : List ε) : List ε := l.filter fun e => decide (cutoff ≤ time e)

/-- Two of the events have different keys. -/
def Diverse (l : List ε) : Prop := ∃ x ∈ l, ∃ y ∈ l, key x ≠ key y

variable {time key} {cutoff cutoff' : Int} {kept full l : List ε} {e : ε} {n : Nat}

theorem mem_recent : e ∈ recent time cutoff l ↔ e ∈ l ∧ cutoff ≤ time e := by
  simp [recent]

/-- In order of time, purging from the front is filtering. -/
theorem dropWhile_eq_recent (h : l.Pairwise fun a b => time a ≤ time b) :
    (l.dropWhile fun e => decide (time e < cutoff)) = recent time cutoff l := by
  induction l with
  | nil => rfl
  | cons a l ih =>
    obtain ⟨ha, hl⟩ := List.pairwise_cons.mp h
    by_cases hc : time a < cutoff
    · simp only [recent] at ih ⊢
      rw [List.dropWhile_cons_of_pos (by simpa using hc), ih hl,
        List.filter_cons_of_neg (by simpa using hc)]
    · rw [List.dropWhile_cons_of_neg (by simpa using hc), recent, List.filter_eq_self.mpr]
      intro b hb
      rcases List.mem_cons.mp hb with rfl | hb
      · simpa using hc
      · have := ha b hb
        simp only [decide_eq_true_eq]
        omega

theorem Diverse.mono {l' : List ε} (h : Diverse key l) (hsub : l ⊆ l') : Diverse key l' := by
  obtain ⟨x, hx, y, hy, hne⟩ := h
  exact ⟨x, hsub hx, y, hsub hy, hne⟩

theorem two_le_card_iff [DecidableEq κ] :
    2 ≤ (l.map key).toFinset.card ↔ Diverse key l := by
  change 1 < _ ↔ _
  rw [Finset.one_lt_card]
  simp only [List.mem_toFinset, List.mem_map, Diverse]
  constructor
  · rintro ⟨_, ⟨x, hx, rfl⟩, _, ⟨y, hy, rfl⟩, hne⟩
    exact ⟨x, hx, y, hy, hne⟩
  · rintro ⟨x, hx, y, hy, hne⟩
    exact ⟨_, ⟨x, hx, rfl⟩, _, ⟨y, hy, rfl⟩, hne⟩

/-- The kept queue is the end of the full record, and has lost the latest event only if that event
is older than the cutoff. -/
structure Tracks (time : ε → Int) (cutoff : Int) (kept full : List ε) : Prop where
  suffix : kept <:+ full
  sorted : full.Pairwise fun a b => time a ≤ time b
  last : ∀ e, full.getLast? = some e → cutoff ≤ time e → kept ≠ []

theorem Tracks.nil : Tracks time cutoff ([] : List ε) [] where
  suffix := List.suffix_rfl
  sorted := List.Pairwise.nil
  last := by simp

theorem Tracks.kept_sorted (T : Tracks time cutoff kept full) :
    kept.Pairwise fun a b => time a ≤ time b :=
  T.sorted.sublist T.suffix.sublist

/-- A kept queue that is not empty ends with the latest event of the record. -/
theorem Tracks.getLast (T : Tracks time cutoff kept full) (he : full.getLast? = some e)
    (hc : cutoff ≤ time e) : kept.getLast? = some e := by
  have hne := T.last e he hc
  obtain ⟨pre, rfl⟩ := T.suffix
  rwa [List.getLast?_append_of_ne_nil _ hne] at he

/-- The cutoff may move on without a purge. -/
theorem Tracks.later (T : Tracks time cutoff kept full) (h : cutoff ≤ cutoff') :
    Tracks time cutoff' kept full :=
  { T with last := fun e he hc => T.last e he (h.trans hc) }

theorem recent_subset (h : cutoff ≤ cutoff') : recent time cutoff' l ⊆ recent time cutoff l :=
  fun _ he => mem_recent.mpr ⟨(mem_recent.mp he).1, h.trans (mem_recent.mp he).2⟩

/-- Purging at a later cutoff. -/
theorem Tracks.purge (T : Tracks time cutoff kept full) (h : cutoff ≤ cutoff') :
    Tracks time cutoff' (kept.dropWhile fun e => decide (time e < cutoff')) full where
  suffix := (List.dropWhile_suffix _).trans T.suffix
  sorted := T.sorted
  last := by
    intro e he hc
    have hmem := List.mem_of_getLast? (T.getLast he (h.trans hc))
    rw [dropWhile_eq_recent T.kept_sorted]
    exact List.ne_nil_of_mem (mem_recent.mpr ⟨hmem, hc⟩)

/-- Recording one more event and keeping the latest `n`. -/
theorem Tracks.push (T : Tracks time cutoff kept full) (hn : 0 < n)
    (hle : ∀ x ∈ full, time x ≤ time e) :
    Tracks time cutoff ((kept ++ [e]).drop ((kept ++ [e]).length - n)) (full ++ [e]) where
  suffix := by
    refine (List.drop_suffix _ _).trans ?_
    obtain ⟨pre, rfl⟩ := T.suffix
    exact ⟨pre, by simp⟩
  sorted := by
    rw [List.pairwise_append]
    refine ⟨T.sorted, List.pairwise_singleton _ _, ?_⟩
    intro x hx y hy
    rw [List.mem_singleton.mp hy]
    exact hle x hx
  last := by
    intro _ _ _ hnil
    have := List.drop_eq_nil_iff.mp hnil
    simp only [List.length_append, List.length_singleton] at this
    omega

/-- The latest event of the record is the youngest. -/
theorem le_getLast (h : full.Pairwise fun a b => time a ≤ time b) {x : ε}
    (hx : x ∈ full) (he : full.getLast? = some e) : time x ≤ time e := by
  obtain ⟨l, rfl⟩ := List.getLast?_eq_some_iff.mp he
  rcases List.mem_append.mp hx with hx | hx
  · exact (List.pairwise_append.mp h).2.2 x hx e (by simp)
  · rw [List.mem_singleton.mp hx]

/-- While the recent record has had one key only, a queue that keeps two events or more sees the
second key when the record does. -/
theorem Tracks.diverse_push_iff (T : Tracks time cutoff kept full) (hn : 2 ≤ n)
    (hpure : ∀ x ∈ kept, cutoff ≤ time x) (hone : ¬ Diverse key (recent time cutoff full))
    (hnow : cutoff ≤ time e) :
    Diverse key ((kept ++ [e]).drop ((kept ++ [e]).length - n)) ↔
      Diverse key (recent time cutoff (full ++ [e])) := by
  constructor
  · refine fun h => h.mono fun x hx => ?_
    rcases List.mem_append.mp (List.mem_of_mem_drop hx) with hx | hx
    · exact mem_recent.mpr ⟨List.mem_append_left _ (T.suffix.subset hx), hpure x hx⟩
    · rw [List.mem_singleton.mp hx]
      exact mem_recent.mpr ⟨by simp, hnow⟩
  · rintro ⟨x, hx, y, hy, hne⟩
    -- One of the two keys belongs to an earlier recent event and differs from the new key.
    obtain ⟨z, hz, hze⟩ : ∃ z ∈ recent time cutoff full, key z ≠ key e := by
      have split : ∀ w ∈ recent time cutoff (full ++ [e]), w ∈ recent time cutoff full ∨ w = e := by
        intro w hw
        obtain ⟨hw, hc⟩ := mem_recent.mp hw
        rcases List.mem_append.mp hw with hw | hw
        · exact .inl (mem_recent.mpr ⟨hw, hc⟩)
        · exact .inr (List.mem_singleton.mp hw)
      rcases split x hx, split y hy with ⟨hx | hx, hy | hy⟩
      · exact absurd ⟨x, hx, y, hy, hne⟩ hone
      · exact ⟨x, hx, hy ▸ hne⟩
      · exact ⟨y, hy, hx ▸ hne.symm⟩
      · exact absurd (hx.trans hy.symm ▸ rfl) hne
    obtain ⟨hzf, hzc⟩ := mem_recent.mp hz
    obtain ⟨last, hlast⟩ : ∃ last, full.getLast? = some last :=
      ⟨_, List.getLast?_eq_some_getLast (List.ne_nil_of_mem hzf)⟩
    have hlc : cutoff ≤ time last := hzc.trans (le_getLast T.sorted hzf hlast)
    have hkey : key last = key z := by
      by_contra hk
      exact hone ⟨last, mem_recent.mpr ⟨List.mem_of_getLast? hlast, hlc⟩, z, hz, hk⟩
    obtain ⟨kept', rfl⟩ := List.getLast?_eq_some_iff.mp (T.getLast hlast hlc)
    have htail : [last, e] <:+ ((kept' ++ [last] ++ [e]).drop
        ((kept' ++ [last] ++ [e]).length - n)) := by
      rw [List.append_assoc, List.singleton_append, List.drop_append_of_le_length
        (by simp only [List.length_append, List.length_cons, List.length_nil]; omega)]
      exact List.suffix_append _ _
    exact ⟨last, htail.subset (by simp), e, htail.subset (by simp), hkey ▸ hze⟩

end RecentEvents
