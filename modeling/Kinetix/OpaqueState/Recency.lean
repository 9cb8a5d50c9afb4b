import Kinetix.Library.Recency
import Kinetix.OpaqueState.Eviction

/-!
# The cache and its recency order

Captures and restores insert into the cache and move the key to the back of the order, and what is
too much is evicted from the front. An expired entry is taken out of the cache by the resolve that
finds it, and its key keeps its place in the order. Over every sequence of these, resolves suspended
at their query included, the order and the cache are those of the uses so far.

## Implementation notes

A use is a capture that is not ignored or a restore, with its instant. The uses of a run are read
off its actions; the code keeps no record of them. An eviction is possible where the guard of the
loop in `touch_order` lets it: while the order is too long.
-/

namespace Kinetix.OpaqueState
open StateMachine

variable {env : Env}

/-! ## The eviction loop -/

/-- `while order.len() > max_memory_rows`: the key at the front leaves the order and the cache. -/
def evictLoop (maxRows : Nat) : List OpaqueCacheKey →
    (OpaqueCacheKey → Option CachedOpaqueState) →
      List OpaqueCacheKey × (OpaqueCacheKey → Option CachedOpaqueState)
  | [], cache => ([], cache)
  | front :: order, cache =>
    if maxRows < (front :: order).length then
      evictLoop maxRows order (Function.update cache front none)
    else (front :: order, cache)

theorem evictLoop_eq (maxRows : Nat) (order : List OpaqueCacheKey)
    (cache : OpaqueCacheKey → Option CachedOpaqueState) :
    evictLoop maxRows order cache =
      (order.rtake maxRows, fun k => if k ∈ order.rdrop maxRows then none else cache k) := by
  induction order generalizing cache with
  | nil => simp [evictLoop]
  | cons front order ih =>
    by_cases hlong : maxRows < (front :: order).length
    · have hlen : (front :: order).length - maxRows = order.length - maxRows + 1 := by
        simp only [List.length_cons] at hlong ⊢
        omega
      rw [evictLoop, if_pos hlong, ih, List.rtake, List.rtake, List.rdrop, List.rdrop, hlen,
        List.drop_succ_cons, List.take_succ_cons]
      congr 1
      funext k
      by_cases hk : k = front
      · simp [hk]
      · simp [hk]
    · have hlen : (front :: order).length - maxRows = 0 :=
        Nat.sub_eq_zero_of_le (Nat.le_of_not_lt hlong)
      rw [evictLoop, if_neg hlong, List.rtake, List.rdrop, hlen]
      simp

/-- Moving a key to the back and then evicting in a loop is what `touchOrder` says. -/
theorem touchOrder_eq_evictLoop (s : Store) (maxRows : Nat) (key : OpaqueCacheKey) :
    s.touchOrder maxRows key = { s with
      order := (evictLoop maxRows (s.touched key) s.cache).1
      cache := (evictLoop maxRows (s.touched key) s.cache).2 } := by
  rw [evictLoop_eq]
  rfl

/-! ## The uses of a run -/

/-- The key that an action captures or restores, and when. -/
def State.uses (env : Env) (s : State) : Action → List (OpaqueCacheKey × Nat)
  | .capture c =>
    if c.signature = "" ∨ c.toolCallId = "" then [] else [(c.key env.sha, s.instant)]
  | .finish id =>
    match s.tasks id with
    | some ⟨call, _, .fetched rows _⟩ =>
      match call.capability, (s.store.resolveRows env s.instant id.scope call rows).2 with
      | some target, .compatible _ =>
        [(keyOf env.sha id.scope target call.toolCallId, s.instant)]
      | _, _ => []
    | _ => []
  | _ => []

/-- The store where a key is evicted only while the order is too long. -/
def guarded (env : Env) : Machine State Action where
  start := {}
  step s a :=
    match a with
    | .evict key =>
      if env.maxMemoryRows < s.store.order.length then s.step env (.evict key) else none
    | a => s.step env a

theorem guarded_step {s s' : State} {a : Action} (h : (guarded env).step s a = some s') :
    s.step env a = some s' ∧ ∀ key, a = .evict key → env.maxMemoryRows < s.store.order.length := by
  cases a with
  | evict key =>
    simp only [guarded] at h
    split_ifs at h with hlong
    exact ⟨h, fun _ _ => hlong⟩
  | tick | capture | resolve | fetch | finish | receive | persist | prune =>
    exact ⟨h, fun _ he => nomatch he⟩

/-- The keys that the uses of a run left in the order, and when their entries expire. -/
def Represented (env : Env) (uses : List (OpaqueCacheKey × Nat)) (s : State) (store : Store) :
    Prop :=
  Recency.Represents env.maxMemoryRows memoryTtl uses s.instant store.order fun k =>
    (store.cache k).map CachedOpaqueState.expiresAt

namespace Represented
variable {uses : List (OpaqueCacheKey × Nat)} {s s' : State} {store : Store}

/-- An insertion is a use. -/
theorem remember (R : Represented env uses s store) {key : OpaqueCacheKey}
    {entry : CachedOpaqueState} (h : entry.expiresAt = s.instant + memoryTtl) :
    Represented env (uses ++ [(key, s.instant)]) s
      (store.remember env.maxMemoryRows key entry) := by
  have hexpiry : (fun k => ((store.remember env.maxMemoryRows key entry).cache k).map
      CachedOpaqueState.expiresAt) = fun k =>
        if k ∈ Recency.overflow env.maxMemoryRows store.order key then none
        else if k = key then some (s.instant + memoryTtl)
        else (store.cache k).map CachedOpaqueState.expiresAt := by
    funext k
    rw [Store.remember_apply, apply_ite (Option.map CachedOpaqueState.expiresAt),
      apply_ite (Option.map CachedOpaqueState.expiresAt), Option.map_none, Option.map_some, h]
    rfl
  unfold Represented
  rw [hexpiry]
  exact R.use key

/-- The first look into RAM removes nothing but an entry that has expired. -/
theorem lookMemory (R : Represented env uses s store) (scope : OpaqueClientScope) (call : Call) :
    Represented env uses s (store.lookMemory env s.instant scope call).1 := by
  unfold Store.lookMemory
  cases call.capability with
  | none => exact R
  | some target =>
    dsimp only
    cases hk : store.cache (keyOf env.sha scope target call.toolCallId) with
    | none => exact R
    | some entry =>
      dsimp only
      split_ifs with hexp
      · have hlapse := Recency.Represents.lapse R
          (by rw [hk, Option.map_some]) hexp
        unfold Represented
        convert hlapse using 1
        funext k
        dsimp only
        rw [Function.update_apply, Function.update_apply,
          apply_ite (Option.map CachedOpaqueState.expiresAt), Option.map_none]
      · exact R

/-- An action that is not a use. -/
theorem of_no_use {a : Action} (R : Represented env uses s' store) (h : s.uses env a = []) :
    Represented env (uses ++ s.uses env a) s' store := by
  rw [h, List.append_nil]
  exact R

theorem of_store (R : Represented env uses s store) {store' : Store}
    (horder : store'.order = store.order) (hcache : store'.cache = store.cache) :
    Represented env uses s store' := by
  unfold Represented
  rw [horder, hcache]
  exact R

/-- A step turns the uses so far and the one it makes into order and cache. -/
theorem step {a : Action} (R : Represented env uses s s.store)
    (h : (guarded env).step s a = some s') :
    Represented env (uses ++ s.uses env a) s' s'.store := by
  obtain ⟨hstep, hlong⟩ := guarded_step h
  cases State.transition_of_step hstep with
  | tick instant wall =>
    exact of_no_use (Recency.Represents.elapse R (Nat.le_add_right _ _)) rfl
  | ignored c hign =>
    exact of_no_use R (if_pos (not_not.mp fun h => hign (not_or.mp h)))
  | captured c heff =>
    rw [State.uses, if_neg (not_or.mpr heff)]
    exact (R.remember rfl).of_store trySend_grows.1 (Store.trySend_cache _ _)
  | evict key store hstore =>
    exact absurd (hlong key rfl) (Nat.not_lt.mpr (Recency.Represents.length_le R))
  | resolve id call hid =>
    exact of_no_use (R.lookMemory id.scope call) rfl
  | fetch id readable call begunAt hid | receive job queue hwriting hqueue | prune =>
    exact of_no_use R rfl
  | finish id call begunAt rows readAt hid =>
    rcases Store.resolveRows_cases env s.store s.instant id.scope call rows with
      ⟨hsame, hother⟩ | ⟨target, row, sig, hcap, -, -, -, -, -, hr⟩
    · have huses : s.uses env (.finish id) = [] := by
        simp only [State.uses, hid]
        split
        · next heq => exact absurd heq (hother _)
        · rfl
      refine of_no_use ?_ huses
      rw [hsame]
      exact R
    · have huses : s.uses env (.finish id) =
          [(keyOf env.sha id.scope target call.toolCallId, s.instant)] := by
        simp only [State.uses, hid, hcap, hr]
      rw [huses, hr]
      exact R.remember rfl
  | persist job nonce stored hwriting =>
    exact of_no_use (R.of_store Store.persist_order Store.persist_cache) rfl

end Represented

theorem represented_run {as : List Action} {s : State} (h : (guarded env).run as = some s) :
    Represented env ((guarded env).emitted (State.uses env) as) s s.store := by
  refine (guarded env).run_induction (I := fun as s =>
    Represented env ((guarded env).emitted (State.uses env) as) s s.store) ?_ ?_ as s h
  · exact Recency.Represents.start _ _
  · intro as s a s' hrun R hstep
    rw [(guarded env).emitted_snoc _ hrun hstep]
    exact R.step hstep

/-- After every sequence of captures, resolves, expiries and evictions the order has no duplicate
keys and contains every cached key, the cache holds at most `max_memory_rows` entries, and it holds
the `max_memory_rows` most recently captured or restored distinct keys that have not expired. -/
theorem cache_representation {as : List Action} {s : State}
    (h : (guarded env).run as = some s) :
    s.store.order.Nodup ∧ (∀ k, s.store.cache k ≠ none → k ∈ s.store.order) ∧
      {k | s.store.cache k ≠ none}.encard ≤ env.maxMemoryRows ∧
      ∀ k ∈ Recency.mostRecent env.maxMemoryRows memoryTtl
          ((guarded env).emitted (State.uses env) as) s.instant,
        ∃ e, s.store.cache k = some e ∧ s.instant ≤ e.expiresAt := by
  have R := represented_run h
  refine ⟨R.nodup, fun k hk => ?_, ?_, fun k hk => ?_⟩
  · obtain ⟨e, he⟩ := Option.ne_none_iff_exists'.mp hk
    exact R.ordered k e.expiresAt (by rw [he, Option.map_some])
  · have hcard := R.encard_le
    simpa only [ne_eq, Option.map_eq_none_iff] using hcard
  · obtain ⟨t, ht, hnow⟩ := R.resident hk
    obtain ⟨e, he, rfl⟩ := Option.map_eq_some_iff.mp ht
    exact ⟨e, he, hnow⟩

/-- A store with room for one entry. -/
def exampleNarrowEnv : Env := { exampleEnv with maxMemoryRows := 1 }

/-- A capture of a second key a nanosecond after the first evicts the first. -/
theorem cache_representation_narrow :
    ∃ s, (guarded exampleNarrowEnv).run
        [.capture (exampleCapture "key-1"), .tick 1 1, .capture (exampleCapture "key-2")] =
          some s ∧
      s.store.order.Nodup ∧ (∀ k, s.store.cache k ≠ none → k ∈ s.store.order) ∧
      {k | s.store.cache k ≠ none}.encard ≤ 1 ∧
      ∃ e, s.store.cache ((exampleCapture "key-2").key exampleSha) = some e ∧
        s.instant ≤ e.expiresAt := by
  obtain ⟨s, hrun, hrecent⟩ : ∃ s ∈ (guarded exampleNarrowEnv).run
      [.capture (exampleCapture "key-1"), .tick 1 1, .capture (exampleCapture "key-2")],
      (exampleCapture "key-2").key exampleSha ∈ Recency.mostRecent 1 memoryTtl
        ((guarded exampleNarrowEnv).emitted (State.uses exampleNarrowEnv)
          [.capture (exampleCapture "key-1"), .tick 1 1, .capture (exampleCapture "key-2")])
        s.instant := by
    decide +kernel
  obtain ⟨hnd, hordered, hcard, hresident⟩ := cache_representation hrun
  exact ⟨s, hrun, hnd, hordered, hcard, hresident _ hrecent⟩

end Kinetix.OpaqueState
