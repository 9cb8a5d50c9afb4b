import Kinetix.Library.Unwinding
import Kinetix.OpaqueState.Actors

/-!
# What a scope sees of the store

What a scope can see of the store is its own keys, its own rows that have not expired, its own
queued writes and its own resolves. Actions of other scopes leave all of it as it is, except that
the room in the cache, the queue and the table is shared: another scope's captures can push an entry
out of the cache, and too many rows in the table can push a row out.
-/

namespace Kinetix.OpaqueState
open StateMachine Slots

variable {env : Env} {scope : OpaqueClientScope}

/-- A key of a scope. -/
def OpaqueCacheKey.Of (k : OpaqueCacheKey) (sha : Sha256) (scope : OpaqueClientScope) : Prop :=
  k.scopeHash = scope.hash sha

instance (k : OpaqueCacheKey) (sha : Sha256) (scope : OpaqueClientScope) :
    Decidable (k.Of sha scope) :=
  inferInstanceAs (Decidable (_ = _))

theorem keyOf_of {sha : Sha256} {scope scope' : OpaqueClientScope} {target : OpaqueStateTarget}
    {id : String} : (keyOf sha scope' target id).Of sha scope ↔ scope' = scope := by
  constructor
  · intro h
    cases scope
    cases scope'
    exact congrArg _ (sha.injective h)
  · rintro rfl
    rfl

/-- The actions that a scope takes part in. -/
def visible (sha : Sha256) (scope : OpaqueClientScope) : Action → Bool
  | .tick _ _ => true
  | .capture c => decide (c.scope = scope)
  | .resolve id _ | .fetch id _ | .finish id => decide (id.scope = scope)
  | .receive key | .persist key _ _ => decide (key.Of sha scope)
  | .evict _ | .prune => false

/-- The action takes no state away from the scope for want of room: it evicts none of the scope's
entries, drops none of its writes, and prunes none of its rows that have not expired. -/
def Keeps (env : Env) (scope : OpaqueClientScope) (s : State) : Action → Prop
  | .capture c =>
    c.Effective →
      (∀ k ∈ s.store.evicted env.maxMemoryRows (c.key env.sha), ¬ k.Of env.sha scope) ∧
      (c.scope = scope → s.store.queue.length < durabilityQueueCapacity)
  | .evict key => ¬ key.Of env.sha scope
  | .finish id =>
    ∀ call begunAt rows readAt target sig,
      s.tasks id = some ⟨call, begunAt, .fetched rows readAt⟩ → call.capability = some target →
      (s.store.resolveRows env s.instant id.scope call rows).2 = .compatible sig →
      ∀ k ∈ s.store.evicted env.maxMemoryRows (keyOf env.sha id.scope target call.toolCallId),
        ¬ k.Of env.sha scope
  | .prune =>
    ∀ row ∈ Store.overflow (s.store.rows.filter fun row => s.wall ≤ row.expiresAt),
      ¬ row.key.Of env.sha scope
  | _ => True

/-- Two resolves are at the same point and have read the same rows. -/
def Phase.Same : Phase → Phase → Prop
  | .looking, .looking => True
  | .fetched rows _, .fetched rows' _ => ∀ row, row ∈ rows ↔ row ∈ rows'
  | .answered result, .answered result' => result = result'
  | _, _ => False

/-- Two calls are the same and at the same point. -/
def Task.Same (x y : Task) : Prop := x.call = y.call ∧ x.phase.Same y.phase

/-- The scope cannot tell the states apart. -/
structure LooksSame (env : Env) (scope : OpaqueClientScope) (s t : State) : Prop where
  instant : s.instant = t.instant
  wall : s.wall = t.wall
  cache : ∀ {k : OpaqueCacheKey}, k.Of env.sha scope → s.store.cache k = t.store.cache k
  queue : s.store.queue.filter (·.key.Of env.sha scope) =
    t.store.queue.filter (·.key.Of env.sha scope)
  writing : s.writing.filter (·.key.Of env.sha scope) = t.writing.filter (·.key.Of env.sha scope)
  rows : ∀ {row : Row}, row.key.Of env.sha scope → s.wall ≤ row.expiresAt →
    (row ∈ s.store.rows ↔ row ∈ t.store.rows)
  tasks : ∀ {id}, id.scope = scope →
    Option.Rel Task.Same (s.tasks id) (t.tasks id)

/-- At most one of the rows is for a target. -/
def Distinct (rows : List StoredRow) : Prop :=
  ∀ {target r r'}, r ∈ rows → r' ∈ rows → r.matchesTarget target = true →
    r'.matchesTarget target = true → r = r'

theorem distinct_nil : Distinct [] := fun h => absurd h List.not_mem_nil

/-- The primary key of the table holds. -/
structure Keyed (s : State) : Prop where
  rows : ∀ {r r'}, r ∈ s.store.rows → r' ∈ s.store.rows → r.key = r'.key → r = r'
  fetched : ∀ {id call begunAt rows readAt},
    s.tasks id = some ⟨call, begunAt, .fetched rows readAt⟩ → Distinct rows

namespace Task

theorem Same.refl (x : Task) : x.Same x := by
  refine ⟨rfl, ?_⟩
  cases h : x.phase <;> simp [Phase.Same]

theorem Same.symm {x y : Task} (h : x.Same y) : y.Same x := by
  refine ⟨h.1.symm, ?_⟩
  have hp := h.2
  cases hx : x.phase <;> cases hy : y.phase <;> simp_all [Phase.Same]

theorem Same.trans {x y z : Task} (h : x.Same y) (h' : y.Same z) : x.Same z := by
  refine ⟨h.1.trans h'.1, ?_⟩
  have hp := h.2
  have hp' := h'.2
  cases hx : x.phase <;> cases hy : y.phase <;> cases hz : z.phase <;> simp_all [Phase.Same]

end Task

namespace LooksSame
variable {s t u : State}

theorem refl (s : State) : LooksSame env scope s s where
  instant := rfl
  wall := rfl
  cache := fun _ => rfl
  queue := rfl
  writing := rfl
  rows := fun _ _ => Iff.rfl
  tasks := fun _ => rel_refl Task.Same.refl _

theorem symm (L : LooksSame env scope s t) : LooksSame env scope t s where
  instant := L.instant.symm
  wall := L.wall.symm
  cache := fun h => (L.cache h).symm
  queue := L.queue.symm
  writing := L.writing.symm
  rows := fun h hw => (L.rows h (by rw [L.wall]; exact hw)).symm
  tasks := fun h => rel_symm Task.Same.symm (L.tasks h)

theorem trans (L : LooksSame env scope s t) (L' : LooksSame env scope t u) :
    LooksSame env scope s u where
  instant := L.instant.trans L'.instant
  wall := L.wall.trans L'.wall
  cache := fun h => (L.cache h).trans (L'.cache h)
  queue := L.queue.trans L'.queue
  writing := L.writing.trans L'.writing
  rows := fun h hw => (L.rows h hw).trans (L'.rows h (by rw [← L.wall]; exact hw))
  tasks := fun h => rel_trans (R := Task.Same) Task.Same.trans (L.tasks h) (L'.tasks h)

/-- Both sides store the same result of a resolve. -/
theorem setTask (L : LooksSame env scope s t) {store store' : Store} {id : TaskId} {x y : Task}
    (hcache : ∀ {k : OpaqueCacheKey}, k.Of env.sha scope → store.cache k = store'.cache k)
    (hs : store.queue = s.store.queue ∧ store.rows = s.store.rows)
    (ht : store'.queue = t.store.queue ∧ store'.rows = t.store.rows) (hx : x.Same y) :
    LooksSame env scope ({ s with store := store }.setTask id x)
      ({ t with store := store' }.setTask id y) where
  instant := L.instant
  wall := L.wall
  cache := hcache
  queue := by
    simp only [State.setTask, hs.1, ht.1]
    exact L.queue
  writing := L.writing
  rows := by
    simp only [State.setTask, hs.2, ht.2]
    exact L.rows
  tasks := by
    intro id' hid
    simp only [State.setTask, Function.update_apply]
    split_ifs
    · exact Option.Rel.some hx
    · exact L.tasks hid

/-- The resolve of another scope is out of sight. -/
theorem setTask_other {store : Store} {id : TaskId} {x : Task} (hid : id.scope ≠ scope)
    (hcache : ∀ {k : OpaqueCacheKey}, k.Of env.sha scope → s.store.cache k = store.cache k)
    (hs : store.queue = s.store.queue ∧ store.rows = s.store.rows) :
    LooksSame env scope s ({ s with store := store }.setTask id x) where
  instant := rfl
  wall := rfl
  cache := hcache
  queue := by
    simp only [State.setTask, hs.1]
  writing := rfl
  rows := by
    intro row _ _
    rw [State.setTask, hs.2]
  tasks := by
    intro id' hid'
    simp only [State.setTask, Function.update_apply]
    rw [if_neg]
    · exact rel_refl Task.Same.refl _
    · rintro rfl
      exact hid hid'

end LooksSame

/-! ## Resolves read the same rows in any order -/

theorem isEmpty_congr {α : Type} {l l' : List α} (h : ∀ x, x ∈ l ↔ x ∈ l') :
    l.isEmpty = l'.isEmpty := by
  rw [Bool.eq_iff_iff, List.isEmpty_iff, List.isEmpty_iff, List.eq_nil_iff_forall_not_mem,
    List.eq_nil_iff_forall_not_mem]
  simp only [h]

theorem filter_congr_mem {α : Type} {l l' : List α} (p : α → Bool) (h : ∀ x, x ∈ l ↔ x ∈ l') :
    ∀ x, x ∈ l.filter p ↔ x ∈ l'.filter p := by
  simp [h]

variable {rows rows' : List StoredRow}

theorem resolveOther_congr {call : Call} (h : ∀ row, row ∈ rows ↔ row ∈ rows') :
    Store.resolveOther env call rows = Store.resolveOther env call rows' := by
  have hname :=
    filter_congr_mem (fun row => row.toolNameHash = toolNameHash env.sha call.toolName) h
  have hsess := filter_congr_mem
    (fun row => sessionAgrees env.sha row.sessionHash call.session) hname
  unfold Store.resolveOther
  dsimp only
  rw [isEmpty_congr hname, isEmpty_congr hsess]

theorem find_matches_congr {target : OpaqueStateTarget} (h : ∀ row, row ∈ rows ↔ row ∈ rows')
    (hd : Distinct rows) :
    rows.find? (·.matchesTarget target) = rows'.find? (·.matchesTarget target) := by
  cases hf : rows.find? (·.matchesTarget target) with
  | none =>
    refine (List.find?_eq_none.mpr fun row hrow => ?_).symm
    exact List.find?_eq_none.mp hf row ((h row).mpr hrow)
  | some row =>
    have hrow := List.mem_of_find?_eq_some hf
    have hm : row.matchesTarget target = true := by simpa using List.find?_some hf
    cases hf' : rows'.find? (·.matchesTarget target) with
    | none => exact absurd hm (by simpa using List.find?_eq_none.mp hf' row ((h row).mp hrow))
    | some row' =>
      have hm' : row'.matchesTarget target = true := by simpa using List.find?_some hf'
      exact congrArg some (hd hrow ((h row').mpr (List.mem_of_find?_eq_some hf')) hm hm')

/-- A resolve does not depend on the order of the rows that it has read. -/
theorem resolveRows_congr {s : Store} {now : Nat} {call : Call}
    (h : ∀ row, row ∈ rows ↔ row ∈ rows') (hd : Distinct rows) :
    s.resolveRows env now scope call rows = s.resolveRows env now scope call rows' := by
  unfold Store.resolveRows
  rw [isEmpty_congr h, resolveOther_congr h]
  cases call.capability with
  | none => rfl
  | some target =>
    dsimp only
    rw [find_matches_congr h hd]

/-- What a resolve answers, and which entry it inserts, depends on its rows only. -/
theorem resolveRows_shape (env : Env) (scope : OpaqueClientScope) (now : Nat) (call : Call)
    (rows : List StoredRow) :
    (∃ result, ∀ s : Store, s.resolveRows env now scope call rows = (s, result)) ∨
    ∃ target entry, call.capability = some target ∧
      ∀ s : Store, s.resolveRows env now scope call rows =
        (s.remember env.maxMemoryRows (keyOf env.sha scope target call.toolCallId) entry,
          .compatible entry.signature) := by
  unfold Store.resolveRows
  split_ifs
  · exact .inl ⟨_, fun _ => rfl⟩
  · cases call.capability with
    | none => exact .inl ⟨_, fun _ => rfl⟩
    | some target =>
      dsimp only
      cases rows.find? (·.matchesTarget target) with
      | none => exact .inl ⟨_, fun _ => rfl⟩
      | some row =>
        dsimp only
        cases identityMismatch env row call.session call.toolName with
        | some mismatch => exact .inl ⟨_, fun _ => rfl⟩
        | none =>
          simp only [Store.restoreRow]
          cases env.crypto.decryptOpaqueState row.valueEnc with
          | none => exact .inl ⟨_, fun _ => rfl⟩
          | some sig => exact .inr ⟨target, _, rfl, fun _ => rfl⟩

/-! ## The primary key of the table -/

theorem Keyed.distinct_fetch {s : State} (K : Keyed s) (scopeHash callHash : String) :
    Distinct (s.store.fetchRows s.wall scopeHash callHash) := by
  intro target r r' hr hr' hm hm'
  obtain ⟨row, hrow, hs, hc, -, rfl⟩ := Store.mem_fetchRows.mp hr
  obtain ⟨row', hrow', hs', hc', -, rfl⟩ := Store.mem_fetchRows.mp hr'
  have hk := row.key_of_matches hm
  have hk' := row'.key_of_matches hm'
  rw [hs, hc] at hk
  rw [hs', hc'] at hk'
  rw [K.rows hrow hrow' (hk.trans hk'.symm)]

theorem Keyed.setTask {s : State} {id : TaskId} {task : Task} {store : Store} (K : Keyed s)
    (hr : store.rows = s.store.rows)
    (hf : ∀ {rows readAt}, task.phase = .fetched rows readAt → Distinct rows) :
    Keyed ({ s with store := store }.setTask id task) where
  rows := by
    rw [State.setTask, hr]
    exact K.rows
  fetched := by
    intro id' call begunAt rows readAt h
    rcases update_eq_some.mp h with ⟨rfl, ht⟩ | ⟨-, ht⟩
    · cases ht
      exact hf rfl
    · exact K.fetched ht

theorem Keyed.step {s s' : State} {a : Action} (K : Keyed s) (h : s.step env a = some s') :
    Keyed s' := by
  cases State.transition_of_step h with
  | tick | receive => exact { K with }
  | ignored => exact K
  | captured c =>
    exact { K with
      rows := by
        intro r r' hr hr'
        rw [Store.trySend_rows, Store.remember_rows] at hr hr'
        exact K.rows hr hr' }
  | evict key store hstore =>
    obtain ⟨-, -, hrows, -⟩ := Store.evict_eq_some hstore
    exact { K with
      rows := by
        rw [hrows]
        exact K.rows }
  | resolve id call =>
    obtain ⟨-, hr, -⟩ := Store.lookMemory_spec env s.store s.instant id.scope call
    refine K.setTask hr ?_
    intro rows readAt hph
    cases hl : (s.store.lookMemory env s.instant id.scope call).2 <;> simp [hl] at hph
  | fetch id readable call begunAt =>
    refine K.setTask rfl ?_
    rintro rows readAt hph
    cases hph
    split_ifs
    · exact K.distinct_fetch _ _
    · exact distinct_nil
  | finish id call begunAt rows readAt =>
    refine K.setTask ?_ (by simp)
    rcases resolveRows_shape env id.scope s.instant call rows with
      ⟨result, hr⟩ | ⟨target, entry, -, hr⟩
    · rw [hr]
    · rw [hr]
      rfl
  | persist job nonce stored =>
    exact { K with
      rows := by
        intro r r' hr hr' hk
        unfold Store.persistOpaqueState at hr hr'
        split at hr
        case h_1 henc =>
          rw [henc] at hr'
          exact K.rows hr hr' hk
        case h_2 enc henc =>
          rw [henc] at hr'
          dsimp only at hr'
          split_ifs at hr hr'
          · rcases Store.mem_upsert.mp hr with rfl | ⟨hr, hne⟩ <;>
              rcases Store.mem_upsert.mp hr' with rfl | ⟨hr', hne'⟩
            · rfl
            · exact absurd hk.symm hne'
            · exact absurd hk hne
            · exact K.rows hr hr' hk
          · exact K.rows hr hr' hk }
  | prune =>
    exact { K with
      rows := fun hr hr' => K.rows (Store.mem_prunePool hr).1 (Store.mem_prunePool hr').1 }

end Kinetix.OpaqueState
