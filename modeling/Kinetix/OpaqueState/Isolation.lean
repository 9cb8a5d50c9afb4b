import Kinetix.OpaqueState.Eviction
import Kinetix.OpaqueState.Observer
import Kinetix.OpaqueState.Provenance

/-!
# Scopes are isolated

A signature is handed to a call only if it was captured for what the call asks for. Captures under
other scopes do not change what a resolve answers, as long as they leave the scope's entries, writes
and rows their room; the store is bounded, so without that they can.
-/

namespace Kinetix.OpaqueState
open StateMachine

variable {env : Env} {scope : OpaqueClientScope}

/-! ## Actions as the scope sees them -/

variable {s : Store} {job : DurabilityWrite}

/-- A capture under another scope changes nothing that the scope sees, if it evicts none of the
scope's keys. -/
theorem remember_other {key k : OpaqueCacheKey} {entry : CachedOpaqueState} {m : Nat}
    (hkeep : ∀ k ∈ s.evicted m key, ¬ k.Of env.sha scope) (hk : k.Of env.sha scope)
    (hkey : ¬ key.Of env.sha scope) : (s.remember m key entry).cache k = s.cache k := by
  rw [Store.remember_apply, if_neg fun h => hkeep k h hk, if_neg]
  rintro rfl
  exact hkey hk

/-- Two stores that insert the same entry and evict none of the scope's keys look the same after it
if they did so before. -/
theorem remember_same {s t : Store} {key k : OpaqueCacheKey} {entry : CachedOpaqueState} {m : Nat}
    (hcache : s.cache k = t.cache k) (hs : ∀ k ∈ s.evicted m key, ¬ k.Of env.sha scope)
    (ht : ∀ k ∈ t.evicted m key, ¬ k.Of env.sha scope) (hk : k.Of env.sha scope) :
    (s.remember m key entry).cache k = (t.remember m key entry).cache k := by
  rw [Store.remember_apply, Store.remember_apply, if_neg fun h => hs k h hk,
    if_neg fun h => ht k h hk, hcache]

theorem trySend_other (h : ¬ job.key.Of env.sha scope) :
    (s.trySend job).queue.filter (·.key.Of env.sha scope) =
      s.queue.filter (·.key.Of env.sha scope) := by
  unfold Store.trySend
  split_ifs
  · simp [h]
  · rfl

/-- The first look into RAM of another scope leaves the scope's keys alone. -/
theorem lookMemory_other {now : Nat} {other : OpaqueClientScope} {call : Call}
    {k : OpaqueCacheKey} (hne : other ≠ scope) (hk : k.Of env.sha scope) :
    (s.lookMemory env now other call).1.cache k = s.cache k := by
  unfold Store.lookMemory
  cases call.capability with
  | none => rfl
  | some target =>
    dsimp only
    split
    · rfl
    · split_ifs
      · refine Function.update_of_ne ?_ _ _
        rintro rfl
        exact hne (keyOf_of.mp hk)
      · rfl

/-- The first look into RAM finds the same in stores that look the same. -/
theorem lookMemory_same {s t : Store} {now now' : Nat} (call : Call) (hnow : now = now')
    (h : ∀ {k : OpaqueCacheKey}, k.Of env.sha scope → s.cache k = t.cache k) :
    (s.lookMemory env now scope call).2 = (t.lookMemory env now' scope call).2 ∧
      ∀ {k : OpaqueCacheKey}, k.Of env.sha scope →
        (s.lookMemory env now scope call).1.cache k =
          (t.lookMemory env now' scope call).1.cache k := by
  subst hnow
  unfold Store.lookMemory
  cases call.capability with
  | none => exact ⟨rfl, h⟩
  | some target =>
    dsimp only
    rw [h (keyOf_of.mpr rfl)]
    split
    · exact ⟨rfl, h⟩
    · split_ifs
      · refine ⟨rfl, fun {k} hk => ?_⟩
        simp only [Function.update_apply]
        split_ifs
        · rfl
        · exact h hk
      · exact ⟨rfl, h⟩

theorem resolveRows_frame {now : Nat} {call : Call} {rows : List StoredRow} :
    (s.resolveRows env now scope call rows).1.queue = s.queue ∧
      (s.resolveRows env now scope call rows).1.rows = s.rows := by
  rcases resolveRows_shape env scope now call rows with
    ⟨result, hr⟩ | ⟨target, entry, -, hr⟩
  · rw [hr]
    exact ⟨rfl, rfl⟩
  · rw [hr]
    exact ⟨rfl, rfl⟩

theorem persist_other {wall : Int} {nonce : Nat} {stored : Bool} {row : Row}
    (hjob : ¬ job.key.Of env.sha scope) (hrow : row.key.Of env.sha scope) :
    row ∈ (s.persistOpaqueState env wall nonce stored job).rows ↔ row ∈ s.rows := by
  unfold Store.persistOpaqueState
  split
  · rfl
  · split_ifs
    · rw [Store.mem_upsert]
      constructor
      · rintro (rfl | ⟨h, -⟩)
        · exact absurd hrow hjob
        · exact h
      · refine fun h => .inr ⟨h, ?_⟩
        intro hk
        have hkey : row.key = job.key := hk
        exact hjob (hkey ▸ hrow)
    · rfl

theorem persist_same {s t : Store} {wall : Int} {nonce : Nat} {stored : Bool} {row : Row}
    (h : row ∈ s.rows ↔ row ∈ t.rows) :
    row ∈ (s.persistOpaqueState env wall nonce stored job).rows ↔
      row ∈ (t.persistOpaqueState env wall nonce stored job).rows := by
  unfold Store.persistOpaqueState
  cases env.crypto.encryptOpaqueState nonce job.signature with
  | none => exact h
  | some enc =>
    dsimp only
    split_ifs
    · rw [Store.mem_upsert, Store.mem_upsert, h]
    · exact h

/-- An action that the scope takes no part in, and that takes nothing away from it, is out of its
sight. -/
theorem looksSame_of_invisible {s s' : State} {a : Action} (hv : visible env.sha scope a = false)
    (hk : Keeps env scope s a) (h : s.step env a = some s') : LooksSame env scope s s' := by
  cases State.transition_of_step h with
  | tick instant wall => cases hv
  | ignored c => exact LooksSame.refl s
  | captured c heff =>
    have hne : c.scope ≠ scope := by simpa [visible] using hv
    have hkey : ¬ (c.key env.sha).Of env.sha scope := fun h => hne (keyOf_of.mp h)
    exact {
      instant := rfl
      wall := rfl
      cache := by
        intro k hof
        rw [Store.trySend_cache, remember_other (hk heff).1 hof hkey]
      queue := by
        rw [trySend_other hkey, Store.remember_queue]
      writing := rfl
      rows := by
        intro row _ _
        rw [Store.trySend_rows, Store.remember_rows]
      tasks := fun _ => rel_refl Task.Same.refl _ }
  | evict key store hstore =>
    obtain ⟨hcache, hqueue, hrows, -⟩ := Store.evict_eq_some hstore
    exact {
      instant := rfl
      wall := rfl
      cache := by
        intro k hof
        rw [hcache, Function.update_of_ne]
        rintro rfl
        exact hk hof
      queue := by rw [hqueue]
      writing := rfl
      rows := by
        intro row _ _
        rw [hrows]
      tasks := fun _ => rel_refl Task.Same.refl _ }
  | resolve id call =>
    have hne : id.scope ≠ scope := by simpa [visible] using hv
    obtain ⟨hq, hr, -⟩ := Store.lookMemory_spec env s.store s.instant id.scope call
    exact LooksSame.setTask_other hne (fun hof => (lookMemory_other hne hof).symm) ⟨hq, hr⟩
  | fetch id readable call begunAt =>
    have hne : id.scope ≠ scope := by simpa [visible] using hv
    exact LooksSame.setTask_other hne (fun _ => rfl) ⟨rfl, rfl⟩
  | finish id call begunAt rows readAt hid =>
    have hne : id.scope ≠ scope := by simpa [visible] using hv
    refine LooksSame.setTask_other hne ?_ resolveRows_frame
    intro k hof
    rcases resolveRows_shape env id.scope s.instant call rows with
      ⟨result, hr⟩ | ⟨target, entry, ht, hr⟩
    · rw [hr]
    · have hkeep := hk call begunAt rows readAt target entry.signature hid ht (by rw [hr])
      rw [hr]
      exact (remember_other hkeep hof fun h => hne (keyOf_of.mp h)).symm
  | receive job queue hw hq =>
    have hne : ¬ job.key.Of env.sha scope := by simpa [visible] using hv
    exact {
      instant := rfl
      wall := rfl
      cache := fun _ => rfl
      queue := by simp [hq, hne]
      writing := by simp [Option.filter, hw, hne]
      rows := fun _ _ => Iff.rfl
      tasks := fun _ => rel_refl Task.Same.refl _ }
  | persist job nonce stored hw =>
    have hne : ¬ job.key.Of env.sha scope := by simpa [visible] using hv
    exact {
      instant := rfl
      wall := rfl
      cache := by
        intro k _
        rw [Store.persist_cache]
      queue := by rw [Store.persist_queue]
      writing := by simp [Option.filter, hw, hne]
      rows := fun hof _ => (persist_other hne hof).symm
      tasks := fun _ => rel_refl Task.Same.refl _ }
  | prune =>
    exact {
      instant := rfl
      wall := rfl
      cache := fun _ => rfl
      queue := rfl
      writing := rfl
      rows := by
        intro row hof hw
        refine ⟨fun hr => ?_, fun hr => (Store.mem_prunePool hr).1⟩
        refine List.mem_filter.mpr ⟨List.mem_filter.mpr ⟨hr, by simpa using hw⟩, ?_⟩
        rw [decide_eq_true_eq]
        exact fun hmem => hk row hmem hof
      tasks := fun _ => rel_refl Task.Same.refl _ }

/-- An action that the scope takes part in does the same in states that look the same to it. -/
theorem looksSame_of_visible {s t s' t' : State} {a : Action}
    (hv : visible env.sha scope a = true) (L : LooksSame env scope s t) (K : Keyed s)
    (hks : Keeps env scope s a) (hkt : Keeps env scope t a) (hs : s.step env a = some s')
    (ht : t.step env a = some t') : LooksSame env scope s' t' := by
  cases State.transition_of_step hs with
  | tick instant wall =>
    cases State.transition_of_step ht
    exact { L with
      instant := congrArg (· + instant) L.instant
      wall := congrArg (· + (wall : Int)) L.wall
      rows := fun hof hw => L.rows hof (by dsimp only at hw; omega) }
  | ignored c hign =>
    cases State.transition_of_step ht with
    | ignored => exact L
    | captured _ heff => exact absurd heff hign
  | captured c heff =>
    cases State.transition_of_step ht with
    | ignored _ hign => exact absurd heff hign
    | captured =>
      have hscope : c.scope = scope := by simpa [visible] using hv
      have hes := hks heff
      have het := hkt heff
      exact { L with
        cache := by
          intro k hk
          rw [Store.trySend_cache, Store.trySend_cache, L.instant]
          exact remember_same (L.cache hk) hes.1 het.1 hk
        queue := by
          rw [Store.trySend, Store.trySend, Store.remember_queue, Store.remember_queue,
            if_pos (hes.2 hscope), if_pos (het.2 hscope)]
          simp only [List.filter_append, L.queue]
        rows := by
          intro row
          rw [Store.trySend_rows, Store.trySend_rows, Store.remember_rows, Store.remember_rows]
          exact L.rows }
  | evict key | prune => cases hv
  | resolve id call =>
    have hscope : id.scope = scope := by simpa [visible] using hv
    subst hscope
    cases State.transition_of_step ht
    obtain ⟨hq, hr, -⟩ := Store.lookMemory_spec env s.store s.instant id.scope call
    obtain ⟨hq', hr', -⟩ := Store.lookMemory_spec env t.store t.instant id.scope call
    obtain ⟨hres, hcache⟩ := lookMemory_same call L.instant L.cache
    refine L.setTask hcache ⟨hq, hr⟩ ⟨hq', hr'⟩ ⟨rfl, ?_⟩
    rw [hres]
    exact (Task.Same.refl ⟨call, 0, _⟩).2
  | fetch id readable call begunAt hid =>
    have hscope : id.scope = scope := by simpa [visible] using hv
    subst hscope
    have htask := L.tasks (show id.scope = id.scope from rfl)
    cases State.transition_of_step ht with
    | fetch _ _ call' begunAt' hid' =>
      rw [hid, hid'] at htask
      cases htask with
      | some hsame =>
        obtain rfl : call = call' := hsame.1
        refine L.setTask L.cache ⟨rfl, rfl⟩ ⟨rfl, rfl⟩ ⟨rfl, fun row => ?_⟩
        split_ifs
        · rw [Store.mem_fetchRows, Store.mem_fetchRows, ← L.wall]
          constructor
          · rintro ⟨r, hr, hof, hcall, hw, he⟩
            exact ⟨r, (L.rows hof hw).mp hr, hof, hcall, hw, he⟩
          · rintro ⟨r, hr, hof, hcall, hw, he⟩
            exact ⟨r, (L.rows hof hw).mpr hr, hof, hcall, hw, he⟩
        · rfl
  | finish id call begunAt rows readAt hid =>
    have hscope : id.scope = scope := by simpa [visible] using hv
    subst hscope
    have htask := L.tasks (show id.scope = id.scope from rfl)
    cases State.transition_of_step ht with
    | finish _ call' begunAt' rows' readAt' hid' =>
      rw [hid, hid'] at htask
      cases htask with
      | some hsame =>
        obtain rfl : call = call' := hsame.1
        have hrows : ∀ row, row ∈ rows ↔ row ∈ rows' := hsame.2
        have hcongr : ∀ st : Store, st.resolveRows env t.instant id.scope call rows' =
            st.resolveRows env s.instant id.scope call rows := by
          intro st
          rw [← L.instant, resolveRows_congr hrows (K.fetched hid)]
        have hkt' := fun target sig => hkt call begunAt' rows' readAt' target sig hid'
        rw [hcongr] at hkt' ⊢
        have hks' := fun target sig => hks call begunAt rows readAt target sig hid
        refine L.setTask ?_ resolveRows_frame resolveRows_frame ⟨rfl, ?_⟩
        · intro k hof
          rcases resolveRows_shape env id.scope s.instant call rows with
            ⟨result, hr⟩ | ⟨target, entry, hcap, hr⟩
          · rw [hr, hr]
            exact L.cache hof
          · have hes := hks' target entry.signature hcap (by rw [hr])
            have het := hkt' target entry.signature hcap (by rw [hr])
            rw [hr, hr]
            exact remember_same (L.cache hof) hes het hof
        · rcases resolveRows_shape env id.scope s.instant call rows with
            ⟨result, hr⟩ | ⟨target, entry, -, hr⟩
          · rw [hr, hr]
            rfl
          · rw [hr, hr]
            rfl
  | receive job queue hw hq =>
    have hof : job.key.Of env.sha scope := by simpa [visible] using hv
    generalize hkey : job.key = key at hof ht
    cases State.transition_of_step ht with
    | receive job' queue' hw' hq' =>
      have hqueue := L.queue
      rw [hq, hq', List.filter_cons_of_pos (by simpa [hkey] using hof),
        List.filter_cons_of_pos (by simpa using hof), List.cons.injEq] at hqueue
      exact { L with
        queue := hqueue.2
        writing := by rw [hqueue.1] }
  | persist job nonce stored hw =>
    have hof : job.key.Of env.sha scope := by simpa [visible] using hv
    generalize hkey : job.key = key at hof ht
    cases State.transition_of_step ht with
    | persist job' _ _ hw' =>
      have hjob : job = job' := by
        have hwriting := L.writing
        rw [hw, hw'] at hwriting
        simpa [Option.filter, hkey, hof] using hwriting
      subst hjob
      exact { L with
        cache := by
          intro k hk
          rw [Store.persist_cache, Store.persist_cache]
          exact L.cache hk
        queue := by
          rw [Store.persist_queue, Store.persist_queue]
          exact L.queue
        writing := rfl
        rows := by
          intro row hrow hw
          rw [← L.wall]
          exact persist_same (L.rows hrow hw) }

/-! ## Every run -/

theorem keyed_start : Keyed ({} : State) where
  rows := fun hr => absurd hr List.not_mem_nil
  fetched := by
    intro id call begunAt rows readAt h
    cases h

/-- The observations of a scope unwind. -/
theorem scope_unwinding (env : Env) (scope : OpaqueClientScope) :
    Unwinding (machine env) (visible env.sha scope) (Keeps env scope)
      fun s t => Keyed s ∧ Keyed t ∧ LooksSame env scope s t where
  start := ⟨keyed_start, keyed_start, LooksSame.refl _⟩
  symm := fun ⟨Ks, Kt, L⟩ => ⟨Kt, Ks, L.symm⟩
  quiet := by
    rintro s t a t' hv ⟨Ks, Kt, L⟩ hk ht
    exact ⟨Ks, Kt.step ht, L.trans (looksSame_of_invisible hv hk ht)⟩
  loud := by
    rintro s t a s' t' hv ⟨Ks, Kt, L⟩ hks hkt hs ht
    exact ⟨Ks.step hs, Kt.step ht, looksSame_of_visible hv L Ks hks hkt hs ht⟩

theorem LooksSame.answer {s t : State} (L : LooksSame env scope s t) {id : TaskId}
    (hid : id.scope = scope) : s.answer id = t.answer id := by
  have h := L.tasks hid
  revert h
  unfold State.answer
  rcases s.tasks id with _ | ⟨call, begunAt, phase⟩ <;>
    rcases t.tasks id with _ | ⟨call', begunAt', phase'⟩ <;> rintro (_ | ⟨-, h⟩)
  · rfl
  · cases phase <;> cases phase' <;> simp_all [Task.Same, Phase.Same]

/-- A signature is handed out only if a capture under the same scope recorded it for the same
target, tool call, tool name and a session that does not conflict; and runs that agree on what the
scope takes part in, and take none of its room, give its calls the same answers. -/
theorem scope_isolation (env : Env) (scope : OpaqueClientScope) :
    (∀ as s id sig, (machine env).run as = some s → s.answer id = some (.compatible sig) →
      ∃ task c, s.tasks id = some task ∧ Action.capture c ∈ as ∧
        Serves c id.scope task.call sig) ∧
    ∀ as bs s t id, as.filter (visible env.sha scope) = bs.filter (visible env.sha scope) →
      (machine env).Meets (fun _ => Keeps env scope) as →
      (machine env).Meets (fun _ => Keeps env scope) bs →
      (machine env).run as = some s → (machine env).run bs = some t → id.scope = scope →
      s.answer id = t.answer id := by
  constructor
  · intro as s id sig hrun hans
    obtain ⟨call, begunAt, htask⟩ := answered_of_answer hans
    obtain ⟨c, hc, hserves⟩ := (provenance_run hrun).answers htask
    rw [log_run hrun] at hc
    exact ⟨_, c, htask, mem_captured hc, hserves⟩
  · intro as bs s t id hvis hkas hkbs hs ht hid
    obtain ⟨-, -, L⟩ := (scope_unwinding env scope).run hvis hkas hkbs hs ht
    exact L.answer hid

/-! ## Room for everyone -/

theorem evicted_of_room {m : Nat} (h : s.order.length < m) (key : OpaqueCacheKey) :
    s.evicted m key = [] := by
  have hf := List.length_filter_le (· ≠ key) s.order
  unfold Store.evicted
  rw [List.take_eq_nil_iff]
  left
  simp only [Store.touched, List.length_append, List.length_singleton] at hf ⊢
  omega

/-- A run of a few actions takes no room from anyone, as long as it has no eviction of its own and
does not prune. -/
theorem keeps_of_short {as : List Action} (hm : as.length ≤ env.maxMemoryRows)
    (hq : as.length ≤ durabilityQueueCapacity) (hp : ∀ a ∈ as, a ≠ .prune ∧ ∀ key, a ≠ .evict key) :
    (machine env).Meets (fun _ => Keeps env scope) as := by
  rintro pre a post s rfl hrun
  obtain ⟨ho, hl⟩ := grows_run hrun
  rw [List.length_append, List.length_cons] at hm hq
  have hroom := evicted_of_room (s := s.store) (m := env.maxMemoryRows) (by omega)
  cases a with
  | capture c =>
    refine fun _ => ⟨?_, fun _ => by omega⟩
    rw [hroom]
    exact fun k hk => absurd hk List.not_mem_nil
  | finish id =>
    intro call begunAt rows readAt target sig _ _ _
    rw [hroom]
    exact fun k hk => absurd hk List.not_mem_nil
  | prune => exact absurd rfl (hp .prune (by simp)).1
  | evict key => exact absurd rfl ((hp (.evict key) (by simp)).2 key)
  | _ => trivial

/-- Captures under two keys, and a resolve under one of them with and without the other's. -/
theorem scope_isolation_two_keys :
    let own := [.capture (exampleCapture "key-1"), .resolve exampleId exampleCall]
    let both := [.capture (exampleCapture "key-1"), .capture (exampleCapture "key-2"),
      .resolve exampleId exampleCall]
    ∃ s t, (machine exampleEnv).run own = some s ∧ (machine exampleEnv).run both = some t ∧
      (∃ task c, s.tasks exampleId = some task ∧ Action.capture c ∈ own ∧
        Serves c (.forKey "key-1") task.call "sig-a") ∧
      s.answer exampleId = t.answer exampleId := by
  intro own both
  obtain ⟨s, hs, hans⟩ :
      ∃ s ∈ (machine exampleEnv).run own, s.answer exampleId = some (.compatible "sig-a") := by
    decide
  obtain ⟨t, ht⟩ := Option.isSome_iff_exists.mp
    (by decide : ((machine exampleEnv).run both).isSome = true)
  have hvis : own.filter (visible exampleSha (.forKey "key-1")) =
      both.filter (visible exampleSha (.forKey "key-1")) := by
    rfl
  obtain ⟨hserves, hsame⟩ := scope_isolation exampleEnv (.forKey "key-1")
  refine ⟨s, t, hs, ht, hserves own s exampleId "sig-a" hs hans, ?_⟩
  exact hsame own both s t exampleId hvis (keeps_of_short (by decide) (by decide) (by simp [own]))
    (keeps_of_short (by decide) (by decide) (by simp [both])) hs ht rfl

/-- The actions of a call that nothing interrupts: it is answered from RAM, or from the table. -/
def CallSteps (id : TaskId) (call : Call) (steps : List Action) : Prop :=
  steps = [.resolve id call] ∨ steps = [.resolve id call, .fetch id true, .finish id]

/-- Captures under another scope can change an answer: as many as the cache has room for evict the
entry before its write has reached the table, and the call that would have found it finds nothing.
-/
theorem captures_of_others_interfere :
    ¬ ∀ (env : Env) (pre : List Action) (cs : List Capture) (id : TaskId) (call : Call)
      (steps steps' : List Action) (s t : State) (r r' : OpaqueLookupResult),
      env.maxMemoryRows = maxMemoryRows → (∀ c ∈ cs, c.scope ≠ id.scope) →
      CallSteps id call steps → CallSteps id call steps' →
      (machine env).run (pre ++ steps) = some s →
      (machine env).run (pre ++ cs.map .capture ++ steps') = some t →
      s.answer id = some r → t.answer id = some r' → r = r' := by
  intro h
  have hfirst : ((machine exampleEnv).run ([.capture (exampleCapture "key-1")] ++
      [.resolve exampleId exampleCall])).bind (·.answer exampleId) =
      some (.compatible "sig-a") := by
    decide
  have hsecond : ((machine exampleEnv).run ([.capture (exampleCapture "key-1")] ++
      (flood (.forKey "key-2") exampleTarget maxMemoryRows).map .capture ++
      [.resolve exampleId exampleCall, .fetch exampleId true, .finish exampleId])).bind
      (·.answer exampleId) = some .missing :=
    flood_run ⟨by decide, by decide⟩ (by decide) (by decide) (by decide) rfl rfl rfl
  obtain ⟨s, hs, hsans⟩ := Option.bind_eq_some_iff.mp hfirst
  obtain ⟨t, ht, htans⟩ := Option.bind_eq_some_iff.mp hsecond
  have hr := h exampleEnv _ _ exampleId exampleCall _ _ s t _ _ rfl ?_ (.inl rfl) (.inr rfl) hs ht
    hsans htans
  · cases hr
  · intro c hc
    rw [(flood_spec hc).1]
    decide

end Kinetix.OpaqueState
