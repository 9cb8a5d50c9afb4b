import Kinetix.Library.RecentEvents
import Kinetix.OpaqueState.Eviction
import Kinetix.OpaqueState.Provenance

/-!
# Which signature a resolve returns

A signature is fresh at a time if it was captured for its key and no capture of the key had returned
since. The cache, the last write that is queued and, where none is queued, the row of a key hold a
fresh signature, as long as no resolve puts an old row back. `restore_row` does not look at what the
cache holds, so a resolve that read its row before a capture puts the old signature over the new
one.
-/

namespace Kinetix.OpaqueState
open StateMachine Slots EventLog

variable {env : Env}

/-- The signature was captured for the key, and none of the first `n` captures replaced it. -/
def Fresh (sha : Sha256) (log : List Capture) (n : Nat) (key : OpaqueCacheKey)
    (signature : String) : Prop :=
  ∃ c, Current log n (fun c => c.key sha = key) c ∧ c.signature = signature

namespace State

/-- The last capture of a key since some length of the log. -/
def lastCapture (sha : Sha256) (s : State) (since : Nat) (key : OpaqueCacheKey) : Option Capture :=
  (s.log.drop since).reverse.find? fun c => c.key sha = key

/-- The last write of a key that has not reached the table. -/
def lastWrite (s : State) (key : OpaqueCacheKey) : Option DurabilityWrite :=
  s.pendingWrites.reverse.find? fun job => job.key = key

variable {s t : State} {job : DurabilityWrite}

/-- A capture for which there is room queues its write. -/
theorem pendingWrites_capture (env : Env) (c : Capture)
    (hroom : s.store.queue.length < durabilityQueueCapacity) : pendingWrites { s with
      store := (s.store.remember env.maxMemoryRows (c.key env.sha)
        (c.entry env.sha s.instant)).trySend (c.write env.sha)
      log := s.log ++ [c] } = s.pendingWrites ++ [c.write env.sha] := by
  rw [pendingWrites, Store.trySend, Store.remember_queue, if_pos hroom, ← List.append_assoc]
  rfl

theorem lastWrite_snoc (h : t.pendingWrites = s.pendingWrites ++ [job]) (k : OpaqueCacheKey) :
    t.lastWrite k = if job.key = k then some job else s.lastWrite k := by
  rw [lastWrite, h, List.reverse_append, List.reverse_singleton, List.singleton_append,
    List.find?_cons]
  split_ifs with hk <;> simp [hk, lastWrite]

theorem lastWrite_cons (h : s.pendingWrites = job :: t.pendingWrites) (k : OpaqueCacheKey) :
    s.lastWrite k = (t.lastWrite k).or (if job.key = k then some job else none) := by
  rw [lastWrite, h, List.reverse_cons, List.find?_append]
  congr 1
  split_ifs with hk <;> simp [hk]

end State

/-- The queue takes every write and the table stores every one. -/
def Kept (env : Env) (s : State) : Action → Prop
  | .capture c => c.Effective → s.store.queue.length < durabilityQueueCapacity
  | .persist _ nonce stored =>
    stored = true ∧ ∀ job ∈ s.writing, (env.crypto.encryptOpaqueState nonce job.signature).isSome
  | _ => True

/-- No resolve reads a row of its target that the last queued write of the key will change, and none
restores a row after its key was captured with another signature since the row was read. -/
def Orderly (env : Env) (s : State) : Action → Prop
  | .fetch id readable =>
    ∀ call begunAt target, s.tasks id = some ⟨call, begunAt, .looking⟩ →
      call.capability = some target → readable = true → ∀ row ∈ s.store.rows,
      row.key = keyOf env.sha id.scope target call.toolCallId → s.wall ≤ row.expiresAt →
      ∀ job, s.lastWrite row.key = some job →
        env.crypto.decryptOpaqueState row.valueEnc = some job.signature
  | .finish id =>
    ∀ call begunAt rows readAt target, s.tasks id = some ⟨call, begunAt, .fetched rows readAt⟩ →
      call.capability = some target → ∀ row ∈ rows, row.matchesTarget target = true →
      identityMismatch env row call.session call.toolName = none →
      ∀ c, s.lastCapture env.sha readAt (keyOf env.sha id.scope target call.toolCallId) = some c →
        env.crypto.decryptOpaqueState row.valueEnc = some c.signature
  | _ => True

/-- What is kept for a key is its last capture. -/
structure Freshness (env : Env) (s : State) : Prop where
  cache : ∀ {k e}, s.store.cache k = some e → Fresh env.sha s.log s.log.length k e.signature
  write : ∀ {k job}, s.lastWrite k = some job → Fresh env.sha s.log s.log.length k job.signature
  row : ∀ {row}, row ∈ s.store.rows → s.lastWrite row.key = none →
    ∃ sig, env.crypto.decryptOpaqueState row.valueEnc = some sig ∧
      Fresh env.sha s.log s.log.length row.key sig
  begun : ∀ {id task}, s.tasks id = some task → task.begunAt ≤ s.log.length
  fetched : ∀ {id call begunAt rows readAt},
    s.tasks id = some ⟨call, begunAt, .fetched rows readAt⟩ →
    begunAt ≤ readAt ∧ readAt ≤ s.log.length ∧ ∀ {row target sig}, row ∈ rows →
      call.capability = some target → row.matchesTarget target = true →
      env.crypto.decryptOpaqueState row.valueEnc = some sig →
      Fresh env.sha s.log readAt (keyOf env.sha id.scope target call.toolCallId) sig
  answered : ∀ {id call begunAt sig target},
    s.tasks id = some ⟨call, begunAt, .answered (.compatible sig)⟩ →
    call.capability = some target →
    Fresh env.sha s.log begunAt (keyOf env.sha id.scope target call.toolCallId) sig

namespace Fresh
variable {sha : Sha256} {log : List Capture} {m n : Nat} {key : OpaqueCacheKey} {sig : String}

theorem mono (h : Fresh sha log n key sig) (hmn : m ≤ n) : Fresh sha log m key sig := by
  obtain ⟨c, hc, hs⟩ := h
  exact ⟨c, hc.mono hmn, hs⟩

theorem snoc (h : Fresh sha log n key sig) (hn : n ≤ log.length) (c : Capture) :
    Fresh sha (log ++ [c]) n key sig := by
  obtain ⟨d, hd, hs⟩ := h
  exact ⟨d, hd.append hn, hs⟩

theorem snoc_other {c : Capture} (h : Fresh sha log log.length key sig) (hc : c.key sha ≠ key) :
    Fresh sha (log ++ [c]) (log.length + 1) key sig := by
  obtain ⟨d, hd, hs⟩ := h
  exact ⟨d, hd.snoc_of_not hc, hs⟩

theorem of_snoc (c : Capture) : Fresh sha (log ++ [c]) (log.length + 1) (c.key sha) c.signature :=
  ⟨c, current_snoc rfl, rfl⟩

end Fresh

namespace Freshness
variable {s s' : State}

theorem setTask {id : TaskId} {task : Task} {store : Store} (F : Freshness env s)
    (hq : store.queue = s.store.queue) (hr : store.rows = s.store.rows)
    (hc : ∀ {k e}, store.cache k = some e → Fresh env.sha s.log s.log.length k e.signature)
    (hb : task.begunAt ≤ s.log.length)
    (hf : ∀ {rows readAt}, task.phase = .fetched rows readAt →
      task.begunAt ≤ readAt ∧ readAt ≤ s.log.length ∧ ∀ {row target sig}, row ∈ rows →
        task.call.capability = some target → row.matchesTarget target = true →
        env.crypto.decryptOpaqueState row.valueEnc = some sig →
        Fresh env.sha s.log readAt (keyOf env.sha id.scope target task.call.toolCallId) sig)
    (ha : ∀ {sig target}, task.phase = .answered (.compatible sig) →
      task.call.capability = some target →
      Fresh env.sha s.log task.begunAt (keyOf env.sha id.scope target task.call.toolCallId) sig) :
    Freshness env ({ s with store := store }.setTask id task) where
  cache := hc
  write := by
    intro k job h
    rw [State.lastWrite, State.pendingWrites, State.setTask, hq] at h
    exact F.write h
  row := by
    intro row h hw
    rw [State.lastWrite, State.pendingWrites, State.setTask, hq] at hw
    rw [State.setTask, hr] at h
    exact F.row h hw
  begun := by
    intro id' task' h
    rcases update_eq_some.mp h with ⟨rfl, ht⟩ | ⟨-, ht⟩
    · cases ht
      exact hb
    · exact F.begun ht
  fetched := by
    intro id' call begunAt rows readAt h
    rcases update_eq_some.mp h with ⟨rfl, ht⟩ | ⟨-, ht⟩
    · cases ht
      exact hf rfl
    · exact F.fetched ht
  answered := by
    intro id' call begunAt sig target h
    rcases update_eq_some.mp h with ⟨rfl, ht⟩ | ⟨-, ht⟩
    · cases ht
      exact ha rfl
    · exact F.answered ht

theorem capture (F : Freshness env s) (c : Capture)
    (hroom : s.store.queue.length < durabilityQueueCapacity) : Freshness env { s with
      store := (s.store.remember env.maxMemoryRows (c.key env.sha)
        (c.entry env.sha s.instant)).trySend (c.write env.sha)
      log := s.log ++ [c] } := by
  have hlast := State.lastWrite_snoc (State.pendingWrites_capture env c hroom)
  have hlen : (s.log ++ [c]).length = s.log.length + 1 := by simp
  exact {
    cache := by
      intro k e h
      rw [Store.trySend_cache] at h
      rw [hlen]
      rcases Store.remember_cache h with ⟨rfl, rfl⟩ | ⟨hne, h⟩
      · exact Fresh.of_snoc c
      · exact (F.cache h).snoc_other (Ne.symm hne)
    write := by
      intro k job h
      rw [hlast] at h
      rw [hlen]
      split_ifs at h with hkey
      · cases h
        rw [← hkey]
        exact Fresh.of_snoc c
      · exact (F.write h).snoc_other hkey
    row := by
      intro row h hw
      rw [Store.trySend_rows, Store.remember_rows] at h
      rw [hlast] at hw
      rw [hlen]
      split_ifs at hw with hkey
      obtain ⟨sig, hd, hf⟩ := F.row h hw
      exact ⟨sig, hd, hf.snoc_other hkey⟩
    begun := by
      intro id task h
      rw [hlen]
      exact Nat.le_succ_of_le (F.begun h)
    fetched := by
      intro id call begunAt rows readAt h
      obtain ⟨hb, hr, hf⟩ := F.fetched h
      rw [hlen]
      exact ⟨hb, Nat.le_succ_of_le hr, fun hrow ht hm hd => (hf hrow ht hm hd).snoc hr c⟩
    answered := fun h ht => (F.answered h ht).snoc (F.begun h) c }

/-- Every action keeps what is kept for a key fresh, if it loses no write and puts no old
row back. -/
theorem step {a : Action} (F : Freshness env s) (hk : Kept env s a) (ho : Orderly env s a)
    (h : s.step env a = some s') : Freshness env s' := by
  cases State.transition_of_step h with
  | tick instant wall => exact { F with }
  | ignored c => exact F
  | captured c heff => exact F.capture c (hk heff)
  | evict key store hstore =>
    obtain ⟨hc, hq, hr, -⟩ := Store.evict_eq_some hstore
    exact { F with
      cache := by
        intro k e hk
        rw [hc] at hk
        rcases update_eq_some.mp hk with ⟨-, hk⟩ | ⟨-, hk⟩
        · cases hk
        · exact F.cache hk
      write := by
        intro k job hw
        rw [State.lastWrite, State.pendingWrites, hq] at hw
        exact F.write hw
      row := by
        intro row hrow hw
        rw [State.lastWrite, State.pendingWrites, hq] at hw
        rw [hr] at hrow
        exact F.row hrow hw }
  | resolve id call =>
    obtain ⟨hq, hr, -, hc, ha⟩ := Store.lookMemory_spec env s.store s.instant id.scope call
    refine F.setTask hq hr (fun h => F.cache (hc _ _ h)) (Nat.le_refl _) ?_ ?_
    · intro rows readAt hph
      cases hl : (s.store.lookMemory env s.instant id.scope call).2 <;> simp [hl] at hph
    · intro sig target hph ht
      cases hl : (s.store.lookMemory env s.instant id.scope call).2 with
      | none => simp [hl] at hph
      | some result =>
        simp only [hl, Option.elim_some, Phase.answered.injEq] at hph
        obtain ⟨target', entry, ht', he, -, -, rfl⟩ := ha sig (by rw [hl, hph])
        cases ht.symm.trans ht'
        exact F.cache he
  | fetch id readable call begunAt hid =>
    have hbegun : begunAt ≤ s.log.length := F.begun hid
    refine F.setTask rfl rfl F.cache hbegun ?_ (by simp)
    rintro rows readAt hph
    cases hph
    refine ⟨hbegun, Nat.le_refl _, ?_⟩
    intro row target sig hrow ht hm hd
    split_ifs at hrow with hreadable
    · obtain ⟨row, hr, hscope, hcall, hwall, rfl⟩ := Store.mem_fetchRows.mp hrow
      have hkey : row.key = keyOf env.sha id.scope target call.toolCallId := by
        rw [row.key_of_matches hm, hscope, hcall]
        rfl
      rw [← hkey]
      cases hw : s.lastWrite row.key with
      | none =>
        obtain ⟨sig', hd', hf⟩ := F.row hr hw
        cases hd.symm.trans hd'
        exact hf
      | some job =>
        have hd' := ho call begunAt target hid ht hreadable row hr hkey hwall job hw
        cases hd.symm.trans hd'
        exact F.write hw
    · cases hrow
  | finish id call begunAt rows readAt hid =>
    have hbegun : begunAt ≤ s.log.length := F.begun hid
    obtain ⟨hb, hr, hf⟩ := F.fetched hid
    rcases Store.resolveRows_cases env s.store s.instant id.scope call rows with
      ⟨hs, hn⟩ | ⟨target, row, sig, ht, hrow, hm, hname, hsess, hd, hres⟩
    · rw [hs]
      refine F.setTask rfl rfl F.cache hbegun (by simp) ?_
      intro sig target hsig
      exact absurd (by simpa using hsig) (hn sig)
    · have hread := hf hrow ht hm hd
      have hmatch : identityMismatch env row call.session call.toolName = none := by
        rw [identityMismatch, if_neg (by simpa using hname), if_neg (by simpa using hsess)]
      have hnow : Fresh env.sha s.log s.log.length
          (keyOf env.sha id.scope target call.toolCallId) sig := by
        cases hlast : s.lastCapture env.sha readAt
          (keyOf env.sha id.scope target call.toolCallId) with
        | none =>
          obtain ⟨c, hc, hsig⟩ := hread
          refine ⟨c, hc.extend fun d hd => ?_, hsig⟩
          simpa using List.find?_eq_none.mp hlast d (List.mem_reverse.mpr hd)
        | some c =>
          have hd' := ho call begunAt rows readAt target hid ht row hrow hm hmatch c hlast
          cases hd.symm.trans hd'
          exact ⟨c, current_of_find hlast, rfl⟩
      rw [hres]
      refine F.setTask rfl rfl ?_ hbegun (by simp) ?_
      · intro k e hk
        rcases Store.remember_cache hk with ⟨rfl, rfl⟩ | ⟨-, hk⟩
        · exact hnow
        · exact F.cache hk
      · intro sig' target' hsig ht'
        cases hsig
        cases ht.symm.trans ht'
        exact hread.mono hb
  | receive job queue hw hq =>
    have hpending : ∀ k, State.lastWrite { s with
        store := { s.store with queue := queue }, writing := some job } k = s.lastWrite k := by
      intro k
      simp only [State.lastWrite, State.pendingWrites, hw, hq, Option.toList_some,
        Option.toList_none, List.singleton_append, List.nil_append]
    exact { F with
      write := by
        intro k job' h
        rw [hpending] at h
        exact F.write h
      row := by
        intro row h hw
        rw [hpending] at hw
        exact F.row h hw }
  | persist job nonce stored hw =>
    obtain ⟨rfl, henc⟩ := hk
    obtain ⟨enc, henc⟩ := Option.isSome_iff_exists.mp (henc job hw)
    have hpending : s.pendingWrites = job :: State.pendingWrites { s with
        store := s.store.persistOpaqueState env s.wall nonce true job, writing := none } := by
      simp [State.pendingWrites, hw]
    have hlast := State.lastWrite_cons hpending
    exact { F with
      cache := by
        intro k e hk
        rw [Store.persist_cache] at hk
        exact F.cache hk
      write := by
        intro k job' h
        exact F.write (by rw [hlast, h, Option.some_or])
      row := by
        intro row hrow hw
        simp only [Store.persistOpaqueState, henc, if_true] at hrow
        rcases Store.mem_upsert.mp hrow with rfl | ⟨hrow, hne⟩
        · exact ⟨job.signature, env.crypto.decrypt_encrypt henc,
            F.write (by rw [hlast, hw, Option.none_or, if_pos rfl])⟩
        · exact F.row hrow (by rw [hlast, hw, Option.none_or, if_neg (Ne.symm hne)]) }
  | prune => exact { F with row := fun h => F.row (Store.mem_prunePool h).1 }

end Freshness

theorem freshness_start : Freshness env {} where
  cache := by
    intro k e h
    cases h
  write := by
    intro k job h
    cases h
  row := by
    intro row h
    cases h
  begun := by
    intro id task h
    cases h
  fetched := by
    intro id call begunAt rows readAt h
    cases h
  answered := by
    intro id call begunAt sig target h
    cases h

/-- The step loses no write and puts no old row back. -/
def Careful (env : Env) (s : State) (a : Action) : Prop := Kept env s a ∧ Orderly env s a

variable {c : Capture} {enc : String} {nonce : Nat} {s : State}

theorem freshness_run {as : List Action} (hc : (machine env).Meets (fun _ => Careful env) as)
    (h : (machine env).run as = some s) : Freshness env s :=
  (machine env).run_induction_of_meets (I := fun _ s => Freshness env s) freshness_start
    (fun _ _ _ _ F hc hstep => F.step hc.1 hc.2 hstep) as s hc h

/-- A call keeps its arguments and the time of its beginning. -/
theorem State.step_task {s s' : State} {a : Action} {id : TaskId} {task : Task}
    (ht : s.tasks id = some task) (h : s.step env a = some s') :
    ∃ phase, s'.tasks id = some { task with phase := phase } := by
  have set : ∀ {id' task' store}, (id' = id → task'.call = task.call ∧
      task'.begunAt = task.begunAt) → ∃ phase,
      (({ s with store := store } : State).setTask id' task').tasks id =
        some { task with phase := phase } := by
    intro id' task' store hsame
    by_cases hid : id = id'
    · subst hid
      obtain ⟨hcall, hbegun⟩ := hsame rfl
      refine ⟨task'.phase, ?_⟩
      rw [State.setTask_tasks, Function.update_self, ← hcall, ← hbegun]
    · exact ⟨task.phase, by
        rw [State.setTask_tasks, Function.update_of_ne hid]
        exact ht⟩
  cases State.transition_of_step h with
  | tick | ignored | captured | evict | receive | persist | prune => exact ⟨_, ht⟩
  | resolve id' call hnone =>
    refine set fun hid => ?_
    rw [hid, ht] at hnone
    cases hnone
  | fetch id' readable call begunAt hsome | finish id' call begunAt rows readAt hsome =>
    refine set fun hid => ?_
    rw [hid, ht] at hsome
    cases hsome
    exact ⟨rfl, rfl⟩

/-- A call that begins after some captures has begun at their number. -/
theorem begun_run {pre post : List Action} {id : TaskId} {call : Call}
    (h : (machine env).run (pre ++ .resolve id call :: post) = some s) :
    ∃ phase, s.tasks id = some ⟨call, (captured pre).length, phase⟩ := by
  rw [← List.singleton_append, ← List.append_assoc] at h
  obtain ⟨t, ht, hpost⟩ := (machine env).run_of_append h
  obtain ⟨t₀, ht₀, hstep⟩ := (machine env).run_snoc_eq_some.mp ht
  have hbegun : ∃ phase, t.tasks id = some ⟨call, (captured pre).length, phase⟩ := by
    change t₀.step env (.resolve id call) = some t at hstep
    simp only [State.step] at hstep
    split at hstep
    · cases hstep
    · cases hstep
      rw [State.beginResolve_eq, State.setTask_tasks, Function.update_self, log_run ht₀]
      exact ⟨_, rfl⟩
  clear h ht ht₀ hstep
  induction post generalizing t with
  | nil =>
    cases hpost
    exact hbegun
  | cons a post ih =>
    rw [Machine.runFrom] at hpost
    split at hpost
    · next t' ht' =>
      obtain ⟨phase, hphase⟩ := hbegun
      exact ih t' hpost (State.step_task hphase ht')
    · cases hpost

/-- Only a full queue and a failed write lose anything. -/
theorem kept_of_room {a : Action} (h : s.store.queue.length < durabilityQueueCapacity)
    (ha : ∀ key nonce stored, a ≠ .persist key nonce stored) : Kept env s a := by
  cases a with
  | capture c => exact fun _ => h
  | persist key nonce stored => exact absurd rfl (ha key nonce stored)
  | _ => trivial

/-- A capture and its write lose nothing, if the encryption succeeds. -/
theorem stored_kept (heff : c.Effective)
    (henc : env.crypto.encryptOpaqueState nonce c.signature = some enc) :
    (machine env).Meets (fun _ => Kept env) [.capture c, .receive (c.key env.sha),
      .persist (c.key env.sha) nonce true] := by
  change (machine env).Meets _ ([.capture c, .receive (c.key env.sha)] ++
    [.persist (c.key env.sha) nonce true])
  refine (machine env).meets_snoc ?_ fun s hs => ⟨rfl, fun job hjob => ?_⟩
  · intro pre a post s he hr
    have hlength := congrArg List.length he
    have hgrow := (grows_run hr).2
    simp only [List.length_append, List.length_cons, List.length_nil] at hlength
    refine kept_of_room (by rw [durabilityQueueCapacity]; omega) ?_
    rintro key nonce stored rfl
    have hmem := he.symm ▸ (List.mem_append_right pre List.mem_cons_self)
    simp at hmem
  · -- The only capture so far is the one whose write this is.
    have hpending : job ∈ s.pendingWrites := List.mem_append_left _ (Option.mem_toList.mpr hjob)
    obtain ⟨c', hc', W⟩ := (provenance_run hs).writes hpending
    have hlog : s.log = [c] := by
      rw [log_run hs]
      simp [captured, Action.captured, not_or.mpr heff]
    rw [hlog, List.mem_singleton] at hc'
    subst hc'
    rw [← W.signature, henc]
    rfl

/-- In a run that loses no write and puts no old row back, a signature that a resolve returns was
captured for the key of the call, and no capture of the key that had returned when the resolve began
came after it. -/
theorem resolve_fresh {pre post : List Action} {id : TaskId} {call : Call} {s : State}
    {sig : String}
    (hc : (machine env).Meets (fun _ => Careful env) (pre ++ .resolve id call :: post))
    (h : (machine env).run (pre ++ .resolve id call :: post) = some s)
    (hans : s.answer id = some (.compatible sig)) :
    ∃ target, call.capability = some target ∧
      Fresh env.sha (captured (pre ++ .resolve id call :: post)) (captured pre).length
        (keyOf env.sha id.scope target call.toolCallId) sig := by
  obtain ⟨phase, htask⟩ := begun_run h
  obtain ⟨call', begunAt, hans⟩ := answered_of_answer hans
  cases htask.symm.trans hans
  obtain ⟨c, -, hserves⟩ := (provenance_run h).answers htask
  refine ⟨c.target, hserves.target, ?_⟩
  rw [← log_run h]
  exact (freshness_run hc h).answered htask hserves.target

/-- A capture, its write and a resolve. -/
theorem resolve_fresh_stored :
    let key := (exampleCapture "key-1").key exampleSha
    let pre := [.capture (exampleCapture "key-1"), .receive key, .persist key 0 true]
    ∃ s, (machine exampleEnv).run (pre ++ .resolve exampleId exampleCall :: []) = some s ∧
      ∃ target, exampleCall.capability = some target ∧
        Fresh exampleSha (captured (pre ++ .resolve exampleId exampleCall :: []))
          (captured pre).length (keyOf exampleSha (.forKey "key-1") target "call-1") "sig-a" := by
  intro key pre
  have hans : ((machine exampleEnv).run (pre ++ .resolve exampleId exampleCall :: [])).bind
      (·.answer exampleId) = some (.compatible "sig-a") := by
    decide
  obtain ⟨s, hs, hans⟩ := Option.bind_eq_some_iff.mp hans
  refine ⟨s, hs, resolve_fresh ?_ hs hans⟩
  have hkept : (machine exampleEnv).Meets (fun _ => Kept exampleEnv) pre :=
    stored_kept ⟨by decide, by decide⟩ rfl
  refine (machine exampleEnv).meets_snoc ?_ fun _ _ => ⟨trivial, trivial⟩
  intro pre' a post s' he hr
  refine ⟨hkept pre' a post s' he hr, ?_⟩
  have hmem : a ∈ pre := he ▸ List.mem_append_right pre' List.mem_cons_self
  simp only [pre, List.mem_cons, List.not_mem_nil, or_false] at hmem
  rcases hmem with rfl | rfl | rfl <;> trivial

/-! ## An old row over a new signature -/

/-- A row that belongs to the conversation of a call gives the same answer from RAM. -/
theorem evaluateCached_of_row {row : StoredRow} {session : Option String} {name sig : String}
    {expiresAt : Nat} (h : identityMismatch env row session name = none) :
    evaluateCached env ⟨sig, row.sessionHash, row.toolNameHash, expiresAt⟩ session name =
      .compatible sig := by
  unfold identityMismatch at h
  unfold evaluateCached
  split_ifs at h ⊢
  rfl

/-- The row that a capture leaves in the table. -/
def Capture.row (sha : Sha256) (c : Capture) (enc : String) (wall : Int) : Row where
  key := c.key sha
  sessionHash := (c.write sha).sessionHash
  toolNameHash := (c.write sha).toolNameHash
  valueEnc := enc
  createdAt := wall
  expiresAt := wall + persistentTtl

/-- A capture, and its write by the worker. -/
theorem stored_run (heff : c.Effective) (hm : 0 < env.maxMemoryRows)
    (henc : env.crypto.encryptOpaqueState nonce c.signature = some enc) :
    ∃ s, (machine env).run [.capture c, .receive (c.key env.sha),
        .persist (c.key env.sha) nonce true] = some s ∧
      s.store.order = [c.key env.sha] ∧ s.store.queue = [] ∧ s.tasks = (fun _ => none) ∧
      s.wall = 0 ∧ s.store.rows = [c.row env.sha enc 0] := by
  obtain ⟨s, hs, horder, hqueue, hrows, htasks, hwriting, hwall⟩ := capture_run heff hm
  have hkey : (c.write env.sha).key = c.key env.sha := rfl
  have hsig : (c.write env.sha).signature = c.signature := rfl
  refine ⟨{ s with store := { s.store with queue := [], rows := [c.row env.sha enc 0] } }, ?_,
    horder, rfl, htasks, hwall, rfl⟩
  rw [← List.singleton_append, Machine.run_append, hs, Option.bind_some]
  simp only [Machine.runFrom, machine, State.step, hwriting, hqueue, hkey, if_true,
    Store.persistOpaqueState, hsig, henc, hrows, hwall, Store.upsert, List.any_nil]
  rfl

/-- A call that reads its row, and restores it after another capture of the key: the next call gets
the old signature from RAM. -/
theorem stale_run {id id' : TaskId} {call : Call} {sig : String} (target : OpaqueStateTarget)
    (row : StoredRow) (hm : 0 < env.maxMemoryRows) (hid : s.tasks id = none)
    (hid' : s.tasks id' = none) (hne : id' ≠ id) (hscope : id'.scope = id.scope)
    (hcap : call.capability = some target)
    (hcache : s.store.cache (keyOf env.sha id.scope target call.toolCallId) = none)
    (hrows : s.store.fetchRows s.wall (id.scope.hash env.sha)
      (toolCallHash env.sha id.scope call.toolCallId) = [row])
    (hmatch : row.matchesTarget target = true)
    (hident : identityMismatch env row call.session call.toolName = none)
    (hsig : env.crypto.decryptOpaqueState row.valueEnc = some sig) :
    ((machine env).runFrom s [.resolve id call, .fetch id true, .capture c, .finish id,
      .resolve id' call]).bind (·.answer id') = some (.compatible sig) := by
  have hlook : s.store.lookMemory env s.instant id.scope call = (s.store, none) := by
    simp only [Store.lookMemory, hcap, hcache]
  have hres : ∀ store : Store, store.resolveRows env s.instant id.scope call [row] =
      (store.remember env.maxMemoryRows (keyOf env.sha id.scope target call.toolCallId)
        ⟨sig, row.sessionHash, row.toolNameHash, s.instant + memoryTtl⟩, .compatible sig) := by
    intro store
    simp only [Store.resolveRows, hcap, List.isEmpty_cons, List.find?_cons, hmatch, hident,
      Store.restoreRow, hsig]
    rfl
  have hnext : ∀ store : Store, ((store.remember env.maxMemoryRows
      (keyOf env.sha id.scope target call.toolCallId)
      ⟨sig, row.sessionHash, row.toolNameHash, s.instant + memoryTtl⟩).lookMemory env s.instant
        id'.scope call).2 = some (.compatible sig) := by
    intro store
    rw [hscope]
    simp only [Store.lookMemory, hcap, Store.remember_self hm]
    rw [if_neg (by omega), evaluateCached_of_row hident]
  simp only [machine, Machine.runFrom, State.step, hid, State.beginResolve_eq, hlook,
    State.setTask, Function.update_self, Function.update_of_ne hne, hid', if_true, hrows, hres,
    Option.elim, Option.bind_some, State.answer, hnext]

/-- A capture and its write, and as many captures under another scope as evict the entry. -/
def storedAndEvicted (env : Env) (c : Capture) (scope : OpaqueClientScope) (nonce : Nat) :
    List Action :=
  [.capture c, .receive (c.key env.sha), .persist (c.key env.sha) nonce true] ++
    (flood scope c.target env.maxMemoryRows).map .capture

theorem Capture.row_spec {wall : Int}
    (henc : env.crypto.encryptOpaqueState nonce c.signature = some enc) :
    RowOf env c (c.row env.sha enc wall) where
  key := rfl
  signature := env.crypto.decrypt_encrypt henc
  session := rfl
  name := rfl

/-- The call of a capture's conversation may have its row. -/
theorem RowOf.identity {row : Row} (R : RowOf env c row) :
    identityMismatch env row.stored c.session c.toolName = none := by
  unfold identityMismatch
  have hagree : sessionAgrees env.sha row.stored.sessionHash c.session = true := by
    rw [R.stored_session, sessionAgrees_map]
    intro a ha b hb
    exact Option.mem_unique ha hb
  have hname : row.stored.toolNameHash = toolNameHash env.sha c.toolName := R.name.symm
  rw [if_neg (not_not.mpr hname), hagree]
  rfl

/-- The replaced signature is returned by a call that begins after the one that replaced it was
captured. -/
theorem replaced_run {c d : Capture} {scope : OpaqueClientScope} {id id' : TaskId}
    (heff : c.Effective) (hne : c.scope ≠ scope) (hm : 0 < env.maxMemoryRows)
    (hroom : env.maxMemoryRows ≤ durabilityQueueCapacity)
    (henc : env.crypto.encryptOpaqueState nonce c.signature = some enc) (hid : id.scope = c.scope)
    (hid' : id'.scope = c.scope) (hids : id' ≠ id) :
    let call : Call := ⟨some c.target, c.session, c.toolCallId, c.toolName⟩
    ((machine env).run (storedAndEvicted env c scope nonce ++ [.resolve id call, .fetch id true,
      .capture d, .finish id, .resolve id' call])).bind (·.answer id') =
        some (.compatible c.signature) := by
  intro call
  obtain ⟨s, hs, horder, hqueue, htasks, hwall, hrows⟩ := stored_run heff hm henc
  have hflood : ∀ d ∈ flood scope c.target env.maxMemoryRows, d.Effective :=
    fun d hd => (flood_spec hd).2
  have hfits : s.store.queue.length +
      (flood scope c.target env.maxMemoryRows).length ≤ durabilityQueueCapacity := by
    rwa [hqueue, length_flood, List.length_nil, Nat.zero_add]
  obtain ⟨t, ht, U, -, -, hcache⟩ := captures_run hflood (flood_nodup hne) horder hm
    (Nat.le_of_eq length_flood) hfits
  rw [length_flood, if_neg (Nat.lt_irrefl _)] at hcache
  have R : RowOf env c (c.row env.sha enc 0) := Capture.row_spec henc
  rw [storedAndEvicted, Machine.run_append, Machine.run_append, hs, Option.bind_some, ht,
    Option.bind_some]
  refine stale_run c.target (c.row env.sha enc 0).stored hm
    (by rw [U.tasks, htasks]) (by rw [U.tasks, htasks]) hids (hid'.trans hid.symm) rfl
    (by rw [hid]; exact hcache) ?_ ?_ R.identity R.signature
  · rw [hid, U.wall, hwall, Store.fetchRows, U.rows, hrows]
    have hkey : (c.row env.sha enc 0).key.scopeHash = c.scope.hash env.sha ∧
        (c.row env.sha enc 0).key.toolCallHash = toolCallHash env.sha c.scope call.toolCallId :=
      ⟨rfl, rfl⟩
    have hlive : (0 : Int) ≤ (c.row env.sha enc 0).expiresAt := by
      simp [Capture.row, persistentTtl]
    simp [hkey, hlive]
  · simp [StoredRow.matchesTarget, Row.stored, Capture.row, Capture.key, keyOf, cacheKey]

/-- The capture of another signature for the same call. -/
def exampleRecapture : Capture := { exampleCapture "key-1" with signature := "sig-b" }

/-- A call that begins after the one of `exampleId` has read its row. -/
def exampleNextId : TaskId := ⟨.forKey "key-1", 1⟩

/-- The actions up to the second call. -/
def exampleStale : List Action :=
  storedAndEvicted exampleEnv (exampleCapture "key-1") (.forKey "key-2") 0 ++
    [.resolve exampleId exampleCall, .fetch exampleId true, .capture exampleRecapture,
      .finish exampleId]

theorem exampleStale_kept : (machine exampleEnv).Meets (fun _ => Kept exampleEnv)
    (exampleStale ++ [Action.resolve exampleNextId exampleCall]) := by
  have hlength : (exampleStale ++ [Action.resolve exampleNextId exampleCall]).length = 2056 := by
    simp [exampleStale, storedAndEvicted]
    rfl
  have hkept : (machine exampleEnv).Meets (fun _ => Kept exampleEnv)
      [.capture (exampleCapture "key-1"), .receive ((exampleCapture "key-1").key exampleSha),
        .persist ((exampleCapture "key-1").key exampleSha) 0 true] :=
    stored_kept ⟨by decide, by decide⟩ rfl
  rw [exampleStale, storedAndEvicted, List.append_assoc, List.append_assoc] at *
  refine (machine exampleEnv).meets_append hkept fun pre a post s he hr => kept_of_room ?_ ?_
  · have hgrow := (grows_run hr).2
    rw [he] at hlength
    simp only [List.length_append, List.length_cons, durabilityQueueCapacity] at hlength hgrow ⊢
    omega
  · rintro key nonce stored rfl
    have hmem := he.symm ▸ (List.mem_append_right pre List.mem_cons_self)
    simp at hmem

/-- A resolve that read its row before a capture restores it over the new entry, and the next
resolve answers with the replaced signature, although no write is lost and no time passes. -/
theorem restored_row_replaces_newer :
    ¬ ∀ (env : Env) (pre post : List Action) (id : TaskId) (call : Call)
      (target : OpaqueStateTarget) (s : State) (sig : String),
      env.maxMemoryRows = maxMemoryRows →
      (machine env).Meets (fun _ => Kept env) (pre ++ .resolve id call :: post) →
      (∀ instant wall, Action.tick instant wall ∉ pre ++ .resolve id call :: post) →
      (machine env).run (pre ++ .resolve id call :: post) = some s →
      s.answer id = some (.compatible sig) → call.capability = some target →
      Fresh env.sha (captured (pre ++ .resolve id call :: post)) (captured pre).length
        (keyOf env.sha id.scope target call.toolCallId) sig := by
  intro h
  have hrun : ((machine exampleEnv).run (exampleStale ++
      [.resolve exampleNextId exampleCall])).bind (·.answer exampleNextId) =
      some (.compatible "sig-a") := by
    rw [exampleStale, List.append_assoc]
    exact replaced_run ⟨by decide, by decide⟩ (by decide) (by decide) (by decide) rfl rfl rfl
      (by decide)
  obtain ⟨s, hs, hans⟩ := Option.bind_eq_some_iff.mp hrun
  have hfresh := h exampleEnv exampleStale [] exampleNextId exampleCall exampleTarget s
    "sig-a" rfl exampleStale_kept ?_ hs hans rfl
  · -- The last capture of the key is of the other signature.
    obtain ⟨earlier, hlast⟩ : ∃ earlier, captured exampleStale = earlier ++ [exampleRecapture] :=
      ⟨captured (storedAndEvicted exampleEnv (exampleCapture "key-1") (.forKey "key-2") 0), by
        rw [exampleStale, captured, List.filterMap_append]
        rfl⟩
    have hall : captured (exampleStale ++ [Action.resolve exampleNextId exampleCall]) =
        captured exampleStale := by
      rw [captured, List.filterMap_append]
      exact List.append_nil _
    rw [hall, hlast, List.length_append, List.length_singleton] at hfresh
    obtain ⟨c, hc, hsig⟩ := hfresh
    have hrecapture := hc.eq_of_snoc rfl
    rw [hrecapture] at hsig
    revert hsig
    decide
  · intro instant wall hmem
    simp [exampleStale, storedAndEvicted] at hmem

end Kinetix.OpaqueState
