import Kinetix.OpaqueState.Actors

/-!
# Where an answer comes from

Every entry of the cache, every queued write, every row and every row that a resolve has read goes
back to a capture in the log. So a signature is only ever handed to a call that asks for what that
capture recorded.
-/

namespace Kinetix.OpaqueState
open Slots

variable {env : Env}

/-- A value that is kept under a key was captured there. -/
structure Backs (sha : Sha256) (c : Capture) (key : OpaqueCacheKey) (signature : String)
    (session : Option String) (name : String) : Prop where
  key : keyOf sha c.scope c.target c.toolCallId = key
  signature : c.signature = signature
  session : c.session.map (sessionHash sha) = session
  name : toolNameHash sha c.toolName = name

/-- A row holds what was captured. -/
structure RowOf (env : Env) (c : Capture) (row : Row) : Prop where
  key : keyOf env.sha c.scope c.target c.toolCallId = row.key
  signature : env.crypto.decryptOpaqueState row.valueEnc = some c.signature
  session : (c.session.map (sessionHash env.sha)).getD "" = row.sessionHash
  name : toolNameHash env.sha c.toolName = row.toolNameHash

/-- A queued write holds what was captured. -/
structure WriteOf (sha : Sha256) (c : Capture) (job : DurabilityWrite) : Prop where
  key : keyOf sha c.scope c.target c.toolCallId = job.key
  signature : c.signature = job.signature
  session : (c.session.map (sessionHash sha)).getD "" = job.sessionHash
  name : toolNameHash sha c.toolName = job.toolNameHash

/-- The capture recorded what the call asks for, with this signature. -/
structure Serves (c : Capture) (scope : OpaqueClientScope) (call : Call) (signature : String) :
    Prop where
  scope : c.scope = scope
  target : call.capability = some c.target
  toolCallId : c.toolCallId = call.toolCallId
  toolName : c.toolName = call.toolName
  session : SessionsAgree c.session call.session
  signature : c.signature = signature

/-- An empty session hash in a row stands for a capture without a session. -/
theorem RowOf.stored_session {c : Capture} {row : Row} (h : RowOf env c row) :
    row.stored.sessionHash = c.session.map (sessionHash env.sha) := by
  rw [Row.stored, ← h.session]
  cases c.session with
  | none => rfl
  | some session => simp [sessionHash, env.sha.nonempty]

/-- What a resolve has read goes back to the log. -/
def Fetched (env : Env) (log : List Capture) (scope : OpaqueClientScope) (call : Call)
    (stored : StoredRow) : Prop :=
  ∃ c ∈ log, ∃ row, RowOf env c row ∧ row.stored = stored ∧
    row.key.scopeHash = scope.hash env.sha ∧
    row.key.toolCallHash = toolCallHash env.sha scope call.toolCallId

/-- Everything that is kept goes back to the log. -/
structure Provenance (env : Env) (s : State) : Prop where
  cache : ∀ {k e}, s.store.cache k = some e →
    ∃ c ∈ s.log, Backs env.sha c k e.signature e.sessionHash e.toolNameHash
  writes : ∀ {job}, job ∈ s.pendingWrites → ∃ c ∈ s.log, WriteOf env.sha c job
  rows : ∀ {row}, row ∈ s.store.rows → ∃ c ∈ s.log, RowOf env c row
  fetched : ∀ {id call begunAt rows readAt},
    s.tasks id = some ⟨call, begunAt, .fetched rows readAt⟩ →
    ∀ row ∈ rows, Fetched env s.log id.scope call row
  answers : ∀ {id call begunAt sig},
    s.tasks id = some ⟨call, begunAt, .answered (.compatible sig)⟩ →
    ∃ c ∈ s.log, Serves c id.scope call sig

/-- A live entry for the exact key serves the call. -/
theorem Backs.serves {c : Capture} {scope : OpaqueClientScope} {call : Call}
    {target : OpaqueStateTarget} {sig name : String} {session : Option String}
    (B : Backs env.sha c (keyOf env.sha scope target call.toolCallId) sig session name)
    (ht : call.capability = some target) (hn : name = toolNameHash env.sha call.toolName)
    (hs : sessionAgrees env.sha session call.session = true) : Serves c scope call sig := by
  obtain ⟨hscope, htarget, hid⟩ := keyOf_injective B.key
  exact {
    scope := hscope
    target := htarget ▸ ht
    toolCallId := hid
    toolName := env.sha.injective (B.name.trans hn)
    session := sessionAgrees_map.mp (B.session ▸ hs)
    signature := B.signature }

/-- A row that a resolve has read for its exact target is one of its key. -/
theorem Fetched.backs {log : List Capture} {scope : OpaqueClientScope} {call : Call}
    {stored : StoredRow} {target : OpaqueStateTarget} {sig : String}
    (F : Fetched env log scope call stored) (hm : stored.matchesTarget target = true)
    (hd : env.crypto.decryptOpaqueState stored.valueEnc = some sig) :
    ∃ c ∈ log, Backs env.sha c (keyOf env.sha scope target call.toolCallId) sig
      stored.sessionHash stored.toolNameHash := by
  obtain ⟨c, hc, row, R, rfl, hscope, hcall⟩ := F
  refine ⟨c, hc, R.key.trans ?_, ?_, R.stored_session.symm, R.name⟩
  · rw [row.key_of_matches hm, hscope, hcall]
    rfl
  · exact Option.some.inj (R.signature.symm.trans hd)

namespace Provenance
variable {s s' : State}

/-- Updating one task keeps what the other tasks have. -/
theorem setTask {id : TaskId} {task : Task} {store : Store} (P : Provenance env s)
    (hq : store.queue = s.store.queue) (hr : store.rows = s.store.rows)
    (hc : ∀ {k e}, store.cache k = some e →
      ∃ c ∈ s.log, Backs env.sha c k e.signature e.sessionHash e.toolNameHash)
    (hf : ∀ {rows readAt}, task.phase = .fetched rows readAt →
      ∀ row ∈ rows, Fetched env s.log id.scope task.call row)
    (ha : ∀ {sig}, task.phase = .answered (.compatible sig) →
      ∃ c ∈ s.log, Serves c id.scope task.call sig) :
    Provenance env ({ s with store := store }.setTask id task) where
  cache := hc
  writes := by
    intro job hj
    refine P.writes ?_
    rwa [State.pendingWrites, State.setTask, hq] at hj
  rows := by
    intro row h
    rw [State.setTask, hr] at h
    exact P.rows h
  fetched := by
    intro id' call begunAt rows readAt h
    rcases update_eq_some.mp h with ⟨rfl, ht⟩ | ⟨-, ht⟩
    · cases ht
      exact hf rfl
    · exact P.fetched ht
  answers := by
    intro id' call begunAt sig h
    rcases update_eq_some.mp h with ⟨rfl, ht⟩ | ⟨-, ht⟩
    · cases ht
      exact ha rfl
    · exact P.answers ht

theorem capture (P : Provenance env s) (c : Capture) : Provenance env { s with
    store := (s.store.remember env.maxMemoryRows (c.key env.sha)
      (c.entry env.sha s.instant)).trySend (c.write env.sha)
    log := s.log ++ [c] } := by
  have old : ∀ {q : Capture → Prop}, (∃ d ∈ s.log, q d) → ∃ d ∈ s.log ++ [c], q d := by
    rintro q ⟨d, hd, hq⟩
    exact ⟨d, List.mem_append_left _ hd, hq⟩
  have new : c ∈ s.log ++ [c] := by simp
  exact {
    cache := by
      intro k e h
      rw [Store.trySend_cache] at h
      rcases Store.remember_cache h with ⟨rfl, rfl⟩ | ⟨-, h⟩
      · exact ⟨c, new, rfl, rfl, rfl, rfl⟩
      · exact old (P.cache h)
    writes := by
      intro job h
      rcases List.mem_append.mp h with h | h
      · exact old (P.writes (List.mem_append_left _ h))
      · rcases Store.mem_trySend h with h | rfl
        · exact old (P.writes (List.mem_append_right _ h))
        · exact ⟨c, new, rfl, rfl, rfl, rfl⟩
    rows := by
      intro row h
      rw [Store.trySend_rows] at h
      exact old (P.rows h)
    fetched := by
      intro id call begunAt rows readAt h row hr
      exact old (P.fetched h row hr)
    answers := fun h => old (P.answers h) }

/-- Every action keeps the provenance of what is kept. -/
theorem step {a : Action} (P : Provenance env s) (h : s.step env a = some s') :
    Provenance env s' := by
  cases State.transition_of_step h with
  | tick instant wall => exact { P with }
  | ignored c => exact P
  | captured c => exact P.capture c
  | evict key store hstore =>
    obtain ⟨hc, hq, hr, -⟩ := Store.evict_eq_some hstore
    exact { P with
      cache := by
        intro k e hk
        rw [hc] at hk
        rcases update_eq_some.mp hk with ⟨-, hk⟩ | ⟨-, hk⟩
        · cases hk
        · exact P.cache hk
      writes := by
        intro job hj
        refine P.writes ?_
        rwa [State.pendingWrites, hq] at hj
      rows := by
        intro row hrow
        rw [hr] at hrow
        exact P.rows hrow }
  | resolve id call =>
    obtain ⟨hq, hr, -, hc, ha⟩ := Store.lookMemory_spec env s.store s.instant id.scope call
    refine P.setTask hq hr (fun h => P.cache (hc _ _ h)) ?_ ?_
    · intro rows readAt hph
      cases hl : (s.store.lookMemory env s.instant id.scope call).2 <;> simp [hl] at hph
    · intro sig hph
      cases hl : (s.store.lookMemory env s.instant id.scope call).2 with
      | none => simp [hl] at hph
      | some result =>
        simp only [hl, Option.elim_some, Phase.answered.injEq] at hph
        obtain ⟨target, entry, ht, he, hn, hs, rfl⟩ := ha sig (by rw [hl, hph])
        obtain ⟨c, hlog, B⟩ := P.cache he
        exact ⟨c, hlog, B.serves ht hn hs⟩
  | fetch id readable call begunAt hid =>
    refine P.setTask rfl rfl P.cache ?_ (by simp)
    rintro rows readAt hph row hrow
    cases hph
    split_ifs at hrow
    · obtain ⟨row, hr, hscope, hcall, -, rfl⟩ := Store.mem_fetchRows.mp hrow
      obtain ⟨c, hlog, R⟩ := P.rows hr
      exact ⟨c, hlog, row, R, rfl, hscope, hcall⟩
    · cases hrow
  | finish id call begunAt rows readAt hid =>
    rcases Store.resolveRows_cases env s.store s.instant id.scope call rows with
      ⟨hs, hn⟩ | ⟨target, row, sig, ht, hrow, hm, hname, hsess, hd, hr⟩
    · rw [hs]
      refine P.setTask rfl rfl P.cache (by simp) ?_
      intro sig hsig
      exact absurd (by simpa using hsig) (hn sig)
    · obtain ⟨c, hlog, B⟩ := (P.fetched hid row hrow).backs hm hd
      rw [hr]
      refine P.setTask rfl rfl ?_ (by simp) ?_
      · intro k e hk
        rcases Store.remember_cache hk with ⟨rfl, rfl⟩ | ⟨-, hk⟩
        · exact ⟨c, hlog, B⟩
        · exact P.cache hk
      · intro sig' hsig
        cases hsig
        exact ⟨c, hlog, B.serves ht hname hsess⟩
  | receive job queue hw hq =>
    exact { P with
      writes := by
        intro j hj
        refine P.writes ?_
        simpa [State.pendingWrites, hw, hq] using hj }
  | persist job nonce stored hw =>
    exact { P with
      cache := by
        intro k e hk
        rw [Store.persist_cache] at hk
        exact P.cache hk
      writes := by
        intro j hj
        refine P.writes (List.mem_append_right _ ?_)
        simpa [State.pendingWrites] using hj
      rows := by
        intro row hrow
        rcases Store.mem_persist hrow with hrow | ⟨hk, hs, hn, hd⟩
        · exact P.rows hrow
        · have hjob : job ∈ s.pendingWrites := by simp [State.pendingWrites, hw]
          obtain ⟨c, hlog, W⟩ := P.writes hjob
          exact ⟨c, hlog, W.key.trans hk.symm, hd.trans (W.signature ▸ rfl),
            W.session.trans hs.symm, W.name.trans hn.symm⟩ }
  | prune => exact { P with rows := fun h => P.rows (Store.mem_prunePool h).1 }

end Provenance

variable {as : List Action}

theorem provenance_run {s : State} (h : (machine env).run as = some s) : Provenance env s := by
  refine (machine env).invariant (I := Provenance env) ?_ (fun _ _ _ P => P.step) h
  exact {
    cache := by
      intro k e h
      cases h
    writes := by
      intro job h
      cases h
    rows := by
      intro row h
      cases h
    fetched := by
      intro id call begunAt rows readAt h
      cases h
    answers := by
      intro id call begunAt sig h
      cases h }

/-- The capture that an action makes, unless it is ignored. -/
def Action.captured : Action → Option Capture
  | .capture c => if c.signature = "" ∨ c.toolCallId = "" then none else some c
  | _ => none

/-- The captures of a run that had an effect, in their order. -/
def captured (as : List Action) : List Capture := as.filterMap Action.captured

theorem State.step_log {s s' : State} {a : Action} (h : s.step env a = some s') :
    s'.log = s.log ++ a.captured.toList := by
  cases State.transition_of_step h with
  | ignored c hign =>
    rw [Action.captured, if_pos (not_not.mp fun h => hign (not_or.mp h)), Option.toList_none,
      List.append_nil]
  | captured c heff => rw [Action.captured, if_neg (not_or.mpr heff), Option.toList_some]
  | tick | evict | receive | persist | prune => simp [Action.captured]
  | resolve | fetch | finish => simp [Action.captured, State.setTask]

/-- The log is what the actions of the run captured. -/
theorem log_run {s : State} (h : (machine env).run as = some s) : s.log = captured as := by
  refine (machine env).run_induction (I := fun as s => s.log = captured as) rfl ?_ as s h
  intro as s a s' _ ih hstep
  rw [State.step_log hstep, ih, captured, captured, List.filterMap_append]
  cases ha : a.captured <;> simp [ha]

theorem mem_captured {c : Capture} (h : c ∈ captured as) : Action.capture c ∈ as := by
  obtain ⟨a, ha, hc⟩ := List.mem_filterMap.mp h
  cases a with
  | capture d =>
    simp only [Action.captured] at hc
    split_ifs at hc
    cases hc
    exact ha
  | _ => cases hc

end Kinetix.OpaqueState
