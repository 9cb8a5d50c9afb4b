import Kinetix.OpaqueState.Freshness

/-!
# RAM and the table agree

What the table will hold under a key once the queue is drained is the last queued write of the key,
or else its row. An entry of the cache holds the same, as long as no write is lost and every resolve
that restores a row finds that it is still what the key holds. `restore_row` does not compare, so a
row that was read before a capture of its key is put over the new entry, and then RAM and the table
give different answers until the entry leaves.
-/

namespace Kinetix.OpaqueState
open StateMachine Slots

variable {env : Env}

/-- What is kept under a key, wherever it is. -/
structure Content where
  signature : String
  sessionHash : Option String
  toolNameHash : String
  deriving DecidableEq

/-- The answer from what is kept for the exact key. -/
def Content.verdict (sha : Sha256) (c : Content) (session : Option String) (toolName : String) :
    OpaqueLookupResult :=
  if c.toolNameHash ≠ OpaqueState.toolNameHash sha toolName then .toolNameMismatch
  else if !sessionAgrees sha c.sessionHash session then .sessionMismatch
  else .compatible c.signature

/-- An empty session hash stands for no session. -/
def storedSession (hash : String) : Option String := if hash = "" then none else some hash

def CachedOpaqueState.content (e : CachedOpaqueState) : Content :=
  ⟨e.signature, e.sessionHash, e.toolNameHash⟩

def DurabilityWrite.content (job : DurabilityWrite) : Content :=
  ⟨job.signature, storedSession job.sessionHash, job.toolNameHash⟩

/-- What a row holds, if it can be decrypted. -/
def StoredRow.content (env : Env) (row : StoredRow) : Option Content :=
  (env.crypto.decryptOpaqueState row.valueEnc).map fun signature =>
    ⟨signature, row.sessionHash, row.toolNameHash⟩

/-- What the table will hold under a key when the queue is drained. -/
def State.durable (env : Env) (s : State) (key : OpaqueCacheKey) : Option Content :=
  match s.lastWrite key with
  | some job => some job.content
  | none => (s.store.rows.find? (·.key = key)).bind (·.stored.content env)

/-- No write is lost, and the worker prunes nothing. -/
def Lossless (env : Env) (s : State) : Action → Prop
  | .prune => (s.store.prunePool s.wall).rows = s.store.rows
  | a => Kept env s a

/-- A resolve that restores a row restores what its key still holds. -/
def RestoresCurrent (env : Env) (s : State) : Action → Prop
  | .finish id =>
    ∀ call begunAt rows readAt target, s.tasks id = some ⟨call, begunAt, .fetched rows readAt⟩ →
      call.capability = some target → ∀ row ∈ rows, row.matchesTarget target = true →
      identityMismatch env row call.session call.toolName = none →
      ∀ content, row.content env = some content →
        s.durable env (keyOf env.sha id.scope target call.toolCallId) = some content
  | _ => True

/-- Each entry holds what the table will, and the table has one row for a key. -/
structure Agreement (env : Env) (s : State) : Prop where
  cache : ∀ {k e}, s.store.cache k = some e → s.durable env k = some e.content
  unique : (s.store.rows.map Row.key).Nodup

/-! ## Contents -/

theorem evaluateCached_eq_verdict (e : CachedOpaqueState) (session : Option String)
    (toolName : String) :
    evaluateCached env e session toolName = e.content.verdict env.sha session toolName :=
  rfl

/-- A session of a capture is read back as it was. -/
theorem storedSession_getD (sha : Sha256) (session : Option String) :
    storedSession ((session.map (sessionHash sha)).getD "") = session.map (sessionHash sha) := by
  cases session with
  | none => rfl
  | some session => exact if_neg (sha.nonempty session)

theorem Capture.write_content (sha : Sha256) (c : Capture) (now : Nat) :
    (c.write sha).content = (c.entry sha now).content := by
  rw [DurabilityWrite.content, Capture.write, storedSession_getD]
  rfl

/-! ## One row for a key -/

/-- The row of a key, where no two rows have one key. -/
theorem find_row_eq_some {rows : List Row} (h : (rows.map Row.key).Nodup) {k : OpaqueCacheKey}
    {row : Row} : rows.find? (·.key = k) = some row ↔ row ∈ rows ∧ row.key = k := by
  constructor
  · intro hfind
    exact ⟨List.mem_of_find?_eq_some hfind, by simpa using List.find?_some hfind⟩
  · rintro ⟨hrow, hkey⟩
    obtain ⟨other, hother⟩ : ∃ other, rows.find? (·.key = k) = some other :=
      Option.isSome_iff_exists.mp (List.find?_isSome.mpr ⟨row, hrow, by simpa using hkey⟩)
    have hk : other.key = k := by simpa using List.find?_some hother
    rw [hother, List.inj_on_of_nodup_map h (List.mem_of_find?_eq_some hother) hrow
      (hk.trans hkey.symm)]

namespace Store

theorem nodup_upsert {rows : List Row} {row : Row} (h : (rows.map Row.key).Nodup) :
    ((upsert rows row).map Row.key).Nodup := by
  rw [upsert]
  split
  next hany =>
    have hkeys : (rows.map fun r => if r.key = row.key then row else r).map Row.key =
        rows.map Row.key := by
      rw [List.map_map]
      refine List.map_congr_left fun r _ => ?_
      simp only [Function.comp]
      split
      next hk => exact hk.symm
      next hk => rfl
    rwa [hkeys]
  next hany =>
    have hnew : row.key ∉ rows.map Row.key := by simpa using hany
    rw [List.map_append, List.map_singleton, ← List.concat_eq_append]
    exact h.concat hnew

/-- The row of a key after an UPSERT. -/
theorem find_upsert {rows : List Row} (h : (rows.map Row.key).Nodup) (row : Row)
    (k : OpaqueCacheKey) : (upsert rows row).find? (·.key = k) =
      if row.key = k then some row else rows.find? (·.key = k) := by
  ext r
  rw [find_row_eq_some (nodup_upsert h), mem_upsert]
  split
  next hk =>
    rw [Option.some.injEq]
    constructor
    · rintro ⟨rfl | ⟨-, hne⟩, hkey⟩
      · rfl
      · exact absurd (hkey.trans hk.symm) hne
    · rintro rfl
      exact ⟨.inl rfl, hk⟩
  next hk =>
    rw [find_row_eq_some h]
    constructor
    · rintro ⟨rfl | ⟨hr, -⟩, hkey⟩
      · exact absurd hkey hk
      · exact ⟨hr, hkey⟩
    · rintro ⟨hr, hkey⟩
      exact ⟨.inr ⟨hr, fun heq => hk (heq.symm.trans hkey)⟩, hkey⟩

end Store

/-! ## What a step does to what is durable -/

namespace State
variable {s t : State} {key : OpaqueCacheKey}

/-- What is durable is told by the pending writes and the rows. -/
theorem durable_congr (hw : t.pendingWrites = s.pendingWrites) (hr : t.store.rows = s.store.rows)
    (key : OpaqueCacheKey) : t.durable env key = s.durable env key := by
  rw [durable, durable, lastWrite, lastWrite, hw, hr]

/-- A queued write is what its key will hold. -/
theorem durable_snoc {job : DurabilityWrite} (hw : t.pendingWrites = s.pendingWrites ++ [job])
    (hr : t.store.rows = s.store.rows) (key : OpaqueCacheKey) :
    t.durable env key = if job.key = key then some job.content else s.durable env key := by
  rw [durable, lastWrite_snoc hw, hr]
  split_ifs with hk
  · rfl
  · rfl

/-- Writing a job into the table changes nothing that is durable. -/
theorem durable_persist {job : DurabilityWrite} {nonce : Nat} {enc : String}
    (hunique : (s.store.rows.map Row.key).Nodup) (hw : s.writing = some job)
    (henc : env.crypto.encryptOpaqueState nonce job.signature = some enc) (key : OpaqueCacheKey) :
    State.durable env { s with
      store := s.store.persistOpaqueState env s.wall nonce true job
      writing := none } key = s.durable env key := by
  have hpending : s.pendingWrites = job :: State.pendingWrites { s with
      store := s.store.persistOpaqueState env s.wall nonce true job, writing := none } := by
    simp [State.pendingWrites, hw]
  rw [durable, durable, lastWrite_cons hpending]
  cases State.lastWrite { s with
      store := s.store.persistOpaqueState env s.wall nonce true job, writing := none } key with
  | some last => rfl
  | none =>
    simp only [Option.none_or, Store.persistOpaqueState, henc, if_true,
      Store.find_upsert hunique]
    by_cases hk : job.key = key
    · rw [if_pos hk, if_pos hk, Option.bind_some, StoredRow.content]
      simp only [Row.stored, env.crypto.decrypt_encrypt henc, Option.map_some]
      rfl
    · rw [if_neg hk, if_neg hk]

end State

/-! ## The invariant -/

namespace Agreement
variable {s s' : State}

/-- A step that keeps the pending writes and the rows. -/
theorem of_same {t : State} (A : Agreement env s) (hw : t.pendingWrites = s.pendingWrites)
    (hr : t.store.rows = s.store.rows)
    (hc : ∀ {k e}, t.store.cache k = some e → s.durable env k = some e.content) :
    Agreement env t where
  cache h := (State.durable_congr hw hr _).trans (hc h)
  unique := hr ▸ A.unique

theorem capture (A : Agreement env s) (c : Capture)
    (hroom : s.store.queue.length < durabilityQueueCapacity) : Agreement env { s with
      store := (s.store.remember env.maxMemoryRows (c.key env.sha)
        (c.entry env.sha s.instant)).trySend (c.write env.sha)
      log := s.log ++ [c] } where
  cache := by
    intro k e hcache
    rw [State.durable_snoc (State.pendingWrites_capture env c hroom) (Store.trySend_rows _ _)]
    rw [Store.trySend_cache] at hcache
    have hkey : (c.write env.sha).key = c.key env.sha := rfl
    rcases Store.remember_cache hcache with ⟨rfl, rfl⟩ | ⟨hne, hcache⟩
    · rw [hkey, if_pos rfl, c.write_content env.sha s.instant]
    · rw [hkey, if_neg (Ne.symm hne)]
      exact A.cache hcache
  unique := by
    rw [Store.trySend_rows, Store.remember_rows]
    exact A.unique

/-- Every step keeps RAM and the table in agreement, if it loses no write and restores only what its
key still holds. -/
theorem step {a : Action} (A : Agreement env s) (hk : Lossless env s a)
    (hr : RestoresCurrent env s a) (h : s.step env a = some s') : Agreement env s' := by
  cases State.transition_of_step h with
  | tick instant wall | fetch id readable call begunAt => exact A.of_same rfl rfl A.cache
  | ignored c => exact A
  | captured c heff => exact A.capture c (hk heff)
  | evict key store hstore =>
    obtain ⟨hc, hq, hrows, -⟩ := Store.evict_eq_some hstore
    refine A.of_same (by rw [State.pendingWrites, hq]; rfl) hrows ?_
    intro k e hcache
    rw [hc] at hcache
    rcases update_eq_some.mp hcache with ⟨-, hcache⟩ | ⟨-, hcache⟩
    · cases hcache
    · exact A.cache hcache
  | resolve id call =>
    obtain ⟨hq, hrows, -, hc, -⟩ := Store.lookMemory_spec env s.store s.instant id.scope call
    refine A.of_same ?_ hrows fun hcache => A.cache (hc _ _ hcache)
    simp only [State.pendingWrites, State.setTask, hq]
  | finish id call begunAt rows readAt hid =>
    rcases Store.resolveRows_cases env s.store s.instant id.scope call rows with
      ⟨hs, -⟩ | ⟨target, row, sig, ht, hrow, hm, hname, hsess, hd, hres⟩
    · rw [hs]
      exact A.of_same rfl rfl A.cache
    · have hmatch : identityMismatch env row call.session call.toolName = none := by
        rw [identityMismatch, if_neg (by simpa using hname), if_neg (by simpa using hsess)]
      have hcontent : row.content env = some ⟨sig, row.sessionHash, row.toolNameHash⟩ := by
        rw [StoredRow.content, hd, Option.map_some]
      rw [hres]
      refine A.of_same rfl rfl ?_
      intro k e hcache
      rcases Store.remember_cache hcache with ⟨rfl, rfl⟩ | ⟨-, hcache⟩
      · exact hr call begunAt rows readAt target hid ht row hrow hm hmatch _ hcontent
      · exact A.cache hcache
  | receive job queue hw hq =>
    refine A.of_same ?_ rfl A.cache
    simp only [State.pendingWrites, hw, hq, Option.toList_some, Option.toList_none,
      List.singleton_append, List.nil_append]
  | persist job nonce stored hw =>
    obtain ⟨rfl, henc⟩ := hk
    obtain ⟨enc, henc⟩ := Option.isSome_iff_exists.mp (henc job hw)
    constructor
    · intro k e hcache
      rw [State.durable_persist A.unique hw henc]
      rw [Store.persist_cache] at hcache
      exact A.cache hcache
    · simp only [Store.persistOpaqueState, henc, if_true]
      exact Store.nodup_upsert A.unique
  | prune => exact A.of_same rfl hk A.cache

end Agreement

theorem agreement_start : Agreement env {} where
  cache := by
    intro k e h
    cases h
  unique := List.nodup_nil

/-- The step loses no write, prunes nothing, and restores only what its key still holds. -/
def Preserving (env : Env) (s : State) (a : Action) : Prop :=
  Lossless env s a ∧ RestoresCurrent env s a

variable {target : OpaqueStateTarget} {s : State}

theorem agreement_run {as : List Action} (hc : (machine env).Meets (fun _ => Preserving env) as)
    (h : (machine env).run as = some s) : Agreement env s :=
  (machine env).run_induction_of_meets (I := fun _ s => Agreement env s) agreement_start
    (fun _ _ _ _ A hc hstep => A.step hc.1 hc.2 hstep) as s hc h

/-! ## The two answers -/

/-- An entry that has not expired answers from RAM. -/
theorem memory_verdict {id : TaskId} {call : Call} {entry : CachedOpaqueState}
    (hid : s.tasks id = none) (hcap : call.capability = some target)
    (hentry : s.store.cache (keyOf env.sha id.scope target call.toolCallId) = some entry)
    (hlive : s.instant ≤ entry.expiresAt) :
    ((machine env).runFrom s [.resolve id call]).bind (·.answer id) =
      some (entry.content.verdict env.sha call.session call.toolName) := by
  have hlook : s.store.lookMemory env s.instant id.scope call =
      (s.store, some (evaluateCached env entry call.session call.toolName)) := by
    simp only [Store.lookMemory, hcap, hentry, if_neg (Nat.not_lt.mpr hlive)]
  simp only [machine, Machine.runFrom, State.step, hid, State.beginResolve, hlook, State.setTask,
    Function.update_self, State.answer, Option.bind_some, evaluateCached_eq_verdict]

/-- A row for the exact target answers from the table. -/
theorem row_verdict {store : Store} {now : Nat} {scope : OpaqueClientScope} {call : Call}
    {rows : List StoredRow} {row : StoredRow} {content : Content}
    (hcap : call.capability = some target)
    (hfind : rows.find? (·.matchesTarget target) = some row)
    (hcontent : row.content env = some content) : (store.resolveRows env now scope call rows).2 =
      content.verdict env.sha call.session call.toolName := by
  have hne : rows.isEmpty = false := by
    cases rows with
    | nil => cases hfind
    | cons r rows => rfl
  obtain ⟨sig, hd, rfl⟩ := Option.map_eq_some_iff.mp hcontent
  simp only [Store.resolveRows, hne, Bool.false_eq_true, if_false, hcap, hfind, identityMismatch,
    Content.verdict]
  split_ifs with hname hsess
  · rfl
  · rfl
  · simp only [Store.restoreRow, hd]

/-- The row of a key is the one that the query finds for the target. -/
theorem find_fetchRows {scope : OpaqueClientScope} {toolCallId : String} {row : Row}
    (hunique : (s.store.rows.map Row.key).Nodup) (hrow : row ∈ s.store.rows)
    (hkey : row.key = keyOf env.sha scope target toolCallId) (hlive : s.wall ≤ row.expiresAt) :
    (s.store.fetchRows s.wall (scope.hash env.sha) (toolCallHash env.sha scope toolCallId)).find?
      (·.matchesTarget target) = some row.stored := by
  have hmatch : row.stored.matchesTarget target = true := by
    simp [StoredRow.matchesTarget, Row.stored, hkey, keyOf, cacheKey]
  have hmem : row.stored ∈ s.store.fetchRows s.wall (scope.hash env.sha)
      (toolCallHash env.sha scope toolCallId) :=
    Store.mem_fetchRows.mpr ⟨row, hrow, by rw [hkey]; rfl, by rw [hkey]; rfl, hlive, rfl⟩
  have hsome : ((s.store.fetchRows s.wall (scope.hash env.sha)
      (toolCallHash env.sha scope toolCallId)).find? (·.matchesTarget target)).isSome :=
    List.find?_isSome.mpr ⟨row.stored, hmem, hmatch⟩
  obtain ⟨found, hfound⟩ := Option.isSome_iff_exists.mp hsome
  obtain ⟨other, hother, hscope, hcall, -, rfl⟩ :=
    Store.mem_fetchRows.mp (List.mem_of_find?_eq_some hfound)
  have hm : other.stored.matchesTarget target = true := by simpa using List.find?_some hfound
  have hsame : other.key = row.key := by
    rw [hkey, other.key_of_matches hm, hscope, hcall]
    rfl
  rw [hfound, List.inj_on_of_nodup_map hunique hother hrow hsame]

/-- The entry of a key has left RAM, and the table is as it was. -/
structure Evicted (s t : State) (key : OpaqueCacheKey) : Prop where
  cache : t.store.cache key = none
  rows : t.store.rows = s.store.rows
  wall : t.wall = s.wall

/-- In a run that loses no write, prunes nothing and restores only what is still kept, a resolve
from RAM and one after the entry has left it return the same, once the queue is drained. -/
theorem memory_eq_table {as : List Action} {s t : State} {id : TaskId} {call : Call}
    {target : OpaqueStateTarget} {entry : CachedOpaqueState}
    (hc : (machine env).Meets (fun _ => Preserving env) as) (h : (machine env).run as = some s)
    (hdrained : s.pendingWrites = []) (hcap : call.capability = some target)
    (hentry : s.store.cache (keyOf env.sha id.scope target call.toolCallId) = some entry)
    (hlive : s.instant ≤ entry.expiresAt)
    (hrow : ∀ row ∈ s.store.rows, row.key = keyOf env.sha id.scope target call.toolCallId →
      s.wall ≤ row.expiresAt)
    (hevicted : Evicted s t (keyOf env.sha id.scope target call.toolCallId))
    (hid : s.tasks id = none) (hid' : t.tasks id = none) :
    ∃ verdict, ((machine env).runFrom s [.resolve id call]).bind (·.answer id) = some verdict ∧
      ((machine env).runFrom t [.resolve id call, .fetch id true, .finish id]).bind
        (·.answer id) = some verdict := by
  have A := agreement_run hc h
  refine ⟨_, memory_verdict hid hcap hentry hlive, ?_⟩
  -- The entry agrees with the row, since nothing is queued.
  have hlast : s.lastWrite (keyOf env.sha id.scope target call.toolCallId) = none := by
    rw [State.lastWrite, hdrained]
    rfl
  have hdurable := A.cache hentry
  rw [State.durable, hlast] at hdurable
  obtain ⟨row, hfind, hcontent⟩ := Option.bind_eq_some_iff.mp hdurable
  obtain ⟨hmem, hkey⟩ := (find_row_eq_some A.unique).mp hfind
  have hunique : (t.store.rows.map Row.key).Nodup := hevicted.rows ▸ A.unique
  have hfound := find_fetchRows (s := t) hunique (hevicted.rows ▸ hmem) hkey
    (hevicted.wall ▸ hrow row hmem hkey)
  rw [call_run hid' hcap hevicted.cache, row_verdict hcap hfound hcontent]

/-- A capture, its write, and the eviction of its entry. -/
theorem memory_eq_table_stored :
    let key := (exampleCapture "key-1").key exampleSha
    let pre := [.capture (exampleCapture "key-1"), .receive key, .persist key 0 true]
    ∃ s t, (machine exampleEnv).run pre = some s ∧
      (machine exampleEnv).runFrom s [.evict key] = some t ∧
      ∃ verdict, ((machine exampleEnv).runFrom s [.resolve exampleId exampleCall]).bind
          (·.answer exampleId) = some verdict ∧
        ((machine exampleEnv).runFrom t [.resolve exampleId exampleCall, .fetch exampleId true,
          .finish exampleId]).bind (·.answer exampleId) = some verdict := by
  intro key pre
  have hkept : (machine exampleEnv).Meets (fun _ => Kept exampleEnv) pre :=
    stored_kept ⟨by decide, by decide⟩ rfl
  have hpreserving : (machine exampleEnv).Meets (fun _ => Preserving exampleEnv) pre := by
    intro pre' a post s' he hr
    have hmem : a ∈ pre := he ▸ List.mem_append_right pre' List.mem_cons_self
    have hk := hkept pre' a post s' he hr
    simp only [pre, List.mem_cons, List.not_mem_nil, or_false] at hmem
    rcases hmem with rfl | rfl | rfl <;> exact ⟨hk, trivial⟩
  let entry := (exampleCapture "key-1").entry exampleSha 0
  obtain ⟨s, hs, ⟨hdrained, hentry, hlive, hid, hrow⟩, t, ht, hcache, hrows, hwall, hid'⟩ :
      ∃ s ∈ (machine exampleEnv).run pre,
        (s.pendingWrites = [] ∧ s.store.cache key = some entry ∧ s.instant ≤ entry.expiresAt ∧
          s.tasks exampleId = none ∧
          ∀ row ∈ s.store.rows, row.key = key → s.wall ≤ row.expiresAt) ∧
        ∃ t ∈ (machine exampleEnv).runFrom s [.evict key], t.store.cache key = none ∧
          t.store.rows = s.store.rows ∧ t.wall = s.wall ∧ t.tasks exampleId = none := by
    decide +kernel
  exact ⟨s, t, hs, ht, memory_eq_table hpreserving hs hdrained rfl hentry hlive hrow
    ⟨hcache, hrows, hwall⟩ hid hid'⟩

/-! ## A row that is restored over a newer capture -/

/-- The cipher under the same master key, for a second plaintext and the nonce that ends in 1. -/
def recaptureCrypto : Crypto where
  encryptOpaqueState nonce plain :=
    if nonce = 1 ∧ plain = "sig-b" then some "AAAAAAAAAAAAAAABuV//KGxSzhnj7nxW7TfUtnbeRjvr"
    else exampleCrypto.encryptOpaqueState nonce plain
  decryptOpaqueState enc :=
    if enc = "AAAAAAAAAAAAAAABuV//KGxSzhnj7nxW7TfUtnbeRjvr" then some "sig-b"
    else exampleCrypto.decryptOpaqueState enc
  decrypt_encrypt := by
    intro nonce plain enc h
    split_ifs at h with hp
    · cases h
      rw [if_pos rfl, hp.2]
    · have hd := exampleCrypto.decrypt_encrypt h
      rw [if_neg, hd]
      rintro rfl
      have hnone : exampleCrypto.decryptOpaqueState
          "AAAAAAAAAAAAAAABuV//KGxSzhnj7nxW7TfUtnbeRjvr" = none := by decide
      rw [hnone] at hd
      cases hd

def recaptureEnv : Env := { exampleEnv with crypto := recaptureCrypto }

/-- The entry has expired in RAM, and a call has read its row when the key is captured again; both
writes reach the table. -/
def exampleRestored : List Action :=
  let key := (exampleCapture "key-1").key exampleSha
  [.capture (exampleCapture "key-1"), .receive key, .persist key 0 true,
    .tick (memoryTtl + 1) (memoryTtl + 1), .resolve exampleId exampleCall, .fetch exampleId true,
    .capture exampleRecapture, .finish exampleId, .receive key, .persist key 1 true]

instance decidableLossless (env : Env) (s : State) : (a : Action) → Decidable (Lossless env s a)
  | .prune => inferInstanceAs (Decidable (_ = _))
  | .capture c =>
    inferInstanceAs (Decidable (c.signature ≠ "" ∧ c.toolCallId ≠ "" →
      s.store.queue.length < durabilityQueueCapacity))
  | .persist _ nonce stored =>
    inferInstanceAs (Decidable (stored = true ∧
      ∀ job ∈ s.writing, (env.crypto.encryptOpaqueState nonce job.signature).isSome))
  | .tick _ _ => .isTrue trivial
  | .evict _ => .isTrue trivial
  | .resolve _ _ => .isTrue trivial
  | .fetch _ _ => .isTrue trivial
  | .finish _ => .isTrue trivial
  | .receive _ => .isTrue trivial

/-- No write is lost and nothing is pruned, but RAM answers with the old signature and the table
with the new one. -/
theorem memory_not_table :
    ¬ ∀ (env : Env) (as : List Action) (s t : State) (id : TaskId) (call : Call)
      (target : OpaqueStateTarget) (entry : CachedOpaqueState),
      (machine env).Meets (fun _ => Lossless env) as → (machine env).run as = some s →
      s.pendingWrites = [] → call.capability = some target →
      s.store.cache (keyOf env.sha id.scope target call.toolCallId) = some entry →
      s.instant ≤ entry.expiresAt →
      (∀ row ∈ s.store.rows, row.key = keyOf env.sha id.scope target call.toolCallId →
        s.wall ≤ row.expiresAt) →
      Evicted s t (keyOf env.sha id.scope target call.toolCallId) →
      s.tasks id = none → t.tasks id = none →
      ∃ verdict, ((machine env).runFrom s [.resolve id call]).bind (·.answer id) = some verdict ∧
        ((machine env).runFrom t [.resolve id call, .fetch id true, .finish id]).bind
          (·.answer id) = some verdict := by
  intro h
  let key := (exampleCapture "key-1").key exampleSha
  let entry := (exampleCapture "key-1").entry exampleSha (memoryTtl + 1)
  have hlossless : (machine recaptureEnv).Meets (fun _ => Lossless recaptureEnv) exampleRestored :=
    Machine.Along.meets (machine recaptureEnv) (by decide +kernel)
  obtain ⟨s, hs, ⟨hdrained, hentry, hlive, hid, hrow, hram⟩, t, ht, hcache, hrows, hwall, hid',
      htable⟩ : ∃ s ∈ (machine recaptureEnv).run exampleRestored,
        (s.pendingWrites = [] ∧ s.store.cache key = some entry ∧ s.instant ≤ entry.expiresAt ∧
          s.tasks exampleNextId = none ∧
          (∀ row ∈ s.store.rows, row.key = key → s.wall ≤ row.expiresAt) ∧
          ((machine recaptureEnv).runFrom s [.resolve exampleNextId exampleCall]).bind
            (·.answer exampleNextId) = some (.compatible "sig-a")) ∧
        ∃ t ∈ (machine recaptureEnv).runFrom s [.evict key], t.store.cache key = none ∧
          t.store.rows = s.store.rows ∧ t.wall = s.wall ∧ t.tasks exampleNextId = none ∧
          ((machine recaptureEnv).runFrom t [.resolve exampleNextId exampleCall,
            .fetch exampleNextId true, .finish exampleNextId]).bind (·.answer exampleNextId) =
              some (.compatible "sig-b") := by
    decide +kernel
  obtain ⟨verdict, hv, hv'⟩ := h recaptureEnv exampleRestored s t exampleNextId exampleCall
    exampleTarget entry hlossless hs hdrained rfl hentry hlive hrow ⟨hcache, hrows, hwall⟩ hid hid'
  rw [hram] at hv
  rw [htable] at hv'
  exact absurd (hv.trans hv'.symm) (by decide)

end Kinetix.OpaqueState
