import Kinetix.Foundation.Digest
import Kinetix.Library.TaskList

/-!
# The opaque-state store

`opaque_state.rs`: the signature of a tool call is captured into a RAM cache and queued for the
SQLite table, and resolved from the cache or, where that misses, from the table. The functions here
are the parts of these operations that no other task can interrupt. One lemma for each part says
which entries the cache has afterwards, which rows the table has, and when a resolve answers with a
signature.

## Implementation notes

`Instant`s and `DateTime`s are nanoseconds. The hash and the cipher are parameters: SHA-256 is taken
to be injective, and a value that was encrypted decrypts to itself. The counters, which nothing
reads back, are left out.
-/

namespace Kinetix.OpaqueState

/-- `OpaqueStateKind`. -/
inductive OpaqueStateKind
  | geminiThoughtSignature
  deriving DecidableEq, Repr

def OpaqueStateKind.asStr : OpaqueStateKind → String
  | .geminiThoughtSignature => "gemini_thought_signature"

/-- For whom a signature was made. -/
structure OpaqueStateTarget where
  kind : OpaqueStateKind
  providerId : String
  family : String
  producer : String
  modelId : String
  deriving DecidableEq, Repr

/-- Who may read opaque state back: a virtual key's id, or `"internal"`. -/
structure OpaqueClientScope where
  id : String
  deriving DecidableEq, Repr

/-- The scope of a virtual key. -/
def OpaqueClientScope.forKey (keyId : String) : OpaqueClientScope := ⟨keyId⟩

/-- The scope of requests without a key. -/
def OpaqueClientScope.internal : OpaqueClientScope := ⟨"internal"⟩

/-- `OpaqueLookupResult`. -/
inductive OpaqueLookupResult
  | missing
  | compatible (signature : String)
  | incompatible
  | sessionMismatch
  | toolNameMismatch
  | unavailable
  deriving DecidableEq, Repr

/-- The cipher for opaque state. An encryption draws a nonce and may fail. -/
structure Crypto where
  encryptOpaqueState : Nat → String → Option String
  decryptOpaqueState : String → Option String
  decrypt_encrypt : ∀ {nonce plain enc}, encryptOpaqueState nonce plain = some enc →
    decryptOpaqueState enc = some plain

/-- What a store is built with. -/
structure Env where
  sha : Sha256
  crypto : Crypto
  maxMemoryRows : Nat

/-- `MEMORY_TTL`, in nanoseconds. -/
def memoryTtl : Nat := 3600000000000

/-- `PERSISTENT_TTL`, in nanoseconds. -/
def persistentTtl : Int := 86400000000000

def maxMemoryRows : Nat := 2048
def maxDbRows : Nat := 10000
def durabilityQueueCapacity : Nat := 4096

/-- The key of a cache entry, and the primary key of a row. -/
structure OpaqueCacheKey where
  kind : String
  scopeHash : String
  toolCallHash : String
  providerId : String
  family : String
  producer : String
  modelId : String
  deriving DecidableEq, Repr

/-- What RAM has of a signature. -/
structure CachedOpaqueState where
  signature : String
  sessionHash : Option String
  toolNameHash : String
  expiresAt : Nat
  deriving DecidableEq, Repr

/-- A queued write: the row's key and what it will hold, still in the clear. -/
structure DurabilityWrite where
  key : OpaqueCacheKey
  sessionHash : String
  toolNameHash : String
  signature : String
  deriving DecidableEq, Repr

/-- A row of `opaque_provider_state`. -/
structure Row where
  key : OpaqueCacheKey
  sessionHash : String
  toolNameHash : String
  valueEnc : String
  createdAt : Int
  expiresAt : Int
  deriving DecidableEq, Repr

/-- A row as `fetch_rows` returns it. -/
structure StoredRow where
  kind : String
  providerId : String
  family : String
  producer : String
  sessionHash : Option String
  toolNameHash : String
  originModel : String
  valueEnc : String
  deriving DecidableEq, Repr

/-- An empty session hash in the table stands for no session. -/
def Row.stored (row : Row) : StoredRow where
  kind := row.key.kind
  providerId := row.key.providerId
  family := row.key.family
  producer := row.key.producer
  sessionHash := if row.sessionHash = "" then none else some row.sessionHash
  toolNameHash := row.toolNameHash
  originModel := row.key.modelId
  valueEnc := row.valueEnc

/-- The arguments of `capture_tool_signature`. -/
structure Capture where
  scope : OpaqueClientScope
  target : OpaqueStateTarget
  session : Option String
  toolCallId : String
  toolName : String
  signature : String
  deriving DecidableEq, Repr

/-- The arguments of `resolve_tool_signature`, except for the scope. -/
structure Call where
  capability : Option OpaqueStateTarget
  session : Option String
  toolCallId : String
  toolName : String
  deriving DecidableEq, Repr

/-- RAM, the queue of the durability worker, and the table. -/
structure Store where
  cache : OpaqueCacheKey → Option CachedOpaqueState := fun _ => none
  order : List OpaqueCacheKey := []
  queue : List DurabilityWrite := []
  rows : List Row := []

section Hashes
variable (sha : Sha256)

def OpaqueClientScope.hash (scope : OpaqueClientScope) : String := sha.hex scope.id

def toolCallHash (scope : OpaqueClientScope) (toolCallId : String) : String :=
  sha.hex (scope.id ++ "\x00" ++ toolCallId)

def sessionHash (session : String) : String := sha.hex session

def toolNameHash (toolName : String) : String := sha.hex toolName

end Hashes

/-- `cache_key`. -/
def cacheKey (target : OpaqueStateTarget) (scopeHash callHash : String) : OpaqueCacheKey where
  kind := target.kind.asStr
  scopeHash := scopeHash
  toolCallHash := callHash
  providerId := target.providerId
  family := target.family
  producer := target.producer
  modelId := target.modelId

/-- The key under which a tool call's state for a target is kept. -/
def keyOf (sha : Sha256) (scope : OpaqueClientScope) (target : OpaqueStateTarget)
    (toolCallId : String) : OpaqueCacheKey :=
  cacheKey target (scope.hash sha) (toolCallHash sha scope toolCallId)

/-- A row was written for the target. -/
def StoredRow.matchesTarget (row : StoredRow) (target : OpaqueStateTarget) : Bool :=
  row.kind == target.kind.asStr && row.providerId == target.providerId &&
    row.family == target.family && row.producer == target.producer &&
    row.originModel == target.modelId

/-- Whether a stored session and an incoming one may belong to the same conversation. -/
def sessionAgrees (sha : Sha256) (stored incoming : Option String) : Bool :=
  match stored, incoming with
  | some stored, some incoming => stored == sessionHash sha incoming
  | _, _ => true

namespace Store

/-- The eviction order with a key moved to the back. -/
def touched (s : Store) (key : OpaqueCacheKey) : List OpaqueCacheKey :=
  s.order.filter (· ≠ key) ++ [key]

/-- The keys at the front that are too many once a key has been moved to the back. -/
def evicted (s : Store) (maxRows : Nat) (key : OpaqueCacheKey) : List OpaqueCacheKey :=
  (s.touched key).take ((s.touched key).length - maxRows)

/-- Move a key to the back of the eviction order, and evict from the front what is too much. -/
def touchOrder (s : Store) (maxRows : Nat) (key : OpaqueCacheKey) : Store :=
  { s with
    order := (s.touched key).drop ((s.touched key).length - maxRows)
    cache := fun k => if k ∈ s.evicted maxRows key then none else s.cache k }

/-- One round of the eviction loop: the key at the front leaves. -/
def evict (s : Store) (key : OpaqueCacheKey) : Option Store :=
  match s.order with
  | [] => none
  | front :: order =>
    if front = key then
      some { s with order := order, cache := Function.update s.cache key none }
    else none

/-- Insert into the cache and mark the key as used. -/
def remember (s : Store) (maxRows : Nat) (key : OpaqueCacheKey) (entry : CachedOpaqueState) :
    Store :=
  { s with cache := Function.update s.cache key (some entry) }.touchOrder maxRows key

/-- `try_send`: a full queue drops the write. -/
def trySend (s : Store) (job : DurabilityWrite) : Store :=
  if s.queue.length < durabilityQueueCapacity then { s with queue := s.queue ++ [job] } else s

/-- `capture_tool_signature`. -/
def captureToolSignature (env : Env) (s : Store) (now : Nat) (c : Capture) : Store :=
  if c.signature = "" ∨ c.toolCallId = "" then s
  else
    let key := keyOf env.sha c.scope c.target c.toolCallId
    let sessHash := c.session.map (sessionHash env.sha)
    let nameHash := toolNameHash env.sha c.toolName
    (s.remember env.maxMemoryRows key {
      signature := c.signature
      sessionHash := sessHash
      toolNameHash := nameHash
      expiresAt := now + memoryTtl }).trySend {
      key := key
      sessionHash := sessHash.getD ""
      toolNameHash := nameHash
      signature := c.signature }

end Store

/-- `evaluate_cached`. -/
def evaluateCached (env : Env) (entry : CachedOpaqueState) (session : Option String)
    (toolName : String) : OpaqueLookupResult :=
  if entry.toolNameHash ≠ toolNameHash env.sha toolName then .toolNameMismatch
  else if !sessionAgrees env.sha entry.sessionHash session then .sessionMismatch
  else .compatible entry.signature

/-- `identity_mismatch`, for a row of the table. -/
def identityMismatch (env : Env) (row : StoredRow) (session : Option String) (toolName : String) :
    Option OpaqueLookupResult :=
  if row.toolNameHash ≠ toolNameHash env.sha toolName then some .toolNameMismatch
  else if !sessionAgrees env.sha row.sessionHash session then some .sessionMismatch
  else none

namespace Store

/-- The beginning of `resolve_tool_signature`, up to the query: an answer from RAM, or none. -/
def lookMemory (env : Env) (s : Store) (now : Nat) (scope : OpaqueClientScope) (call : Call) :
    Store × Option OpaqueLookupResult :=
  match call.capability with
  | none => (s, none)
  | some target =>
    let key := keyOf env.sha scope target call.toolCallId
    match s.cache key with
    | none => (s, none)
    | some entry =>
      if entry.expiresAt < now then ({ s with cache := Function.update s.cache key none }, none)
      else (s, some (evaluateCached env entry call.session call.toolName))

/-- `fetch_rows`: the rows of a tool call that have not expired, newest first. -/
def fetchRows (s : Store) (wall : Int) (scopeHash callHash : String) : List StoredRow :=
  let rows := s.rows.filter fun row =>
    row.key.scopeHash = scopeHash ∧ row.key.toolCallHash = callHash
  let rows := rows.mergeSort fun a b => b.createdAt ≤ a.createdAt
  (rows.filter fun row => wall ≤ row.expiresAt).map Row.stored

/-- A row that decrypts is put back into RAM. -/
def restoreRow (env : Env) (s : Store) (now : Nat) (row : StoredRow) (key : OpaqueCacheKey) :
    Store × OpaqueLookupResult :=
  match env.crypto.decryptOpaqueState row.valueEnc with
  | none => (s, .unavailable)
  | some signature =>
    (s.remember env.maxMemoryRows key {
      signature := signature
      sessionHash := row.sessionHash
      toolNameHash := row.toolNameHash
      expiresAt := now + memoryTtl }, .compatible signature)

/-- The end of `resolve_tool_signature` where no row is for the exact target. -/
def resolveOther (env : Env) (call : Call) (rows : List StoredRow) : OpaqueLookupResult :=
  let identityRows := rows.filter fun row => row.toolNameHash = toolNameHash env.sha call.toolName
  if identityRows.isEmpty then .toolNameMismatch
  else
    let sessionRows := identityRows.filter fun row =>
      sessionAgrees env.sha row.sessionHash call.session
    if sessionRows.isEmpty then .sessionMismatch else .incompatible

/-- `resolve_tool_signature` after the query. -/
def resolveRows (env : Env) (s : Store) (now : Nat) (scope : OpaqueClientScope) (call : Call)
    (rows : List StoredRow) : Store × OpaqueLookupResult :=
  if rows.isEmpty then (s, .missing)
  else
    match call.capability with
    | none => (s, resolveOther env call rows)
    | some target =>
      match rows.find? (·.matchesTarget target) with
      | none => (s, resolveOther env call rows)
      | some row =>
        match identityMismatch env row call.session call.toolName with
        | some mismatch => (s, mismatch)
        | none =>
          s.restoreRow env now row (keyOf env.sha scope target call.toolCallId)

/-- The UPSERT: replace the row of the key where it stands, or append one. -/
def upsert (rows : List Row) (row : Row) : List Row :=
  if rows.any (·.key = row.key) then rows.map fun r => if r.key = row.key then row else r
  else rows ++ [row]

/-- `persist_opaque_state`. The database takes the row or refuses it. -/
def persistOpaqueState (env : Env) (s : Store) (wall : Int) (nonce : Nat) (stored : Bool)
    (job : DurabilityWrite) : Store :=
  match env.crypto.encryptOpaqueState nonce job.signature with
  | none => s
  | some valueEnc =>
    if stored then
      { s with rows := upsert s.rows {
          key := job.key
          sessionHash := job.sessionHash
          toolNameHash := job.toolNameHash
          valueEnc := valueEnc
          createdAt := wall
          expiresAt := wall + persistentTtl } }
    else s

/-- The rows above the cap, oldest first. -/
def overflow (rows : List Row) : List Row :=
  (rows.mergeSort fun a b => a.createdAt ≤ b.createdAt).take (rows.length - maxDbRows)

/-- `prune_pool`: delete the expired rows, and then the oldest rows above the cap. -/
def prunePool (s : Store) (wall : Int) : Store :=
  let rows := s.rows.filter fun row => wall ≤ row.expiresAt
  { s with rows := rows.filter (· ∉ overflow rows) }

end Store
open Slots

/-- Under an injective hash the key tells the scope, the target and the tool call apart. -/
theorem keyOf_injective {sha : Sha256} {scope scope' : OpaqueClientScope}
    {target target' : OpaqueStateTarget} {id id' : String}
    (h : keyOf sha scope target id = keyOf sha scope' target' id') :
    scope = scope' ∧ target = target' ∧ id = id' := by
  obtain ⟨scope⟩ := scope
  obtain ⟨scope'⟩ := scope'
  obtain ⟨kind, provider, family, producer, model⟩ := target
  obtain ⟨kind', provider', family', producer', model'⟩ := target'
  simp only [keyOf, cacheKey, OpaqueClientScope.hash, toolCallHash, OpaqueCacheKey.mk.injEq] at h
  obtain ⟨-, hscope, hcall, rfl, rfl, rfl, rfl⟩ := h
  have hs : scope = scope' := sha.injective hscope
  subst hs
  have hc := (String.append_right_inj _).mp (sha.injective hcall)
  cases kind
  cases kind'
  exact ⟨rfl, rfl, hc⟩

/-- Whether the sessions of a capture and of a resolve conflict. -/
def SessionsAgree (captured requested : Option String) : Prop :=
  ∀ a ∈ captured, ∀ b ∈ requested, a = b

theorem sessionAgrees_map {sha : Sha256} {captured requested : Option String} :
    sessionAgrees sha (captured.map (sessionHash sha)) requested = true ↔
      SessionsAgree captured requested := by
  cases captured <;> cases requested <;>
    simp [sessionAgrees, SessionsAgree, sessionHash, sha.injective.eq_iff]

/-- A capture that is not ignored. -/
def Capture.Effective (c : Capture) : Prop := c.signature ≠ "" ∧ c.toolCallId ≠ ""

def Capture.key (sha : Sha256) (c : Capture) : OpaqueCacheKey :=
  keyOf sha c.scope c.target c.toolCallId

/-- The write that a capture queues. -/
def Capture.write (sha : Sha256) (c : Capture) : DurabilityWrite where
  key := c.key sha
  sessionHash := (c.session.map (sessionHash sha)).getD ""
  toolNameHash := toolNameHash sha c.toolName
  signature := c.signature

/-- The entry that a capture puts into the cache. -/
def Capture.entry (sha : Sha256) (c : Capture) (now : Nat) : CachedOpaqueState where
  signature := c.signature
  sessionHash := c.session.map (sessionHash sha)
  toolNameHash := toolNameHash sha c.toolName
  expiresAt := now + memoryTtl

/-- A row that matches a target has the target in its key. -/
theorem Row.key_of_matches (row : Row) {target : OpaqueStateTarget}
    (h : row.stored.matchesTarget target = true) :
    row.key = cacheKey target row.key.scopeHash row.key.toolCallHash := by
  simp only [StoredRow.matchesTarget, stored, Bool.and_eq_true, beq_iff_eq] at h
  obtain ⟨⟨⟨⟨hkind, hprov⟩, hfam⟩, hprod⟩, hmodel⟩ := h
  rcases row with ⟨⟨_, _, _, _, _, _, _⟩, _, _, _, _, _⟩
  simp_all [cacheKey]

namespace Store
variable {env : Env} {s s' : Store} {now : Nat} {wall : Int} {key k : OpaqueCacheKey}
  {entry e : CachedOpaqueState}

variable {job : DurabilityWrite} {m : Nat} {stored : Bool} {nonce : Nat}

theorem touchOrder_cache (h : (s.touchOrder m key).cache k = some e) : s.cache k = some e := by
  simp only [touchOrder] at h
  split_ifs at h
  exact h

/-- The cache after an insertion, key by key. -/
theorem remember_apply (k : OpaqueCacheKey) : (s.remember m key entry).cache k =
    if k ∈ s.evicted m key then none else if k = key then some entry else s.cache k := by
  simp only [remember, touchOrder, Function.update_apply]
  rfl

/-- A key that is inserted is the last to be evicted. -/
theorem remember_self (hm : 0 < m) : (s.remember m key entry).cache key = some entry := by
  rw [remember_apply, if_neg, if_pos rfl]
  unfold evicted touched
  rw [List.length_append, List.length_singleton, List.take_append_of_le_length (by omega)]
  intro hmem
  have hne := (List.mem_filter.mp (List.mem_of_mem_take hmem)).2
  simp at hne

/-- An entry after an insertion is the new one or was there before. -/
theorem remember_cache (h : (s.remember m key entry).cache k = some e) :
    k = key ∧ e = entry ∨ k ≠ key ∧ s.cache k = some e := by
  rcases update_eq_some.mp (touchOrder_cache h) with ⟨hk, he⟩ | hk
  · exact .inl ⟨hk, (Option.some.inj he).symm⟩
  · exact .inr hk

/-- An eviction of the front takes one entry and nothing else. -/
theorem evict_eq_some (h : s.evict key = some s') :
    s'.cache = Function.update s.cache key none ∧ s'.queue = s.queue ∧ s'.rows = s.rows ∧
      s'.order.length ≤ s.order.length := by
  unfold evict at h
  split at h
  · cases h
  · next front order horder =>
    split_ifs at h
    cases h
    rw [horder]
    exact ⟨rfl, rfl, rfl, Nat.le_succ _⟩

@[simp] theorem remember_queue : (s.remember m key entry).queue = s.queue := rfl

@[simp] theorem remember_rows : (s.remember m key entry).rows = s.rows := rfl

@[simp] theorem trySend_cache (s : Store) (job : DurabilityWrite) :
    (s.trySend job).cache = s.cache := by
  unfold trySend
  split_ifs <;> rfl

@[simp] theorem trySend_rows (s : Store) (job : DurabilityWrite) :
    (s.trySend job).rows = s.rows := by
  unfold trySend
  split_ifs <;> rfl

theorem mem_trySend {job j : DurabilityWrite} (h : j ∈ (s.trySend job).queue) :
    j ∈ s.queue ∨ j = job := by
  unfold trySend at h
  split_ifs at h
  · simpa using h
  · exact .inl h

/-- A capture that is not ignored is an insertion and a queued write. -/
theorem capture_effective {c : Capture} (h : c.Effective) :
    s.captureToolSignature env now c =
      (s.remember env.maxMemoryRows (c.key env.sha) (c.entry env.sha now)).trySend
        (c.write env.sha) := by
  rw [captureToolSignature, if_neg (not_or.mpr h)]
  rfl

/-- The first look into RAM can only remove entries, and it answers with a signature only from an
entry of the exact key whose conversation is that of the call. -/
theorem lookMemory_spec (env : Env) (s : Store) (now : Nat) (scope : OpaqueClientScope)
    (call : Call) :
    let r := s.lookMemory env now scope call
    r.1.queue = s.queue ∧ r.1.rows = s.rows ∧ r.1.order = s.order ∧
      (∀ k e, r.1.cache k = some e → s.cache k = some e) ∧
      ∀ sig, r.2 = some (.compatible sig) → ∃ target entry, call.capability = some target ∧
        s.cache (keyOf env.sha scope target call.toolCallId) = some entry ∧
        entry.toolNameHash = toolNameHash env.sha call.toolName ∧
        sessionAgrees env.sha entry.sessionHash call.session = true ∧ entry.signature = sig := by
  dsimp only
  unfold lookMemory
  cases hc : call.capability with
  | none => simp
  | some target =>
    dsimp only
    cases hk : s.cache (keyOf env.sha scope target call.toolCallId) with
    | none => simp
    | some entry =>
      dsimp only
      split_ifs with hexp
      · refine ⟨rfl, rfl, rfl, fun k e h => ?_, by simp⟩
        by_cases hne : k = keyOf env.sha scope target call.toolCallId
        · subst hne
          simp at h
        · simpa [Function.update_of_ne hne] using h
      · refine ⟨rfl, rfl, rfl, fun k e h => h, fun sig h => ⟨target, entry, rfl, hk, ?_⟩⟩
        simp only [evaluateCached, Option.some.injEq] at h
        split_ifs at h with hn hs
        simp only [OpaqueLookupResult.compatible.injEq] at h
        exact ⟨by simpa using hn, by simpa using hs, h⟩

/-- The end of a resolve either leaves the store alone, or answers with the signature of a row for
the exact target whose conversation is that of the call, and restores it into RAM. -/
theorem resolveRows_cases (env : Env) (s : Store) (now : Nat) (scope : OpaqueClientScope)
    (call : Call) (rows : List StoredRow) :
    let r := s.resolveRows env now scope call rows
    (r.1 = s ∧ ∀ sig, r.2 ≠ .compatible sig) ∨
    ∃ target row sig, call.capability = some target ∧ row ∈ rows ∧
      row.matchesTarget target = true ∧
      row.toolNameHash = toolNameHash env.sha call.toolName ∧
      sessionAgrees env.sha row.sessionHash call.session = true ∧
      env.crypto.decryptOpaqueState row.valueEnc = some sig ∧
      r = (s.remember env.maxMemoryRows (keyOf env.sha scope target call.toolCallId)
        ⟨sig, row.sessionHash, row.toolNameHash, now + memoryTtl⟩, .compatible sig) := by
  have other : ∀ sig, resolveOther env call rows ≠ .compatible sig := by
    intro sig
    unfold resolveOther
    dsimp only
    split_ifs <;> simp
  dsimp only
  unfold resolveRows
  split_ifs with hempty
  · exact .inl ⟨rfl, by simp⟩
  · cases hc : call.capability with
    | none => exact .inl ⟨rfl, other⟩
    | some target =>
      dsimp only
      cases hf : rows.find? (·.matchesTarget target) with
      | none => exact .inl ⟨rfl, other⟩
      | some row =>
        dsimp only
        unfold identityMismatch
        split_ifs with hname hsess
        · exact .inl ⟨rfl, by simp⟩
        · exact .inl ⟨rfl, by simp⟩
        · dsimp only
          unfold restoreRow
          cases hd : env.crypto.decryptOpaqueState row.valueEnc with
          | none => exact .inl ⟨rfl, by simp⟩
          | some sig =>
            have hmatch : row.matchesTarget target = true := by
              simpa using List.find?_some hf
            exact .inr ⟨target, row, sig, rfl, List.mem_of_find?_eq_some hf, hmatch,
              by simpa using hname, by simpa using hsess, hd, rfl⟩

/-- What `fetch_rows` returns are rows of the tool call that have not expired. -/
theorem mem_fetchRows {scopeHash callHash : String} {stored : StoredRow} :
    stored ∈ s.fetchRows wall scopeHash callHash ↔
      ∃ row ∈ s.rows, row.key.scopeHash = scopeHash ∧ row.key.toolCallHash = callHash ∧
        wall ≤ row.expiresAt ∧ row.stored = stored := by
  simp only [fetchRows, List.mem_map, List.mem_filter, List.mem_mergeSort, decide_eq_true_eq]
  constructor
  · rintro ⟨row, ⟨⟨hr, hs, hc⟩, hw⟩, he⟩
    exact ⟨row, hr, hs, hc, hw, he⟩
  · rintro ⟨row, hr, hs, hc, hw, he⟩
    exact ⟨row, ⟨⟨hr, hs, hc⟩, hw⟩, he⟩

/-- A row after an UPSERT is the new one or was there before under another key. -/
theorem mem_upsert {rows : List Row} {row r : Row} :
    r ∈ upsert rows row ↔ r = row ∨ r ∈ rows ∧ r.key ≠ row.key := by
  unfold upsert
  split_ifs with h
  · obtain ⟨x, hx, hk⟩ := List.any_eq_true.mp h
    rw [decide_eq_true_eq] at hk
    rw [List.mem_map]
    constructor
    · rintro ⟨y, hy, rfl⟩
      split_ifs with hy'
      · exact .inl rfl
      · exact .inr ⟨hy, hy'⟩
    · rintro (rfl | ⟨hr, hne⟩)
      · exact ⟨x, hx, if_pos hk⟩
      · exact ⟨r, hr, if_neg hne⟩
  · simp only [List.any_eq_true, decide_eq_true_eq, not_exists, not_and] at h
    rw [List.mem_append, List.mem_singleton]
    constructor
    · rintro (hr | rfl)
      · exact .inr ⟨hr, h r hr⟩
      · exact .inl rfl
    · rintro (rfl | ⟨hr, -⟩)
      · exact .inr rfl
      · exact .inl hr

/-- A row after a job was written is the job's, or was there before under another key. -/
theorem mem_persist {r : Row} (h : r ∈ (s.persistOpaqueState env wall nonce stored job).rows) :
    r ∈ s.rows ∨ r.key = job.key ∧ r.sessionHash = job.sessionHash ∧
      r.toolNameHash = job.toolNameHash ∧
      env.crypto.decryptOpaqueState r.valueEnc = some job.signature := by
  unfold persistOpaqueState at h
  split at h
  · exact .inl h
  · next enc henc =>
    split_ifs at h
    · rcases mem_upsert.mp h with rfl | ⟨hr, -⟩
      · exact .inr ⟨rfl, rfl, rfl, env.crypto.decrypt_encrypt henc⟩
      · exact .inl hr
    · exact .inl h

@[simp] theorem persist_cache :
    (s.persistOpaqueState env wall nonce stored job).cache = s.cache := by
  unfold persistOpaqueState
  split
  · rfl
  · split_ifs <;> rfl

@[simp] theorem persist_order :
    (s.persistOpaqueState env wall nonce stored job).order = s.order := by
  unfold persistOpaqueState
  split
  · rfl
  · split_ifs <;> rfl

@[simp] theorem persist_queue :
    (s.persistOpaqueState env wall nonce stored job).queue = s.queue := by
  unfold persistOpaqueState
  split
  · rfl
  · split_ifs <;> rfl

theorem mem_prunePool {r : Row} (h : r ∈ (s.prunePool wall).rows) :
    r ∈ s.rows ∧ wall ≤ r.expiresAt := by
  have hr := (List.mem_filter.mp h).1
  simpa using hr

end Store
end Kinetix.OpaqueState
