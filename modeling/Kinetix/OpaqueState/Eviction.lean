import Mathlib.Data.List.Nodup
import Kinetix.OpaqueState.Actors

/-!
# Eviction by other captures

The cache is shared by all scopes. As many captures of other keys as it has room for evict a key
that is not used in the meantime, and they leave the table and the resolves as they are.
-/

namespace Kinetix.OpaqueState
open StateMachine

variable {env : Env}

/-! ## How fast the store grows -/

theorem remember_order {s : Store} {m : Nat} {key : OpaqueCacheKey} {entry : CachedOpaqueState} :
    (s.remember m key entry).order.length ≤ s.order.length + 1 := by
  have hf := List.length_filter_le (· ≠ key) s.order
  simp only [Store.remember, Store.touchOrder, List.length_drop, Store.touched, List.length_append,
    List.length_singleton] at hf ⊢
  omega

theorem trySend_grows {s : Store} {job : DurabilityWrite} :
    (s.trySend job).order = s.order ∧ (s.trySend job).queue.length ≤ s.queue.length + 1 := by
  unfold Store.trySend
  split_ifs
  · exact ⟨rfl, by simp⟩
  · exact ⟨rfl, Nat.le_succ _⟩

/-- An action adds at most one key to the eviction order and one write to the queue. -/
theorem State.step_grows {s s' : State} {a : Action} (h : s.step env a = some s') :
    s'.store.order.length ≤ s.store.order.length + 1 ∧
      s'.store.queue.length ≤ s.store.queue.length + 1 := by
  cases State.transition_of_step h with
  | tick | ignored | fetch | prune => exact ⟨Nat.le_succ _, Nat.le_succ _⟩
  | captured c =>
    refine ⟨?_, trySend_grows.2⟩
    rw [trySend_grows.1]
    exact remember_order
  | evict key store hstore =>
    obtain ⟨-, hqueue, -, horder⟩ := Store.evict_eq_some hstore
    rw [hqueue]
    exact ⟨Nat.le_succ_of_le horder, Nat.le_succ _⟩
  | resolve id call =>
    obtain ⟨hq, -, ho, -⟩ := Store.lookMemory_spec env s.store s.instant id.scope call
    rw [State.setTask, ho, hq]
    exact ⟨Nat.le_succ _, Nat.le_succ _⟩
  | finish id call begunAt rows readAt =>
    rcases Store.resolveRows_cases env s.store s.instant id.scope call rows with
      ⟨hr, -⟩ | ⟨target, row, sig, -, -, -, -, -, -, hr⟩
    · rw [hr]
      exact ⟨Nat.le_succ _, Nat.le_succ _⟩
    · rw [hr]
      exact ⟨remember_order, Nat.le_succ _⟩
  | receive job queue hw hq =>
    rw [hq]
    exact ⟨Nat.le_succ _, Nat.le_succ_of_le (Nat.le_succ _)⟩
  | persist job nonce stored =>
    rw [Store.persist_queue, Store.persist_order]
    exact ⟨Nat.le_succ _, Nat.le_succ _⟩

variable {target : OpaqueStateTarget} {scope : OpaqueClientScope} {c : Capture} {s : State}

theorem grows_run {as : List Action} (h : (machine env).run as = some s) :
    s.store.order.length ≤ as.length ∧ s.store.queue.length ≤ as.length := by
  refine (machine env).run_induction
    (I := fun as s => s.store.order.length ≤ as.length ∧ s.store.queue.length ≤ as.length)
    ⟨Nat.le_refl _, Nat.le_refl _⟩ ?_ as s h
  intro as s a s' _ ih hstep
  have hgrow := State.step_grows hstep
  rw [List.length_append, List.length_singleton]
  omega

/-! ## Captures of other keys -/

/-- What is the same before and after captures of other keys. -/
structure Undisturbed (s s' : State) : Prop where
  rows : s'.store.rows = s.store.rows
  tasks : s'.tasks = s.tasks
  writing : s'.writing = s.writing
  instant : s'.instant = s.instant
  wall : s'.wall = s.wall

/-- Captures of new keys line up behind the key that is there, and it leaves the cache when there is
one key too many. -/
theorem captures_run {k : OpaqueCacheKey} {cs : List Capture} (heff : ∀ c ∈ cs, c.Effective)
    (hnd : (k :: cs.map (Capture.key env.sha)).Nodup) (horder : s.store.order = [k])
    (hm : 0 < env.maxMemoryRows) (hlen : cs.length ≤ env.maxMemoryRows)
    (hroom : s.store.queue.length + cs.length ≤ durabilityQueueCapacity) :
    ∃ s', (machine env).runFrom s (cs.map .capture) = some s' ∧ Undisturbed s s' ∧
      s'.store.order = (k :: cs.map (Capture.key env.sha)).drop
        (cs.length + 1 - env.maxMemoryRows) ∧
      s'.store.queue = s.store.queue ++ cs.map (Capture.write env.sha) ∧
      s'.store.cache k = if cs.length < env.maxMemoryRows then s.store.cache k else none := by
  induction cs using List.reverseRecOn with
  | nil =>
    refine ⟨s, rfl, ⟨rfl, rfl, rfl, rfl, rfl⟩, ?_, by simp, by simp [hm]⟩
    rw [show ([] : List Capture).length + 1 - env.maxMemoryRows = 0 by simp; omega, horder]
    rfl
  | append_singleton cs c ih =>
    simp only [List.length_append, List.length_singleton] at hlen hroom
    rw [List.map_append, List.map_singleton, ← List.cons_append, List.nodup_append] at hnd
    have hnew : c.key env.sha ∉ k :: cs.map (Capture.key env.sha) := fun hmem =>
      hnd.2.2 _ hmem _ (List.mem_singleton.mpr rfl) rfl
    obtain ⟨s₁, hrun, U, hord, hqueue, hcache⟩ :=
      ih (fun d hd => heff d (List.mem_append_left _ hd)) hnd.1 (by omega) (by omega)
    rw [show cs.length + 1 - env.maxMemoryRows = 0 by omega, List.drop_zero] at hord
    rw [if_pos (by omega)] at hcache
    have hc := heff c (by simp)
    have htouched : s₁.store.touched (c.key env.sha) =
        k :: cs.map (Capture.key env.sha) ++ [c.key env.sha] := by
      rw [Store.touched, hord, List.filter_eq_self.mpr]
      intro d hd
      simp only [ne_eq, decide_not, Bool.not_eq_true', decide_eq_false_iff_not]
      rintro rfl
      exact hnew hd
    have hlength : (s₁.store.touched (c.key env.sha)).length = cs.length + 2 := by
      rw [htouched]
      simp
    have hfree : s₁.store.queue.length < durabilityQueueCapacity := by
      rw [hqueue, List.length_append, List.length_map]
      omega
    have hstep : (machine env).runFrom s ((cs ++ [c]).map .capture) =
        s₁.step env (.capture c) := by
      rw [List.map_append, Machine.runFrom_append, hrun]
      simp only [List.map_singleton, Option.bind_some, Machine.runFrom]
      rfl
    rw [hstep]
    simp only [State.step, Store.capture_effective hc]
    refine ⟨_, rfl, ⟨?_, U.tasks, U.writing, U.instant, U.wall⟩, ?_, ?_, ?_⟩
    · rw [Store.trySend_rows, Store.remember_rows]
      exact U.rows
    · rw [Store.trySend, Store.remember_queue, if_pos hfree]
      change (s₁.store.touched (c.key env.sha)).drop
        ((s₁.store.touched (c.key env.sha)).length - env.maxMemoryRows) = _
      rw [hlength, htouched, List.length_append, List.length_singleton, List.map_append]
      rfl
    · rw [Store.trySend, Store.remember_queue, if_pos hfree, hqueue]
      simp
    · rw [Store.trySend_cache, Store.remember_apply, Store.evicted, hlength, htouched,
        List.length_append, List.length_singleton]
      by_cases hlt : cs.length + 1 < env.maxMemoryRows
      · rw [show cs.length + 2 - env.maxMemoryRows = 0 by omega, List.take_zero, if_pos hlt,
          if_neg List.not_mem_nil, if_neg, hcache]
        rintro rfl
        exact hnew List.mem_cons_self
      · rw [show cs.length + 2 - env.maxMemoryRows = 1 by omega, if_neg hlt, if_pos]
        exact List.mem_cons_self

/-- Captures for tool calls whose ids differ in their lengths. -/
def flood (scope : OpaqueClientScope) (target : OpaqueStateTarget) (n : Nat) : List Capture :=
  (List.range n).map fun i => {
    scope := scope
    target := target
    session := none
    toolCallId := String.ofList (List.replicate (i + 1) 'c')
    toolName := "lookup"
    signature := "sig" }

@[simp] theorem length_flood {n : Nat} : (flood scope target n).length = n := by
  simp [flood]

theorem flood_spec {n : Nat} (h : c ∈ flood scope target n) : c.scope = scope ∧ c.Effective := by
  obtain ⟨i, -, rfl⟩ := List.mem_map.mp h
  refine ⟨rfl, by simp, fun hid => ?_⟩
  have hlen := congrArg String.length hid
  simp at hlen

/-- The captures are of new keys where the key that is there belongs to another scope. -/
theorem flood_nodup {sha : Sha256} {scope scope' : OpaqueClientScope}
    {target target' : OpaqueStateTarget} {n : Nat} {id : String} (h : scope ≠ scope') :
    (keyOf sha scope target id ::
      (flood scope' target' n).map (Capture.key sha)).Nodup := by
  rw [List.nodup_cons]
  constructor
  · intro hmem
    obtain ⟨c, hc, hk⟩ := List.mem_map.mp hmem
    exact h ((keyOf_injective hk).1.symm.trans (flood_spec hc).1)
  · rw [flood, List.map_map]
    refine List.Nodup.map (fun i j hij => ?_) List.nodup_range
    have hid := congrArg String.length (keyOf_injective hij).2.2
    simpa using hid

/-- A call that misses RAM and that nothing interrupts answers from the table. -/
theorem call_run {id : TaskId} {call : Call} (hid : s.tasks id = none)
    (hcap : call.capability = some target)
    (hcache : s.store.cache (keyOf env.sha id.scope target call.toolCallId) = none) :
    ((machine env).runFrom s [.resolve id call, .fetch id true, .finish id]).bind (·.answer id) =
      some (s.store.resolveRows env s.instant id.scope call
        (s.store.fetchRows s.wall (id.scope.hash env.sha)
          (toolCallHash env.sha id.scope call.toolCallId))).2 := by
  have hlook : s.store.lookMemory env s.instant id.scope call = (s.store, none) := by
    simp only [Store.lookMemory, hcap, hcache]
  simp only [machine, Machine.runFrom, State.step, hid, State.beginResolve, hlook, State.setTask,
    Function.update_self, if_true, State.answer, Option.bind_some]

/-- The first capture of a run. -/
theorem capture_run (heff : c.Effective) (hm : 0 < env.maxMemoryRows) :
    ∃ s, (machine env).run [.capture c] = some s ∧ s.store.order = [c.key env.sha] ∧
      s.store.queue = [c.write env.sha] ∧ s.store.rows = [] ∧ s.tasks = (fun _ => none) ∧
      s.writing = none ∧ s.wall = 0 := by
  have hstep : (machine env).run [.capture c] = ({} : State).step env (.capture c) := by
    rw [← List.nil_append [Action.capture c], Machine.run_snoc]
    rfl
  rw [hstep]
  simp only [State.step, Store.capture_effective heff]
  refine ⟨_, rfl, ?_, rfl, rfl, rfl, rfl, rfl⟩
  change ([c.key env.sha] : List OpaqueCacheKey).drop (1 - env.maxMemoryRows) = _
  rw [Nat.sub_eq_zero_of_le hm, List.drop_zero]

/-- A flood of captures under another scope evicts an entry whose write has not reached the table,
and a call for it finds nothing. -/
theorem flood_run {id : TaskId} {call : Call} (heff : c.Effective) (hne : c.scope ≠ scope)
    (hm : 0 < env.maxMemoryRows) (hroom : env.maxMemoryRows < durabilityQueueCapacity)
    (hid : id.scope = c.scope) (hcap : call.capability = some c.target)
    (hcall : call.toolCallId = c.toolCallId) : ((machine env).run ([.capture c] ++
      (flood scope c.target env.maxMemoryRows).map .capture ++
      [.resolve id call, .fetch id true, .finish id])).bind (·.answer id) = some .missing := by
  obtain ⟨s, hs, horder, hqueue, hrows, htasks, -, -⟩ := capture_run heff hm
  have hfits : s.store.queue.length +
      (flood scope c.target env.maxMemoryRows).length ≤ durabilityQueueCapacity := by
    rw [hqueue, length_flood, List.length_singleton]
    omega
  obtain ⟨t, ht, U, -, -, hcache⟩ := captures_run (fun d hd => (flood_spec hd).2)
    (flood_nodup hne) horder hm (Nat.le_of_eq length_flood) hfits
  rw [length_flood, if_neg (Nat.lt_irrefl _)] at hcache
  have hkey : keyOf env.sha id.scope c.target call.toolCallId = c.key env.sha := by
    rw [hid, hcall]
    rfl
  rw [Machine.run_append, Machine.run_append, hs, Option.bind_some, ht, Option.bind_some,
    call_run (by rw [U.tasks, htasks]) hcap (by rw [hkey]; exact hcache)]
  rw [Store.fetchRows, U.rows, hrows]
  simp [Store.resolveRows]

/-! ## An environment for examples -/

/-- The digests of the strings that the examples hash. -/
def exampleDigests : Sha256.Table where
  digests :=
    [("key-1", "be2974546978e3739e6d6da85c4be9f334ce32df2b9fd4b6ff1b55c0d57e9d44"),
     ("key-1\x00call-1", "ac2d58c26ef4ae2951ad8c41b2edaa4df57e51b31606b28e810e25fa2183ba9c"),
     ("key-2", "7c36b0a9dedde119c75165957c6c9c187e65df1ee5db87c4c58ad503ad88cbe3"),
     ("key-2\x00call-1", "194f709c660bc7c42b6cfa2c637b68a8b8e378258c46030494e7cf7a9a8fcf7b"),
     ("lookup", "29a1af58c138274076260b2d9c83b8378cc951a68d9b4de13794b853d695e431")]
  injective := by decide
  hex := by decide
  nonempty := by decide

/-- SHA-256 on the strings that the examples hash. -/
def exampleSha : Sha256 := .ofTable exampleDigests

/-- The cipher under the master key of 32 bytes `7`, for one plaintext and the nonce of zeros; it
fails on all others. -/
def exampleCrypto : Crypto where
  encryptOpaqueState nonce plain :=
    if nonce = 0 ∧ plain = "sig-a" then some "AAAAAAAAAAAAAAAAJOhZ5BLYc/NSk32V0vIpI2AI/e9o"
    else none
  decryptOpaqueState enc :=
    if enc = "AAAAAAAAAAAAAAAAJOhZ5BLYc/NSk32V0vIpI2AI/e9o" then some "sig-a" else none
  decrypt_encrypt := by
    intro nonce plain enc h
    split_ifs at h with hp
    cases h
    rw [if_pos rfl, hp.2]

/-- A store of the size that the code gives it. -/
def exampleEnv : Env where
  sha := exampleSha
  crypto := exampleCrypto
  maxMemoryRows := maxMemoryRows

def exampleTarget : OpaqueStateTarget where
  kind := .geminiThoughtSignature
  providerId := "gemini"
  family := "google"
  producer := "gemini"
  modelId := "gemini-3-pro"

def exampleCapture (keyId : String) : Capture where
  scope := .forKey keyId
  target := exampleTarget
  session := none
  toolCallId := "call-1"
  toolName := "lookup"
  signature := "sig-a"

/-- The resolve of what is captured under `key-1`. -/
def exampleId : TaskId := ⟨.forKey "key-1", 0⟩

def exampleCall : Call where
  capability := some exampleTarget
  session := none
  toolCallId := "call-1"
  toolName := "lookup"

end Kinetix.OpaqueState
