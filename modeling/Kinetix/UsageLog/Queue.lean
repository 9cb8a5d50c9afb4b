import Kinetix.Foundation.Words
import Kinetix.Library.Machine
import Mathlib.Algebra.Order.Group.Multiset
import Mathlib.Tactic.Abel

/-!
# The usage-log queue

A producer sends its row and then counts it in `depth`; the worker counts a row off and then writes
it. Each of these is a step of its own, and nothing orders the producer's second step before the
worker's first. The rows are accounted for in every run. The counter is exact in just those runs in
which no row is counted off while each of the rows that are left is still to be counted in.
-/

namespace Kinetix.UsageLog
open StateMachine Words

variable {ρ : Type*}

/-! ## The queue and its tasks -/

/-- `Semaphore::MAX_PERMITS`: `mpsc::channel` panics for more, and for none. -/
def maxPermits : Nat := 2305843009213693951

/-- The capacity of a channel. -/
abbrev Capacity := { n : Nat // 0 < n ∧ n ≤ maxPermits }

/-- The rows of one flush. -/
def batchSize : Nat := 128

/-- Where the worker is, with the rows that are still in `batch`. -/
inductive Worker (ρ : Type*)
  | receiving (batch : List ρ)
  | draining (row : ρ) (batch : List ρ)
  | inserting (row : ρ) (batch : List ρ)
  | failed (row : ρ) (batch : List ρ)
  deriving DecidableEq

namespace Worker

/-- The next turn of `for row in batch.drain(..)`, or of the loop around it. -/
def drain : List ρ → Worker ρ
  | [] => .receiving []
  | row :: batch => .draining row batch

/-- The rows that were received and are not yet counted off. -/
def held : Worker ρ → List ρ
  | .receiving batch => batch
  | .draining row batch => row :: batch
  | .inserting _ batch => batch
  | .failed _ batch => batch

/-- The rows that were received and neither written nor counted as dropped. -/
def rows : Worker ρ → List ρ
  | .receiving batch => batch
  | .draining row batch => row :: batch
  | .inserting row batch => row :: batch
  | .failed row batch => row :: batch

variable (row : ρ) (batch : List ρ)

@[simp] theorem held_receiving : (receiving batch).held = batch := rfl

@[simp] theorem held_draining : (draining row batch).held = row :: batch := rfl

@[simp] theorem held_inserting : (inserting row batch).held = batch := rfl

@[simp] theorem held_failed : (failed row batch).held = batch := rfl

@[simp] theorem rows_receiving : (receiving batch).rows = batch := rfl

@[simp] theorem rows_draining : (draining row batch).rows = [row] ++ batch := rfl

@[simp] theorem rows_inserting : (inserting row batch).rows = [row] ++ batch := rfl

@[simp] theorem rows_failed : (failed row batch).rows = [row] ++ batch := rfl

@[simp] theorem held_drain : (drain batch).held = batch := by
  cases batch <;> rfl

@[simp] theorem rows_drain : (drain batch).rows = batch := by
  cases batch <;> rfl

end Worker

/-- The queue, its tasks and the table that the rows are written to. -/
structure UsageLogQueue (ρ : Type*) where
  /-- The rows in the channel. -/
  channel : List ρ := []
  depth : Nat := 0
  dropped : Nat := 0
  /-- The rows of the producers whose `try_send` succeeded and that have not counted them yet. -/
  sent : List ρ := []
  /-- The rows of the producers whose `try_send` failed and that have not counted them yet. -/
  refused : List ρ := []
  worker : Worker ρ := .receiving []
  table : List ρ := []
  deriving DecidableEq

/-- One atomic step of a producer or of the worker. An insertion ends as the database has it. -/
inductive Action (ρ : Type*)
  | trySend (row : ρ)
  | countSent (i : Nat)
  | countRefused (i : Nat)
  | receive
  | countOff
  | insert (ok : Bool)
  | countFailed
  deriving DecidableEq

namespace UsageLogQueue

/-- The producers between their two steps. -/
def between (q : UsageLogQueue ρ) : Nat := q.sent.length + q.refused.length

/-- The first step of `enqueue`. -/
def trySend (capacity : Capacity) (row : ρ) (q : UsageLogQueue ρ) : UsageLogQueue ρ :=
  if q.channel.length < capacity then
    { q with channel := q.channel ++ [row], sent := q.sent ++ [row] }
  else { q with refused := q.refused ++ [row] }

/-- `recv` for the first row of a batch, `try_recv` for the others. -/
def receive (batch : List ρ) (q : UsageLogQueue ρ) : Option (UsageLogQueue ρ) :=
  if batch.length < batchSize then
    match q.channel with
    | row :: channel => some { q with channel, worker := .receiving (batch ++ [row]) }
    | [] => if batch.isEmpty then none else some { q with worker := .drain batch }
  else some { q with worker := .drain batch }

def step (capacity : Capacity) (q : UsageLogQueue ρ) : Action ρ → Option (UsageLogQueue ρ)
  | .trySend row => some (q.trySend capacity row)
  | .countSent i =>
    if i < q.sent.length then
      some { q with depth := wrappingAdd q.depth 1, sent := q.sent.eraseIdx i }
    else none
  | .countRefused i =>
    if i < q.refused.length then
      some { q with dropped := wrappingAdd q.dropped 1, refused := q.refused.eraseIdx i }
    else none
  | .receive =>
    match q.worker with
    | .receiving batch => q.receive batch
    | _ => none
  | .countOff =>
    match q.worker with
    | .draining row batch =>
      some { q with depth := wrappingSub q.depth 1, worker := .inserting row batch }
    | _ => none
  | .insert ok =>
    match q.worker with
    | .inserting row batch =>
      some (if ok then { q with table := q.table ++ [row], worker := .drain batch }
        else { q with worker := .failed row batch })
    | _ => none
  | .countFailed =>
    match q.worker with
    | .failed _ batch =>
      some { q with dropped := wrappingAdd q.dropped 1, worker := .drain batch }
    | _ => none

end UsageLogQueue

/-- The producers and the worker of one queue. -/
def logQueue (ρ : Type*) (capacity : Capacity) : Machine (UsageLogQueue ρ) (Action ρ) where
  start := {}
  step q a := q.step capacity a

/-! ## What a run has counted -/

/-- The action counts a row in. -/
def Action.countsIn : Action ρ → Bool
  | .countSent _ => true
  | _ => false

/-- The action counts a row off. -/
def Action.countsOff : Action ρ → Bool
  | .countOff => true
  | _ => false

/-- The row of a call of `enqueue` that begins. -/
def Action.offered : Action ρ → List ρ
  | .trySend row => [row]
  | _ => []

/-- The row that the action counts as dropped. -/
def UsageLogQueue.lost (q : UsageLogQueue ρ) : Action ρ → List ρ
  | .countRefused i => q.refused[i]?.toList
  | .countFailed =>
    match q.worker with
    | .failed row _ => [row]
    | _ => []
  | _ => []

/-- The rows that the actions of a run counted as dropped. -/
def lostRows (capacity : Capacity) (as : List (Action ρ)) : List ρ :=
  (logQueue ρ capacity).emitted UsageLogQueue.lost as

/-- What is true of the queue in every run. -/
structure Sound (capacity : Capacity) (as : List (Action ρ)) (q : UsageLogQueue ρ) : Prop where
  room : q.channel.length ≤ capacity
  batch : q.worker.held.length ≤ batchSize
  balance : as.countP Action.countsIn + q.sent.length =
    as.countP Action.countsOff + q.channel.length + q.worker.held.length
  rows : (as.flatMap Action.offered : Multiset ρ) =
    q.table + lostRows capacity as + q.refused + q.channel + q.worker.rows
  dropped : q.dropped = (lostRows capacity as).length % (u64Max + 1)

theorem sound_start (capacity : Capacity) : Sound capacity [] ({} : UsageLogQueue ρ) where
  room := Nat.zero_le _
  batch := Nat.zero_le _
  balance := rfl
  rows := rfl
  dropped := rfl

variable {capacity : Capacity} {as : List (Action ρ)} {q q' : UsageLogQueue ρ} {a : Action ρ}

theorem lostRows_snoc (hrun : (logQueue ρ capacity).run as = some q)
    (hstep : (logQueue ρ capacity).step q a = some q') :
    lostRows capacity (as ++ [a]) = lostRows capacity as ++ q.lost a :=
  (logQueue ρ capacity).emitted_snoc UsageLogQueue.lost hrun hstep

/-- A row is received while there is room for it in the batch; otherwise the batch is drained. -/
theorem UsageLogQueue.receive_cases {batch : List ρ} (h : q.receive batch = some q') :
    (∃ row channel, q.channel = row :: channel ∧ batch.length < batchSize ∧
      q' = { q with channel, worker := .receiving (batch ++ [row]) }) ∨
    q' = { q with worker := .drain batch } := by
  rw [UsageLogQueue.receive] at h
  split at h
  next hlt =>
    cases hchannel : q.channel with
    | nil =>
      rw [hchannel] at h
      dsimp only at h
      split at h
      · cases h
      · exact .inr (Option.some.inj h).symm
    | cons row channel =>
      rw [hchannel] at h
      exact .inl ⟨row, channel, rfl, hlt, (Option.some.inj h).symm⟩
  next hlt => exact .inr (Option.some.inj h).symm

/-- What a step has to keep, in terms of what it changes. -/
theorem Sound.next (h : Sound capacity as q)
    (hlost : lostRows capacity (as ++ [a]) = lostRows capacity as ++ q.lost a)
    (room : q'.channel.length ≤ capacity) (batch : q'.worker.held.length ≤ batchSize)
    (balance : a.countsIn.toNat + q'.sent.length + (q.channel.length + q.worker.held.length) =
      a.countsOff.toNat + q.sent.length + (q'.channel.length + q'.worker.held.length))
    (rows : (q.table + q.refused + q.channel + q.worker.rows + a.offered : Multiset ρ) =
      q'.table + q.lost a + q'.refused + q'.channel + q'.worker.rows)
    (dropped : q'.dropped = (q.dropped + (q.lost a).length) % (u64Max + 1)) :
    Sound capacity (as ++ [a]) q' where
  room := room
  batch := batch
  balance := by
    have hbalance := h.balance
    have hcount : ∀ p : Action ρ → Bool, [a].countP p = (p a).toNat := fun p => by
      rw [List.countP_singleton]
      cases p a <;> rfl
    rw [List.countP_append, List.countP_append, hcount, hcount]
    omega
  rows := by
    calc ((as ++ [a]).flatMap Action.offered : Multiset ρ)
        = q.table + q.refused + q.channel + q.worker.rows + a.offered + lostRows capacity as := by
          rw [List.flatMap_append, ← Multiset.coe_add, h.rows, List.flatMap_singleton]
          abel
      _ = q'.table + lostRows capacity (as ++ [a]) + q'.refused + q'.channel + q'.worker.rows := by
          rw [rows, hlost, ← Multiset.coe_add]
          abel
  dropped := by
    rw [dropped, h.dropped, hlost, List.length_append, Nat.mod_add_mod]

theorem Sound.dropped_mod (h : Sound capacity as q) : q.dropped = q.dropped % (u64Max + 1) := by
  rw [h.dropped, Nat.mod_mod]

theorem Sound.trySend (h : Sound capacity as q) (row : ρ)
    (hlost : lostRows capacity (as ++ [.trySend row]) =
      lostRows capacity as ++ q.lost (.trySend row)) :
    Sound capacity (as ++ [.trySend row]) (q.trySend capacity row) := by
  rw [UsageLogQueue.trySend]
  split
  next hlt =>
    refine h.next hlost (by simpa using hlt) h.batch ?_ ?_ h.dropped_mod
    · simp [Action.countsIn, Action.countsOff]
      omega
    · simp only [UsageLogQueue.lost, Action.offered, ← Multiset.coe_add, Multiset.coe_nil, add_zero]
      abel
  next hlt =>
    refine h.next hlost h.room h.batch ?_ ?_ h.dropped_mod
    · simp [Action.countsIn, Action.countsOff]
    · simp only [UsageLogQueue.lost, Action.offered, ← Multiset.coe_add, Multiset.coe_nil, add_zero]
      abel

theorem Sound.countSent (h : Sound capacity as q) {i : Nat} (hi : i < q.sent.length)
    (hlost : lostRows capacity (as ++ [.countSent i]) =
      lostRows capacity as ++ q.lost (.countSent i)) :
    Sound capacity (as ++ [.countSent i])
      { q with depth := wrappingAdd q.depth 1, sent := q.sent.eraseIdx i } := by
  refine h.next hlost h.room h.batch ?_ ?_ h.dropped_mod
  · have hlength := List.length_eraseIdx_of_lt hi
    simp [Action.countsIn, Action.countsOff]
    omega
  · simp [UsageLogQueue.lost, Action.offered]

theorem Sound.countRefused (h : Sound capacity as q) {i : Nat} (hi : i < q.refused.length)
    (hlost : lostRows capacity (as ++ [.countRefused i]) =
      lostRows capacity as ++ q.lost (.countRefused i)) :
    Sound capacity (as ++ [.countRefused i])
      { q with dropped := wrappingAdd q.dropped 1, refused := q.refused.eraseIdx i } := by
  have hrow : q.lost (.countRefused i) = [q.refused[i]] := by
    rw [UsageLogQueue.lost, List.getElem?_eq_getElem hi, Option.toList_some]
  have hrefused : (q.refused : Multiset ρ) = [q.refused[i]] + q.refused.eraseIdx i :=
    Multiset.coe_eq_coe.mpr (List.getElem_cons_eraseIdx_perm hi).symm
  refine h.next hlost h.room h.batch ?_ ?_ ?_
  · simp [Action.countsIn, Action.countsOff]
  · rw [hrow, hrefused]
    simp only [Action.offered, Multiset.coe_nil, add_zero]
    abel
  · rw [hrow]
    rfl

theorem Sound.receive (h : Sound capacity as q) {batch : List ρ}
    (hworker : q.worker = .receiving batch)
    (hlost : lostRows capacity (as ++ [.receive]) = lostRows capacity as ++ q.lost .receive)
    (hreceive : q.receive batch = some q') : Sound capacity (as ++ [.receive]) q' := by
  have hbatch := h.batch
  rw [hworker] at hbatch
  rcases UsageLogQueue.receive_cases hreceive with ⟨row, channel, hchannel, hlt, rfl⟩ | rfl
  · have hroom := h.room
    rw [hchannel] at hroom
    refine h.next hlost (Nat.le_of_succ_le hroom) (by simpa using hlt) ?_ ?_ h.dropped_mod
    · simp [hworker, hchannel, Action.countsIn, Action.countsOff]
      omega
    · rw [hworker, hchannel, ← List.singleton_append]
      simp only [UsageLogQueue.lost, Action.offered, Worker.rows_receiving, ← Multiset.coe_add,
        Multiset.coe_nil, add_zero]
      abel
  · refine h.next hlost h.room (by simpa using hbatch) ?_ ?_ h.dropped_mod
    · simp [hworker, Action.countsIn, Action.countsOff]
    · simp [hworker, UsageLogQueue.lost, Action.offered]

theorem Sound.countOff (h : Sound capacity as q) {row : ρ} {batch : List ρ}
    (hworker : q.worker = .draining row batch)
    (hlost : lostRows capacity (as ++ [.countOff]) = lostRows capacity as ++ q.lost .countOff) :
    Sound capacity (as ++ [.countOff])
      { q with depth := wrappingSub q.depth 1, worker := .inserting row batch } := by
  have hbatch := h.batch
  rw [hworker] at hbatch
  refine h.next hlost h.room (Nat.le_of_succ_le hbatch) ?_ ?_ h.dropped_mod
  · simp [hworker, Action.countsIn, Action.countsOff]
    omega
  · simp [hworker, UsageLogQueue.lost, Action.offered]

theorem Sound.insert (h : Sound capacity as q) {row : ρ} {batch : List ρ}
    (hworker : q.worker = .inserting row batch) (ok : Bool)
    (hlost : lostRows capacity (as ++ [.insert ok]) = lostRows capacity as ++ q.lost (.insert ok)) :
    Sound capacity (as ++ [.insert ok])
      (if ok then { q with table := q.table ++ [row], worker := .drain batch }
        else { q with worker := .failed row batch }) := by
  have hbatch := h.batch
  rw [hworker] at hbatch
  cases ok with
  | true =>
    refine h.next hlost h.room (by simpa using hbatch) ?_ ?_ h.dropped_mod
    · simp [hworker, Action.countsIn, Action.countsOff]
    · rw [hworker]
      simp only [UsageLogQueue.lost, Action.offered, Worker.rows_inserting, if_true,
        Worker.rows_drain, ← Multiset.coe_add, Multiset.coe_nil, add_zero]
      abel
  | false =>
    refine h.next hlost h.room hbatch ?_ ?_ h.dropped_mod
    · simp [hworker, Action.countsIn, Action.countsOff]
    · simp [hworker, UsageLogQueue.lost, Action.offered]

theorem Sound.countFailed (h : Sound capacity as q) {row : ρ} {batch : List ρ}
    (hworker : q.worker = .failed row batch)
    (hlost : lostRows capacity (as ++ [.countFailed]) =
      lostRows capacity as ++ q.lost .countFailed) :
    Sound capacity (as ++ [.countFailed])
      { q with dropped := wrappingAdd q.dropped 1, worker := .drain batch } := by
  have hbatch := h.batch
  rw [hworker] at hbatch
  have hrow : q.lost .countFailed = [row] := by rw [UsageLogQueue.lost, hworker]
  refine h.next hlost h.room (by simpa using hbatch) ?_ ?_ ?_
  · simp [hworker, Action.countsIn, Action.countsOff]
  · rw [hrow, hworker]
    simp only [Action.offered, Worker.rows_failed, Worker.rows_drain, ← Multiset.coe_add,
      Multiset.coe_nil, add_zero]
    abel
  · rw [hrow]
    rfl

theorem Sound.step (h : Sound capacity as q) (hrun : (logQueue ρ capacity).run as = some q)
    (hstep : (logQueue ρ capacity).step q a = some q') : Sound capacity (as ++ [a]) q' := by
  have hlost := lostRows_snoc hrun hstep
  cases a with
  | trySend row =>
    cases hstep
    exact h.trySend row hlost
  | countSent i =>
    obtain ⟨hi, hq⟩ := Option.ite_none_right_eq_some.mp hstep
    cases hq
    exact h.countSent hi hlost
  | countRefused i =>
    obtain ⟨hi, hq⟩ := Option.ite_none_right_eq_some.mp hstep
    cases hq
    exact h.countRefused hi hlost
  | receive =>
    simp only [logQueue, UsageLogQueue.step] at hstep
    split at hstep
    next batch hworker => exact h.receive hworker hlost hstep
    next hworker => cases hstep
  | countOff =>
    simp only [logQueue, UsageLogQueue.step] at hstep
    split at hstep
    next row batch hworker =>
      cases hstep
      exact h.countOff hworker hlost
    next hworker => cases hstep
  | insert ok =>
    simp only [logQueue, UsageLogQueue.step] at hstep
    split at hstep
    next row batch hworker =>
      cases hstep
      exact h.insert hworker ok hlost
    next hworker => cases hstep
  | countFailed =>
    simp only [logQueue, UsageLogQueue.step] at hstep
    split at hstep
    next row batch hworker =>
      cases hstep
      exact h.countFailed hworker hlost
    next hworker => cases hstep

theorem sound_of_run (h : (logQueue ρ capacity).run as = some q) : Sound capacity as q :=
  (logQueue ρ capacity).run_induction (sound_start capacity)
    (fun _ _ _ _ hrun hs hstep => hs.step hrun hstep) as q h

/-! ## The depth -/

/-- When the worker counts a row off, one of those that are queued or held has been counted in. -/
def CountedFirst (q : UsageLogQueue ρ) (a : Action ρ) : Prop :=
  ∀ row batch, a = .countOff → q.worker = .draining row batch →
    q.sent.length < q.channel.length + q.worker.held.length

/-- The queue is accounted for. -/
structure Accounted (capacity : Capacity) (as : List (Action ρ)) (q : UsageLogQueue ρ) : Prop where
  /-- The counter is the number it stands for: it did not wrap. -/
  exact : (q.depth : ℤ) = as.countP Action.countsIn - as.countP Action.countsOff
  bounded : q.depth ≤ capacity + batchSize + q.between
  idle : q.channel = [] → q.worker.held = [] → q.depth = 0
  /-- Each row is in one place: in the table, among those counted as dropped, or still underway. -/
  rows : (as.flatMap Action.offered : Multiset ρ) =
    q.table + lostRows capacity as + q.refused + q.channel + q.worker.rows
  dropped : q.dropped = (lostRows capacity as).length % (u64Max + 1)

/-- The counter with the rows that are still to be counted in is the number of rows. -/
theorem Sound.depth_balance (h : Sound capacity as q)
    (hexact : q.depth + as.countP Action.countsOff = as.countP Action.countsIn) :
    q.depth + q.sent.length = q.channel.length + q.worker.held.length := by
  have hbalance := h.balance
  omega

theorem Sound.accounted (h : Sound capacity as q)
    (hexact : q.depth + as.countP Action.countsOff = as.countP Action.countsIn) :
    Accounted capacity as q where
  exact := by omega
  bounded := by
    have hbalance := h.depth_balance hexact
    have hroom := h.room
    have hbatch := h.batch
    omega
  idle hchannel hheld := by
    have hbalance := h.depth_balance hexact
    rw [hchannel, hheld] at hbalance
    exact Nat.eq_zero_of_add_eq_zero_right hbalance
  rows := h.rows
  dropped := h.dropped

/-- The counter is moved by the producer's second step and by the worker's first. -/
theorem depth_step (hstep : (logQueue ρ capacity).step q a = some q') :
    q'.depth = if a.countsIn then wrappingAdd q.depth 1
      else if a.countsOff then wrappingSub q.depth 1 else q.depth := by
  simp only [logQueue] at hstep
  cases a with
  | trySend row =>
    cases hstep
    rw [UsageLogQueue.trySend]
    split <;> simp [Action.countsIn, Action.countsOff]
  | countSent i =>
    rw [UsageLogQueue.step] at hstep
    split at hstep <;> cases hstep
    simp [Action.countsIn]
  | countRefused i | countOff | countFailed =>
    rw [UsageLogQueue.step] at hstep
    split at hstep <;> cases hstep
    simp [Action.countsIn, Action.countsOff]
  | receive =>
    rw [UsageLogQueue.step] at hstep
    split at hstep
    · rcases UsageLogQueue.receive_cases hstep with ⟨row, channel, -, -, rfl⟩ | rfl <;>
        simp [Action.countsIn, Action.countsOff]
    · cases hstep
  | insert ok =>
    rw [UsageLogQueue.step] at hstep
    split at hstep <;> cases hstep
    cases ok <;> simp [Action.countsIn, Action.countsOff]

theorem draining_of_countOff (hstep : (logQueue ρ capacity).step q .countOff = some q') :
    ∃ row batch, q.worker = .draining row batch := by
  cases hworker : q.worker with
  | draining row batch => exact ⟨row, batch, rfl⟩
  | receiving batch | inserting row batch | failed row batch =>
    simp [logQueue, UsageLogQueue.step, hworker] at hstep

theorem Sound.exact_step (h : Sound capacity as q) (hcounted : CountedFirst q a)
    (hstep : (logQueue ρ capacity).step q a = some q')
    (hexact : q.depth + as.countP Action.countsOff = as.countP Action.countsIn) :
    q'.depth + (as ++ [a]).countP Action.countsOff = (as ++ [a]).countP Action.countsIn := by
  have hbalance := h.depth_balance hexact
  have hle : q.depth + 1 ≤ u64Max := by
    have hroom := h.room
    have hbatch := h.batch
    have hcapacity := capacity.2.2
    simp only [maxPermits, batchSize, u64Max] at *
    omega
  have hdepth := depth_step hstep
  rw [List.countP_append, List.countP_append, List.countP_singleton, List.countP_singleton]
  cases a with
  | countSent i =>
    simp only [Action.countsIn, Action.countsOff, if_true, Bool.false_eq_true, if_false]
      at hdepth ⊢
    rw [wrappingAdd_of_le hle] at hdepth
    omega
  | countOff =>
    obtain ⟨row, batch, hworker⟩ := draining_of_countOff hstep
    have hcover := hcounted row batch rfl hworker
    have hpos : 1 ≤ q.depth := by omega
    simp only [Action.countsIn, Action.countsOff, if_true, Bool.false_eq_true, if_false]
      at hdepth ⊢
    rw [wrappingSub_of_le hpos (Nat.le_of_succ_le hle)] at hdepth
    omega
  | trySend row | countRefused i | receive | insert ok | countFailed =>
    simpa [hdepth, Action.countsIn, Action.countsOff] using hexact

/-- The counter is exact after a run whose rows were counted in first. -/
theorem exact_of_run : ∀ as q, (logQueue ρ capacity).Meets (fun _ => CountedFirst) as →
    (logQueue ρ capacity).run as = some q →
    q.depth + as.countP Action.countsOff = as.countP Action.countsIn := by
  intro as q hmeets hrun
  refine (logQueue ρ capacity).run_induction
    (I := fun as q => (logQueue ρ capacity).Meets (fun _ => CountedFirst) as →
      q.depth + as.countP Action.countsOff = as.countP Action.countsIn)
    (fun _ => rfl) ?_ as q hrun hmeets
  intro as q a q' hrun ih hstep hmeets
  exact (sound_of_run hrun).exact_step (hmeets.last _ hrun) hstep (ih (hmeets.of_append _))

/-- The queue is accounted for throughout a run exactly if no row is counted off while each of the
rows that are left is still to be counted in. -/
theorem accounted_iff (capacity : Capacity) (as : List (Action ρ)) :
    (∀ pre q, pre <+: as → (logQueue ρ capacity).run pre = some q → Accounted capacity pre q) ↔
      (logQueue ρ capacity).Meets (fun _ => CountedFirst) as := by
  constructor
  · rintro hall pre a post q rfl hrun row batch rfl hworker
    have hstep : (logQueue ρ capacity).step q .countOff =
        some { q with depth := wrappingSub q.depth 1, worker := .inserting row batch } := by
      simp [logQueue, UsageLogQueue.step, hworker]
    have hrun' := (logQueue ρ capacity).run_snoc_eq_some.mpr ⟨q, hrun, hstep⟩
    have hprefix : pre ++ [.countOff] <+: pre ++ .countOff :: post :=
      (List.prefix_append_right_inj pre).mpr (List.prefix_append [_] post)
    have hexact := (hall _ _ hprefix hrun').exact
    have hbalance := (sound_of_run hrun').balance
    rw [hworker]
    simp only [Worker.held_inserting, Worker.held_draining, List.length_cons] at hbalance ⊢
    omega
  · rintro hmeets pre q ⟨post, rfl⟩ hrun
    exact (sound_of_run hrun).accounted (exact_of_run pre q (hmeets.of_append _) hrun)

/-- The worker counts off the first row before its producer counts it in. -/
theorem depth_wraps : ¬ ∀ (capacity : Capacity) (as : List (Action String)) q,
    (logQueue String capacity).run as = some q → Accounted capacity as q := by
  intro h
  have hrun : (logQueue String ⟨4096, by decide⟩).run
      [.trySend "row", .receive, .receive, .countOff] =
      some { depth := wrappingSub 0 1, sent := ["row"], worker := .inserting "row" [] } := rfl
  have hexact := (h _ _ _ hrun).exact
  simp [List.countP_cons, Action.countsIn, Action.countsOff] at hexact

end Kinetix.UsageLog
