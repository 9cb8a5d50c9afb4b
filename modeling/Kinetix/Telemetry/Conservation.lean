import Kinetix.Telemetry.Worker
import Mathlib.Algebra.Order.Group.Multiset
import Mathlib.Tactic.Abel

/-!
# What the telemetry counts

A ledger keeps the events themselves where the worker keeps counts. In every run the maps are the
aggregates of the events that the ledger has in the same place, so that no event is lost or counted
twice. A quantile is the bound of the bucket of the sample of its rank: no less than the sample,
unless the sample is beyond the last bound.
-/

namespace Kinetix.Telemetry
open Histogram KeyedTable Words

/-! ## Aggregates of events -/

/-- The aggregate of a bucket with these events. -/
def aggregate (events : List TelemetryEvent) : BucketAggregate :=
  events.foldl BucketAggregate.add {}

/-- An event adds to just one of these columns. -/
def BucketAggregate.events (a : BucketAggregate) : Nat :=
  a.successes + a.rateLimits + a.quotaExhausted + a.authErrors + a.targetErrors + a.badRequests +
    a.server5xx + a.connectionErrors + a.timeouts + a.cancellations + a.adaptiveSaturation +
    a.providerCircuitRejects

/-- Each outcome has a column of its own. -/
theorem outcome_counted (o : TelemetryOutcome) :
    (o == .success).toNat + (o == .rateLimit).toNat + (o == .quotaExhausted).toNat +
      (o == .authError).toNat + (o == .targetError).toNat + (o == .badRequest).toNat +
      (o == .serverError).toNat + (o == .connectionError).toNat + (o == .timeout).toNat +
      (o == .cancelled).toNat + (o == .adaptiveSaturation).toNat +
      (o == .providerCircuitReject).toNat = 1 := by
  cases o <;> rfl

theorem aggregate_concat (events : List TelemetryEvent) (event : TelemetryEvent) :
    aggregate (events ++ [event]) = (aggregate events).add event := by
  rw [aggregate, List.foldl_append]
  rfl

namespace BucketAggregate
variable (a b : BucketAggregate) (event : TelemetryEvent)

@[simp] theorem merge_default : a.merge {} = a := rfl

theorem countIn_add (bounds : Bounds Nat 9) (hist hist' : Counts) (value : Option Nat) :
    (fun i => hist i + countIn bounds hist' value i) =
      countIn bounds (fun i => hist i + hist' i) value := by
  cases value with
  | none => rfl
  | some value =>
    funext i
    by_cases hi : i = histBucket value bounds
    · subst hi
      simp [countIn, Nat.add_assoc]
    · simp [countIn, hi]

theorem merge_add : a.merge (b.add event) = (a.merge b).add event := by
  simp only [merge, add, countIn_add, Nat.add_assoc]

theorem events_add : (a.add event).events = a.events + 1 := by
  have hone := outcome_counted event.outcome
  simp only [add, events]
  omega

end BucketAggregate

theorem merge_aggregate (events events' : List TelemetryEvent) :
    (aggregate events).merge (aggregate events') = aggregate (events ++ events') := by
  induction events' using List.reverseRecOn with
  | nil => simp [aggregate]
  | append_singleton events' event ih =>
    rw [aggregate_concat, BucketAggregate.merge_add, ih, ← List.append_assoc, aggregate_concat]

theorem events_aggregate (events : List TelemetryEvent) :
    (aggregate events).events = events.length := by
  induction events using List.reverseRecOn with
  | nil => rfl
  | append_singleton events event ih =>
    rw [aggregate_concat, BucketAggregate.events_add, ih, List.length_append,
      List.length_singleton]

/-- The histograms of an aggregate are those of the values that were recorded. -/
theorem hist_aggregate (events : List TelemetryEvent) :
    (aggregate events).ttftHist = ttftBoundsMs.histogram (events.filterMap (·.ttftMs)) ∧
      (aggregate events).durationHist =
        durationBoundsMs.histogram (events.filterMap (·.durationMs)) := by
  have counted : ∀ (bounds : Bounds Nat 9) (samples : List Nat) (value : Option Nat),
      countIn bounds (bounds.histogram samples) value =
        bounds.histogram (samples ++ value.toList) := by
    intro bounds samples value
    cases value with
    | none => rw [Option.toList_none, List.append_nil]; rfl
    | some value => rw [Option.toList_some, Bounds.histogram_concat]; rfl
  have split : ∀ (f : TelemetryEvent → Option Nat) (event : TelemetryEvent),
      [event].filterMap f = (f event).toList := by
    intro f event
    cases h : f event <;> simp [h]
  induction events using List.reverseRecOn with
  | nil => exact ⟨rfl, rfl⟩
  | append_singleton events event ih =>
    rw [aggregate_concat, List.filterMap_append, List.filterMap_append, split, split]
    constructor
    · rw [BucketAggregate.add, ih.1, counted]
    · rw [BucketAggregate.add, ih.2, counted]

/-! ## Buckets of events -/

/-- An event with the start of its minute. -/
abbrev Timed := Int × TelemetryEvent

/-- The key of the event's bucket of a scope. -/
def Timed.key (e : Timed) (scope : Scope) : BucketKey := bucketKey e.1 e.2.target scope

/-- The events of a bucket. -/
def eventsAt (key : BucketKey) (events : List Timed) : List TelemetryEvent :=
  (events.filter fun e => e.key key.scope = key).map Prod.snd

/-- The rows are the aggregates of the events. -/
def Holds (rows : Buckets) (events : List Timed) : Prop :=
  ∀ key, (rows.find key).map Prod.snd =
    if eventsAt key events = [] then none else some (aggregate (eventsAt key events))

theorem scope_bucketKey (start : Int) (target : TargetKey) (scope : Scope) :
    (bucketKey start target scope).scope = scope := by
  cases scope <;> rfl

theorem bucketStart_bucketKey (start : Int) (target : TargetKey) (scope : Scope) :
    (bucketKey start target scope).bucketStart = start := by
  cases scope <;> rfl

theorem eventsAt_append (key : BucketKey) (es fs : List Timed) :
    eventsAt key (es ++ fs) = eventsAt key es ++ eventsAt key fs := by
  rw [eventsAt, List.filter_append, List.map_append]
  rfl

theorem holds_empty : Holds (Table.empty _) [] := fun _ => rfl

variable {rows table pending : Buckets} {events kept : List Timed}

theorem find_combine (t : Buckets) (key k : BucketKey) (f : BucketAggregate → BucketAggregate) :
    (t.combine key f).find k =
      if key = k then some (key, f ((t.find key).elim {} Prod.snd)) else t.find k :=
  Table.find_upsert

/-- Entries with different keys are combined each with the row of its own key. -/
theorem find_foldl_combine {ι : Type*} (key : ι → BucketKey)
    (f : ι → BucketAggregate → BucketAggregate) {l : List ι} (hkeys : (l.map key).Nodup)
    (t : Buckets) (k : BucketKey) :
    (l.foldl (fun t i => Buckets.combine t (key i) (f i)) t).find k =
      match l.find? fun i => key i = k with
      | some i => some (k, f i ((t.find k).elim {} Prod.snd))
      | none => t.find k := by
  induction l generalizing t with
  | nil => rfl
  | cons i l ih =>
    obtain ⟨hnew, htail⟩ := List.nodup_cons.mp (List.map_cons ▸ hkeys)
    rw [List.foldl_cons, ih htail, find_combine]
    by_cases hi : key i = k
    · subst hi
      have hnone : (l.find? fun j => key j = key i) = none := by
        rw [List.find?_eq_none]
        intro j hj hji
        exact hnew (of_decide_eq_true hji ▸ List.mem_map_of_mem hj)
      rw [hnone, List.find?_cons_of_pos (by simp), if_pos rfl]
    · rw [List.find?_cons_of_neg (by simpa using hi), if_neg hi]

/-- What the map has for a key, or would begin with. -/
theorem Holds.elim (h : Holds rows events) (key : BucketKey) :
    (rows.find key).elim {} Prod.snd = aggregate (eventsAt key events) := by
  have hkey := h key
  cases hfind : rows.find key with
  | none =>
    rw [hfind] at hkey
    by_cases hempty : eventsAt key events = []
    · rw [hempty]
      rfl
    · rw [if_neg hempty] at hkey
      cases hkey
  | some row =>
    rw [hfind] at hkey
    by_cases hempty : eventsAt key events = []
    · rw [if_pos hempty] at hkey
      cases hkey
    · rw [if_neg hempty] at hkey
      exact Option.some.inj hkey

/-- An event is added to its bucket of each scope. -/
theorem Holds.add (h : Holds pending events) (e : Timed) :
    Holds ([Scope.provider, .account, .model].foldl
      (fun t scope => Buckets.combine t (e.key scope) fun a => a.add e.2) pending)
      (events ++ [e]) := by
  intro key
  have hkeys : ([Scope.provider, .account, .model].map e.key).Nodup := by
    refine List.Nodup.map (fun x y hxy => ?_) (by decide)
    rw [← scope_bucketKey e.1 e.2.target x, ← scope_bucketKey e.1 e.2.target y]
    exact congrArg BucketKey.scope hxy
  rw [eventsAt_append, find_foldl_combine e.key (fun _ a => a.add e.2) hkeys]
  by_cases hkey : e.key key.scope = key
  · have hfound :
        ([Scope.provider, .account, .model].find? fun scope => e.key scope = key).isSome := by
      rw [List.find?_isSome]
      exact ⟨key.scope, by cases key.scope <;> simp, decide_eq_true hkey⟩
    have hat : eventsAt key [e] = [e.2] := by simp [eventsAt, hkey]
    obtain ⟨scope, hscope⟩ := Option.isSome_iff_exists.mp hfound
    rw [hscope, hat, if_neg (by simp), aggregate_concat, ← h.elim]
    rfl
  · have hnone :
        ([Scope.provider, .account, .model].find? fun scope => e.key scope = key) = none := by
      rw [List.find?_eq_none]
      intro scope _ hscope
      refine hkey ?_
      rw [← of_decide_eq_true hscope, Timed.key, Timed.key, scope_bucketKey]
    have hat : eventsAt key [e] = [] := by simp [eventsAt, hkey]
    rw [hnone, hat, List.append_nil]
    exact h key

theorem Holds.addEvent (h : Holds pending events) (now : Int) (event : TelemetryEvent) :
    Holds (addEvent pending now event) (events ++ [(bucketStartOf now, event)]) :=
  h.add (bucketStartOf now, event)

/-- What is older than the retention. -/
def expired (now : Int) (e : Timed) : Bool := e.1 < now - retentionSecs

/-- A bucket is deleted with its events. -/
theorem eventsAt_unexpired (key : BucketKey) (now : Int) (es : List Timed) :
    eventsAt key (es.filter fun e => !expired now e) =
      if key.bucketStart < now - retentionSecs then [] else eventsAt key es := by
  have hstart : ∀ e : Timed, e.key key.scope = key → e.1 = key.bucketStart := by
    intro e he
    rw [← he, Timed.key, bucketStart_bucketKey]
  rw [eventsAt, List.filter_filter]
  split
  next hold =>
    rw [List.map_eq_nil_iff, List.filter_eq_nil_iff]
    intro e _ he
    rw [Bool.and_eq_true, decide_eq_true_iff, Bool.not_eq_true', expired, decide_eq_false_iff_not,
      hstart e (by simpa using he.1)] at he
    exact he.2 hold
  next hold =>
    rw [eventsAt]
    congr 1
    refine List.filter_congr fun e _ => ?_
    by_cases he : e.key key.scope = key
    · rw [expired, hstart e he]
      simp [he, hold]
    · simp [he]

/-- The rows that a transaction has written. -/
theorem Holds.written (h : Holds table kept) (hpending : Holds pending events) (now : Int) :
    Holds (written table pending.rows now) ((kept ++ events).filter fun e => !expired now e) := by
  intro key
  rw [Telemetry.written, Table.find_deleteWhere, eventsAt_unexpired,
    find_foldl_combine Prod.fst (fun row a => a.merge row.2) pending.primaryKey]
  by_cases hold : key.bucketStart < now - retentionSecs
  · simp [hold]
  · have hrow := hpending key
    rw [Table.find] at hrow
    simp only [hold, decide_false, Bool.false_eq_true, if_false, eventsAt_append]
    cases hfind : pending.rows.find? fun r => r.1 = key with
    | none =>
      rw [hfind] at hrow
      have hempty : eventsAt key events = [] := by
        by_contra hne
        rw [if_neg hne] at hrow
        cases hrow
      rw [hempty, List.append_nil]
      exact h key
    | some row =>
      rw [hfind] at hrow
      by_cases hempty : eventsAt key events = []
      · rw [if_pos hempty] at hrow
        cases hrow
      · rw [if_neg hempty] at hrow
        have hvalue : row.2 = aggregate (eventsAt key events) := Option.some.inj hrow
        rw [if_neg (by simp [hempty]), ← merge_aggregate, ← hvalue, ← h.elim]
        rfl

/-- An event has a row in each scope. -/
theorem Holds.exists_row (h : Holds rows events) {e : Timed} (he : e ∈ events) (scope : Scope) :
    ∃ r ∈ rows.rows, r.1 = e.key scope := by
  have hkey := h (e.key scope)
  have hat : eventsAt (e.key scope) events ≠ [] := by
    intro hnil
    rw [eventsAt, List.map_eq_nil_iff, List.filter_eq_nil_iff] at hnil
    exact hnil e he (by simp [Timed.key, scope_bucketKey])
  rw [if_neg hat] at hkey
  obtain ⟨r, hr, -⟩ := Option.map_eq_some_iff.mp hkey
  exact ⟨r, Table.find_eq_some.mp hr⟩

/-- In each scope the rows count every event once. -/
theorem Holds.total (h : Holds rows events) (scope : Scope) :
    (rows.filterRows fun r => r.1.scope = scope).total (fun r => r.2.events) = events.length := by
  have hcount : ∀ r ∈ (rows.filterRows fun r => r.1.scope = scope).rows,
      r.2.events = events.countP fun e => e.key scope = r.1 := by
    intro r hr
    obtain ⟨hmem, hscope⟩ := List.mem_filter.mp hr
    have hscope : r.1.scope = scope := of_decide_eq_true hscope
    have hfind : rows.find r.1 = some r := Table.find_eq_some.mpr ⟨hmem, rfl⟩
    have hvalue := h.elim r.1
    rw [hfind] at hvalue
    rw [show r.2 = _ from hvalue, events_aggregate, eventsAt, List.length_map, hscope,
      List.countP_eq_length_filter]
  rw [Table.total, List.map_congr_left hcount]
  rw [← sum_countP_key (fun e : Timed => e.key scope)
    (rows.filterRows fun r => r.1.scope = scope).primaryKey, List.map_map]
  · rfl
  · intro e he
    obtain ⟨r, hmem, hrkey⟩ := h.exists_row he scope
    refine List.mem_map.mpr ⟨r, List.mem_filter.mpr ⟨hmem, ?_⟩, hrkey⟩
    rw [hrkey, Timed.key, scope_bucketKey]
    exact decide_eq_true rfl

/-! ## The ledger -/

/-- The events themselves, by what became of them. -/
structure Ledger where
  queued : List TelemetryEvent := []
  /-- Counted in `dropped_queue`. -/
  refused : List TelemetryEvent := []
  pending : List Timed := []
  /-- In rows of the table. -/
  kept : List Timed := []
  /-- In rows that a transaction deleted for their age. -/
  expired : List Timed := []
  /-- In a flush that failed. -/
  lost : List Timed := []

/-- The events that a run recorded. -/
def Action.recorded : Action → List TelemetryEvent
  | .record event => [event]
  | _ => []

def recorded (as : List Action) : List TelemetryEvent := as.flatMap Action.recorded

/-- How many events the rows of a scope count. -/
def eventsIn (scope : Scope) (rows : Buckets) : Nat :=
  (rows.filterRows fun r => r.1.scope = scope).total fun r => r.2.events

/-- The worker's counts are those of a ledger in which each recorded event has one place. -/
structure Conserved (as : List Action) (s : TargetTelemetry) (l : Ledger) : Prop where
  queue : s.queue = l.queued
  pending : Holds s.pending l.pending
  table : Holds s.table l.kept
  pendingEvents : s.pendingEvents = min l.pending.length u64Max
  droppedQueue : s.droppedQueue = l.refused.length
  droppedPersistence : (recorded as).length ≤ u64Max → s.droppedPersistence = l.lost.length
  events : (recorded as : Multiset TelemetryEvent) = l.queued + l.refused +
    l.pending.map Prod.snd + l.kept.map Prod.snd + l.expired.map Prod.snd + l.lost.map Prod.snd

variable {as : List Action} {s s' : TargetTelemetry} {l : Ledger}

theorem conserved_start : Conserved [] {} {} where
  queue := rfl
  pending := holds_empty
  table := holds_empty
  pendingEvents := rfl
  droppedQueue := rfl
  droppedPersistence _ := rfl
  events := rfl

namespace Conserved

theorem length (h : Conserved as s l) : (recorded as).length = l.queued.length + l.refused.length +
    l.pending.length + l.kept.length + l.expired.length + l.lost.length := by
  have hcard := congrArg Multiset.card h.events
  simp only [Multiset.card_add, Multiset.coe_card, List.length_map] at hcard
  exact hcard

theorem pending_eq_nil (h : Conserved as s l) (hempty : s.pending.rows.isEmpty = true) :
    l.pending = [] := by
  have htotal := h.pending.total .provider
  simp only [Table.total, Table.filterRows, List.isEmpty_iff.mp hempty, List.filter_nil,
    List.map_nil, List.sum_nil] at htotal
  exact List.eq_nil_of_length_eq_zero htotal.symm

/-- A flush moves the pending events to the table, or to those that are lost. -/
theorem flush (h : Conserved as s l) (now : Int) (commits : Bool) :
    ∃ l', Conserved as (s.flush now commits) l' := by
  rw [TargetTelemetry.flush]
  split
  next hempty =>
    refine ⟨l, { h with pendingEvents := ?_ }⟩
    rw [h.pending_eq_nil hempty]
    rfl
  next =>
    cases commits with
    | true =>
      refine ⟨{ l with
        pending := []
        kept := (l.kept ++ l.pending).filter fun e => !expired now e
        expired := l.expired ++ (l.kept ++ l.pending).filter (expired now) },
        { h with
          pending := holds_empty
          table := h.table.written h.pending now
          pendingEvents := rfl
          events := ?_ }⟩
      have hsplit := Multiset.coe_eq_coe.mpr
        ((List.filter_append_perm (expired now) (l.kept ++ l.pending)).map Prod.snd)
      simp only [List.map_append, ← Multiset.coe_add] at hsplit ⊢
      calc (recorded as : Multiset TelemetryEvent)
          = l.queued + l.refused + l.expired.map Prod.snd + l.lost.map Prod.snd +
              (l.kept.map Prod.snd + l.pending.map Prod.snd) := by
            rw [h.events]
            abel
        _ = _ := by
            rw [← hsplit, List.map_nil, Multiset.coe_nil]
            abel
    | false =>
      refine ⟨{ l with pending := [], lost := l.lost ++ l.pending },
        { h with
          pending := holds_empty
          pendingEvents := rfl
          droppedPersistence := fun hle => ?_
          events := ?_ }⟩
      · have hlength := h.length
        simp only [Bool.false_eq_true, if_false, List.length_append]
        rw [h.droppedPersistence hle, h.pendingEvents]
        omega
      · rw [h.events]
        simp only [List.map_append, ← Multiset.coe_add, List.map_nil, Multiset.coe_nil]
        abel

/-- An event is recorded: it waits or is counted as dropped. -/
theorem record (h : Conserved as s l) (event : TelemetryEvent) :
    ∃ l', Conserved (as ++ [.record event])
      (if s.queue.length < queueCapacity then { s with queue := s.queue ++ [event] }
        else { s with droppedQueue := s.droppedQueue + 1 }) l' := by
  have hrecorded : recorded (as ++ [.record event]) = recorded as ++ [event] := by
    simp [recorded, Action.recorded]
  have hpersistence : (recorded (as ++ [.record event])).length ≤ u64Max →
      s.droppedPersistence = l.lost.length := by
    intro hle
    rw [hrecorded, List.length_append] at hle
    exact h.droppedPersistence (Nat.le_of_add_right_le hle)
  split
  · refine ⟨{ l with queued := l.queued ++ [event] },
      { h with queue := ?_, droppedPersistence := hpersistence, events := ?_ }⟩
    · rw [h.queue]
    · rw [hrecorded, ← Multiset.coe_add, h.events, ← Multiset.coe_add]
      abel
  · refine ⟨{ l with refused := l.refused ++ [event] },
      { h with droppedQueue := ?_, droppedPersistence := hpersistence, events := ?_ }⟩
    · rw [h.droppedQueue, List.length_append, List.length_singleton]
    · rw [hrecorded, ← Multiset.coe_add, h.events, ← Multiset.coe_add]
      abel

/-- An event is received: it is pending. -/
theorem receive (h : Conserved as s l) {event : TelemetryEvent} {queue : List TelemetryEvent}
    (hqueue : s.queue = event :: queue) (now : Int) :
    Conserved as
      { s with
        queue
        pending := addEvent s.pending now event
        pendingEvents := saturatingAdd s.pendingEvents 1 }
      { l with queued := queue, pending := l.pending ++ [(bucketStartOf now, event)] } :=
  { h with
    queue := rfl
    pending := h.pending.addEvent now event
    pendingEvents := by
      rw [List.length_append, List.length_singleton]
      simp only [h.pendingEvents, saturatingAdd]
      omega
    events := by
      rw [h.events, ← h.queue, hqueue, ← List.singleton_append, ← Multiset.coe_add,
        List.map_append, ← Multiset.coe_add, List.map_singleton]
      abel }

theorem of_recorded_eq {bs : List Action} (h : Conserved as s l) (he : recorded bs = recorded as) :
    Conserved bs s l :=
  { h with
    droppedPersistence := by
      rw [he]
      exact h.droppedPersistence
    events := by
      rw [he]
      exact h.events }

theorem step {a : Action} (h : Conserved as s l) (hstep : telemetry.step s a = some s') :
    ∃ l', Conserved (as ++ [a]) s' l' := by
  have quiet : a.recorded = [] → recorded (as ++ [a]) = recorded as := by
    intro hnil
    rw [recorded, List.flatMap_append, List.flatMap_singleton, hnil, List.append_nil, recorded]
  simp only [telemetry] at hstep
  cases a with
  | record event =>
    rw [TargetTelemetry.step] at hstep
    split at hstep
    · obtain rfl := Option.some.inj hstep
      exact h.record event
    · cases hstep
  | receive now flushed commits =>
    rw [TargetTelemetry.step] at hstep
    split at hstep
    next event queue _ hqueue =>
      obtain rfl := Option.some.inj hstep
      have hreceived := (h.receive hqueue now).of_recorded_eq (quiet rfl)
      dsimp only
      split
      · exact hreceived.flush flushed commits
      · exact ⟨_, hreceived⟩
    next => cases hstep
  | tick flushed commits =>
    rw [TargetTelemetry.step] at hstep
    split at hstep
    · obtain rfl := Option.some.inj hstep
      have hquiet := h.of_recorded_eq (quiet rfl)
      split
      · exact ⟨_, hquiet⟩
      · exact hquiet.flush flushed commits
    · cases hstep
  | close flushed commits =>
    rw [TargetTelemetry.step] at hstep
    split at hstep
    next _ hqueue =>
      obtain rfl := Option.some.inj hstep
      have hclosed : Conserved (as ++ [.close flushed commits]) { s with running := false } l :=
        { h.of_recorded_eq (quiet rfl) with }
      dsimp only
      split
      · exact ⟨_, hclosed⟩
      · exact hclosed.flush flushed commits
    next => cases hstep

end Conserved

theorem conserved_of_run (h : telemetry.run as = some s) : ∃ l, Conserved as s l :=
  telemetry.run_induction (I := fun as s => ∃ l, Conserved as s l) ⟨{}, conserved_start⟩
    (fun _ _ _ _ _ ⟨_, hs⟩ hstep => hs.step hstep) as s h

/-- In each scope, the events that were recorded are those in the table or deleted for their age,
those that were dropped, and those that wait. -/
theorem Conserved.count (h : Conserved as s l) (hle : (recorded as).length ≤ u64Max)
    (scope : Scope) :
    (recorded as).length = eventsIn scope s.table + l.expired.length + s.droppedQueue +
      s.droppedPersistence + eventsIn scope s.pending + s.queue.length := by
  rw [h.length, eventsIn, eventsIn, h.table.total, h.pending.total, h.droppedQueue,
    h.droppedPersistence hle, h.queue]
  omega

/-! ## Quantiles -/

/-- The true quantile: the sample of the nearest rank. -/
def nearestRank (samples : List Nat) (q : ℚ) : Option Nat :=
  (inOrder samples)[max ⌈(samples.length : ℚ) * q⌉₊ 1 - 1]?

variable {bounds : Bounds Nat 9} {samples : List Nat} {q q' : ℚ}

/-- The loop finds the first bucket up to which enough samples are counted. -/
theorem reach_eq (hist : Counts) {target : Nat} (htarget : target ≤ u64Max) {l pre : List (Fin 10)}
    (h : pre ++ l = List.finRange 10) :
    reach hist target (min (pre.map hist).sum u64Max) l =
      l.find? fun i => target ≤ cumulative hist i := by
  induction l generalizing pre with
  | nil => rfl
  | cons i l ih =>
    have hsplit := cumulative_of_split h hist
    have hseen : saturatingAdd (min (pre.map hist).sum u64Max) (hist i) =
        min ((pre ++ [i]).map hist).sum u64Max := by
      rw [List.map_append, List.sum_append, List.map_singleton, List.sum_singleton,
        saturatingAdd]
      omega
    have hreach : target ≤ min ((pre ++ [i]).map hist).sum u64Max ↔
        target ≤ cumulative hist i := by
      rw [hsplit, List.map_append, List.sum_append, List.map_singleton, List.sum_singleton]
      omega
    rw [reach, hseen, List.find?_cons]
    by_cases hi : target ≤ cumulative hist i
    · simp only [hreach, hi, if_true, decide_true]
    · simp only [hreach, hi, if_false, decide_false]
      exact ih (by rw [List.append_assoc, List.singleton_append, h])

theorem rank_le (hq : q ≤ 1) (hne : samples ≠ []) :
    max ⌈(samples.length : ℚ) * q⌉₊ 1 ≤ samples.length := by
  refine max_le (Nat.ceil_le.mpr ?_) (List.length_pos_iff.mpr hne)
  exact mul_le_of_le_one_right (Nat.cast_nonneg _) hq

/-- A quantile is the bound of the bucket of the true one. -/
theorem quantile_histogram (bounds : Bounds Nat 9) (hle : samples.length ≤ u64Max) (hq : q ≤ 1) :
    quantile (bounds.histogram samples) bounds q =
      (nearestRank samples q).map fun x => bounds.bound (bounds.bucket x) := by
  rw [quantile, sum_histogram]
  by_cases hne : samples = []
  · subst hne
    simp [nearestRank, inOrder]
  · have hpos := List.length_pos_iff.mpr hne
    have hrank := rank_le hq hne
    have hk : max ⌈(samples.length : ℚ) * q⌉₊ 1 - 1 < (inOrder samples).length := by
      rw [length_inOrder]
      omega
    have hx := List.getElem?_eq_getElem hk
    have htarget : quantileTarget samples.length q = max ⌈(samples.length : ℚ) * q⌉₊ 1 :=
      min_eq_left (hrank.trans hle)
    have hfind : (List.finRange 10).find?
        (fun i => max ⌈(samples.length : ℚ) * q⌉₊ 1 ≤ cumulative (bounds.histogram samples) i) =
          some (bounds.bucket (inOrder samples)[max ⌈(samples.length : ℚ) * q⌉₊ 1 - 1]) := by
      rw [← Fin.find?_eq_find?_finRange, ← find_cumulative bounds hx]
      congr 1
      funext i
      congr 1
      rw [eq_iff_iff]
      omega
    have hreach := reach_eq (bounds.histogram samples) (hrank.trans hle)
      (List.nil_append (List.finRange 10))
    rw [List.map_nil, List.sum_nil, Nat.zero_min, hfind] at hreach
    simp only [hpos.ne', if_false, htarget, hreach, nearestRank, hx, Option.map_some]

/-- What is reported as a quantile of the samples. It is below the true one just where that is
beyond the last bound. -/
structure Reports (bounds : Bounds Nat 9) (samples : List Nat) (q : ℚ) (reported : Option Nat) :
    Prop where
  isSome_iff : reported.isSome ↔ samples ≠ []
  capped : ∀ x ∈ nearestRank samples q, ∀ y ∈ reported, min x bounds.top ≤ y
  below_iff : ∀ x ∈ nearestRank samples q, ∀ y ∈ reported, y < x ↔ bounds.top < x

/-- The reported quantiles are ordered. -/
structure Safe (bounds : Bounds Nat 9) (samples : List Nat) (p50 p95 p99 : Option Nat) : Prop where
  median : Reports bounds samples (1 / 2) p50
  high : Reports bounds samples (19 / 20) p95
  highest : Reports bounds samples (99 / 100) p99
  ordered : ∀ a ∈ p50, ∀ b ∈ p95, ∀ c ∈ p99, a ≤ b ∧ b ≤ c

theorem reports_quantile (bounds : Bounds Nat 9) (hle : samples.length ≤ u64Max) (hq : q ≤ 1) :
    Reports bounds samples q (quantile (bounds.histogram samples) bounds q) := by
  have below : ∀ x ∈ nearestRank samples q,
      ∀ y ∈ quantile (bounds.histogram samples) bounds q, y = bounds.bound (bounds.bucket x) := by
    intro x hx y hy
    rw [Option.mem_def] at hx hy
    rw [quantile_histogram bounds hle hq, hx, Option.map_some] at hy
    exact (Option.some.inj hy).symm
  constructor
  · rw [quantile_histogram bounds hle hq, Option.isSome_map, nearestRank,
      ← Option.ne_none_iff_isSome, ne_eq, List.getElem?_eq_none_iff, not_le, length_inOrder,
      ← List.length_pos_iff]
    constructor
    · omega
    · intro hpos
      have hrank := rank_le hq (List.length_pos_iff.mp hpos)
      omega
  · intro x hx y hy
    rw [below x hx y hy]
    rcases le_or_gt x bounds.top with hle | hlt
    · exact (min_le_left _ _).trans (bounds.le_bound_bucket_iff.mpr hle)
    · rw [bounds.bound_bucket_of_top_lt hlt]
      exact min_le_right _ _
  · intro x hx y hy
    rw [below x hx y hy, ← not_le, bounds.le_bound_bucket_iff, not_le]

/-- A higher quantile is reported as no less. -/
theorem quantile_mono (bounds : Bounds Nat 9) (hle : samples.length ≤ u64Max) (hqq : q ≤ q')
    (hq : q' ≤ 1) : ∀ a ∈ quantile (bounds.histogram samples) bounds q,
      ∀ b ∈ quantile (bounds.histogram samples) bounds q', a ≤ b := by
  intro a ha b hb
  rw [quantile_histogram bounds hle (hqq.trans hq)] at ha
  rw [quantile_histogram bounds hle hq] at hb
  obtain ⟨x, hx, rfl⟩ := Option.map_eq_some_iff.mp ha
  obtain ⟨y, hy, rfl⟩ := Option.map_eq_some_iff.mp hb
  refine bounds.sorted (bounds.monotone_bucket (le_of_rank_le ?_ hx hy))
  refine Nat.sub_le_sub_right (max_le_max (Nat.ceil_mono ?_) le_rfl) 1
  exact mul_le_mul_of_nonneg_left hqq (Nat.cast_nonneg _)

theorem safe_quantiles (bounds : Bounds Nat 9) (hle : samples.length ≤ u64Max) :
    Safe bounds samples (quantile (bounds.histogram samples) bounds (1 / 2))
      (quantile (bounds.histogram samples) bounds (19 / 20))
      (quantile (bounds.histogram samples) bounds (99 / 100)) where
  median := reports_quantile bounds hle (by norm_num)
  high := reports_quantile bounds hle (by norm_num)
  highest := reports_quantile bounds hle (by norm_num)
  ordered a ha b hb c hc :=
    ⟨quantile_mono bounds hle (by norm_num) (by norm_num) a ha b hb,
      quantile_mono bounds hle (by norm_num) (by norm_num) b hb c hc⟩

/-- A summary of these events has safe quantiles. -/
structure TelemetrySummary.Safe (summary : TelemetrySummary) (events : List TelemetryEvent) :
    Prop where
  ttft : Telemetry.Safe ttftBoundsMs (events.filterMap (·.ttftMs)) summary.ttftP50Ms
    summary.ttftP95Ms summary.ttftP99Ms
  duration : Telemetry.Safe durationBoundsMs (events.filterMap (·.durationMs))
    summary.durationP50Ms summary.durationP95Ms summary.durationP99Ms

theorem safe_summary {events : List TelemetryEvent} (hle : events.length ≤ u64Max)
    (key : SummaryKey) (windowSecs : Int) :
    (TelemetrySummary.fromAggregate key (aggregate events) windowSecs).Safe events := by
  have hlength : ∀ f : TelemetryEvent → Option Nat, (events.filterMap f).length ≤ u64Max :=
    fun f => (List.length_filterMap_le f events).trans hle
  obtain ⟨httft, hduration⟩ := hist_aggregate events
  constructor
  · rw [TelemetrySummary.fromAggregate]
    simp only [httft]
    exact safe_quantiles _ (hlength _)
  · rw [TelemetrySummary.fromAggregate]
    simp only [hduration]
    exact safe_quantiles _ (hlength _)

/-! ## Summaries -/

/-- The event is in the rows of a summary. -/
def Timed.summarised (cutoff : Int) (key : SummaryKey) (e : Timed) : Bool :=
  cutoff ≤ e.1 ∧ summaryKey (e.key key.scope) = key

theorem foldl_merge (rows : List (BucketKey × BucketAggregate)) (kept : List Timed)
    (h : ∀ r ∈ rows, r.2 = aggregate (eventsAt r.1 kept)) (before : List TelemetryEvent) :
    rows.foldl (fun a r => a.merge r.2) (aggregate before) =
      aggregate (before ++ rows.flatMap fun r => eventsAt r.1 kept) := by
  induction rows generalizing before with
  | nil => simp
  | cons r rows ih =>
    obtain ⟨hr, hrows⟩ := List.forall_mem_cons.mp h
    rw [List.foldl_cons, hr, merge_aggregate, ih hrows, List.flatMap_cons, List.append_assoc]

/-- A summary is made from the events in the table, each once. -/
theorem Holds.combined (h : Holds rows kept) (cutoff : Int) (key : SummaryKey) :
    ∃ events, events.Perm ((kept.filter (Timed.summarised cutoff key)).map Prod.snd) ∧
      combined rows.rows cutoff key = aggregate events := by
  let chosen := rows.rows.filter fun r => cutoff ≤ r.1.bucketStart ∧ summaryKey r.1 = key
  have hvalue : ∀ r ∈ chosen, r.2 = aggregate (eventsAt r.1 kept) := by
    intro r hr
    have helim := h.elim r.1
    rwa [Table.find_eq_some.mpr ⟨(List.mem_filter.mp hr).1, rfl⟩] at helim
  have hscope : ∀ r ∈ chosen, eventsAt r.1 kept =
      (kept.filter fun e => e.key key.scope = r.1).map Prod.snd := by
    intro r hr
    have hkey := (of_decide_eq_true (List.mem_filter.mp hr).2).2
    rw [eventsAt, ← hkey, summaryKey]
  refine ⟨chosen.flatMap fun r => eventsAt r.1 kept, ?_, ?_⟩
  · have hperm := (flatMap_filter_perm (fun e : Timed => e.key key.scope)
      (Table.nodup_filter rows.primaryKey _ : (chosen.map Prod.fst).Nodup) kept).map Prod.snd
    rw [List.map_flatMap, List.flatMap_map] at hperm
    rw [List.flatMap_congr hscope]
    refine hperm.trans (.of_eq ?_)
    congr 1
    refine List.filter_congr fun e he => ?_
    rw [Timed.summarised, decide_eq_decide]
    constructor
    · intro hmem
      obtain ⟨r, hr, hrkey⟩ := List.mem_map.mp hmem
      obtain ⟨hstart, hkey⟩ := of_decide_eq_true (List.mem_filter.mp hr).2
      rw [hrkey] at hstart hkey
      exact ⟨by rwa [Timed.key, bucketStart_bucketKey] at hstart, hkey⟩
    · rintro ⟨hstart, hkey⟩
      obtain ⟨r, hr, hrkey⟩ := h.exists_row he key.scope
      refine List.mem_map.mpr ⟨r, List.mem_filter.mpr ⟨hr, decide_eq_true ?_⟩, hrkey⟩
      rw [hrkey]
      exact ⟨by rwa [Timed.key, bucketStart_bucketKey], hkey⟩
  · exact foldl_merge chosen kept hvalue []

/-- What holds of the telemetry after a run. -/
structure Accounted (as : List Action) (s : TargetTelemetry) (l : Ledger) : Prop
    extends Conserved as s l where
  count : ∀ scope, (recorded as).length ≤ u64Max →
    (recorded as).length = eventsIn scope s.table + l.expired.length + s.droppedQueue +
      s.droppedPersistence + eventsIn scope s.pending + s.queue.length
  /-- The quantiles of a summary are those of the events in the table. -/
  summaries : ∀ cutoff key windowSecs, (recorded as).length ≤ u64Max →
    ∃ events, events.Perm ((l.kept.filter (Timed.summarised cutoff key)).map Prod.snd) ∧
      (TelemetrySummary.fromAggregate key (combined s.table.rows cutoff key) windowSecs).Safe events

theorem Conserved.accounted (h : Conserved as s l) : Accounted as s l where
  toConserved := h
  count scope hle := h.count hle scope
  summaries cutoff key windowSecs hle := by
    obtain ⟨events, hperm, heq⟩ := h.table.combined cutoff key
    refine ⟨events, hperm, ?_⟩
    rw [heq]
    refine safe_summary ?_ key windowSecs
    have hlength := h.length
    have hfilter := List.length_filter_le (Timed.summarised cutoff key) l.kept
    have hevents := hperm.length_eq
    rw [List.length_map] at hevents
    omega

/-- Every run is accounted for, and the quantiles of any events are safe. -/
theorem telemetry_accounted (h : telemetry.run as = some s) :
    (∃ l, Accounted as s l) ∧ ∀ events key windowSecs, events.length ≤ u64Max →
      (TelemetrySummary.fromAggregate key (aggregate events) windowSecs).Safe events := by
  obtain ⟨l, hl⟩ := conserved_of_run h
  exact ⟨⟨l, hl.accounted⟩, fun events key windowSecs hle => safe_summary hle key windowSecs⟩

/-- A request of more than ten minutes. -/
def slowEvent : TelemetryEvent where
  target := ⟨"p", "a", "m"⟩
  attempted := true
  outcome := .success
  ttftMs := none
  durationMs := some 700000
  fallbackAttempt := false
  causedFallback := false
  providerCircuitOpen := false
  providerCircuitRecovery := false
  halfOpenProbe := false

/-- The queue takes as many events as it has room for. -/
theorem run_records (event : TelemetryEvent) {n : Nat} (hn : n ≤ queueCapacity) :
    telemetry.run (List.replicate n (.record event)) =
      some { queue := List.replicate n event } := by
  induction n with
  | zero => rfl
  | succ n ih =>
    rw [List.replicate_succ', telemetry.run_snoc, ih (Nat.le_of_succ_le hn), Option.bind_some]
    simp [telemetry, TargetTelemetry.step, List.length_replicate, Nat.lt_of_succ_le hn,
      ← List.replicate_succ']

/-- The queue is full, an event is dropped, a transaction fails, and the next one commits. -/
def overflowRun : List Action :=
  List.replicate queueCapacity (.record slowEvent) ++
    [.record slowEvent, .receive 60 60 true, .tick 62 false, .receive 63 63 true, .tick 64 true]

/-- An event is written, one is lost with its transaction and one with the queue. -/
theorem telemetry_accounted_slow :
    ∃ s, telemetry.run overflowRun = some s ∧
      (s.droppedQueue = 1 ∧ s.droppedPersistence = 1 ∧ s.table.rows.length = 3) ∧
      (∃ l, Accounted overflowRun s l) ∧ ∀ events key windowSecs, events.length ≤ u64Max →
        (TelemetrySummary.fromAggregate key (aggregate events) windowSecs).Safe events := by
  obtain ⟨s, htail, hcounts⟩ :
      ∃ s ∈ telemetry.runFrom { queue := List.replicate queueCapacity slowEvent }
        [.record slowEvent, .receive 60 60 true, .tick 62 false, .receive 63 63 true,
          .tick 64 true],
        s.droppedQueue = 1 ∧ s.droppedPersistence = 1 ∧ s.table.rows.length = 3 := by
    decide +kernel
  have hrun : telemetry.run overflowRun = some s := by
    rw [overflowRun, telemetry.run_append, run_records slowEvent le_rfl, Option.bind_some]
    exact htail
  exact ⟨s, hrun, hcounts, telemetry_accounted hrun⟩

/-- A duration beyond the last bound is reported as the last bound. -/
theorem slow_quantile_below : ¬ ∀ (events : List TelemetryEvent) (key : SummaryKey) windowSecs,
    ∀ x ∈ nearestRank (events.filterMap (·.durationMs)) (99 / 100),
      ∀ y ∈ (TelemetrySummary.fromAggregate key (aggregate events) windowSecs).durationP99Ms,
        x ≤ y := by
  intro h
  have hceil : ⌈(1 : ℚ) * (99 / 100)⌉₊ = 1 := (Nat.ceil_eq_iff one_ne_zero).mpr (by norm_num)
  have hx : nearestRank [700000] (99 / 100) = some 700000 := by
    rw [nearestRank, List.length_singleton, Nat.cast_one, hceil]
    rfl
  have hy : (TelemetrySummary.fromAggregate ⟨.provider, "p", none, none⟩ (aggregate [slowEvent])
      60).durationP99Ms = some 600000 := by
    rw [TelemetrySummary.fromAggregate, (hist_aggregate [slowEvent]).2]
    change quantile (durationBoundsMs.histogram [700000]) _ _ = _
    rw [quantile_histogram _ (by decide) (by norm_num), hx]
    rfl
  exact absurd (h [slowEvent] _ _ 700000 hx 600000 hy) (by decide)

end Kinetix.Telemetry
