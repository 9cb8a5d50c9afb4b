import Kinetix.Pipeline.DriveStream
import Mathlib.Data.List.Nodup

/-!
# Indexes and ids of normalized tool calls

A call is known by its id, and its index is its place among the calls of the stream. This fails if
an upstream uses an id that is later made up for a call without one, if arguments come for an index
at which no call was opened, and after as many calls as there are indexes.
-/

namespace Kinetix.Pipeline
open Frontends StateMachine

/-- An event and what is sent for it. -/
abbrev SentEvent := StreamEvent × StreamEvent

/-- The id that is made up for a call at a place. -/
def generatedAt (requestId : String) (place : Nat) : String :=
  s!"call_{plainId requestId}_{place % indexBound}"

/-- The ids of the calls, with the one that an event opens, if that is a new one. -/
def openCall (requestId : String) (calls : List String) : StreamEvent → List String
  | .toolCallStart _ id _ _ =>
    match id.filter (· ≠ "") with
    | some id => if id ∈ calls then calls else calls ++ [id]
    | none => calls ++ [generatedAt requestId calls.length]
  | _ => calls

/-- The ids of the calls of a stream, in the order in which they are opened. -/
def callIds (requestId : String) (events : List StreamEvent) : List String :=
  events.foldl (openCall requestId) []

/-- The indexes and ids with which calls were sent. -/
def startedIn (steps : List SentEvent) : List (Nat × Option String) :=
  steps.filterMap fun p =>
    match p.2 with
    | .toolCallStart index id _ _ => some (index, id)
    | _ => none

/-- The index with which the last call was sent that was opened at an upstream index. -/
def openedAt (index : Nat) (steps : List SentEvent) : Option Nat :=
  steps.foldl (fun found p =>
    match p with
    | (.toolCallStart upstream _ _ _, .toolCallStart canonical _ _ _) =>
      if upstream = index then some canonical else found
    | _ => found) none

/-- A pending signature outlasts the event. -/
def Passes : StreamEvent → Prop
  | .start _ | .toolCallArgsDelta _ _ | .usage _ => True
  | _ => False

/-- An event that is nothing but the signature came last, but for events that let it pass. -/
def Marked (signature : String) (events : List StreamEvent) : Prop :=
  ∃ before after, events = before ++ .thinkingDelta "" (some signature) :: after ∧
    ∀ e ∈ after, Passes e

namespace ToolStreamState

/-- The events of a stream in the batches in which they come. -/
def normalizeBatches (s : ToolStreamState) : List (List StreamEvent) →
    ToolStreamState × List StreamEvent
  | [] => (s, [])
  | events :: batches =>
    let (s, out) := s.normalize events
    let (s, rest) := normalizeBatches s batches
    (s, out ++ rest)

def trace (s : ToolStreamState) (events : List StreamEvent) : List SentEvent :=
  events.zip (s.normalize events).2

end ToolStreamState

open ToolStreamState

/-- An id that is made up is not one that was sent before. -/
def Fresh (requestId : String) (events : List StreamEvent) : Prop :=
  Each (fun pre p => ∀ index id name signature canonical sent name' signature',
    p = (.toolCallStart index id name signature, .toolCallStart canonical sent name' signature') →
    id.filter (· ≠ "") = none → ∀ other, (other, sent) ∉ startedIn pre)
    ((new requestId).trace events)

/-- Arguments are sent for the call that was last opened at their index. -/
def Routed (requestId : String) (events : List StreamEvent) : Prop :=
  Each (fun pre p => ∀ index args sent, p = (.toolCallArgsDelta index args, sent) →
    ∃ canonical, sent = .toolCallArgsDelta canonical args ∧ openedAt index pre = some canonical)
    ((new requestId).trace events)

/-- A call is sent with its own signature, or else with the one that came just before it. -/
def Signed (requestId : String) (events : List StreamEvent) : Prop :=
  Each (fun pre p => ∀ index id name own canonical sent name' signature,
    p = (.toolCallStart index id name own, .toolCallStart canonical sent name' signature) →
    ∀ g, signature = some g ↔ own = some g ∨ own = none ∧ Marked g (pre.map Prod.fst))
    ((new requestId).trace events)

/-- The normalization of a stream is exact. -/
structure Exact (requestId : String) (events : List StreamEvent) : Prop where
  batches : ∀ batches : List (List StreamEvent), batches.flatten = events →
    ((new requestId).normalizeBatches batches).2 = ((new requestId).normalize events).2
  bijective : ∀ p ∈ startedIn ((new requestId).trace events),
    ∀ q ∈ startedIn ((new requestId).trace events), p.1 = q.1 ↔ p.2 = q.2
  fresh : Fresh requestId events
  routed : Routed requestId events
  signed : Signed requestId events

/-- No call that comes without an id gets one that a call before it has. -/
def NoClash (requestId : String) (events : List StreamEvent) : Prop :=
  Each (fun pre e => ∀ index id name signature, e = .toolCallStart index id name signature →
    id.filter (· ≠ "") = none →
    generatedAt requestId (callIds requestId pre).length ∉ callIds requestId pre) events

/-- Arguments only come for an index at which a call was opened. -/
def NoOrphan (events : List StreamEvent) : Prop :=
  Each (fun pre e => ∀ index args, e = .toolCallArgsDelta index args →
    ∃ id name signature, .toolCallStart index id name signature ∈ pre) events

/-! ## Steps -/

namespace ToolStreamState
variable {s : ToolStreamState} {events : List StreamEvent} {e : StreamEvent}

theorem normalize_append (s : ToolStreamState) (xs ys : List StreamEvent) :
    s.normalize (xs ++ ys) = (((s.normalize xs).1.normalize ys).1,
      (s.normalize xs).2 ++ ((s.normalize xs).1.normalize ys).2) := by
  induction xs generalizing s with
  | nil => rfl
  | cons x xs ih =>
    rw [List.cons_append, normalize, normalize]
    dsimp only
    rw [ih]
    rfl

theorem normalizeBatches_eq (s : ToolStreamState) (batches : List (List StreamEvent)) :
    s.normalizeBatches batches = s.normalize batches.flatten := by
  induction batches generalizing s with
  | nil => rfl
  | cons events batches ih =>
    rw [List.flatten_cons, normalize_append, normalizeBatches]
    dsimp only
    rw [ih]

theorem length_normalize (s : ToolStreamState) (events : List StreamEvent) :
    (s.normalize events).2.length = events.length := by
  induction events generalizing s with
  | nil => rfl
  | cons e events ih =>
    rw [normalize, List.length_cons, List.length_cons]
    exact congrArg Nat.succ (ih _)

theorem normalize_snoc (s : ToolStreamState) (events : List StreamEvent) (e : StreamEvent) :
    s.normalize (events ++ [e]) = (((s.normalize events).1.normalizeEvent e).1,
      (s.normalize events).2 ++ [((s.normalize events).1.normalizeEvent e).2]) := by
  rw [normalize_append]
  rfl

theorem trace_snoc (s : ToolStreamState) (events : List StreamEvent) (e : StreamEvent) :
    s.trace (events ++ [e]) =
      s.trace events ++ [(e, ((s.normalize events).1.normalizeEvent e).2)] := by
  rw [trace, normalize_snoc, List.zip_append (length_normalize s events).symm]
  rfl

theorem map_fst_trace (s : ToolStreamState) (events : List StreamEvent) :
    (s.trace events).map Prod.fst = events :=
  List.map_fst_zip (length_normalize s events).ge

theorem requestId_normalizeEvent : (s.normalizeEvent e).1.requestId = s.requestId := by
  cases e <;> rfl

theorem requestId_normalize (requestId : String) (events : List StreamEvent) :
    ((new requestId).normalize events).1.requestId = plainId requestId := by
  induction events using List.reverseRecOn with
  | nil => rfl
  | append_singleton events e ih => rw [normalize_snoc, requestId_normalizeEvent, ih]

end ToolStreamState

variable (requestId : String) (events : List StreamEvent) (index : Nat)

theorem callIds_snoc (e : StreamEvent) :
    callIds requestId (events ++ [e]) = openCall requestId (callIds requestId events) e :=
  List.foldl_append ..

theorem startedIn_snoc (steps : List SentEvent) (p : SentEvent) :
    startedIn (steps ++ [p]) = startedIn steps ++ startedIn [p] :=
  List.filterMap_append ..

/-! ## Signatures -/

theorem marked_nil (g : String) : ¬ Marked g [] := by
  rintro ⟨before, after, h, -⟩
  exact List.append_ne_nil_of_right_ne_nil before (List.cons_ne_nil _ after) h.symm

/-- An event that passes leaves the signature, and any other event puts its own in its place. -/
theorem marked_snoc {g : String} {events : List StreamEvent} {e : StreamEvent} :
    Marked g (events ++ [e]) ↔
      e = .thinkingDelta "" (some g) ∨ Passes e ∧ Marked g events := by
  constructor
  · rintro ⟨before, after, h, hafter⟩
    rcases List.eq_nil_or_concat after with rfl | ⟨after, last, rfl⟩
    · exact Or.inl (List.cons.inj (List.append_inj' h rfl).2).1
    · rw [List.concat_eq_append] at h hafter
      rw [← List.cons_append, ← List.append_assoc] at h
      obtain ⟨rfl, hlast⟩ := List.append_inj' h rfl
      obtain ⟨rfl, -⟩ := List.cons.inj hlast
      refine Or.inr ⟨hafter e (by simp), before, after, rfl, fun e' he' => ?_⟩
      exact hafter e' (List.mem_append_left _ he')
  · rintro (rfl | ⟨hpass, before, after, rfl, hafter⟩)
    · exact ⟨events, [], rfl, fun _ h => (List.not_mem_nil h).elim⟩
    · refine ⟨before, after ++ [e], by simp, fun e' he' => ?_⟩
      rcases List.mem_append.mp he' with he' | he'
      · exact hafter e' he'
      · rwa [List.mem_singleton.mp he']

/-- What is pending is the signature that came last. -/
theorem pendingSignature_eq_some (g : String) :
    ((new requestId).normalize events).1.pendingSignature = some g ↔ Marked g events := by
  induction events using List.reverseRecOn with
  | nil => exact iff_of_false (by simp [ToolStreamState.normalize, new]) (marked_nil g)
  | append_singleton events e ih =>
    rw [normalize_snoc, marked_snoc]
    cases e with
    | start _ | toolCallArgsDelta _ _ | usage _ =>
      simpa [normalizeEvent, Passes] using ih
    | textDelta _ | refusalDelta _ | toolCallStart _ _ _ _ | finish _ =>
      simp [normalizeEvent, startTool, Passes]
    | thinkingDelta text signature =>
      simp only [normalizeEvent, Passes, false_and, or_false, StreamEvent.thinkingDelta.injEq]
      split
      · rename_i h
        simp [h.1]
      · rename_i h
        refine iff_of_false (by simp) ?_
        rintro ⟨rfl, rfl⟩
        exact h ⟨rfl, rfl⟩

theorem signed : Signed requestId events := by
  induction events using List.reverseRecOn with
  | nil => exact fun i => i.elim0
  | append_singleton events e ih =>
    rw [Signed, trace_snoc, each_snoc]
    refine ⟨ih, ?_⟩
    intro index id name own canonical sent name' signature hp g
    obtain ⟨rfl, hsent⟩ := Prod.mk.inj hp
    obtain ⟨-, -, -, rfl⟩ := StreamEvent.toolCallStart.inj hsent
    rw [map_fst_trace, ← pendingSignature_eq_some requestId events g]
    cases own with
    | none | some own => simp

/-! ## Arguments -/

theorem openedAt_snoc (steps : List SentEvent) (p : SentEvent) : openedAt index (steps ++ [p]) =
      match p with
      | (.toolCallStart upstream _ _ _, .toolCallStart canonical _ _ _) =>
        if upstream = index then some canonical else openedAt index steps
      | _ => openedAt index steps := by
  rw [openedAt, List.foldl_append]
  rfl

theorem upstreamIndexes_eq : ((new requestId).normalize events).1.upstreamIndexes index =
      openedAt index ((new requestId).trace events) := by
  induction events using List.reverseRecOn with
  | nil => rfl
  | append_singleton events e ih =>
    rw [normalize_snoc, trace_snoc, openedAt_snoc]
    cases e with
    | toolCallStart upstream id name signature =>
      simp only [normalizeEvent, startTool, Function.update_apply]
      rw [ih]
      exact if_congr eq_comm rfl rfl
    | _ => exact ih

/-- A call was opened at an index exactly if one was sent for it. -/
theorem openedAt_isSome : (openedAt index ((new requestId).trace events)).isSome ↔
      ∃ id name signature, .toolCallStart index id name signature ∈ events := by
  induction events using List.reverseRecOn with
  | nil => simp [trace, openedAt]
  | append_singleton events e ih =>
    rw [trace_snoc, openedAt_snoc]
    cases e with
    | toolCallStart upstream id name signature =>
      simp only [normalizeEvent, startTool, List.mem_append, List.mem_singleton]
      by_cases h : upstream = index
      · subst h
        exact iff_of_true (by simp) ⟨id, name, signature, Or.inr rfl⟩
      · simp only [if_neg h, ih, StreamEvent.toolCallStart.injEq, Ne.symm h, false_and,
          or_false]
    | _ => simpa using ih

theorem routed_iff : Routed requestId events ↔ NoOrphan events := by
  induction events using List.reverseRecOn with
  | nil => exact iff_of_true (fun i => i.elim0) (fun i => i.elim0)
  | append_singleton events e ih =>
    rw [Routed, trace_snoc, each_snoc, NoOrphan, each_snoc]
    refine and_congr ih ?_
    cases e with
    | toolCallArgsDelta upstream args =>
      have hopened := openedAt_isSome requestId events upstream
      constructor
      · intro h index args' he
        obtain ⟨rfl, rfl⟩ := StreamEvent.toolCallArgsDelta.inj he
        obtain ⟨canonical, -, hcanonical⟩ := h _ _ _ rfl
        exact hopened.mp (Option.isSome_of_eq_some hcanonical)
      · intro h index args' sent hp
        obtain ⟨he, rfl⟩ := Prod.mk.inj hp
        obtain ⟨rfl, rfl⟩ := StreamEvent.toolCallArgsDelta.inj he
        obtain ⟨canonical, hcanonical⟩ := Option.isSome_iff_exists.mp (hopened.mpr (h _ _ rfl))
        refine ⟨canonical, ?_, hcanonical⟩
        rw [← upstreamIndexes_eq] at hcanonical
        rw [normalizeEvent, hcanonical]
        rfl
    | _ =>
      refine iff_of_true ?_ ?_
      · intro index args sent hp
        cases (Prod.mk.inj hp).1
      · intro index args he
        cases he

/-! ## Indexes and ids -/

/-- A call with an id keeps it. -/
theorem ToolStreamState.startTool_named (s : ToolStreamState) (index : Nat) {id : String}
    (name : String)
    (signature : Option String) (hne : id ≠ "") :
      (s.startTool index (some id) name signature).1.ids =
      Function.update s.ids id ((s.ids id).or (some (s.canonicalIndex (some id)))) ∧
    (s.startTool index (some id) name signature).2 =
      .toolCallStart (s.canonicalIndex (some id)) (some id) name
        (signature.or s.pendingSignature) := by
  have hfilter : (some id).filter (· ≠ "") = some id := by simp [hne]
  constructor
  · simp only [startTool, hfilter]
  · simp only [startTool, hfilter]

/-- The calls are numbered by their places. -/
structure Numbered (s : ToolStreamState) (calls : List String) (steps : List SentEvent) : Prop where
  nodup : calls.Nodup
  nonempty : "" ∉ calls
  next : s.nextIndex = calls.length % indexBound
  ids : ∀ id, s.ids id = if id ∈ calls then some (calls.idxOf id % indexBound) else none
  started : ∀ index id, (index, id) ∈ startedIn steps ↔
    ∃ call ∈ calls, id = some call ∧ index = calls.idxOf call % indexBound

theorem generatedAt_ne_empty (place : Nat) : generatedAt requestId place ≠ "" := by
  intro h
  have hlength := congrArg String.length h
  simp [generatedAt, toString] at hlength

namespace Numbered
variable {s : ToolStreamState} {calls : List String} {steps : List SentEvent} {requestId : String}

theorem new (requestId : String) : Numbered (new requestId) [] [] where
  nodup := List.nodup_nil
  nonempty := List.not_mem_nil
  next := rfl
  ids _ := rfl
  started _ _ := by simp [startedIn]

/-- The call of an id that is known keeps its index. -/
theorem known (h : Numbered s calls steps) {index : Nat} {id name : String}
    {signature : Option String} (hne : id ≠ "") (hid : id ∈ calls) :
    Numbered (s.startTool index (some id) name signature).1 calls
        (steps ++ [(.toolCallStart index (some id) name signature,
          (s.startTool index (some id) name signature).2)]) := by
  have hknown : s.ids id = some (calls.idxOf id % indexBound) := by rw [h.ids, if_pos hid]
  have hindex : s.canonicalIndex (some id) = calls.idxOf id % indexBound := by
    rw [canonicalIndex, Option.bind_some, hknown]
    rfl
  obtain ⟨hids, hsent⟩ := s.startTool_named index name signature hne
  refine ⟨h.nodup, h.nonempty, ?_, ?_, ?_⟩
  · simpa [startTool, hknown] using h.next
  · intro other
    rw [hids, hknown, ← h.ids other, Function.update_apply]
    split
    · subst other
      exact hknown.symm
    · rfl
  · intro canonical sent
    rw [startedIn_snoc, List.mem_append, h.started, hsent, hindex]
    simp only [startedIn, List.filterMap_cons, List.filterMap_nil, List.mem_singleton,
      Prod.mk.injEq]
    constructor
    · rintro (hold | ⟨rfl, rfl⟩)
      · exact hold
      · exact ⟨id, hid, rfl, rfl⟩
    · exact Or.inl

variable {id : Option String}

/-- A new call gets the next index. -/
theorem opened (h : Numbered s calls steps) {index : Nat} {name call : String}
    {signature : Option String} (hne : call ≠ "") (hnew : call ∉ calls)
    (hunknown : id.bind s.ids = none) (hids : (s.startTool index id name signature).1.ids =
      Function.update s.ids call (some s.nextIndex))
    (hsent : (s.startTool index id name signature).2 =
      .toolCallStart s.nextIndex (some call) name (signature.or s.pendingSignature)) :
    Numbered (s.startTool index id name signature).1 (calls ++ [call])
        (steps ++ [(.toolCallStart index id name signature,
          (s.startTool index id name signature).2)]) := by
  refine ⟨?_, ?_, ?_, ?_, ?_⟩
  · exact List.nodup_append'.mpr ⟨h.nodup, List.nodup_singleton call,
      List.disjoint_singleton.mpr hnew⟩
  · simpa [hne.symm] using h.nonempty
  · rw [List.length_append, List.length_singleton]
    simp [startTool, hunknown, h.next]
  · intro other
    rw [hids, Function.update_apply, h.ids]
    by_cases ho : other = call
    · subst ho
      simp [List.idxOf_append_of_notMem hnew, h.next]
    · by_cases hmem : other ∈ calls
      · simp [ho, hmem, List.idxOf_append_of_mem hmem]
      · simp [ho, hmem]
  · intro canonical sent
    rw [startedIn_snoc, List.mem_append, h.started, hsent]
    simp only [startedIn, List.filterMap_cons, List.filterMap_nil, List.mem_singleton,
      Prod.mk.injEq, List.mem_append]
    constructor
    · rintro (⟨other, hmem, rfl, rfl⟩ | ⟨rfl, rfl⟩)
      · exact ⟨other, Or.inl hmem, rfl, by rw [List.idxOf_append_of_mem hmem]⟩
      · refine ⟨call, Or.inr rfl, rfl, ?_⟩
        rw [List.idxOf_append_of_notMem hnew, List.idxOf_cons_self, Nat.add_zero, h.next]
    · rintro ⟨other, hmem | rfl, rfl, rfl⟩
      · exact Or.inl ⟨other, hmem, rfl, by rw [List.idxOf_append_of_mem hmem]⟩
      · refine Or.inr ⟨?_, rfl⟩
        rw [List.idxOf_append_of_notMem hnew, List.idxOf_cons_self, Nat.add_zero, h.next]

theorem unknown (h : Numbered s calls steps) (hid : ∀ call, id = some call → call ∉ calls) :
    id.bind s.ids = none := by
  cases id with
  | none => rfl
  | some call => rw [Option.bind_some, h.ids, if_neg (hid call rfl)]

/-- A call without an id gets the one of its place. -/
theorem startTool_generated (h : Numbered s calls steps)
    (hrequest : s.requestId = plainId requestId) (index : Nat) (name : String)
    (signature : Option String) (hid : id.filter (· ≠ "") = none) : id.bind s.ids = none ∧
    (s.startTool index id name signature).1.ids =
      Function.update s.ids (generatedAt requestId calls.length) (some s.nextIndex) ∧
    (s.startTool index id name signature).2 =
      .toolCallStart s.nextIndex (some (generatedAt requestId calls.length)) name
        (signature.or s.pendingSignature) := by
  have hunknown : id.bind s.ids = none := by
    apply h.unknown
    rintro call rfl hmem
    have hempty : call = "" := by simpa using hid
    exact h.nonempty (hempty ▸ hmem)
  have hindex : s.canonicalIndex id = s.nextIndex := by rw [canonicalIndex, hunknown]; rfl
  have hgenerated : s.generatedId s.nextIndex = generatedAt requestId calls.length := by
    rw [generatedId, generatedAt, hrequest, h.next]
  refine ⟨hunknown, ?_, ?_⟩
  · simp only [startTool, hid, hindex, hgenerated]
  · simp only [startTool, hid, hindex, hgenerated]

theorem step (h : Numbered s calls steps) (hrequest : s.requestId = plainId requestId)
    (e : StreamEvent)
    (hclash : ∀ index id name signature, e = .toolCallStart index id name signature →
      id.filter (· ≠ "") = none → generatedAt requestId calls.length ∉ calls) :
    Numbered (s.normalizeEvent e).1 (openCall requestId calls e)
      (steps ++ [(e, (s.normalizeEvent e).2)]) := by
  cases e with
  | toolCallStart index id name signature =>
    rw [normalizeEvent, openCall]
    cases hid : id.filter (· ≠ "") with
    | none =>
      obtain ⟨hunknown, hids, hsent⟩ :=
        h.startTool_generated hrequest index name signature hid
      exact h.opened (generatedAt_ne_empty _ _) (hclash _ _ _ _ rfl hid) hunknown hids hsent
    | some call =>
      obtain ⟨rfl, hne⟩ := Option.filter_eq_some_iff.mp hid
      have hne : call ≠ "" := of_decide_eq_true hne
      dsimp only
      split
      · exact h.known hne ‹_›
      · have hunknown : (some call).bind s.ids = none := by
          apply h.unknown
          rintro _ ⟨⟩
          assumption
        have hindex : s.canonicalIndex (some call) = s.nextIndex := by
          rw [canonicalIndex, hunknown]
          rfl
        obtain ⟨hids, hsent⟩ := s.startTool_named index name signature hne
        rw [hindex] at hids hsent
        rw [Option.bind_some] at hunknown
        rw [hunknown] at hids
        exact h.opened hne ‹_› hunknown hids hsent
  | _ =>
    refine ⟨h.nodup, h.nonempty, h.next, h.ids, ?_⟩
    intro index id
    rw [startedIn_snoc, List.mem_append]
    exact (or_iff_left (by simp [startedIn, normalizeEvent])).trans (h.started index id)

end Numbered

/-- As long as no call gets the id of a call before it, the calls are numbered, and that is when the
ids that are made up are fresh. -/
theorem numbered_of_noClash (requestId : String) (events : List StreamEvent) :
    (Fresh requestId events ↔ NoClash requestId events) ∧
      (NoClash requestId events → Numbered ((new requestId).normalize events).1
        (callIds requestId events) ((new requestId).trace events)) := by
  induction events using List.reverseRecOn with
  | nil =>
    exact ⟨iff_of_true (fun i => i.elim0) (fun i => i.elim0), fun _ => Numbered.new requestId⟩
  | append_singleton events e ih =>
    obtain ⟨hiff, hnumbered⟩ := ih
    have hrequest := requestId_normalize requestId events
    rw [Fresh, NoClash, trace_snoc, each_snoc, each_snoc, normalize_snoc, callIds_snoc]
    constructor
    · refine (and_congr_left' hiff).trans (and_congr_right fun hno => ?_)
      have h := hnumbered hno
      constructor
      · rintro hfresh index id name signature rfl hid hmem
        obtain ⟨-, -, hsent⟩ :=
          h.startTool_generated hrequest index name signature hid
        exact hfresh index id name signature _ _ _ _ (congrArg _ hsent) hid _
          ((h.started _ _).mpr ⟨_, hmem, rfl, rfl⟩)
      · rintro hclash index id name signature canonical sent name' signature' hp hid other hmem
        obtain ⟨rfl, hsent⟩ := Prod.mk.inj hp
        obtain ⟨-, -, hgenerated⟩ :=
          h.startTool_generated hrequest index name signature hid
        obtain ⟨-, rfl, -, -⟩ := StreamEvent.toolCallStart.inj (hgenerated.symm.trans hsent)
        obtain ⟨call, hcall, heq, -⟩ := (h.started _ _).mp hmem
        exact hclash _ _ _ _ rfl hid (Option.some.inj heq ▸ hcall)
    · rintro ⟨hno, hclash⟩
      exact (hnumbered hno).step hrequest e hclash

/-- Numbered calls have different indexes as long as there are indexes left. -/
theorem Numbered.bijective_iff {s : ToolStreamState} {calls : List String} {steps : List SentEvent}
    (h : Numbered s calls steps) :
    (∀ p ∈ startedIn steps, ∀ q ∈ startedIn steps, p.1 = q.1 ↔ p.2 = q.2) ↔
      calls.length ≤ indexBound := by
  constructor
  · intro hbij
    by_contra hlt
    rw [Nat.not_le] at hlt
    have hzero : 0 < calls.length := Nat.zero_lt_of_lt hlt
    have hindex : ∀ (i : Nat) (hi : i < calls.length),
        (i % indexBound, some calls[i]) ∈ startedIn steps := by
      intro i hi
      refine (h.started _ _).mpr ⟨calls[i], List.getElem_mem hi, rfl, ?_⟩
      rw [h.nodup.idxOf_getElem i hi]
    have hsame := (hbij _ (hindex 0 hzero) _ (hindex indexBound hlt)).mp (by simp)
    have heq := (h.nodup.getElem_inj_iff).mp (Option.some.inj hsame)
    simp [indexBound] at heq
  · rintro hle ⟨i, a⟩ hp ⟨j, b⟩ hq
    obtain ⟨call, hcall, rfl, rfl⟩ := (h.started _ _).mp hp
    obtain ⟨call', hcall', rfl, rfl⟩ := (h.started _ _).mp hq
    have hlt : calls.idxOf call < indexBound := (List.idxOf_lt_length_iff.mpr hcall).trans_le hle
    have hlt' : calls.idxOf call' < indexBound :=
      (List.idxOf_lt_length_iff.mpr hcall').trans_le hle
    dsimp only
    rw [Nat.mod_eq_of_lt hlt, Nat.mod_eq_of_lt hlt', Option.some.injEq]
    exact List.idxOf_inj hcall

/-- Normalization is exact exactly if no call that comes without an id gets one that a call before
it has, arguments only come for an index at which a call was opened, and there are not more calls
than indexes. -/
theorem normalize_exact_iff (requestId : String) (events : List StreamEvent) :
    Exact requestId events ↔ NoClash requestId events ∧ NoOrphan events ∧
      (callIds requestId events).length ≤ indexBound := by
  obtain ⟨hfresh, hnumbered⟩ := numbered_of_noClash requestId events
  constructor
  · intro h
    have hno := hfresh.mp h.fresh
    exact ⟨hno, (routed_iff requestId events).mp h.routed,
      (hnumbered hno).bijective_iff.mp h.bijective⟩
  · rintro ⟨hno, horphan, hle⟩
    exact {
      batches := fun batches hbatches => by rw [normalizeBatches_eq, hbatches]
      bijective := (hnumbered hno).bijective_iff.mpr hle
      fresh := hfresh.mpr hno
      routed := (routed_iff requestId events).mpr horphan
      signed := signed requestId events }

/-- An upstream names its first call as the second one, which comes without an id, is named. -/
theorem normalize_not_exact : ¬ Exact "req_1" [.toolCallStart 0 (some "call_req1_1") "f" none,
    .toolCallStart 1 none "g" none] := by
  intro h
  have hsame := h.bijective (0, some "call_req1_1") (by decide) (1, some "call_req1_1") (by decide)
  exact absurd (hsame.mpr rfl) (by decide)

end Kinetix.Pipeline
