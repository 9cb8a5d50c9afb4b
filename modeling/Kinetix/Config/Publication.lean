import Kinetix.Config.Writes
import Kinetix.Library.Machine
import Kinetix.Library.TaskList

/-!
# Publication of snapshots

Edits of the configuration and reloads of the registry at the same time, each statement and each
table read a step of its own, and the swap of the published snapshot another one. What is published
is the configuration of one instant, and none that is too old, if the statements and the swaps come
in an order that nothing in the code sees to.

## Implementation notes

An edit is any list of statements, of handlers or of the request pipeline. One that fails half way
makes no further step. An instant is what the database holds between two statements; it is whole if
no edit is half done. A reload starts with the call, and it returns with its swap.
-/

namespace Kinetix.Config
open StateMachine Statements

/-- The tables at one time, and whether no edit was under way. -/
structure Instant where
  db : Tables
  whole : Bool

/-- The statements that an edit has still to make. -/
structure Edit where
  /-- It has made a statement. -/
  begun : Bool
  rest : List (Tables → Tables)

def Edit.whole (e : Edit) : Bool := !e.begun || e.rest.isEmpty

/-- A reload under way: what it has read, and what it reads next. -/
structure Reload where
  startedAt : Nat
  asked : List Query
  left : Program Query (fun q => Option q.Rows) (Option Snapshot)
  /-- The instant of the last read so far. -/
  readAt : Nat

/-- The tables, the edits and reloads under way, and what is published. -/
structure Serving where
  db : Tables
  edits : List Edit
  earlier : List Instant
  reloads : List Reload
  published : Snapshot
  /-- The latest start of a reload that has returned. -/
  returned : Option Nat

/-- A statement, a read or a swap. -/
inductive ServingAction where
  | edit (statements : List (Tables → Tables))
  | statement (i : Nat)
  | reload
  | read (i : Nat) (fails : Bool)
  | swap (i : Nat)

/-- A reload takes its next read. -/
def Reload.read (r : Reload) (db : Tables) (now : Nat) (fails : Bool) : Option Reload :=
  match r.left with
  | .make q next => some { r with
      asked := r.asked ++ [q]
      left := next (if fails then none else some (db.rows q))
      readAt := now }
  | .done _ => none

namespace Serving

def whole (s : Serving) : Bool := s.edits.all Edit.whole

def now (s : Serving) : Nat := s.earlier.length

def instants (s : Serving) : List Instant := s.earlier ++ [⟨s.db, s.whole⟩]

def publish (s : Serving) (i : Nat) (r : Reload) (snap : Snapshot) : Serving :=
  { s with
    reloads := s.reloads.eraseIdx i
    published := snap
    returned := some (max (s.returned.getD 0) r.startedAt) }

def step (s : Serving) : ServingAction → Option Serving
  | .edit statements => some { s with edits := s.edits ++ [⟨false, statements⟩] }
  | .statement i =>
    match s.edits[i]? with
    | some ⟨_, write :: rest⟩ => some { s with
        db := write s.db
        edits := s.edits.set i ⟨true, rest⟩
        earlier := s.instants }
    | _ => none
  | .reload => some { s with reloads := s.reloads ++ [⟨s.now, [], reload.run, s.now⟩] }
  | .read i fails =>
    (s.reloads[i]?.bind fun r => r.read s.db s.now fails).map fun r =>
      { s with reloads := s.reloads.set i r }
  | .swap i =>
    match s.reloads[i]? with
    | some r =>
      match r.left with
      | .done (some snap) => some (s.publish i r snap)
      | .done none => some { s with reloads := s.reloads.eraseIdx i }
      | .make _ _ => none
    | none => none

end Serving

/-- A process with this configuration, before its first reload. -/
def serving (db : Tables) : Machine Serving ServingAction where
  start := ⟨db, [], [], [], {}, none⟩
  step := Serving.step

/-- What is published since a reload returned is the configuration of a whole instant no earlier
than the start of any reload that has returned. -/
def Serving.Consistent (s : Serving) : Prop :=
  ∀ start, s.returned = some start → ∃ (n : Nat) (db : Tables), start ≤ n ∧
    s.instants[n]? = some ⟨db, true⟩ ∧ s.published = snapshotOf db

/-- It has read the tables and not failed. -/
def Reload.publishes (r : Reload) : Bool :=
  match r.left with
  | .done snap => snap.isSome
  | .make _ _ => false

/-- The next read is the last one. -/
def Reload.readsLast (r : Reload) (db : Tables) : Bool :=
  match r.left with
  | .make q next => (next (some (db.rows q))).finished
  | .done _ => false

/-- No reload under way has read what the statement writes. -/
def Serving.Unread (s : Serving) (write : Tables → Tables) : Prop :=
  ∀ r ∈ s.reloads, r.left.finished = false → ∀ q ∈ r.asked, (write s.db).rows q = s.db.rows q

/-- A statement writes nothing that a reload under way has already read, a reload takes its last
read while no edit is half done, and one that took its last read before another one started does not
swap after it. -/
def Serving.Orderly (s : Serving) : ServingAction → Prop
  | .statement i => ∀ e ∈ s.edits[i]?, ∀ write ∈ e.rest.head?, s.Unread write
  | .read i false => ∀ r ∈ s.reloads[i]?, r.readsLast s.db = true → s.whole = true
  | .swap i => ∀ r ∈ s.reloads[i]?, r.publishes = true → ∀ start ∈ s.returned, start ≤ r.readAt
  | .edit _ | .reload | .read _ true => True

instance : (q : Query) → DecidableEq q.Rows
  | .listProviders => inferInstanceAs (DecidableEq (List ProviderRow))
  | .listAccounts => inferInstanceAs (DecidableEq (List AccountRow))
  | .listModels => inferInstanceAs (DecidableEq (List ModelRow))
  | .listAliases => inferInstanceAs (DecidableEq (List AliasRow))
  | .listRoutes => inferInstanceAs (DecidableEq (List RouteRow))
  | .routeTargets _ => inferInstanceAs (DecidableEq (List RouteTargetRow))

instance (s : Serving) (write : Tables → Tables) : Decidable (s.Unread write) :=
  inferInstanceAs (Decidable (∀ r ∈ s.reloads, _))

instance (s : Serving) : (a : ServingAction) → Decidable (s.Orderly a)
  | .statement i => inferInstanceAs (Decidable (∀ e ∈ s.edits[i]?, _))
  | .read i false => inferInstanceAs (Decidable (∀ r ∈ s.reloads[i]?, _))
  | .swap i => inferInstanceAs (Decidable (∀ r ∈ s.reloads[i]?, _))
  | .edit _ | .reload | .read _ true => .isTrue trivial

/-! ## An edit of a route -/

/-- The statements of `update_route`, as long as none is refused. -/
def updateRouteStatements (id : String) (f : RouteFields) (targets : List RouteTargetRow) :
    List (Tables → Tables) :=
  (fun db => db.updateRoute id f) :: (fun db => db.clearRouteTargets id) ::
    targets.map fun t db => (db.insertRouteTarget t).getD db

namespace Publication

def fields (description : String) : RouteFields :=
  ⟨description, "priority", "{}", "reject", false, false, none⟩

def oneTarget : RouteTargetRow := ⟨"t", "r", none, "m", 1, 1, "{}", "{}"⟩

def provider : ProviderRow :=
  ⟨"p", "acme", "https://acme.example", "openai", "bearer", none, none, "{}", 1000, "permissive",
    none, "{}", 1, 0, "", 0, "", "", "", "", "manual", none, none⟩

def model : ModelRow :=
  ⟨"m", "p", "large", "Large", 1, none, none, "{}", "{}", "{}", "{}", "{}", "{}", "", ""⟩

/-- A route with one target. -/
def oneRoute : Tables where
  providers := [provider]
  accounts := []
  models := [model]
  aliases := []
  routes := [newRoute "r" "fast" "" (fields "old")]
  routeTargets := [oneTarget]

def edit : ServingAction := .edit (updateRouteStatements "r" (fields "new") [oneTarget])

/-- The route is edited, and then read. -/
def edited : List ServingAction :=
  [edit] ++ List.replicate 3 (.statement 0) ++ (.reload :: List.replicate 6 (.read 0 false)) ++
    [.swap 0]

end Publication

/-! ## The invariant -/

/-- What a reload under way knows. -/
structure Reload.Sound (r : Reload) (s : Serving) : Prop where
  started : r.startedAt ≤ s.now
  reading : r.left.finished = false →
    Reached (fun q => some (s.db.rows q)) reload.run r.asked r.left
  stops : r.left.Stops
  read : ∀ snap, r.left = .done (some snap) → r.startedAt ≤ r.readAt ∧
    ∃ db, s.instants[r.readAt]? = some ⟨db, true⟩ ∧ snap = snapshotOf db

structure Serving.Inv (s : Serving) : Prop where
  sound : ∀ r ∈ s.reloads, r.Sound s
  consistent : s.Consistent

namespace Serving
variable {s s' : Serving} {a : ServingAction}

@[simp] theorem length_instants : s.instants.length = s.now + 1 := by
  simp [instants, now]

theorem getElem?_now : s.instants[s.now]? = some ⟨s.db, s.whole⟩ := by
  simp [instants, now]

theorem getElem?_instants_of_prefix (h : s.instants <+: s'.instants) {n : Nat} {x : Instant}
    (hn : s.instants[n]? = some x) : s'.instants[n]? = some x := by
  obtain ⟨later, hlater⟩ := h
  rw [← hlater, List.getElem?_append_left (List.getElem?_eq_some_iff.mp hn).1]
  exact hn

/-- Statements only add instants. -/
theorem instants_step (h : s.step a = some s') : s.instants <+: s'.instants := by
  cases a with
  | edit statements =>
    cases h
    simp [instants, whole, Edit.whole]
  | statement i =>
    rw [step] at h
    split at h
    · cases h
      exact List.prefix_append s.instants _
    · cases h
  | reload =>
    cases h
    exact List.prefix_rfl
  | read i fails =>
    obtain ⟨r, -, rfl⟩ := Option.map_eq_some_iff.mp h
    exact List.prefix_rfl
  | swap i =>
    rw [step] at h
    split at h
    · split at h
      · cases h
        exact List.prefix_rfl
      · cases h
        exact List.prefix_rfl
      · cases h
    · cases h

theorem now_le (h : s.instants <+: s'.instants) : s.now ≤ s'.now := by
  have hlen := h.length_le
  rwa [length_instants, length_instants, Nat.add_le_add_iff_right] at hlen

end Serving

section
variable {s s' : Serving} {r r' : Reload}

/-- What a reload knows stays true while what it has read stays as it is. -/
theorem Reload.Sound.mono (hr : r.Sound s) (h : s.instants <+: s'.instants)
    (hrows : r.left.finished = false → ∀ q ∈ r.asked, s'.db.rows q = s.db.rows q) : r.Sound s' := by
  constructor
  · exact hr.started.trans (Serving.now_le h)
  · intro hleft
    exact (hr.reading hleft).replay fun q hq => by rw [hrows hleft q hq]
  · exact hr.stops
  · intro snap hleft
    obtain ⟨hle, db, hdb, hsnap⟩ := hr.read snap hleft
    exact ⟨hle, db, Serving.getElem?_instants_of_prefix h hdb, hsnap⟩

theorem Serving.Consistent.mono (hc : s.Consistent) (h : s.instants <+: s'.instants)
    (hreturned : s'.returned = s.returned) (hpublished : s'.published = s.published) :
    s'.Consistent := by
  intro start hstart
  obtain ⟨n, db, hle, hdb, hsnap⟩ := hc start (hreturned ▸ hstart)
  exact ⟨n, db, hle, getElem?_instants_of_prefix h hdb, hpublished.trans hsnap⟩

/-- A reload that takes its next read knows the tables that it has read. -/
theorem Reload.Sound.read_next {fails : Bool} (hr : r.Sound s)
    (hread : r.read s.db s.now fails = some r')
    (hlast : fails = false → r.readsLast s.db = true → s.whole = true) : r'.Sound s := by
  rw [Reload.readsLast] at hlast
  rw [Reload.read] at hread
  cases hleft : r.left with
  | done result =>
    rw [hleft] at hread
    cases hread
  | make q next =>
    rw [hleft] at hread hlast
    cases hread
    have hstops := hr.stops
    rw [hleft] at hstops
    obtain ⟨hnone, hsome⟩ := hstops
    cases fails with
    | true =>
      refine ⟨hr.started, fun h => ?_, ?_, fun snap h => ?_⟩
      · simp [hnone, Program.finished] at h
      · rw [if_pos rfl, hnone]
        trivial
      · simp [hnone] at h
    | false =>
      have hreached : Reached (fun q => some (s.db.rows q)) reload.run (r.asked ++ [q])
          (next (some (s.db.rows q))) := by
        apply Reached.make (q := q)
        rw [← hleft]
        apply hr.reading
        rw [hleft]
        rfl
      refine ⟨hr.started, fun _ => hreached, hsome _, fun snap h => ⟨hr.started, ?_⟩⟩
      have hanswer := hreached.answer_eq
      rw [reload_answer] at hanswer
      change next (some (s.db.rows q)) = .done (some snap) at h
      rw [h] at hanswer
      have hwhole : s.whole = true := hlast rfl (congrArg Program.finished h)
      refine ⟨s.db, ?_, Option.some.inj hanswer⟩
      rw [← hwhole]
      exact Serving.getElem?_now

theorem Serving.inv_start (db : Tables) : (serving db).start.Inv where
  sound := fun _ hr => absurd hr List.not_mem_nil
  consistent := fun _ h => Option.noConfusion rfl (heq_of_eq h)

/-- An edit that begins, and one of its statements that a reload has not to see. -/
theorem Serving.Inv.of_edit (hI : s.Inv) (h : s.instants <+: s'.instants)
    (hreloads : s'.reloads = s.reloads) (hreturned : s'.returned = s.returned)
    (hpublished : s'.published = s.published)
    (hrows : ∀ r ∈ s.reloads, r.left.finished = false → ∀ q ∈ r.asked,
      s'.db.rows q = s.db.rows q) : s'.Inv where
  sound r hr := (hI.sound r (hreloads ▸ hr)).mono h (hrows r (hreloads ▸ hr))
  consistent := hI.consistent.mono h hreturned hpublished

/-- A step of a reload, with what each of them knows before it. -/
theorem Serving.Inv.of_sound (h : s.instants <+: s'.instants) (hdb : s'.db = s.db)
    (hsound : ∀ r ∈ s'.reloads, r.Sound s) (hc : s'.Consistent) : s'.Inv where
  sound r hr := (hsound r hr).mono h fun _ q _ => by rw [hdb]
  consistent := hc

theorem Reload.sound_start (s : Serving) : Reload.Sound ⟨s.now, [], reload.run, s.now⟩ s where
  started := le_rfl
  reading := fun _ => Reached.start
  stops := stops_reload
  read := by
    intro snap h
    have hfinished : false = true := congrArg Program.finished h
    cases hfinished

/-- A swap publishes the configuration of the instant at which the reload took its last read. -/
theorem Reload.Sound.consistent_publish {i : Nat} {snap : Snapshot} (hr : r.Sound s)
    (hleft : r.left = .done (some snap)) (hreturned : ∀ start ∈ s.returned, start ≤ r.readAt) :
    (s.publish i r snap).Consistent := by
  intro start hstart
  obtain ⟨hle, db, hdb, hsnap⟩ := hr.read snap hleft
  refine ⟨r.readAt, db, ?_, hdb, hsnap⟩
  obtain rfl := Option.some.inj hstart
  apply max_le _ hle
  cases hbefore : s.returned with
  | none => exact Nat.zero_le _
  | some before => exact hreturned before hbefore

/-- Each step keeps the invariant. -/
theorem Serving.Inv.step {a : ServingAction} (hI : s.Inv) (ha : s.Orderly a)
    (h : s.step a = some s') : s'.Inv := by
  have hinstants := Serving.instants_step h
  cases a with
  | edit statements =>
    cases h
    exact hI.of_edit hinstants rfl rfl rfl fun _ _ _ _ _ => rfl
  | statement i =>
    rw [Serving.step] at h
    split at h
    · rename_i begun write rest he
      cases h
      exact hI.of_edit hinstants rfl rfl rfl (ha ⟨begun, write :: rest⟩ he write rfl)
    · cases h
  | reload =>
    cases h
    apply Serving.Inv.of_sound hinstants rfl
    · intro r hr
      rcases List.mem_append.mp hr with hr | hr
      · exact hI.sound r hr
      · rw [List.mem_singleton.mp hr]
        exact Reload.sound_start s
    · exact hI.consistent.mono hinstants rfl rfl
  | read i fails =>
    obtain ⟨r', hr', rfl⟩ := Option.map_eq_some_iff.mp h
    obtain ⟨r, hr, hread⟩ := Option.bind_eq_some_iff.mp hr'
    have hsound := hI.sound r (List.mem_of_getElem? hr)
    apply Serving.Inv.of_sound hinstants rfl
    · intro r₀ hr₀
      rcases List.mem_or_eq_of_mem_set hr₀ with hr₀ | rfl
      · exact hI.sound r₀ hr₀
      · apply hsound.read_next hread
        rintro rfl
        exact ha r hr
    · exact hI.consistent.mono hinstants rfl rfl
  | swap i =>
    rw [Serving.step] at h
    split at h
    · rename_i r hr
      split at h
      · rename_i snap hleft
        cases h
        apply Serving.Inv.of_sound hinstants rfl
        · exact fun r₀ hr₀ => hI.sound r₀ (List.mem_of_mem_eraseIdx hr₀)
        · apply (hI.sound r (List.mem_of_getElem? hr)).consistent_publish hleft
          apply ha r hr
          rw [Reload.publishes, hleft]
          rfl
      · cases h
        apply Serving.Inv.of_sound hinstants rfl
        · exact fun r₀ hr₀ => hI.sound r₀ (List.mem_of_mem_eraseIdx hr₀)
        · exact hI.consistent.mono hinstants rfl rfl
      · cases h
    · cases h

/-- In every run in the order in question, each published snapshot is the configuration of one whole
instant, which no reload that has returned started after. -/
theorem snapshots_consistent (db : Tables) {as : List ServingAction}
    (hc : (serving db).Meets (fun _ => Serving.Orderly) as) (h : (serving db).run as = some s) :
    s.Consistent := by
  refine (serving db).run_induction_of_meets (I := fun _ => Serving.Inv) (Serving.inv_start db) ?_
    as s hc h |>.consistent
  exact fun _ _ _ _ hI ha hs => hI.step ha hs

theorem snapshots_consistent_edited :
    ∃ s, (serving Publication.oneRoute).run Publication.edited = some s ∧ s.Consistent := by
  have hc : (serving Publication.oneRoute).Meets (fun _ => Serving.Orderly) Publication.edited :=
    Machine.Along.meets _ (by decide)
  exact ⟨_, rfl, snapshots_consistent Publication.oneRoute hc rfl⟩

/-- In every such run each route of that instant is served with all of its targets. -/
theorem routes_served (db : Tables) {as : List ServingAction}
    (hc : (serving db).Meets (fun _ => Serving.Orderly) as) (h : (serving db).run as = some s)
    {start : Nat} (hstart : s.returned = some start) :
    ∃ (n : Nat) (db : Tables), start ≤ n ∧ s.instants[n]? = some ⟨db, true⟩ ∧
      ∀ c ∈ db.routes, s.published.routeTargets c.id = some (db.targetsOf c.id) := by
  have hI : s.Inv := (serving db).run_induction_of_meets (I := fun _ => Serving.Inv)
    (Serving.inv_start db) (fun _ _ _ _ hI ha hs => hI.step ha hs) as s hc h
  obtain ⟨n, db, hle, hdb, hsnap⟩ := hI.consistent start hstart
  refine ⟨n, db, hle, hdb, fun c hc => ?_⟩
  rw [hsnap]
  exact routeTargets_snapshotOf hc

theorem routes_served_edited :
    ∃ s, (serving Publication.oneRoute).run Publication.edited = some s ∧ ∃ (n : Nat) (db : Tables),
      s.instants[n]? = some ⟨db, true⟩ ∧
        ∀ c ∈ db.routes, s.published.routeTargets c.id = some (db.targetsOf c.id) := by
  have hc : (serving Publication.oneRoute).Meets (fun _ => Serving.Orderly) Publication.edited :=
    Machine.Along.meets _ (by decide)
  obtain ⟨n, db, -, hdb⟩ := routes_served Publication.oneRoute hc rfl rfl
  exact ⟨_, rfl, n, db, hdb⟩

end

/-! ## Torn and stale snapshots -/

namespace Publication

/-- The route is edited between the reads of the routes and of its targets. -/
def torn : List ServingAction :=
  [edit, .reload, .read 0 false, .read 0 false, .read 0 false, .read 0 false, .read 0 false,
    .statement 0, .statement 0, .read 0 false, .swap 0]

/-- A reload reads before the edit and swaps after one that reads after it. -/
def stale : List ServingAction :=
  [edit] ++ (.reload :: List.replicate 6 (.read 0 false)) ++ List.replicate 3 (.statement 0) ++
    (.reload :: List.replicate 6 (.read 1 false)) ++ [.swap 1, .swap 0]

/-- What a snapshot serves of the route. -/
def view (snap : Snapshot) : Option String × Option (List RouteTargetRow) :=
  ((snap.routes "r").map RouteRow.description, snap.routeTargets "r")

/-- What is served of the route is not what the database held since the reload started. -/
def unlike (s : Serving) : Bool :=
  s.returned.any fun start =>
    (s.instants.drop start).all fun x => view s.published ≠ view (snapshotOf x.db)

theorem not_consistent_of_unlike {s : Serving} (h : unlike s = true) : ¬ s.Consistent := by
  intro hc
  obtain ⟨start, hstart, hall⟩ := (Option.any_eq_true _ _).mp h
  obtain ⟨n, db, hle, hdb, hsnap⟩ := hc start hstart
  have hmem : (⟨db, true⟩ : Instant) ∈ s.instants.drop start := by
    apply List.mem_of_getElem? (i := n - start)
    rw [List.getElem?_drop, Nat.add_sub_cancel' hle]
    exact hdb
  have hne := List.all_eq_true.mp hall _ hmem
  rw [hsnap] at hne
  simp at hne

theorem not_consistent_of_run {as : List ServingAction}
    (h : ((serving oneRoute).run as).any unlike = true) :
    ∃ s, (serving oneRoute).run as = some s ∧ ¬ s.Consistent := by
  obtain ⟨s, hs, hu⟩ := (Option.any_eq_true _ _).mp h
  exact ⟨s, hs, not_consistent_of_unlike hu⟩

end Publication

open Publication

theorem snapshots_not_consistent :
    (∃ s, (serving oneRoute).run torn = some s ∧ ¬ s.Consistent) ∧
      ∃ s, (serving oneRoute).run stale = some s ∧ ¬ s.Consistent :=
  ⟨not_consistent_of_run (by decide), not_consistent_of_run (by decide)⟩

end Kinetix.Config
