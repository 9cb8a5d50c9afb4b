import Kinetix.Config.Handlers

/-!
# Failed edits

When a failed edit of a route or an account leaves every row as it was.
-/

namespace Kinetix.Config
open Statements

/-- A call that returns an error leaves every row as it was. -/
def AllOrNothing {α : Type} (x : Handler α) (s : Store) (f : Faults) : Prop :=
  ∀ e, (x.perform Statement.exec (s, f)).1 = .error e → (x.perform Statement.exec (s, f)).2.1 = s

/-- What a call draws for targets is not in use. -/
structure Env.Fresh (env : Env) (s : Store) : Prop where
  injective : Function.Injective env.targetId
  unused : ∀ i, ∀ t ∈ s.tables.routeTargets, t.id ≠ env.targetId i

section
variable {α β : Type} {s s' t : Store} {f g : Faults} {x : Handler α} {k : α → Handler β}
  {r : Except ApiError α}

theorem allOrNothing_iff (h : x.perform Statement.exec (s, f) = (r, (t, g))) :
    AllOrNothing x s f ↔ r.isOk = true ∨ t = s := by
  rw [AllOrNothing, h]
  cases r with
  | error e | ok a => simp [Except.isOk, Except.toBool]

theorem withTables_eq_iff {db : Tables} : ({ s with tables := db } : Store) = s ↔ db = s.tables :=
  ⟨congrArg Store.tables, fun h => congrArg (fun tables => { s with tables }) h⟩

theorem allOrNothing_error_iff {e : ApiError}
    (h : x.perform Statement.exec (s, f) = (.error e, (t, g))) :
    AllOrNothing x s f ↔ t = s :=
  (allOrNothing_iff h).trans (or_iff_right Bool.false_ne_true)

/-- A statement that is made, and the rest of the call. -/
theorem perform_run_bind {st : Statement} {a : st.Answer} {k : st.Answer → Handler β}
    (hf : f 0 = false) (h : st.exec s = some (a, s')) :
    (st.run >>= k).perform Statement.exec (s, f) =
      (k a).perform Statement.exec (s', f.drop 1) :=
  Checked.perform_bind_ok (Checked.perform_require_ok hf h)

theorem perform_run_bind_error {st : Statement} {k : st.Answer → Handler β}
    (h : f 0 = true ∨ st.exec s = none) :
    (st.run >>= k).perform Statement.exec (s, f) = (.error .internal, (s, f.drop 1)) :=
  Checked.perform_bind_error (Checked.perform_require_error h)

/-! ## Targets -/

/-- How many rows go in before one is refused. -/
def entering (db : Tables) : Faults → List RouteTargetRow → Nat
  | _, [] => 0
  | f, row :: rows => if f 0 = false ∧ db.Resolves row then entering db (f.drop 1) rows + 1 else 0

variable {rows : List RouteTargetRow}

theorem entering_eq_length_iff {db : Tables} : entering db f rows = rows.length ↔
      ∀ i row, rows[i]? = some row → f i = false ∧ db.Resolves row := by
  induction rows generalizing f with
  | nil => simp [entering]
  | cons row rows ih =>
    rw [entering]
    constructor
    · intro h i row' hrow
      split at h
      · rename_i hhead
        cases i with
        | zero =>
          cases hrow
          exact hhead
        | succ i => exact ih.mp (Nat.succ.inj h) i row' hrow
      · cases h
    · intro h
      rw [if_pos (h 0 row rfl)]
      exact congrArg Nat.succ (ih.mpr fun i row' hrow => h (i + 1) row' hrow)

/-- The store with more targets. -/
def Store.addTargets (s : Store) (rows : List RouteTargetRow) : Store :=
  { s with tables := { s.tables with routeTargets := s.tables.routeTargets ++ rows } }

@[simp] theorem Store.addTargets_nil (s : Store) : s.addTargets [] = s := by
  simp [Store.addTargets]

theorem Store.addTargets_cons (s : Store) (row : RouteTargetRow) (rows : List RouteTargetRow) :
    s.addTargets (row :: rows) = (s.addTargets [row]).addTargets rows := by
  simp [Store.addTargets]

theorem entering_addTargets {rows' : List RouteTargetRow} (rows : List RouteTargetRow) :
    entering (s.addTargets rows').tables f rows = entering s.tables f rows := by
  induction rows generalizing f with
  | nil => rfl
  | cons row rows ih =>
    rw [entering, entering, ih]
    rfl

/-- Rows that a call inserts, with ids that are not in use. -/
structure Unused (s : Store) (rows : List RouteTargetRow) : Prop where
  nodup : (rows.map RouteTargetRow.id).Nodup
  unused : ∀ row ∈ rows, ∀ t ∈ s.tables.routeTargets, t.id ≠ row.id

theorem Unused.exec_insert {row : RouteTargetRow} (h : Unused s (row :: rows)) :
    (Statement.insertRouteTarget row).exec s =
      if s.tables.Resolves row then some ((), s.addTargets [row]) else none := by
  have hid : ¬ ∃ t ∈ s.tables.routeTargets, t.id = row.id := by
    rintro ⟨t, ht, hid⟩
    exact h.unused row List.mem_cons_self t ht hid
  rw [Statement.exec, Tables.insertRouteTarget]
  by_cases hres : s.tables.Resolves row
  · rw [if_pos hres, if_neg (by simp [hid, hres])]
    rfl
  · rw [if_neg hres, if_pos (Or.inr hres)]
    rfl

theorem Unused.tail {row : RouteTargetRow} (h : Unused s (row :: rows)) :
    Unused (s.addTargets [row]) rows := by
  obtain ⟨hrow, hnodup⟩ := List.nodup_cons.mp h.nodup
  refine ⟨hnodup, fun row' hrow' t ht => ?_⟩
  rcases List.mem_append.mp ht with ht | ht
  · exact h.unused row' (List.mem_cons_of_mem row hrow') t ht
  · rw [List.mem_singleton.mp ht]
    rintro hid
    exact hrow (hid ▸ List.mem_map_of_mem hrow')

/-- The targets go in. -/
theorem perform_writeRouteTargets (h : Unused s rows)
    (henter : entering s.tables f rows = rows.length) :
    (writeRouteTargets rows).perform Statement.exec (s, f) =
      (.ok (), (s.addTargets rows, f.drop rows.length)) := by
  induction rows generalizing s f with
  | nil => simp [writeRouteTargets]
  | cons row rows ih =>
    rw [entering] at henter
    split at henter
    · rename_i hhead
      have hexec := h.exec_insert
      rw [if_pos hhead.2] at hexec
      rw [writeRouteTargets, perform_run_bind hhead.1 hexec]
      rw [ih h.tail (by rw [entering_addTargets]; exact Nat.succ.inj henter)]
      rw [Faults.drop_drop, Nat.add_comm, ← Store.addTargets_cons, List.length_cons]
    · cases henter

/-- The targets go in up to the first one that is refused. -/
theorem perform_writeRouteTargets_error (h : Unused s rows)
    (henter : entering s.tables f rows ≠ rows.length) :
    ∃ g, (writeRouteTargets rows).perform Statement.exec (s, f) =
      (.error .internal, (s.addTargets (rows.take (entering s.tables f rows)), g)) := by
  induction rows generalizing s f with
  | nil => exact absurd rfl henter
  | cons row rows ih =>
    have hexec := h.exec_insert
    rw [entering] at henter ⊢
    split
    · rename_i hhead
      rw [if_pos hhead] at henter
      rw [if_pos hhead.2] at hexec
      obtain ⟨g, hg⟩ := ih (f := f.drop 1) h.tail (by
        rw [entering_addTargets]
        exact fun heq => henter (congrArg Nat.succ heq))
      refine ⟨g, ?_⟩
      rw [writeRouteTargets, perform_run_bind hhead.1 hexec, hg, entering_addTargets,
        ← Store.addTargets_cons, List.take_succ_cons]
    · rename_i hhead
      refine ⟨f.drop 1, ?_⟩
      rw [List.take_zero, Store.addTargets_nil, writeRouteTargets]
      apply perform_run_bind_error
      cases hf : f 0 with
      | true => exact Or.inl rfl
      | false =>
        right
        rw [hexec, if_neg fun hres => hhead ⟨hf, hres⟩]

/-! ## Ending a call -/

/-- The entry is not written. -/
def Unaudited (s : Store) (f : Faults) (row : AuditLogRow) : Prop :=
  f 0 = true ∨ ∃ r ∈ s.audit, r.id = row.id

/-- The store after the audit entry of a call. -/
def audited (s : Store) (f : Faults) (row : AuditLogRow) : Store :=
  (faulty Statement.exec (.insertAudit row) (s, f)).2.1

theorem audited_of_unaudited {row : AuditLogRow} (h : Unaudited s f row) : audited s f row = s := by
  rcases h with h | h
  · rw [audited, faulty_of_fault h]
  · rw [audited, faulty_of_refused (if_pos h)]

theorem audited_of_not {row : AuditLogRow} (h : ¬ Unaudited s f row) :
    audited s f row = { s with audit := s.audit ++ [row] } := by
  obtain ⟨hf, hid⟩ := not_or.mp h
  rw [audited, faulty_of_some (Bool.eq_false_of_not_eq_true hf) (if_neg hid)]

theorem tables_audited (s : Store) (f : Faults) (row : AuditLogRow) :
    (audited s f row).tables = s.tables := by
  by_cases h : Unaudited s f row
  · rw [audited_of_unaudited h]
  · rw [audited_of_not h]

theorem length_asked_readRoutes (db : Tables) (snap : Snapshot) (routes : List RouteRow) :
    ((readRoutes snap routes).run.asked fun q => some (db.rows q)).length = routes.length := by
  induction routes generalizing snap with
  | nil => rfl
  | cons c routes ih => exact congrArg Nat.succ (ih _)

/-- A reload reads five tables, and the targets of each route. -/
theorem length_asked_reload (db : Tables) :
    (reload.run.asked fun q => some (db.rows q)).length = db.routes.length + 5 := by
  have hroutes := length_asked_readRoutes db (db.listAliases.foldl Snapshot.addAlias
    (db.listModels.foldl Snapshot.addModel (db.listAccounts.foldl Snapshot.addAccount
      (db.listProviders.foldl Snapshot.addProvider {})))) db.listRoutes
  rw [Tables.listRoutes, Grouping.sortBy_perm.length_eq] at hroutes
  exact congrArg (· + 5) hroutes

/-- No read of the reload at the end of a call fails. -/
def Reads (db : Tables) (f : Faults) : Prop := ∀ k < db.routes.length + 5, f k = false

instance (db : Tables) (f : Faults) : Decidable (Reads db f) :=
  inferInstanceAs (Decidable (∀ k < db.routes.length + 5, _))

theorem run_reload : ∃ g, (reload.run.subst fun q => Program.one (Statement.select q)).run
    (faulty Statement.exec) (s, f) =
      (if Reads s.tables f then some (snapshotOf s.tables) else none, (s, g)) := by
  have hone : (fun q => (Program.one (Statement.select q)).run (faulty Statement.exec)) =
      faulty fun q s => (Statement.select q).exec s := by
    funext q s
    rfl
  have hreads := run_faulty_of_reads
    (fun q => (rfl : (Statement.select q).exec s = some (s.tables.rows q, s))) stops_reload f
  rw [reload_answer, length_asked_reload] at hreads
  rw [Program.run_subst, hone]
  exact ⟨_, Prod.ext hreads.2 (Prod.ext hreads.1 rfl)⟩

theorem perform_reloadRegistry : ∃ r g, reloadRegistry.perform Statement.exec (s, f) = (r, (s, g)) ∧
    (r.isOk = true ↔ Reads s.tables f) := by
  obtain ⟨g, hg⟩ := run_reload (s := s) (f := f)
  by_cases hreads : Reads s.tables f
  · rw [if_pos hreads] at hg
    refine ⟨.ok (), g, ?_, iff_of_true rfl hreads⟩
    rw [reloadRegistry, Checked.perform, ExceptT.run_mk, Program.run_bind, hg]
    rfl
  · rw [if_neg hreads] at hg
    refine ⟨.error .internal, g, ?_, iff_of_false Bool.false_ne_true hreads⟩
    rw [reloadRegistry, Checked.perform, ExceptT.run_mk, Program.run_bind, hg]
    rfl

/-- The audit entry and the reload at the end of a call. -/
theorem perform_ending (s : Store) (f : Faults) (row : AuditLogRow) (b : β) :
    ∃ r t g, (do
        insertAudit row
        reloadRegistry
        pure b : Handler β).perform Statement.exec (s, f) = (r, (t, g)) ∧ t = audited s f row ∧
      (r.isOk = true ↔ Reads s.tables (f.drop 1)) := by
  obtain ⟨r, g, hreload, hok⟩ := perform_reloadRegistry (s := audited s f row) (f := f.drop 1)
  rw [tables_audited] at hok
  rw [insertAudit, Checked.perform_bind_ok Checked.perform_attempt]
  change ∃ r t g, (reloadRegistry >>= fun _ => pure b : Handler β).perform Statement.exec
    (audited s f row, f.drop 1) = (r, (t, g)) ∧ _
  cases r with
  | ok u => exact ⟨.ok b, _, g, Checked.perform_bind_ok hreload, rfl, hok⟩
  | error e => exact ⟨.error e, _, g, Checked.perform_bind_error hreload, rfl, hok⟩

/-- The targets, and the end of the call. -/
theorem perform_targets (h : Unused s rows) (f : Faults) (row : AuditLogRow) (b : β) : ∃ r t g, (do
        writeRouteTargets rows
        insertAudit row
        reloadRegistry
        pure b : Handler β).perform Statement.exec (s, f) = (r, (t, g)) ∧
      (entering s.tables f rows = rows.length →
        t = audited (s.addTargets rows) (f.drop rows.length) row ∧
          (r.isOk = true ↔ Reads s.tables (f.drop (rows.length + 1)))) ∧
      (entering s.tables f rows ≠ rows.length →
        t = s.addTargets (rows.take (entering s.tables f rows)) ∧ r.isOk = false) := by
  by_cases henter : entering s.tables f rows = rows.length
  · obtain ⟨r, t, g, hend, ht, hok⟩ :=
      perform_ending (s.addTargets rows) (f.drop rows.length) row b
    rw [Faults.drop_drop] at hok
    exact ⟨r, t, g, (Checked.perform_bind_ok (perform_writeRouteTargets h henter)).trans hend,
      fun _ => ⟨ht, hok⟩, fun hne => absurd henter hne⟩
  · obtain ⟨g, hg⟩ := perform_writeRouteTargets_error h henter
    exact ⟨_, _, g, Checked.perform_bind_error hg, fun h => absurd h henter, fun _ => ⟨rfl, rfl⟩⟩

end

/-! ## Routes -/

/-- What a target refers to is stored. -/
def RouteTargetBody.Known (db : Tables) (t : RouteTargetBody) : Prop :=
  (∃ m ∈ db.models, m.id = t.modelId) ∧ ∀ id ∈ t.accountId, ∃ a ∈ db.accounts, a.id = id

/-- The statements for the targets are neither refused nor do they fail. -/
def RouteBody.TargetsEnter (body : RouteBody) (db : Tables) (id : String) (f : Faults) : Prop :=
  ∀ i t, body.targets[i]? = some t → f i = false ∧ (∃ c ∈ db.routes, c.id = id) ∧ t.Known db

section
variable {s : Store} {f : Faults} {env : Env} {body : RouteBody} {id : String}

theorem length_targetRows : (body.targetRows env id).length = body.targets.length :=
  List.length_mapIdx

theorem getElem?_targetRows (i : Nat) : (body.targetRows env id)[i]? =
    body.targets[i]?.map (RouteTargetBody.row env id i) :=
  List.getElem?_mapIdx

theorem mem_targetRows {row : RouteTargetRow} (h : row ∈ body.targetRows env id) :
    ∃ i, row.id = env.targetId i ∧ row.routeId = id := by
  obtain ⟨i, hi⟩ := List.mem_iff_getElem?.mp h
  rw [getElem?_targetRows] at hi
  obtain ⟨t, -, rfl⟩ := Option.map_eq_some_iff.mp hi
  exact ⟨i, rfl, rfl⟩

theorem unused_targetRows (h : env.Fresh s) : Unused s (body.targetRows env id) := by
  constructor
  · have hids : (body.targetRows env id).map RouteTargetRow.id =
        (List.range body.targets.length).map env.targetId := by
      apply List.ext_getElem?
      intro i
      rw [List.getElem?_map, getElem?_targetRows, List.getElem?_map]
      rcases Nat.lt_or_ge i body.targets.length with hi | hi
      · rw [List.getElem?_eq_getElem hi, List.getElem?_range hi]
        rfl
      · rw [List.getElem?_eq_none hi, List.getElem?_eq_none (by simpa using hi)]
        rfl
    rw [hids]
    exact List.nodup_range.map h.injective
  · intro row hrow t ht
    obtain ⟨i, hid, -⟩ := mem_targetRows hrow
    rw [hid]
    exact h.unused i t ht

variable {fields : RouteFields} {db : Tables} {row : AuditLogRow}

theorem entering_targetRows :
    entering db f (body.targetRows env id) = (body.targetRows env id).length ↔
      body.TargetsEnter db id f := by
  rw [entering_eq_length_iff]
  constructor
  · intro hall i t ht
    exact hall i _ (by rw [getElem?_targetRows, ht]; rfl)
  · intro hall i row hrow
    rw [getElem?_targetRows] at hrow
    obtain ⟨t, ht, rfl⟩ := Option.map_eq_some_iff.mp hrow
    exact hall i t ht

def Store.addRoute (s : Store) (row : RouteRow) : Store :=
  { s with tables := { s.tables with routes := s.tables.routes ++ [row] } }

/-- When a failed `create_route` leaves every row as it was: the body is not valid, the route itself
is not inserted, or nothing fails. -/
def CreateRouteSafe (env : Env) (body : RouteBody) (s : Store) (f : Faults) : Prop :=
  (validateRouteBody body).isOk = false ∨
    (f 0 = true ∨ s.tables.insertRoute (body.newRow env) = none) ∨
      body.TargetsEnter (s.addRoute (body.newRow env)).tables env.routeId (f.drop 1) ∧
        ∀ k < s.tables.routes.length + 6, f (k + (body.targets.length + 2)) = false

theorem Tables.insertRoute_eq_some {db db' : Tables} {row : RouteRow}
    (h : db.insertRoute row = some db') : db' = { db with routes := db.routes ++ [row] } := by
  rw [Tables.insertRoute] at h
  split at h
  · cases h
  · exact (Option.some.inj h).symm

theorem exec_insertRoute {row : RouteRow} (h : s.tables.insertRoute row ≠ none) :
    (Statement.insertRoute row).exec s = some ((), s.addRoute row) := by
  obtain ⟨db, hdb⟩ := Option.ne_none_iff_exists'.mp h
  rw [Statement.exec, hdb, Tables.insertRoute_eq_some hdb]
  rfl

/-- A store with one more route. -/
theorem ne_of_routes {t : Store} {row : RouteRow} (h : t.tables.routes = s.tables.routes ++ [row]) :
    t ≠ s := by
  rintro rfl
  have hlen := congrArg List.length h
  simp at hlen

theorem createRoute_allOrNothing (hfresh : env.Fresh s) :
    AllOrNothing (createRoute env body) s f ↔ CreateRouteSafe env body s f := by
  rw [CreateRouteSafe]
  cases hvalid : validateRouteBody body with
  | error e =>
    have hperform : (createRoute env body).perform Statement.exec (s, f) = (.error e, (s, f)) := by
      rw [createRoute, hvalid, Checked.perform_ofResult_error]
    exact iff_of_true ((allOrNothing_error_iff hperform).mpr rfl) (Or.inl rfl)
  | ok u =>
    by_cases hrefused : f 0 = true ∨ s.tables.insertRoute (body.newRow env) = none
    · have hexec : f 0 = true ∨ (Statement.insertRoute (body.newRow env)).exec s = none :=
        hrefused.imp_right fun h => by rw [Statement.exec, h]; rfl
      have hperform : (createRoute env body).perform Statement.exec (s, f) =
          (.error .internal, (s, f.drop 1)) := by
        rw [createRoute, hvalid, Checked.perform_ofResult_ok, perform_run_bind_error hexec]
      exact iff_of_true ((allOrNothing_error_iff hperform).mpr rfl) (Or.inr (Or.inl hrefused))
    · obtain ⟨hf, hinsert⟩ := not_or.mp hrefused
      have hunused : Unused (s.addRoute (body.newRow env)) (body.targetRows env env.routeId) :=
        unused_targetRows ⟨hfresh.injective, hfresh.unused⟩
      obtain ⟨r, t, g, htargets, hall, hsome⟩ := perform_targets hunused (f.drop 1)
        (auditEntry env "route_created" "route" env.routeId body.name
          ("Created route with " ++ toString body.targets.length ++ " targets.")) env.routeId
      have hperform : (createRoute env body).perform Statement.exec (s, f) = (r, (t, g)) := by
        rw [createRoute, hvalid, Checked.perform_ofResult_ok,
          perform_run_bind (Bool.eq_false_of_not_eq_true hf) (exec_insertRoute hinsert)]
        exact htargets
      by_cases henter :
          body.TargetsEnter (s.addRoute (body.newRow env)).tables env.routeId (f.drop 1)
      · obtain ⟨ht, hok⟩ := hall (entering_targetRows.mpr henter)
        have hne : t ≠ s := by
          apply ne_of_routes
          rw [ht, tables_audited]
          rfl
        rw [allOrNothing_iff hperform, or_iff_left hne, hok, or_iff_right Bool.noConfusion,
          or_iff_right hrefused, and_iff_right henter, length_targetRows, Faults.drop_drop]
        rw [Reads, Store.addRoute, List.length_append, List.length_singleton, Nat.add_comm 1]
        rfl
      · obtain ⟨ht, hok⟩ := hsome (mt entering_targetRows.mp henter)
        have hne : t ≠ s := by
          apply ne_of_routes
          rw [ht]
          rfl
        rw [allOrNothing_iff hperform, or_iff_left hne, hok, or_iff_right Bool.noConfusion,
          or_iff_right hrefused]
        exact iff_of_false Bool.false_ne_true fun h => henter h.1

/-! ### Updating a route -/

/-- The store after the row of a route is written and its targets are deleted. -/
def Store.rewritten (s : Store) (id : String) (fields : RouteFields) : Store :=
  { s with tables := (s.tables.updateRoute id fields).clearRouteTargets id }

/-- The first of the targets is not inserted. -/
def RouteBody.FirstRefused (body : RouteBody) (db : Tables) (id : String) (f : Faults) : Prop :=
  ∃ t ∈ body.targets.head?, ¬ (f 0 = false ∧ (∃ c ∈ db.routes, c.id = id) ∧ t.Known db)

/-- When a failed `update_route` leaves every row as it was: the body is not valid, the row of the
route is not written, nothing fails, or what is written before the statement that fails was there
before. -/
def UpdateRouteSafe (env : Env) (id : String) (body : RouteBody) (s : Store) (f : Faults) : Prop :=
  (validateRouteBody body).isOk = false ∨ f 0 = true ∨
    (f 1 = false ∧ body.TargetsEnter s.tables id (f.drop 2) ∧
      Reads s.tables (f.drop (body.targets.length + 3))) ∨
    s.tables.updateRoute id (body.fields env body.fallbackTriggers) = s.tables ∧
      (f 1 = true ∨ s.tables.clearRouteTargets id = s.tables ∧
        (body.FirstRefused s.tables id (f.drop 2) ∨ body.targets = [] ∧ Unaudited s (f.drop 2)
          (auditEntry env "route_updated" "route" id body.name "Updated route configuration.")))

theorem routeIds_updateRoute :
    (∃ c ∈ (db.updateRoute id fields).routes, c.id = id) ↔ ∃ c ∈ db.routes, c.id = id := by
  constructor
  · rintro ⟨c, hc, hid⟩
    obtain ⟨c', hc', rfl⟩ := List.mem_map.mp hc
    refine ⟨c', hc', ?_⟩
    split at hid
    · exact hid
    · exact hid
  · rintro ⟨c, hc, hid⟩
    exact ⟨c.update fields, List.mem_map.mpr ⟨c, hc, if_pos hid⟩, hid⟩

theorem targetsEnter_rewritten :
    body.TargetsEnter (s.rewritten id fields).tables id f ↔ body.TargetsEnter s.tables id f := by
  simp only [RouteBody.TargetsEnter, Store.rewritten, Tables.clearRouteTargets,
    routeIds_updateRoute]
  rfl

theorem firstRefused_rewritten :
    body.FirstRefused (s.rewritten id fields).tables id f ↔ body.FirstRefused s.tables id f := by
  simp only [RouteBody.FirstRefused, Store.rewritten, Tables.clearRouteTargets,
    routeIds_updateRoute]
  rfl

theorem Tables.updateRoute_eq_self (h : (db.updateRoute id fields).routes = db.routes) :
    db.updateRoute id fields = db :=
  congrArg (fun routes => { db with routes }) h

theorem Tables.clearRouteTargets_eq_self
    (h : (db.clearRouteTargets id).routeTargets = db.routeTargets) : db.clearRouteTargets id = db :=
  congrArg (fun routeTargets => { db with routeTargets }) h

/-- What was written for a route was there before only if no target was inserted. -/
theorem addTargets_rewritten_eq_iff {rows : List RouteTargetRow}
    (h : ∀ row ∈ rows, ∀ t ∈ s.tables.routeTargets, t.id ≠ row.id) :
    (s.rewritten id fields).addTargets rows = s ↔
      s.tables.updateRoute id fields = s.tables ∧ s.tables.clearRouteTargets id = s.tables ∧
        rows = [] := by
  constructor
  · intro heq
    have hroutes : (s.tables.updateRoute id fields).routes = s.tables.routes :=
      congrArg (fun t => t.tables.routes) heq
    have htargets : (s.tables.clearRouteTargets id).routeTargets ++ rows = s.tables.routeTargets :=
      congrArg (fun t => t.tables.routeTargets) heq
    have hrows : rows = [] := by
      rw [List.eq_nil_iff_forall_not_mem]
      intro row hrow
      exact h row hrow row (htargets ▸ List.mem_append_right _ hrow) rfl
    rw [hrows, List.append_nil] at htargets
    exact ⟨Tables.updateRoute_eq_self hroutes, Tables.clearRouteTargets_eq_self htargets, hrows⟩
  · rintro ⟨hupdate, hclear, rfl⟩
    rw [Store.addTargets_nil, Store.rewritten, hupdate, hclear]

theorem audited_eq_iff {t : Store} (h : t.audit = s.audit) :
    audited t f row = s ↔ t = s ∧ Unaudited s f row := by
  have hunaudited : Unaudited t f row ↔ Unaudited s f row := by rw [Unaudited, Unaudited, h]
  constructor
  · intro heq
    by_cases hrow : Unaudited t f row
    · rw [audited_of_unaudited hrow] at heq
      exact ⟨heq, hunaudited.mp hrow⟩
    · rw [audited_of_not hrow] at heq
      have hlen := congrArg (fun s => s.audit.length) heq
      simp [h] at hlen
  · rintro ⟨rfl, hrow⟩
    exact audited_of_unaudited hrow

theorem audited_withTables_eq_iff :
    audited { s with tables := db } f row = s ↔ db = s.tables ∧ Unaudited s f row := by
  have haudit : ({ s with tables := db } : Store).audit = s.audit := rfl
  rw [audited_eq_iff haudit, withTables_eq_iff]

theorem take_entering_cons_eq_nil_iff {row : RouteTargetRow} {rows : List RouteTargetRow} :
    (row :: rows).take (entering db f (row :: rows)) = [] ↔ ¬ (f 0 = false ∧ db.Resolves row) := by
  rw [entering]
  by_cases h : f 0 = false ∧ db.Resolves row
  · rw [if_pos h, List.take_succ_cons]
    exact iff_of_false (List.cons_ne_nil _ _) (not_not_intro h)
  · rw [if_neg h, List.take_zero]
    exact iff_of_true rfl h

/-- No target goes in before the first one that is refused. -/
theorem take_entering_eq_nil_iff
    (henter : entering db f (body.targetRows env id) ≠ (body.targetRows env id).length) :
    (body.targetRows env id).take (entering db f (body.targetRows env id)) = [] ↔
      body.FirstRefused db id f := by
  rw [RouteBody.FirstRefused]
  rw [RouteBody.targetRows] at *
  cases htargets : body.targets with
  | nil => simp [htargets, entering] at henter
  | cons t targets =>
    rw [List.mapIdx_cons, take_entering_cons_eq_nil_iff]
    constructor
    · exact fun h => ⟨t, rfl, h⟩
    · rintro ⟨t', ht', h⟩
      cases ht'
      exact h

theorem not_firstRefused (h : body.TargetsEnter db id f) : ¬ body.FirstRefused db id f := by
  rintro ⟨t, ht, hrefused⟩
  exact hrefused (h 0 t (by rwa [← List.head?_eq_getElem?]))

theorem targetRows_eq_nil_iff : body.targetRows env id = [] ↔ body.targets = [] := by
  rw [← List.length_eq_zero_iff, length_targetRows, List.length_eq_zero_iff]

theorem reads_rewritten : Reads (s.rewritten id fields).tables f ↔ Reads s.tables f := by
  rw [Reads, Reads, Store.rewritten, Tables.clearRouteTargets, Tables.updateRoute, List.length_map]

/-- The call wrote nothing new when all of its statements for the route went through. -/
theorem rewritten_eq_iff (h : env.Fresh s) :
    audited ((s.rewritten id fields).addTargets (body.targetRows env id))
        (f.drop (body.targetRows env id).length) row = s ↔
      s.tables.updateRoute id fields = s.tables ∧ s.tables.clearRouteTargets id = s.tables ∧
        body.targets = [] ∧ Unaudited s f row := by
  have hrows : ∀ row ∈ body.targetRows env id, ∀ t ∈ s.tables.routeTargets, t.id ≠ row.id :=
    (unused_targetRows h).unused
  have haudit : ((s.rewritten id fields).addTargets (body.targetRows env id)).audit = s.audit := rfl
  rw [audited_eq_iff haudit, addTargets_rewritten_eq_iff hrows, targetRows_eq_nil_iff]
  constructor
  · rintro ⟨⟨hupdate, hclear, hnil⟩, hrow⟩
    rw [length_targetRows, hnil] at hrow
    exact ⟨hupdate, hclear, hnil, hrow⟩
  · rintro ⟨hupdate, hclear, hnil, hrow⟩
    rw [length_targetRows, hnil]
    exact ⟨⟨hupdate, hclear, rfl⟩, hrow⟩

theorem updateRoute_allOrNothing (hfresh : env.Fresh s) :
    AllOrNothing (updateRoute env id body) s f ↔ UpdateRouteSafe env id body s f := by
  rw [UpdateRouteSafe]
  cases hvalid : validateRouteBody body with
  | error e =>
    have hperform : (updateRoute env id body).perform Statement.exec (s, f) =
        (.error e, (s, f)) := by
      rw [updateRoute, hvalid, Checked.perform_ofResult_error]
    exact iff_of_true ((allOrNothing_error_iff hperform).mpr rfl) (Or.inl rfl)
  | ok u =>
    cases hf : f 0 with
    | true =>
      have hperform : (updateRoute env id body).perform Statement.exec (s, f) =
          (.error .internal, (s, f.drop 1)) := by
        rw [updateRoute, hvalid, Checked.perform_ofResult_ok, perform_run_bind_error (Or.inl hf)]
      exact iff_of_true ((allOrNothing_error_iff hperform).mpr rfl) (Or.inr (Or.inl rfl))
    | false =>
      set fields := body.fields env body.fallbackTriggers with hfields
      have hupdate : (Statement.updateRoute id fields).exec s =
          some ((), { s with tables := s.tables.updateRoute id fields }) := rfl
      rw [or_iff_right Bool.noConfusion, or_iff_right Bool.noConfusion]
      cases hclear : f 1 with
      | true =>
        have hperform : (updateRoute env id body).perform Statement.exec (s, f) =
            (.error .internal,
              ({ s with tables := s.tables.updateRoute id fields }, (f.drop 1).drop 1)) := by
          rw [updateRoute, hvalid, Checked.perform_ofResult_ok, perform_run_bind hf hupdate,
            perform_run_bind_error (Or.inl hclear)]
        rw [allOrNothing_error_iff hperform, withTables_eq_iff]
        simp
      | false =>
        have hunused : Unused (s.rewritten id fields) (body.targetRows env id) := by
          apply unused_targetRows
          refine ⟨hfresh.injective, fun i t ht => hfresh.unused i t ?_⟩
          exact List.mem_of_mem_filter ht
        obtain ⟨r, t, g, htargets, hall, hsome⟩ := perform_targets hunused (f.drop 2)
          (auditEntry env "route_updated" "route" id body.name "Updated route configuration.") ()
        have hperform : (updateRoute env id body).perform Statement.exec (s, f) =
            (r, (t, g)) := by
          rw [updateRoute, hvalid, Checked.perform_ofResult_ok, perform_run_bind hf hupdate,
            perform_run_bind hclear rfl]
          exact htargets
        rw [allOrNothing_iff hperform, and_iff_right rfl, or_iff_right Bool.false_ne_true]
        by_cases henter : body.TargetsEnter s.tables id (f.drop 2)
        · obtain ⟨ht, hok⟩ := hall (entering_targetRows.mpr (targetsEnter_rewritten.mpr henter))
          rw [hok, ht, rewritten_eq_iff hfresh, reads_rewritten, Faults.drop_drop,
            length_targetRows, and_iff_right henter, or_iff_right (not_firstRefused henter)]
          rw [Nat.add_comm 2]
        · have hshort : entering (s.rewritten id fields).tables (f.drop 2)
              (body.targetRows env id) ≠ (body.targetRows env id).length :=
            mt (entering_targetRows.trans targetsEnter_rewritten).mp henter
          have hrows : ∀ row ∈ (body.targetRows env id).take
              (entering (s.rewritten id fields).tables (f.drop 2) (body.targetRows env id)),
              ∀ t ∈ s.tables.routeTargets, t.id ≠ row.id :=
            fun row hrow => (unused_targetRows hfresh).unused row (List.mem_of_mem_take hrow)
          have htargets : body.targets ≠ [] := by
            intro hnil
            exact henter fun i t ht => by simp [hnil] at ht
          obtain ⟨ht, hok⟩ := hsome hshort
          rw [ht, hok, addTargets_rewritten_eq_iff hrows, take_entering_eq_nil_iff hshort,
            firstRefused_rewritten, or_iff_right Bool.false_ne_true]
          rw [or_iff_right fun h => henter h.1, or_iff_left fun h => htargets h.1]

end

/-! ## Accounts -/

/-- A new secret can be stored: the account and its provider are there, the provider takes keys, and
nothing fails. -/
def Rotates (env : Env) (id key : String) (db : Tables) (f : Faults) (enc : String) : Prop :=
  (∀ k < 3, f k = false) ∧ env.encrypt key = some enc ∧ ∃ a ∈ db.getAccount id,
    ∃ p ∈ db.getProvider a.providerId, manualAccountEnrollmentError p.credentialMode = none

def updateAccountEntry (env : Env) (id : String) (body : AccountBody) : AuditLogRow :=
  auditEntry env "account_updated" "account" id body.label "Updated account configuration."

/-- When a failed `update_account` leaves every row as it was: the row of the account is not
written, nothing fails, or what is written before the step that fails was there before. -/
def UpdateAccountSafe (env : Env) (id : String) (body : AccountBody) (s : Store) (f : Faults) :
    Prop :=
  f 0 = true ∨
    match body.newKey with
    | none => Reads s.tables (f.drop 2) ∨ s.tables.updateAccount id body.fields = s.tables ∧
        Unaudited s (f.drop 1) (updateAccountEntry env id body)
    | some key =>
      (s.tables.updateAccount id body.fields = s.tables ∧
        ∀ enc, ¬ Rotates env id key s.tables (f.drop 1) enc) ∨
      ∃ enc, Rotates env id key s.tables (f.drop 1) enc ∧ (Reads s.tables (f.drop 5) ∨
        (s.tables.updateAccount id body.fields = s.tables ∧
          s.tables.setSecret id enc (maskSecret key) = s.tables) ∧
        Unaudited s (f.drop 4) (updateAccountEntry env id body))

section
variable {s : Store} {f : Faults} {env : Env} {body : AccountBody} {id key enc : String}

variable {fields : AccountFields} {db : Tables} {keyMask : String}

theorem getAccount_updateAccount :
    (db.updateAccount id fields).getAccount id = (db.getAccount id).map (·.update fields) := by
  rw [Tables.getAccount, Tables.getAccount, Tables.updateAccount]
  induction db.accounts with
  | nil => rfl
  | cons a accounts ih =>
    by_cases hid : a.id = id
    · have hupdated : (a.update fields).id = id := hid
      rw [List.map_cons, if_pos hid, List.find?_cons_of_pos (by simpa using hupdated),
        List.find?_cons_of_pos (by simpa using hid)]
      rfl
    · rw [List.map_cons, if_neg hid, List.find?_cons_of_neg (by simpa using hid),
        List.find?_cons_of_neg (by simpa using hid)]
      exact ih

theorem rotates_updateAccount :
    Rotates env id key (db.updateAccount id fields) f enc ↔ Rotates env id key db f enc := by
  rw [Rotates, Rotates, getAccount_updateAccount]
  cases db.getAccount id with
  | none => simp
  | some a => simp [AccountRow.update, Tables.getProvider, Tables.updateAccount]

theorem perform_orNotFound_some {α : Type} {message : String} {a : α} {k : α → Handler Unit}
    {x : Store × Faults} : (orNotFound message (some a) >>= k).perform Statement.exec x =
      (k a).perform Statement.exec x :=
  Checked.perform_bind_ok rfl

theorem perform_orNotFound_none {α : Type} {message : String} {k : α → Handler Unit}
    {x : Store × Faults} : (orNotFound message none >>= k).perform Statement.exec x =
      (.error (.notFound message), x) :=
  Checked.perform_bind_error rfl

theorem perform_rotateSecret (h : Rotates env id key s.tables f enc) :
    (rotateSecret env id key).perform Statement.exec (s, f) =
      (.ok (), ({ s with tables := s.tables.setSecret id enc (maskSecret key) }, f.drop 3)) := by
  obtain ⟨hf, henc, a, ha, p, hp, hmode⟩ := h
  have haccount : (Statement.getAccount id).exec s = some (some a, s) := by
    rw [Statement.exec, ha]
  have hprovider : (Statement.getProvider a.providerId).exec s = some (some p, s) := by
    rw [Statement.exec, hp]
  rw [rotateSecret, perform_run_bind (hf 0 (by decide)) haccount, perform_orNotFound_some,
    perform_run_bind (hf 1 (by decide)) hprovider, perform_orNotFound_some, hmode, henc]
  exact Checked.perform_require_ok (hf 2 (by decide)) rfl

theorem perform_rotateSecret_error (h : ∀ enc, ¬ Rotates env id key s.tables f enc) :
    ∃ e g, (rotateSecret env id key).perform Statement.exec (s, f) = (.error e, (s, g)) := by
  rw [rotateSecret]
  cases hf₀ : f 0 with
  | true => exact ⟨_, _, perform_run_bind_error (Or.inl hf₀)⟩
  | false =>
    have hget : Statement.exec (.getAccount id) s = some (s.tables.getAccount id, s) := rfl
    rw [perform_run_bind hf₀ hget]
    cases ha : s.tables.getAccount id with
    | none => exact ⟨_, _, perform_orNotFound_none⟩
    | some a =>
      rw [perform_orNotFound_some]
      cases hf₁ : f 1 with
      | true => exact ⟨_, _, perform_run_bind_error (Or.inl hf₁)⟩
      | false =>
        have hget : Statement.exec (.getProvider a.providerId) s =
            some (s.tables.getProvider a.providerId, s) := rfl
        rw [perform_run_bind hf₁ hget]
        cases hp : s.tables.getProvider a.providerId with
        | none => exact ⟨_, _, perform_orNotFound_none⟩
        | some p =>
          rw [perform_orNotFound_some]
          cases hmode : manualAccountEnrollmentError p.credentialMode with
          | some error => exact ⟨_, _, rfl⟩
          | none =>
            cases henc : env.encrypt key with
            | none => exact ⟨_, _, rfl⟩
            | some enc =>
              have hf₂ : f 2 = true := by
                by_contra hf₂
                refine h enc ⟨?_, henc, a, ha, p, hp, hmode⟩
                intro k hk
                obtain rfl | rfl | rfl : k = 0 ∨ k = 1 ∨ k = 2 := by omega
                · exact hf₀
                · exact hf₁
                · exact Bool.eq_false_of_not_eq_true hf₂
              exact ⟨_, _, Checked.perform_require_error (Or.inl hf₂)⟩

theorem updateAccount_eq_self_iff : db.updateAccount id fields = db ↔
      ∀ a ∈ db.accounts, (if a.id = id then a.update fields else a) = a := by
  rw [← List.map_inj_left, List.map_id']
  exact ⟨congrArg Tables.accounts, fun h => congrArg (fun accounts => { db with accounts }) h⟩

theorem setSecret_eq_self_iff : db.setSecret id enc keyMask = db ↔
      ∀ a ∈ db.accounts, (if a.id = id then { a with secretEnc := enc, keyMask } else a) = a := by
  rw [← List.map_inj_left, List.map_id']
  exact ⟨congrArg Tables.accounts, fun h => congrArg (fun accounts => { db with accounts }) h⟩

/-- The update and the rotation write different columns. -/
theorem AccountRow.update_eq_iff {a : AccountRow} :
    { a.update fields with secretEnc := enc, keyMask } = a ↔
      a.update fields = a ∧ { a with secretEnc := enc, keyMask } = a := by
  cases a
  simp only [AccountRow.update, AccountRow.mk.injEq]
  tauto

theorem setSecret_updateAccount_eq_iff :
    (db.updateAccount id fields).setSecret id enc keyMask = db ↔
      db.updateAccount id fields = db ∧ db.setSecret id enc keyMask = db := by
  constructor
  · intro h
    have haccounts : ∀ a ∈ db.accounts, a.id = id →
        { a.update fields with secretEnc := enc, keyMask } = a := by
      have hmap := congrArg Tables.accounts h
      rw [Tables.setSecret, Tables.updateAccount, List.map_map] at hmap
      intro a ha hid
      have hinj := List.map_inj_left.mp (hmap.trans (List.map_id' db.accounts).symm) a ha
      rwa [Function.comp_apply, if_pos hid,
        if_pos (show (a.update fields).id = id from hid)] at hinj
    rw [updateAccount_eq_self_iff, setSecret_eq_self_iff]
    constructor
    · intro a ha
      split
      · exact (AccountRow.update_eq_iff.mp (haccounts a ha ‹_›)).1
      · rfl
    · intro a ha
      split
      · exact (AccountRow.update_eq_iff.mp (haccounts a ha ‹_›)).2
      · rfl
  · rintro ⟨hupdate, hsecret⟩
    rw [hupdate, hsecret]

theorem reads_updateAccount : Reads (db.updateAccount id fields) f ↔ Reads db f := Iff.rfl

theorem updateAccount_allOrNothing :
    AllOrNothing (updateAccount env id body) s f ↔ UpdateAccountSafe env id body s f := by
  rw [UpdateAccountSafe]
  cases hf : f 0 with
  | true =>
    have hperform : (updateAccount env id body).perform Statement.exec (s, f) =
        (.error .internal, (s, f.drop 1)) := by
      rw [updateAccount, perform_run_bind_error (Or.inl hf)]
    exact iff_of_true ((allOrNothing_error_iff hperform).mpr rfl) (Or.inl rfl)
  | false =>
    rw [or_iff_right Bool.false_ne_true]
    have hupdate : (Statement.updateAccount id body.fields).exec s =
        some ((), { s with tables := s.tables.updateAccount id body.fields }) := rfl
    cases hkey : body.newKey with
    | none =>
      obtain ⟨r, t, g, hend, ht, hok⟩ := perform_ending
        { s with tables := s.tables.updateAccount id body.fields } (f.drop 1)
        (updateAccountEntry env id body) ()
      have hperform : (updateAccount env id body).perform Statement.exec (s, f) =
          (r, (t, g)) := by
        rw [updateAccount, perform_run_bind hf hupdate, hkey]
        exact hend
      rw [allOrNothing_iff hperform, hok, ht, audited_withTables_eq_iff, reads_updateAccount,
        Faults.drop_drop]
    | some key =>
      by_cases hrotates : ∃ enc, Rotates env id key s.tables (f.drop 1) enc
      · obtain ⟨enc, henc⟩ := hrotates
        have hrotate := perform_rotateSecret
          (s := { s with tables := s.tables.updateAccount id body.fields })
          (rotates_updateAccount.mpr henc)
        obtain ⟨r, t, g, hend, ht, hok⟩ := perform_ending { s with
          tables := (s.tables.updateAccount id body.fields).setSecret id enc (maskSecret key) }
          (f.drop 4) (updateAccountEntry env id body) ()
        have hperform : (updateAccount env id body).perform Statement.exec (s, f) =
            (r, (t, g)) := by
          rw [updateAccount, perform_run_bind hf hupdate, hkey]
          exact (Checked.perform_bind_ok hrotate).trans hend
        rw [allOrNothing_iff hperform, hok, ht, audited_withTables_eq_iff,
          setSecret_updateAccount_eq_iff, Faults.drop_drop]
        constructor
        · exact fun h => Or.inr ⟨enc, henc, h⟩
        · rintro (⟨-, hnone⟩ | ⟨enc', henc', h⟩)
          · exact absurd henc (hnone enc)
          · obtain rfl := Option.some.inj (henc.2.1.symm.trans henc'.2.1)
            exact h
      · have hnone := not_exists.mp hrotates
        obtain ⟨e, g, hrotate⟩ := perform_rotateSecret_error
          (s := { s with tables := s.tables.updateAccount id body.fields })
          fun enc henc => hnone enc (rotates_updateAccount.mp henc)
        have hperform : (updateAccount env id body).perform Statement.exec (s, f) =
            (.error e, ({ s with tables := s.tables.updateAccount id body.fields }, g)) := by
          rw [updateAccount, perform_run_bind hf hupdate, hkey]
          exact Checked.perform_bind_error hrotate
        rw [allOrNothing_error_iff hperform, withTables_eq_iff]
        constructor
        · exact fun h => Or.inl ⟨h, hnone⟩
        · rintro (⟨h, -⟩ | ⟨enc, henc, -⟩)
          · exact h
          · exact absurd henc (hnone enc)

end

end Kinetix.Config
