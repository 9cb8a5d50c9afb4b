import Kinetix.Import.Models

/-!
# Importing routes and aliases

The last two sections of an import, when no statement fails.
-/

namespace Kinetix.Import
open Config Statements Upserts

/-! ## Targets -/

/-- What holds between two lists holds after the second one is mapped with indexes. -/
theorem forall₂_mapIdx {α β γ : Type} {R : α → β → Prop} {S : α → γ → Prop} {f : Nat → β → γ}
    {as : List α} {bs : List β} (h : List.Forall₂ R as bs)
    (hf : ∀ i a b, R a b → S a (f i b)) : List.Forall₂ S as (bs.mapIdx f) := by
  induction h generalizing f with
  | nil => exact List.Forall₂.nil
  | cons hab _ ih =>
    rw [List.mapIdx_cons]
    exact List.Forall₂.cons (hf 0 _ _ hab) (ih fun i => hf (i + 1))

/-- A target of the entry, with the model that is found. -/
def TargetEntry.Found (models : Ids) (t : TargetEntry) (b : RouteTargetBody) : Prop :=
  ∃ id, models t.model = some id ∧ b = t.body id

theorem forall₂_targets {models : Ids} {ts : List TargetEntry}
    (h : ∀ t ∈ ts, (models t.model).isSome = true) :
    List.Forall₂ (TargetEntry.Found models) ts
      (ts.filterMap fun t => (models t.model).map t.body) := by
  induction ts with
  | nil => exact List.Forall₂.nil
  | cons t ts ih =>
    obtain ⟨id, hid⟩ := Option.isSome_iff_exists.mp (h t List.mem_cons_self)
    rw [List.filterMap_cons, hid]
    exact List.Forall₂.cons ⟨id, hid, rfl⟩ (ih fun t ht => h t (List.mem_cons_of_mem _ ht))

section
variable {env : Env} {s : Store} {r : RouteEntry} {models : Ids} {i : Nat} {id : String}

/-- What a target refers to is found. -/
def TargetEntry.Resolves (models : Ids) (accounts : List AccountRow) (t : TargetEntry) : Prop :=
  (models t.model).isSome = true ∧ ∀ id ∈ t.accountId, ∃ a ∈ accounts, a.id = id

/-- The targets of an entry go in. -/
theorem runs_writeRouteTargets (id : String)
    (hmodels : Indexes (rowLabel s.tables.providers) ModelRow.id models s.tables.models)
    (hroute : ∃ c ∈ s.tables.routes, c.id = id) (hfresh : (env.forRoute i).Fresh s)
    (hr : ∀ t ∈ r.targets, t.Resolves models s.tables.accounts) :
    Runs (lift (writeRouteTargets ((r.body models).targetRows (env.forRoute i) id))) s ()
        (s.addTargets ((r.body models).targetRows (env.forRoute i) id)) ∧
      List.Forall₂ (fun t target => t.Describes env s.tables.providers s.tables.models id target)
        r.targets ((r.body models).targetRows (env.forRoute i) id) := by
  constructor
  · refine runs_lift (perform_writeRouteTargets (unused_targetRows hfresh) ?_)
    refine entering_targetRows.mpr fun j b hb => ⟨rfl, hroute, ?_⟩
    obtain ⟨t, ht, hbody⟩ := List.mem_filterMap.mp (List.mem_of_getElem? hb)
    obtain ⟨modelId, hmodel, rfl⟩ := Option.map_eq_some_iff.mp hbody
    obtain ⟨m, hm, hid, -⟩ := hmodels.sound _ _ hmodel
    exact ⟨⟨m, hm, hid⟩, (hr t ht).2⟩
  · refine forall₂_mapIdx (forall₂_targets fun t ht => (hr t ht).1) ?_
    rintro j t b ⟨modelId, hmodel, rfl⟩
    obtain ⟨m, hm, hid, hlabel⟩ := hmodels.sound _ _ hmodel
    exact {
      routeId := rfl
      model := ⟨m, hm, hid, hlabel⟩
      accountId := rfl
      priority := rfl
      weight := rfl
      predicate := rfl
      paramOverrides := rfl }

end

/-! ## Routes -/

def setRoutes (s : Store) (routes : List RouteRow) (targets : List RouteTargetRow) : Store :=
  { s with tables := { s.tables with routes := routes, routeTargets := targets } }

/-- What the section of the routes leaves. -/
structure RoutesWritten (env : Env) (stored : List RouteRow) (rs : List RouteEntry)
    (db db' : Tables) : Prop where
  written : Written RouteEntry.name routeName
    (RouteEntry.Describes env db.providers db.models stored) rs (routesOf db) (routesOf db')
  ids : (db'.routes.map RouteRow.id).Nodup
  targets : ∀ t ∈ db'.routeTargets, ∃ c ∈ db'.routes, c.id = t.routeId
  names : ∀ c ∈ db.routes, ∃ c' ∈ db'.routes, c'.id = c.id ∧ c'.name = c.name

section
variable {env : Env} {s : Store} {r : RouteEntry} {models : Ids} {i : Nat} {stored : List RouteRow}

/-- The targets of a route are those that are added and those of the other routes. -/
theorem filter_targets_of_ne {ts rows : List RouteTargetRow} {id id' : String} (hne : id' ≠ id)
    (hrows : ∀ t ∈ rows, t.routeId = id) :
    (ts ++ rows).filter (fun t => t.routeId = id') = ts.filter fun t => t.routeId = id' := by
  have hnone : rows.filter (fun t => t.routeId = id') = [] := by
    refine List.filter_eq_nil_iff.mpr fun t ht => ?_
    simp [hrows t ht, hne.symm]
  rw [List.filter_append, hnone, List.append_nil]

theorem filter_targets_self {ts rows : List RouteTargetRow} {id : String}
    (hts : ∀ t ∈ ts, t.routeId ≠ id) (hrows : ∀ t ∈ rows, t.routeId = id) :
    (ts ++ rows).filter (fun t => t.routeId = id) = rows := by
  have hnone : ts.filter (fun t => t.routeId = id) = [] := by
    refine List.filter_eq_nil_iff.mpr fun t ht => ?_
    simp [hts t ht]
  rw [List.filter_append, hnone, List.nil_append]
  exact List.filter_eq_self.mpr fun t ht => decide_eq_true (hrows t ht)

theorem routeId_of_mem_targetRows {body : RouteBody} {e : Config.Env} {id : String} :
    ∀ t ∈ body.targetRows e id, t.routeId = id := by
  intro t ht
  obtain ⟨j, -, hroute⟩ := mem_targetRows ht
  exact hroute

/-- What importing a route leads to. -/
def RouteImported (env : Env) (stored : List RouteRow) (s : Store) (models : Ids) (i : Nat)
    (r : RouteEntry) : Prop :=
  ∃ routes targets, Runs (importRoute env models i r) s () (setRoutes s routes targets) ∧
    RoutesWritten env stored [r] s.tables (setRoutes s routes targets).tables ∧
    (∀ c ∈ routes, (∃ old ∈ s.tables.routes, old.id = c.id) ∨ c.id = (env.route i).id) ∧
    ∀ t ∈ targets, t ∈ s.tables.routeTargets ∨ ∃ j, t.id = env.target i j

/-- A route of the name is updated. -/
theorem runs_importRoute_update {c : RouteRow} (hc : c ∈ s.tables.routes) (hname : c.name = r.name)
    (hfound : s.tables.getRouteByName r.name = some c)
    (hids : (s.tables.routes.map RouteRow.id).Nodup)
    (htargets : ∀ t ∈ s.tables.routeTargets, ∃ c ∈ s.tables.routes, c.id = t.routeId)
    (hmodels : Indexes (rowLabel s.tables.providers) ModelRow.id models s.tables.models)
    (hfresh : (env.forRoute i).Fresh s)
    (hr : ∀ t ∈ r.targets, t.Resolves models s.tables.accounts) (hstored : c ∈ stored) :
    RouteImported env stored s models i r := by
  let fields := (r.body models).fields (env.forRoute i) r.fallbackTriggers
  let rows := (r.body models).targetRows (env.forRoute i) c.id
  let routes := s.tables.routes.map fun q => if q.id = c.id then q.update fields else q
  let rest := s.tables.routeTargets.filter fun t => t.routeId ≠ c.id
  have huniq : ∀ q ∈ s.tables.routes, q.id = c.id → q = c := fun q hq hid =>
    List.inj_on_of_nodup_map hids hq hc hid
  have hid : ∀ q ∈ s.tables.routes, (if q.id = c.id then q.update fields else q).id = q.id := by
    intro q _
    split <;> rfl
  have hnames : ∀ q ∈ s.tables.routes,
      (if q.id = c.id then q.update fields else q).name = q.name := by
    intro q _
    split <;> rfl
  have hkept : ∀ q ∈ s.tables.routes, ∃ c' ∈ routes, c'.id = q.id ∧ c'.name = q.name :=
    fun q hq => ⟨_, List.mem_map_of_mem hq, hid q hq, hnames q hq⟩
  have hrow : ∀ t ∈ rows, t.routeId = c.id := routeId_of_mem_targetRows
  obtain ⟨hrun, hdescribes⟩ := runs_writeRouteTargets c.id (s := setRoutes s routes rest)
    (r := r) hmodels
    (by obtain ⟨c', hc', hid', -⟩ := hkept c hc; exact ⟨c', hc', hid'⟩)
    ⟨hfresh.injective, fun j t ht => hfresh.unused j t (List.mem_of_mem_filter ht)⟩ hr
  have hroutes : routesOf (setRoutes s routes (rest ++ rows)).tables =
      (routesOf s.tables).map fun x => if x.1.id = c.id then (x.1.update fields, rows) else x := by
    rw [routesOf, routesOf, List.map_map]
    change (s.tables.routes.map _).map _ = _
    rw [List.map_map]
    refine List.map_congr_left fun q hq => ?_
    by_cases heq : q.id = c.id
    · have hself : (rest ++ rows).filter (fun t => t.routeId = c.id) = rows :=
        filter_targets_self (fun t ht => by simpa using (List.mem_filter.mp ht).2) hrow
      simp only [Function.comp_apply, heq, if_true]
      refine congrArg (Prod.mk _) ?_
      exact (congrArg (fun id => (rest ++ rows).filter fun t => t.routeId = id) heq).trans hself
    · have hother : (rest ++ rows).filter (fun t => t.routeId = q.id) =
          rest.filter fun t => t.routeId = q.id := filter_targets_of_ne heq hrow
      have hrest : rest.filter (fun t => t.routeId = q.id) =
          s.tables.routeTargets.filter fun t => t.routeId = q.id := by
        rw [List.filter_filter]
        refine List.filter_congr fun t _ => ?_
        by_cases ht : t.routeId = q.id
        · simp [ht, heq]
        · simp [ht]
      simp only [Function.comp_apply, heq, if_false]
      exact congrArg (Prod.mk q) (hother.trans hrest)
  refine ⟨routes, rest ++ rows, ?_, ?_, ?_, ?_⟩
  · rw [importRoute]
    refine Checked.Runs.bind (runs_answer hfound rfl) ?_
    refine Checked.Runs.bind (runs_statement rfl) ?_
    exact Checked.Runs.bind (runs_statement (t := setRoutes s routes rest) rfl) hrun
  · exact {
      written := by
        have hmem : (c, s.tables.routeTargets.filter fun t => t.routeId = c.id) ∈
            routesOf s.tables := List.mem_map.mpr ⟨c, hc, rfl⟩
        have hof : ∀ x ∈ routesOf s.tables, x.1.id = c.id → x.1 = c := by
          intro x hx hxid
          obtain ⟨q, hq, rfl⟩ := List.mem_map.mp hx
          exact huniq q hq hxid
        rw [hroutes]
        refine Written.update hmem rfl (fun x hx hxid => ?_) (fun x hx hxid => ?_)
          fun x hx hxid => ⟨Or.inl ⟨c, hstored, hname, ?_⟩, ?_⟩
        · exact (congrArg RouteRow.name (hof x hx hxid)).trans hname
        · exact (congrArg RouteRow.name (hof x hx hxid)).trans hname
        · exact congrArg (fun q => RouteRow.update q fields) (hof x hx hxid)
        · exact (congrArg (fun id => List.Forall₂ (fun t target => TargetEntry.Describes env
            s.tables.providers s.tables.models id t target) r.targets rows) hxid).mpr hdescribes
      ids := (map_id_map hid).symm ▸ hids
      targets := by
        intro t ht
        rcases List.mem_append.mp ht with ht | ht
        · obtain ⟨q, hq, hqid⟩ := htargets t (List.mem_of_mem_filter ht)
          obtain ⟨c', hc', hid', -⟩ := hkept q hq
          exact ⟨c', hc', hid'.trans hqid⟩
        · obtain ⟨c', hc', hid', -⟩ := hkept c hc
          exact ⟨c', hc', hid'.trans (hrow t ht).symm⟩
      names := hkept }
  · intro c' hc'
    obtain ⟨old, hold, rfl⟩ := List.mem_map.mp hc'
    exact .inl ⟨old, hold, (hid old hold).symm⟩
  · intro t ht
    rcases List.mem_append.mp ht with ht | ht
    · exact Or.inl (List.mem_of_mem_filter ht)
    · obtain ⟨j, hj, -⟩ := mem_targetRows ht
      exact Or.inr ⟨j, hj⟩

/-- A route of a new name is inserted. -/
theorem runs_importRoute_insert (hnone : s.tables.getRouteByName r.name = none)
    (hids : (s.tables.routes.map RouteRow.id).Nodup)
    (htargets : ∀ t ∈ s.tables.routeTargets, ∃ c ∈ s.tables.routes, c.id = t.routeId)
    (hmodels : Indexes (rowLabel s.tables.providers) ModelRow.id models s.tables.models)
    (hnew : ∀ c ∈ s.tables.routes, c.id ≠ (env.route i).id) (hfresh : (env.forRoute i).Fresh s)
    (hr : ∀ t ∈ r.targets, t.Resolves models s.tables.accounts)
    (hstored : ∀ old ∈ stored, old.name ≠ r.name) : RouteImported env stored s models i r := by
  let row := (r.body models).newRow (env.forRoute i)
  let rows := (r.body models).targetRows (env.forRoute i) row.id
  let routes := s.tables.routes ++ [row]
  have hmem : row ∈ routes := List.mem_append_right _ List.mem_cons_self
  have hrow : ∀ t ∈ rows, t.routeId = row.id := routeId_of_mem_targetRows
  have hmissing : ∀ c ∈ s.tables.routes, c.name ≠ r.name := by
    intro c hc
    simpa using List.find?_eq_none.mp hnone c hc
  obtain ⟨hrun, hdescribes⟩ := runs_writeRouteTargets row.id
    (s := setRoutes s routes s.tables.routeTargets) (r := r) hmodels
    ⟨row, hmem, rfl⟩ ⟨hfresh.injective, hfresh.unused⟩ hr
  have hroutes : routesOf (setRoutes s routes (s.tables.routeTargets ++ rows)).tables =
      routesOf s.tables ++ [(row, rows)] := by
    rw [routesOf, routesOf]
    change (s.tables.routes ++ [row]).map _ = _
    rw [List.map_append, List.map_singleton]
    refine congrArg₂ (· ++ ·) (List.map_congr_left fun q hq => ?_) (congrArg (fun x => [x]) ?_)
    · exact congrArg (Prod.mk q) (filter_targets_of_ne (hnew q hq) hrow)
    · refine congrArg (Prod.mk row) (filter_targets_self (fun t ht hid => ?_) hrow)
      obtain ⟨c, hc, hcid⟩ := htargets t ht
      exact hnew c hc (hcid.trans hid)
  refine ⟨routes, s.tables.routeTargets ++ rows, ?_, ?_, ?_, ?_⟩
  · have hinsert : (ImportStatement.base (.insertRoute row)).exec s =
        some ((), setRoutes s routes s.tables.routeTargets) := by
      have hfree : ¬ ∃ c ∈ s.tables.routes, c.id = row.id ∨ c.name = row.name := by
        rintro ⟨c, hc, hid | hname⟩
        · exact hnew c hc hid
        · exact hmissing c hc hname
      rw [ImportStatement.exec, Statement.exec, Tables.insertRoute, if_neg hfree]
      rfl
    rw [importRoute]
    refine Checked.Runs.bind (runs_answer hnone rfl) ?_
    exact Checked.Runs.bind (runs_statement hinsert) hrun
  · exact {
      written := by
        rw [hroutes]
        exact Written.append rfl ⟨Or.inr ⟨hstored, i, rfl⟩, hdescribes⟩
      ids := nodup_snoc hids hnew
      targets := by
        intro t ht
        rcases List.mem_append.mp ht with ht | ht
        · obtain ⟨q, hq, hqid⟩ := htargets t ht
          exact ⟨q, List.mem_append_left _ hq, hqid⟩
        · exact ⟨row, hmem, (hrow t ht).symm⟩
      names := fun c hc => ⟨c, List.mem_append_left _ hc, rfl, rfl⟩ }
  · intro c hc
    rcases List.mem_append.mp hc with hc | hc
    · exact Or.inl ⟨c, hc, rfl⟩
    · rw [List.mem_singleton.mp hc]
      exact Or.inr rfl
  · intro t ht
    rcases List.mem_append.mp ht with ht | ht
    · exact Or.inl ht
    · obtain ⟨j, hj, -⟩ := mem_targetRows ht
      exact Or.inr ⟨j, hj⟩

theorem RoutesWritten.cons {rs : List RouteEntry} {db db' db'' : Tables}
    (hr : RoutesWritten env stored [r] db db') (hrs : RoutesWritten env stored rs db' db'')
    (hproviders : db'.providers = db.providers) (hmodels : db'.models = db.models)
    (hnew : r.name ∉ rs.map RouteEntry.name) : RoutesWritten env stored (r :: rs) db db'' where
  written := by
    have hrest := hrs.written
    rw [hproviders, hmodels] at hrest
    exact hr.written.cons hrest hnew
  ids := hrs.ids
  targets := hrs.targets
  names c hc := by
    obtain ⟨c', hc', hid', hname'⟩ := hr.names c hc
    obtain ⟨c'', hc'', hid'', hname''⟩ := hrs.names c' hc'
    exact ⟨c'', hc'', hid''.trans hid', hname''.trans hname'⟩

end

/-- A route is there with its targets. -/
theorem mem_routesOf {db : Tables} {c : RouteRow} (h : c ∈ db.routes) :
    (c, db.routeTargets.filter fun t => t.routeId = c.id) ∈ routesOf db :=
  List.mem_map_of_mem h

theorem fst_mem_of_mem_routesOf {db : Tables} {x : RouteRow × List RouteTargetRow}
    (h : x ∈ routesOf db) : x.1 ∈ db.routes := by
  obtain ⟨q, hq, rfl⟩ := List.mem_map.mp h
  exact hq

/-- A route of another name is there if it was there before. -/
theorem mem_routes_iff {db db' : Tables} {es : List RouteEntry}
    {W : RouteEntry → RouteRow × List RouteTargetRow → Prop} {c : RouteRow}
    (h : Written RouteEntry.name routeName W es (routesOf db) (routesOf db'))
    (hc : c.name ∉ es.map RouteEntry.name) : c ∈ db'.routes ↔ c ∈ db.routes := by
  constructor
  · intro hmem
    exact fst_mem_of_mem_routesOf
      ((h.mem_iff (r := (c, _)) hc).mp (mem_routesOf hmem))
  · intro hmem
    exact fst_mem_of_mem_routesOf
      ((h.mem_iff (r := (c, _)) hc).mpr (mem_routesOf hmem))

/-- The section of the routes. -/
theorem runs_importRoutes (env : Env) (stored : List RouteRow) (models : Ids)
    {rs : List RouteEntry} {i : Nat} {s : Store} (hdistinct : (rs.map RouteEntry.name).Nodup)
    (hids : (s.tables.routes.map RouteRow.id).Nodup)
    (htargets : ∀ t ∈ s.tables.routeTargets, ∃ c ∈ s.tables.routes, c.id = t.routeId)
    (hmodels : Indexes (rowLabel s.tables.providers) ModelRow.id models s.tables.models)
    (hr : ∀ r ∈ rs, ∀ t ∈ r.targets, t.Resolves models s.tables.accounts)
    (hsame : ∀ r ∈ rs, ∀ c : RouteRow, c.name = r.name → (c ∈ s.tables.routes ↔ c ∈ stored))
    (hinj : Function.Injective fun i => (env.route i).id)
    (hnew : ∀ j, i ≤ j → ∀ c ∈ s.tables.routes, c.id ≠ (env.route j).id)
    (htargetInj : ∀ i j i' j', env.target i j = env.target i' j' → i = i' ∧ j = j')
    (hfresh : ∀ j, i ≤ j → ∀ k, ∀ t ∈ s.tables.routeTargets, t.id ≠ env.target j k) :
    ∃ routes targets, Runs (importRoutes env models i rs) s () (setRoutes s routes targets) ∧
      RoutesWritten env stored rs s.tables (setRoutes s routes targets).tables := by
  induction rs generalizing i s with
  | nil =>
    exact ⟨s.tables.routes, s.tables.routeTargets, Checked.Runs.pure,
      { written := Written.nil
        ids := hids
        targets := htargets
        names := fun c hc => ⟨c, hc, rfl, rfl⟩ }⟩
  | cons r rs ih =>
    obtain ⟨hnewName, hrest⟩ := List.nodup_cons.mp hdistinct
    have hfreshRoute : (env.forRoute i).Fresh s :=
      ⟨fun j k heq => (htargetInj i j i k heq).2, fun j t ht => hfresh i le_rfl j t ht⟩
    have hsameHead := hsame r List.mem_cons_self
    obtain ⟨routes, targets, hrun, hwritten, hdrawn, hdrawnTargets⟩ :
        RouteImported env stored s models i r := by
      cases hfound : s.tables.getRouteByName r.name with
      | none =>
        refine runs_importRoute_insert hfound hids htargets hmodels (hnew i le_rfl) hfreshRoute
          (hr r List.mem_cons_self) fun old hold hname => ?_
        have hmem := (hsameHead old hname).mpr hold
        simpa [hname] using List.find?_eq_none.mp hfound old hmem
      | some c =>
        have hc := List.mem_of_find?_eq_some hfound
        have hname : c.name = r.name := by simpa using List.find?_some hfound
        exact runs_importRoute_update hc hname hfound hids htargets hmodels hfreshRoute
          (hr r List.mem_cons_self) ((hsameHead c hname).mp hc)
    have hsame' : ∀ q ∈ rs, ∀ c : RouteRow, c.name = q.name → (c ∈ routes ↔ c ∈ stored) := by
      intro q hq c hname
      have hne : c.name ∉ [r].map RouteEntry.name := by
        intro hmem
        exact hnewName ((List.mem_singleton.mp hmem).symm.trans hname ▸ List.mem_map_of_mem hq)
      exact (mem_routes_iff hwritten.written hne).trans
        (hsame q (List.mem_cons_of_mem _ hq) c hname)
    have hnew' : ∀ j, i + 1 ≤ j → ∀ c ∈ routes, c.id ≠ (env.route j).id :=
      fresh_succ hinj hnew hdrawn
    have hfresh' : ∀ j, i + 1 ≤ j → ∀ k, ∀ t ∈ targets, t.id ≠ env.target j k := by
      intro j hj k t ht heq
      rcases hdrawnTargets t ht with ht | ⟨k', hk'⟩
      · exact hfresh j (by omega) k t ht heq
      · have := (htargetInj _ _ _ _ (hk'.symm.trans heq)).1
        omega
    obtain ⟨routes', targets', hrun', hwritten'⟩ :=
      ih (s := setRoutes s routes targets) hrest hwritten.ids hwritten.targets hmodels
        (fun q hq => hr q (List.mem_cons_of_mem _ hq)) hsame' hnew' hfresh'
    exact ⟨routes', targets', hrun.bind hrun', hwritten.cons hwritten' rfl rfl hnewName⟩

/-! ## Aliases -/

def setAliases (s : Store) (rows : List AliasRow) : Store :=
  { s with tables := { s.tables with aliases := rows } }

section
variable {env : Env} {s : Store} {a : AliasEntry} {models : Ids} {i : Nat} {stored : List AliasRow}

/-- The route or the model of an alias is found. -/
structure AliasEntry.Resolves (models : Ids) (routes : List RouteRow) (a : AliasEntry) : Prop where
  named : a.aliasName ≠ ""
  target : if a.targetType = "route" then ∃ c ∈ routes, c.name = a.target
    else (models a.target).isSome = true

theorem runs_aliasTarget
    (hmodels : Indexes (rowLabel s.tables.providers) ModelRow.id models s.tables.models)
    (ha : a.Resolves models s.tables.routes) :
    ∃ id, Runs (aliasTarget models a) s (some id) s ∧
      a.StandsFor s.tables.providers s.tables.models s.tables.routes id := by
  have htarget := ha.target
  by_cases htype : a.targetType = "route"
  · rw [if_pos htype] at htarget
    obtain ⟨c, hc, hname⟩ := htarget
    obtain ⟨found, hfound⟩ : ∃ found, s.tables.getRouteByName a.target = some found :=
      Option.isSome_iff_exists.mp (List.find?_isSome.mpr ⟨c, hc, decide_eq_true hname⟩)
    refine ⟨found.id, ?_, ?_⟩
    · rw [aliasTarget, if_pos htype]
      exact Checked.Runs.bind (runs_answer hfound rfl) Checked.Runs.pure
    · rw [AliasEntry.StandsFor, if_pos htype]
      exact ⟨found, List.mem_of_find?_eq_some hfound, rfl, by simpa using List.find?_some hfound⟩
  · rw [if_neg htype] at htarget
    obtain ⟨id, hid⟩ := Option.isSome_iff_exists.mp htarget
    refine ⟨id, ?_, ?_⟩
    · rw [aliasTarget, if_neg htype, hid]
      exact Checked.Runs.pure
    · rw [AliasEntry.StandsFor, if_neg htype]
      exact hmodels.sound _ _ hid

/-- An alias is updated or inserted. -/
theorem runs_importAlias
    (hmodels : Indexes (rowLabel s.tables.providers) ModelRow.id models s.tables.models)
    (ha : a.Resolves models s.tables.routes) (hids : (s.tables.aliases.map AliasRow.id).Nodup)
    (hfresh : ∀ row ∈ s.tables.aliases, row.id ≠ (env.aliasStamp i).id)
    (hsame : ∀ row : AliasRow, row.aliasName = a.aliasName →
      (row ∈ s.tables.aliases ↔ row ∈ stored)) :
    ∃ rows, Runs (importAlias env models i a) s () (setAliases s rows) ∧
      Upserted AliasEntry.aliasName AliasRow.aliasName AliasRow.id (AliasEntry.Describes
        s.tables.providers s.tables.models s.tables.routes stored) a (env.aliasStamp i).id
        s.tables.aliases rows := by
  obtain ⟨id, htarget, hstands⟩ := runs_aliasTarget hmodels ha
  let fields : AliasFields := ⟨a.targetType, id, a.description⟩
  have hrun : ∀ {t : Store}, Runs (upsertAlias (env.aliasStamp i) a.aliasName fields) s () t →
      Runs (importAlias env models i a) s () t := by
    intro t h
    rw [importAlias, if_neg ha.named]
    exact htarget.bind h
  cases hfound : s.tables.getAlias a.aliasName with
  | some row =>
    have hrow := List.mem_of_find?_eq_some hfound
    have hname : row.aliasName = a.aliasName := by simpa using List.find?_some hfound
    refine ⟨s.tables.aliases.map fun q => if q.id = row.id then q.update fields else q,
      hrun ?_, .update hids hrow hname rfl rfl
        ⟨id, hstands, .inl ⟨row, (hsame row hname).mp hrow, hname, rfl⟩⟩⟩
    exact Checked.Runs.bind (runs_answer hfound rfl) (runs_statement rfl)
  | none =>
    let row := newAlias (env.aliasStamp i).id a.aliasName (env.aliasStamp i).createdAt fields
    have hmissing : ∀ q ∈ s.tables.aliases, q.aliasName ≠ a.aliasName := by
      intro q hq
      simpa using List.find?_eq_none.mp hfound q hq
    refine ⟨s.tables.aliases ++ [row], hrun ?_, .insert (r := row) hids hfresh rfl
      ⟨id, hstands, .inr ⟨fun old hold hname => hmissing old ((hsame old hname).mpr hold) hname,
        env.aliasStamp i, rfl⟩⟩⟩
    have hinsert : (ImportStatement.insertAlias row).exec s =
        some ((), setAliases s (s.tables.aliases ++ [row])) := by
      have hfree : ¬ ∃ q ∈ s.tables.aliases, q.id = row.id ∨ q.aliasName = row.aliasName := by
        rintro ⟨q, hq, hid | hname⟩
        · exact hfresh q hq hid
        · exact hmissing q hq hname
      rw [ImportStatement.exec, Tables.insertAlias, if_neg hfree]
      rfl
    exact Checked.Runs.bind (runs_answer hfound rfl) (runs_statement hinsert)

end

/-- The section of the aliases. -/
theorem runs_importAliases (env : Env) (stored : List AliasRow) (models : Ids)
    {as : List AliasEntry} {i : Nat} {s : Store} (hdistinct : (as.map AliasEntry.aliasName).Nodup)
    (hmodels : Indexes (rowLabel s.tables.providers) ModelRow.id models s.tables.models)
    (ha : ∀ a ∈ as, a.Resolves models s.tables.routes)
    (hids : (s.tables.aliases.map AliasRow.id).Nodup)
    (hinj : Function.Injective fun i => (env.aliasStamp i).id)
    (hfresh : ∀ j, i ≤ j → ∀ row ∈ s.tables.aliases, row.id ≠ (env.aliasStamp j).id)
    (hsame : ∀ a ∈ as, ∀ row : AliasRow, row.aliasName = a.aliasName →
      (row ∈ s.tables.aliases ↔ row ∈ stored)) :
    ∃ rows, Runs (importAliases env models i as) s () (setAliases s rows) ∧
      Written AliasEntry.aliasName AliasRow.aliasName (AliasEntry.Describes s.tables.providers
        s.tables.models s.tables.routes stored) as s.tables.aliases rows := by
  induction as generalizing i s with
  | nil => exact ⟨s.tables.aliases, Checked.Runs.pure, Written.nil⟩
  | cons a as ih =>
    obtain ⟨hnew, hrest⟩ := List.nodup_cons.mp hdistinct
    obtain ⟨rows, hrun, hupserted⟩ := runs_importAlias hmodels
      (ha a List.mem_cons_self) hids (hfresh i le_rfl) (hsame a List.mem_cons_self)
    have hfresh' : ∀ j, i + 1 ≤ j → ∀ row ∈ rows, row.id ≠ (env.aliasStamp j).id :=
      fresh_succ hinj hfresh hupserted.drawn
    obtain ⟨rows', hrun', hwritten'⟩ := ih (s := setAliases s rows) hrest hmodels
      (fun q hq => ha q (List.mem_cons_of_mem _ hq)) hupserted.nodup hfresh'
      (hupserted.written.agree hnew hsame)
    exact ⟨rows', hrun.bind hrun', hupserted.written.cons hwritten' hnew⟩

end Kinetix.Import
