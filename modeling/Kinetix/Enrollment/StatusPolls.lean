import Kinetix.Enrollment.Authorised

/-!
# Polls for the status of an enrollment

In every run in which no state is drawn that is in use, the two maps hold of each flow what its
progress says. So a poll by the initiating admin is answered with `pending` until the session is
consumed, and with the recorded outcome from its record on. In between neither map has the state. A
callback without a cookie finds the session of a flow that waits, as long as the redirect that was
generated and the check of it spell the loopback host alike, which they do not for an IPv6 address.
-/

namespace Kinetix.Enrollment
open Checks StateMachine

/-! ## Runs -/

/-- The redirect of the session is the loopback redirect of its plugin, where that has one. -/
def PluginAuthSession.HasRedirect (D : Deployment) (session : PluginAuthSession) : Prop :=
  ∀ uri, loopbackRedirect D session.pluginId = some (.ok uri) → session.redirectUri = uri

/-- The maps hold of each flow what its progress says, and each handler in a completion is alone
with its flow. -/
structure Tracked (D : Deployment) (l : Ledger) (s : State) : Prop where
  holds : ∀ state, s.shared.sessions.Holds s.shared.now state (l state)
  completing : ∀ (i : Nat) stage c, s.tasks[i]? = some stage → stage.completing = some c →
    l c.query.state = some ⟨c.session, .completing⟩ ∧ c.Own
  alone : ∀ (i j : Nat) stage stage' c c', s.tasks[i]? = some stage → s.tasks[j]? = some stage' →
    stage.completing = some c → stage'.completing = some c' → c.query.state = c'.query.state → i = j
  redirected : ∀ state f, l state = some f → f.session.HasRedirect D
  handlers : ∀ (i : Nat) stage, s.tasks[i]? = some stage → stage.Redirected D

namespace Tracked
variable {D : Deployment} {env : Env} {l l' : Ledger} {s s' : State} {shared : Shared} {i : Nat}
  {stage next : Stage} {a : Action} {events : List Event} {state : String}
  {session : PluginAuthSession}

/-- A handler takes a step, and no other handler is in a completion whose flow changes. -/
theorem replace (T : Tracked D l s)
    (hholds : ∀ state, shared.sessions.Holds shared.now state (l' state))
    (hothers : ∀ (j : Nat) stage' c, i ≠ j → s.tasks[j]? = some stage' →
      stage'.completing = some c → l' c.query.state = l c.query.state)
    (hnext : ∀ c, next.completing = some c →
      (l' c.query.state = some ⟨c.session, .completing⟩ ∧ c.Own) ∧
      ∀ (j : Nat) stage' c', i ≠ j → s.tasks[j]? = some stage' → stage'.completing = some c' →
        c.query.state ≠ c'.query.state)
    (hredirected : ∀ state f, l' state = some f → f.session.HasRedirect D)
    (hnextRedirected : next.Redirected D) :
    Tracked D l' { s with shared := shared, tasks := s.tasks.set i next } where
  holds := hholds
  completing j stage' c hj hc := by
    rcases TaskList.of_set hj with ⟨-, rfl⟩ | ⟨hne, hold⟩
    · exact (hnext c hc).1
    · rw [hothers j stage' c hne hold hc]
      exact T.completing j stage' c hold hc
  alone j k x y c c' hj hk hc hc' hstate := by
    rcases TaskList.of_set hj with ⟨rfl, rfl⟩ | ⟨hnej, hjold⟩
    · rcases TaskList.of_set hk with ⟨rfl, -⟩ | ⟨hnek, hkold⟩
      · rfl
      · exact absurd hstate ((hnext c hc).2 k y c' hnek hkold hc')
    · rcases TaskList.of_set hk with ⟨rfl, rfl⟩ | ⟨hnek, hkold⟩
      · exact absurd hstate.symm ((hnext c' hc').2 j x c hnej hjold hc)
      · exact T.alone j k x y c c' hjold hkold hc hc' hstate
  redirected := hredirected
  handlers j stage' hj := by
    rcases TaskList.of_set hj with ⟨-, rfl⟩ | ⟨-, hold⟩
    · exact hnextRedirected
    · exact T.handlers j stage' hold

/-- A step that changes one flow, or leaves it as it is. -/
theorem change (T : Tracked D l s) {f : Option Flow} (hnow : shared.now = s.shared.now)
    (hheld : shared.sessions.Holds s.shared.now state f)
    (hkept : ∀ state', state' ≠ state →
      PluginAuthSessions.Kept s.shared.now state' s.shared.sessions shared.sessions)
    (hfree : ∀ (j : Nat) stage' c, i ≠ j → s.tasks[j]? = some stage' →
      stage'.completing = some c → c.query.state = state → f = l state)
    (hnext : ∀ c, next.completing = some c → state = c.query.state ∧
      f = some ⟨c.session, .completing⟩ ∧ f ≠ l state ∧ c.Own)
    (hredirect : ∀ g, f = some g → g.session.HasRedirect D) (hnextRedirected : next.Redirected D) :
    Tracked D (Function.update l state f)
      { s with shared := shared, tasks := s.tasks.set i next } := by
  refine T.replace (fun state' => ?_) (fun j stage' c hne hj hc => ?_) (fun c hc => ?_)
    (fun state' g hg => ?_) hnextRedirected
  · rw [hnow]
    by_cases hs : state' = state
    · rw [hs, Function.update_self]
      exact hheld
    · rw [Function.update_of_ne hs]
      exact (T.holds state').kept (hkept state' hs)
  · by_cases hs : c.query.state = state
    · rw [hfree j stage' c hne hj hc hs, Function.update_eq_self]
    · exact Function.update_of_ne hs _ _
  · obtain ⟨rfl, hf, hchanged, hown⟩ := hnext c hc
    rw [Function.update_self]
    exact ⟨⟨hf, hown⟩, fun j stage' c' hne hj hc' hs =>
      hchanged (hfree j stage' c' hne hj hc' hs.symm)⟩
  · rcases Slots.update_eq_some.mp hg with ⟨-, hfg⟩ | ⟨-, hold⟩
    · exact hredirect g hfg
    · exact T.redirected state' g hold

/-- A completion that comes to its end, with or without a record. -/
theorem ended (T : Tracked D l s) (hi : s.tasks[i]? = some stage) {c : Completion}
    {outcome : Option PluginAuthStatus} (hc : stage.completing = some c)
    (hnow : shared.now = s.shared.now)
    (hheld : shared.sessions.Holds s.shared.now c.query.state
      (some ⟨c.session, .ended outcome s.shared.now⟩))
    (hkept : ∀ state, state ≠ c.query.state →
      PluginAuthSessions.Kept s.shared.now state s.shared.sessions shared.sessions)
    (hnext : next.Apart D) :
    Tracked D (l.record (.ended c.query.state outcome s.shared.now))
      { s with shared := shared, tasks := s.tasks.set i next } := by
  have hl := (T.completing i stage c hi hc).1
  have hredirect := T.redirected _ _ hl
  rw [Ledger.record, hl]
  refine T.change hnow hheld hkept (fun j stage' c' hne hj hc' hs => ?_) (fun c' hc' => ?_)
    (fun g hg => ?_) hnext.2
  · exact absurd (T.alone i j stage stage' c c' hi hj hc hc' hs.symm) hne
  · cases hnext.1.symm.trans hc'
  · cases hg
    exact hredirect

/-- A flow that waits is consumed, by a handler that completes it or returns at once. -/
theorem consumed (T : Tracked D l s) {p : Progress}
    (hremoved : (s.shared.sessions.remove state s.shared.now).1 = some session)
    (hheld : (s.shared.sessions.remove state s.shared.now).2.Holds s.shared.now state
      (some ⟨session, p⟩))
    (hnext : ∀ c, next.completing = some c → p = .completing ∧ c.session = session ∧
      c.query.state = state ∧ c.Own)
    (hredirected : next.Redirected D) :
    Tracked D (Function.update l state (some ⟨session, p⟩)) { s with
      shared := { s.shared with
        sessions := (s.shared.sessions.remove state s.shared.now).2 }
      tasks := s.tasks.set i next } := by
  have hl : l state = some ⟨session, .waiting⟩ := ((T.holds state).consumed hremoved).1
  have hredirect := T.redirected state _ hl
  refine T.change rfl hheld (fun _ => PluginAuthSessions.kept_remove)
    (fun j stage' c _ hj hc hs => ?_) (fun c hc => ?_) (fun g hg => ?_) hredirected
  · -- the flow waits, so no handler is in its completion
    have hcompleting := (T.completing j stage' c hj hc).1
    rw [hs, hl] at hcompleting
    cases hcompleting
  · obtain ⟨rfl, rfl, rfl, hown⟩ := hnext c hc
    exact ⟨rfl, rfl, by simp [hl], hown⟩
  · cases hg
    exact hredirect

/-- The session of a flow is created under a state that is not in use. -/
theorem opened (T : Tracked D l s) {checked : CheckedStart} {redirectUri : String}
    (hredirect : (s.shared.newSession env checked redirectUri).HasRedirect D)
    (hfresh : env.state ∉ s.statesInUse) :
    Tracked D (l.record (.opened env.state (s.shared.newSession env checked redirectUri)))
      { s with
        shared := (s.shared.createSession D env checked redirectUri).1
        tasks := s.tasks.set i (s.shared.createSession D env checked redirectUri).2 } := by
  simp only [State.statesInUse, List.mem_append, not_or] at hfresh
  obtain ⟨⟨-, hcompleted⟩, htasks⟩ := hfresh
  refine T.change rfl ?_ (fun _ => PluginAuthSessions.kept_create)
    (fun j stage' c _ hj hc hs => ?_) (fun c hc => ?_) (fun g hg => ?_) trivial
  · exact .opened rfl fun x hx => hcompleted (List.mem_map.mpr ⟨_, hx, rfl⟩)
  · refine absurd (List.mem_filterMap.mpr ⟨stage', List.mem_of_getElem? hj, ?_⟩) htasks
    rw [hc, ← hs]
    rfl
  · cases hc
  · cases hg
    exact hredirect

/-- The session of a flow that waits is taken back. -/
theorem revoked (T : Tracked D l s) (state : String) (hnext : next.Apart D) :
    Tracked D (l.record (.revoked state)) { s with
      shared := { s.shared with sessions := s.shared.sessions.revoke state }
      tasks := s.tasks.set i next } := by
  refine T.change rfl (T.holds state).revoked (fun _ => PluginAuthSessions.kept_revoke)
    (fun j stage' c _ hj hc hs => ?_) (fun c hc => ?_) (fun g hg => ?_) hnext.2
  · -- a flow that is being completed does not wait
    rw [← hs, (T.completing j stage' c hj hc).1]
    rfl
  · cases hnext.1.symm.trans hc
  · exact T.redirected state g (Option.filter_eq_some_iff.mp hg).1

/-- A step of a handler, whatever it does to the flows. -/
theorem advance (T : Tracked D l s) (hi : s.tasks[i]? = some stage)
    (hm : Moves D env s.shared stage shared next events)
    (hfresh : ∀ state ∈ events.filterMap Event.drawn, state ∉ s.statesInUse) :
    Tracked D (events.foldl Ledger.record l)
      { s with shared := shared, tasks := s.tasks.set i next } := by
  have hnow := hm.effect.now
  cases hm with
  | quiet _ kept stage_idle next_apart =>
    refine T.replace (fun state => ?_) (fun _ _ _ _ _ _ => rfl) (fun c hc => ?_)
      T.redirected next_apart.2
    · rw [hnow]
      exact (T.holds state).kept (kept state)
    · cases next_apart.1.symm.trans hc
  | opened checked redirectUri redirect =>
    exact T.opened (redirect (T.handlers i stage hi)) (hfresh _ (List.mem_singleton.mpr rfl))
  | revoked stage_idle next_apart => exact T.revoked _ next_apart
  | @consumed _ _ c removed own stage_idle next_completing =>
    obtain ⟨hl, hheld⟩ := (T.holds c.query.state).consumed removed
    rw [List.foldl_cons, List.foldl_nil, Ledger.record, hl]
    refine T.consumed removed hheld (fun c' hc' => ?_)
      (Stage.redirected_of_completing next_completing)
    cases next_completing.symm.trans hc'
    exact ⟨rfl, rfl, rfl, own⟩
  | @refused _ _ state session removed stage_idle next_apart =>
    obtain ⟨hl, hheld⟩ := (T.holds state).consumed removed
    have hrecord : [Event.consumed state, .ended state none s.shared.now].foldl
        Ledger.record l =
          Function.update l state (some ⟨session, .ended none s.shared.now⟩) := by
      rw [List.foldl_cons, List.foldl_cons, List.foldl_nil, Ledger.record, Ledger.record, hl,
        Function.update_self, Function.update_idem]
      rfl
    rw [hrecord]
    refine T.consumed removed hheld (fun c hc => ?_) next_apart.2
    cases next_apart.1.symm.trans hc
  | @continued _ _ _ c same stage_completing next_completing =>
    refine T.replace (fun state => ?_) (fun _ _ _ _ _ _ => rfl) (fun c' hc' => ?_)
      T.redirected (Stage.redirected_of_completing next_completing)
    · rw [hnow, same]
      exact T.holds state
    · cases next_completing.symm.trans hc'
      refine ⟨T.completing i stage c hi stage_completing, fun j stage' c' hne hj hc' hs => ?_⟩
      exact hne (T.alone i j stage stage' c c' hi hj stage_completing hc' hs)
  | @failed _ _ _ c same stage_completing next_apart =>
    have hheld := T.holds c.query.state
    rw [(T.completing i stage c hi stage_completing).1] at hheld
    refine T.ended hi stage_completing hnow ?_ (fun state _ => ?_) next_apart
    · rw [same]
      exact hheld
    · rw [same]
      exact .refl
  | @recorded c completion _ next_apart =>
    obtain ⟨hl, hown⟩ := T.completing i _ c hi rfl
    have hsessions : (s.shared.record c completion).1.sessions =
        s.shared.sessions.recordCompletion c.query.state c.session.initiator
          ⟨completion.result, completion.providerId⟩ s.shared.now := by
      rw [Shared.record]
      split
      · rename_i token htoken
        rw [hown token htoken]
      · rfl
      · rfl
    have hheld := T.holds c.query.state
    rw [hl] at hheld
    refine T.ended hi rfl hnow ?_ (fun state hs => ?_) next_apart
    · rw [hsessions]
      exact hheld.recorded
    · rw [hsessions]
      exact PluginAuthSessions.kept_recordCompletion hs

/-- A handler begins outside of a completion. -/
theorem start_request (T : Tracked D l s) (request : Request) :
    Tracked D l { s with tasks := s.tasks ++ [request.entry] } where
  holds := T.holds
  completing j stage' c hj hc := by
    rcases TaskList.of_start hj with ⟨-, rfl⟩ | hold
    · rw [(request.apart_entry : request.entry.Apart D).1] at hc
      cases hc
    · exact T.completing j stage' c hold hc
  alone j k x y c c' hj hk hc hc' := by
    rcases TaskList.of_start hj with ⟨-, rfl⟩ | hj
    · rw [(request.apart_entry : request.entry.Apart D).1] at hc
      cases hc
    · rcases TaskList.of_start hk with ⟨-, rfl⟩ | hk
      · rw [(request.apart_entry : request.entry.Apart D).1] at hc'
        cases hc'
      · exact T.alone j k x y c c' hj hk hc hc'
  redirected := T.redirected
  handlers j stage' hj := by
    rcases TaskList.of_start hj with ⟨-, rfl⟩ | hold
    · exact request.apart_entry.2
    · exact T.handlers j stage' hold

/-- A step of the process in which no state is drawn that is in use. -/
theorem step (T : Tracked D l s) (hfresh : s.DrawsFresh D a) (hs : s.step D a = some s') :
    Tracked D ((s.events D a).foldl Ledger.record l) s' := by
  cases a with
  | wait seconds =>
    cases hs
    exact { T with holds := fun state => (T.holds state).later (Nat.le_add_right _ seconds) }
  | admin a =>
    obtain ⟨admin, -, hs⟩ := Option.bind_eq_some_iff.mp hs
    cases hs
    exact { T with }
  | write tables | changePlugins plugins =>
    cases hs
    exact { T with }
  | start request =>
    cases hs
    exact T.start_request request
  | advance i env =>
    obtain ⟨stage, hstage, hs⟩ := Option.bind_eq_some_iff.mp hs
    obtain ⟨⟨shared, next⟩, hadvance, hs⟩ := Option.bind_eq_some_iff.mp hs
    cases hs
    have hevents : s.events D (.advance i env) = stage.events D env s.shared shared next := by
      simp only [State.events, hstage, hadvance]
    rw [State.DrawsFresh, hevents] at hfresh
    rw [hevents]
    exact T.advance hstage (Stage.moves hadvance) hfresh
  | drop i =>
    rw [State.step] at hs
    split at hs
    · cases hs
    · cases hs
      refine T.replace T.holds (fun _ _ _ _ _ _ => rfl) (fun c hc => ?_) T.redirected trivial
      cases hc
    · cases hs

end Tracked

theorem tracked_run {D : Deployment} {stored : Stored} {as : List Action} {s : State}
    (hfresh : (process D stored).Meets (fun _ s a => s.DrawsFresh D a) as)
    (hr : (process D stored).run as = some s) : Tracked D (ledger D stored as) s := by
  refine (process D stored).run_induction (I := fun as s =>
    (process D stored).Meets (fun _ s a => s.DrawsFresh D a) as →
      Tracked D (ledger D stored as) s) (fun _ => ?_) ?_ as s hr hfresh
  · exact
      { holds := fun state => ⟨fun _ => List.not_mem_nil, fun _ => List.not_mem_nil⟩
        completing := fun i stage c hi => by cases hi
        alone := fun i j stage stage' c c' hi => by cases hi
        redirected := fun state f hf => by cases hf
        handlers := fun i stage hi => by cases hi }
  · intro as s a s' hrun ih hstep hmeets
    rw [ledger, (process D stored).emitted_snoc _ hrun hstep, List.foldl_append]
    exact (ih (hmeets.of_append _)).step (hmeets.last _ hrun) hstep

/-! ## Polls -/

/-- What a poll by the initiating admin finds. -/
def Flow.Polled (f : Flow) (now : Nat) (answer : Option PluginAuthStatus) : Prop :=
  match f.progress with
  | .waiting => now < f.session.expiresAt → answer = some ⟨"pending", none⟩
  | .completing => answer = none
  | .ended (some outcome) endedAt => now < endedAt + pluginAuthTtl → answer = some outcome
  | .ended none _ => True

/-- The answer to a poll. -/
def pollReply : Option PluginAuthStatus → Stage
  | some status => .returned (.status status)
  | none => .refused invalidState

namespace PluginAuthSessions
variable {sessions : PluginAuthSessions} {now : Nat} {state initiator : String}
  {session : PluginAuthSession}

theorem peek_pending (h : Only sessions.inner state session (now < session.expiresAt))
    (hnow : now < session.expiresAt) :
    (sessions.peek state session.initiator now).1 = some session := by
  have hlookup : (sessions.retain now).inner.lookup state = some session :=
    h.lookup_filter hnow (decide_eq_true hnow)
  rw [peek]
  dsimp only
  rw [hlookup, Option.filter_some, if_pos (by simp [Admin.constantTimeEq])]

theorem peek_absent (h : Absent sessions.inner state) :
    (sessions.peek state initiator now).1 = none := by
  have hlookup : (sessions.retain now).inner.lookup state = none := (h.filter _).lookup
  rw [peek]
  dsimp only
  rw [hlookup, Option.filter_none]

/-- A poll that does not find a pending session looks among the outcomes. -/
theorem status_completed (h : (sessions.peek state initiator now).1 = none) :
    (sessions.status state initiator now).1 =
      (((sessions.completed.filter fun e => now < e.2.expiresAt).lookup state).filter fun entry =>
        Admin.constantTimeEq entry.initiator initiator).map CompletedPluginAuth.status := by
  rw [status]
  dsimp only
  rw [h]
  rfl

theorem Holds.polled {f : Flow} (h : sessions.Holds now state (some f)) :
    f.Polled now (sessions.status state f.session.initiator now).1 := by
  obtain ⟨session, _ | _ | ⟨_ | outcome, endedAt⟩⟩ := f
  · intro hnow
    rw [status]
    dsimp only
    rw [peek_pending h.1 hnow]
    rfl
  · change (sessions.status state session.initiator now).1 = none
    rw [status_completed (peek_absent h.1), (h.2.filter _).lookup]
    rfl
  · trivial
  · intro hnow
    rw [status_completed (peek_absent h.1), h.2.lookup_filter hnow (decide_eq_true hnow),
      Option.filter_some, if_pos (by simp [Admin.constantTimeEq])]
    rfl

end PluginAuthSessions

variable {D : Deployment}

theorem status_advance {env : Env} {s s' : Shared} {token state : String} {next : Stage}
    (h : (Stage.status token state).advance D env s = some (s', next)) :
    next = pollReply (s.sessions.status state token s.now).1 := by
  rw [Stage.advance] at h
  generalize s.sessions.status state token s.now = found at h
  obtain ⟨_ | answer, sessions⟩ := found <;> cases h <;> rfl

/-! ## Callbacks without a cookie -/

/-- What the `url` crate makes of the redirects to the port of the process. A port that is the
default of the scheme is left out. -/
structure ParsesLoopback (D : Deployment) : Prop where
  callback : ∀ bound port host, loopbackBind D = .ok (bound, port) →
    host = "localhost" ∨ host = "127.0.0.1" →
      ∃ port', D.parseUrl ("http://" ++ host ++ ":" ++ toString port ++ "/callback") =
        some { scheme := "http", host := some host, port := port', path := "/callback" }

/-- The process is bound to the loopback or the unspecified address of IPv6. -/
def Deployment.BoundToIpv6 (D : Deployment) : Prop :=
  ∃ port, loopbackBind D = .ok ("::1", port) ∨ loopbackBind D = .ok ("::", port)

theorem loopbackBind_host {host : String} {port : Nat} (h : loopbackBind D = .ok (host, port)) :
    host ∈ ["localhost", "127.0.0.1", "0.0.0.0", "::1", "::"] := by
  obtain ⟨base, -, h⟩ := bind_eq_ok.mp h
  obtain ⟨host', -, h⟩ := bind_eq_ok.mp h
  obtain ⟨hmem, h⟩ := seq_eq_ok.mp h
  obtain ⟨port', -, h⟩ := bind_eq_ok.mp h
  cases h
  exact not_not.mp (refuseIf_eq_ok.mp hmem)

/-- The host of the redirect for a process that is not bound to an address of IPv6. -/
theorem antigravityLoopbackRedirect_host {uri : String}
    (h : antigravityLoopbackRedirect D = .ok uri) (hhost : ¬ D.BoundToIpv6) :
    ∃ bound port host, loopbackBind D = .ok (bound, port) ∧
      (host = "localhost" ∨ host = "127.0.0.1") ∧
      uri = "http://" ++ host ++ ":" ++ toString port ++ "/callback" := by
  obtain ⟨⟨bound, port⟩, hbind, hr⟩ := bind_eq_ok.mp h
  have huri := (Except.ok.inj hr).symm
  have hmem := loopbackBind_host hbind
  simp only [List.mem_cons, List.not_mem_nil, or_false] at hmem
  rcases hmem with rfl | rfl | rfl | rfl | rfl
  · exact ⟨_, port, "localhost", hbind, .inl rfl, huri⟩
  · exact ⟨_, port, "127.0.0.1", hbind, .inr rfl, huri⟩
  · exact ⟨_, port, "127.0.0.1", hbind, .inr rfl, huri⟩
  · exact absurd ⟨port, .inl hbind⟩ hhost
  · exact absurd ⟨port, .inr hbind⟩ hhost

/-- The redirect that was generated is one that is accepted without a cookie. -/
theorem loopbackCallback_of_redirect (hurl : ParsesLoopback D) {session : PluginAuthSession}
    (h : loopbackRedirect D session.pluginId = some (.ok session.redirectUri))
    (hhost : session.pluginId = antigravityOauth → ¬ D.BoundToIpv6) :
    session.loopbackCallback D.parseUrl = true := by
  unfold loopbackRedirect at h
  split_ifs at h with hclaude hantigravity
  · obtain ⟨⟨bound, port⟩, hbind, hr⟩ := bind_eq_ok.mp (Option.some.inj h)
    obtain ⟨port', hparse⟩ := hurl.callback bound port "localhost" hbind (.inl rfl)
    have huri : session.redirectUri =
        "http://" ++ "localhost" ++ ":" ++ toString port ++ "/callback" :=
      (Except.ok.inj hr).symm
    rw [PluginAuthSession.loopbackCallback, huri, hparse]
    simp [hclaude]
  · obtain ⟨bound, port, host, hbind, hlocal, huri⟩ :=
      antigravityLoopbackRedirect_host (Option.some.inj h) (hhost hantigravity)
    obtain ⟨port', hparse⟩ := hurl.callback bound port host hbind hlocal
    rw [PluginAuthSession.loopbackCallback, huri, hparse]
    rcases hlocal with rfl | rfl <;> simp [hantigravity, antigravityOauth, claudeCodeOauth]

theorem PluginAuthSessions.takeLoopbackCallback_pending {parse : String → Option Url}
    {sessions : PluginAuthSessions} {now : Nat} {state : String} {session : PluginAuthSession}
    (h : Only sessions.inner state session (now < session.expiresAt))
    (hnow : now < session.expiresAt) (hcallback : session.loopbackCallback parse = true) :
    (sessions.takeLoopbackCallback parse state now).1 = some session := by
  have hlookup : (sessions.retain now).inner.lookup state = some session :=
    h.lookup_filter hnow (decide_eq_true hnow)
  rw [takeLoopbackCallback, remove]
  dsimp only
  rw [hlookup, Option.filter_some, if_pos (decide_eq_true hnow), Option.filter_some,
    if_pos hcallback]

/-- In every run in which no state is drawn that is in use, a poll by the initiating admin is
answered with `pending` as long as the session waits, with the error for an unknown state from the
moment at which it is consumed until an outcome is recorded, and from then on with that outcome,
until the record expires. While a session waits whose plugin has a loopback redirect, a callback
without a cookie is accepted, but for the Antigravity plugin where the process is bound to an
address of IPv6. -/
theorem polls_and_callbacks (D : Deployment) (hurl : ParsesLoopback D) (stored : Stored)
    (as : List Action) (s : State)
    (hfresh : (process D stored).Meets (fun _ s a => s.DrawsFresh D a) as)
    (hr : (process D stored).run as = some s) (state : String) (f : Flow)
    (hf : ledger D stored as state = some f) :
    (∀ (i : Nat) env s', s.tasks[i]? = some (.status f.session.initiator state) →
      (process D stored).step s (.advance i env) = some s' →
        ∃ answer, s'.tasks[i]? = some (pollReply answer) ∧ f.Polled s.shared.now answer) ∧
    (f.progress = .waiting → s.shared.now < f.session.expiresAt → ∀ uri,
      loopbackRedirect D f.session.pluginId = some (.ok uri) →
        (f.session.pluginId = antigravityOauth → ¬ D.BoundToIpv6) →
          (s.shared.sessions.takeLoopbackCallback D.parseUrl state s.shared.now).1 =
            some f.session) := by
  have T := tracked_run hfresh hr
  have hholds := T.holds state
  rw [hf] at hholds
  constructor
  · intro i env s' hi hstep
    obtain ⟨stage, hstage, hstep⟩ := Option.bind_eq_some_iff.mp hstep
    obtain ⟨⟨shared, next⟩, hadvance, hstep⟩ := Option.bind_eq_some_iff.mp hstep
    cases hstep
    rw [← Option.some.inj (hi.symm.trans hstage)] at hadvance
    refine ⟨_, ?_, hholds.polled⟩
    rw [← status_advance hadvance]
    exact TaskList.getElem?_set_same hi
  · intro hwaiting hnow uri huri hhost
    obtain ⟨session, progress⟩ := f
    cases hwaiting
    have hredirect := T.redirected state _ hf uri huri
    refine PluginAuthSessions.takeLoopbackCallback_pending hholds.1 hnow
      (loopbackCallback_of_redirect hurl ?_ hhost)
    rw [hredirect]
    exact huri

/-! ## Runs of the loopback plugins -/

/-- The token and the state of a poll. -/
def Stage.polls : Stage → Option (String × String)
  | .status token state => some (token, state)
  | _ => none

/-- The message of an error that was returned. -/
def Stage.refusal : Stage → Option String
  | .returned (.refused error) => some error.message
  | _ => none

theorem Stage.eq_of_polls {stage : Stage} {token state : String}
    (h : stage.polls = some (token, state)) : stage = .status token state := by
  cases stage <;> cases h
  rfl

/-- The process of the runs, with the redirect that an IPv4 bind has. -/
def pollDeployment : Deployment :=
  { loopbackDeployment with
    parseUrl := fun url =>
      if url = "http://127.0.0.1:8080/callback" then
        some { scheme := "http", host := some "127.0.0.1", port := some 8080, path := "/callback" }
      else parseLoopback url }

/-- The admin asks for the status of the flow. -/
def poll (i : Nat) : List Action :=
  .start (.guarded ⟨none, some "70ac", none⟩ (.pluginAuthStatus "5747")) :: steps i 1

theorem pollDeployment_parses : ParsesLoopback pollDeployment where
  callback bound port host hbind hhost := by
    have hport : loopbackBind pollDeployment = .ok ("127.0.0.1", 8080) := rfl
    cases hport.symm.trans hbind
    rcases hhost with rfl | rfl
    · exact ⟨some 8080, rfl⟩
    · exact ⟨some 8080, rfl⟩

/-- While the browser is away the poll is answered with `pending`, and its callback would be
accepted without the cookie. -/
theorem polls_and_callbacks_pending :
    ∃ s s' f, (process pollDeployment claudeStored).run (loginAndStart ++ poll 2) = some s ∧
      ledger pollDeployment claudeStored (loginAndStart ++ poll 2) "5747" = some f ∧
      (process pollDeployment claudeStored).step s (.advance 2 enrollmentEnv) = some s' ∧
      s'.tasks[2]? = some (.returned (.status ⟨"pending", none⟩)) ∧
      (s.shared.sessions.takeLoopbackCallback pollDeployment.parseUrl "5747" s.shared.now).1 =
        some f.session := by
  obtain ⟨s, hr, hstep, hpolls, f, hf, hinitiator, hwaiting, hplugin, hnow⟩ :
      ∃ s ∈ (process pollDeployment claudeStored).run (loginAndStart ++ poll 2),
        ((process pollDeployment claudeStored).step s (.advance 2 enrollmentEnv)).isSome ∧
        s.tasks[2]?.bind Stage.polls = some ("70ac", "5747") ∧
        ∃ f ∈ ledger pollDeployment claudeStored (loginAndStart ++ poll 2) "5747",
          f.session.initiator = "70ac" ∧ f.progress = .waiting ∧
            f.session.pluginId = claudeCodeOauth ∧ s.shared.now < f.session.expiresAt := by
    decide +kernel
  obtain ⟨s', hs'⟩ := Option.isSome_iff_exists.mp hstep
  obtain ⟨stage, hstage, hpolls⟩ := Option.bind_eq_some_iff.mp hpolls
  obtain ⟨hpoll, hcallback⟩ := polls_and_callbacks pollDeployment pollDeployment_parses claudeStored
    (loginAndStart ++ poll 2) s (Machine.Along.meets _ (by decide +kernel)) hr "5747" f hf
  rw [Stage.eq_of_polls hpolls, ← hinitiator] at hstage
  obtain ⟨answer, hanswer, hpolled⟩ := hpoll 2 enrollmentEnv s' hstage hs'
  rw [Flow.Polled, hwaiting] at hpolled
  rw [hpolled hnow] at hanswer
  refine ⟨s, s', f, hr, hf, hs', hanswer, hcallback hwaiting hnow
    "http://localhost:8080/callback" ?_ fun h => ?_⟩
  · rw [hplugin]
    rfl
  · rw [hplugin] at h
    cases (show claudeCodeOauth ≠ antigravityOauth by decide) h

/-- The run in which the browser comes back without a code. -/
def noCode : List Action :=
  loginAndStart ++ .start (.pluginAuthCallback (some "70ac") ⟨"5747", none, none⟩) :: steps 2 2

def ipv6AuthorizeUrl : String :=
  "https://accounts.google.com/o/oauth2/v2/auth?state=5747&redirect_uri=http%3A%2F%2F%5B%3A%3A1" ++
    "%5D%3A8080%2Fcallback&code_challenge=E9Melhoa2OwvFrEMTJguCHaoeK1t8URWbuGJSstw-cM"

/-- A process that is bound to the loopback address of IPv6. The host keeps its brackets. -/
def ipv6Deployment : Deployment :=
  { loopbackDeployment with
    bind := "[::1]:8080"
    parseUrl := fun url =>
      if url = "http://[::1]:8080" then
        some { scheme := "http", host := some "[::1]", port := some 8080, path := "/" }
      else if url = "http://[::1]:8080/callback" then
        some { scheme := "http", host := some "[::1]", port := some 8080, path := "/callback" }
      else if url = ipv6AuthorizeUrl then
        some
          { scheme := "https"
            host := some "accounts.google.com"
            port := none
            path := "/o/oauth2/v2/auth"
            query := some (String.ofList (ipv6AuthorizeUrl.toList.drop 45))
            queryPairs := [("state", "5747"), ("redirect_uri", "http://[::1]:8080/callback"),
              ("code_challenge", "E9Melhoa2OwvFrEMTJguCHaoeK1t8URWbuGJSstw-cM")] }
      else none }

def antigravityStored : Stored where
  setting := none
  tables := ⟨[{ claudeProvider with
    id := "prov_antigravity"
    name := "Antigravity"
    baseUrl := "https://cloudcode-pa.googleapis.com"
    credentialPlugin := "plugin:dev.kinetix.antigravity-oauth/antigravity-oauth"
    sourcePluginId := some antigravityOauth
    sourceIntegrationId := some "antigravity" }], [], [], [], [], []⟩
  plugins := [(antigravityOauth,
    some ⟨[⟨"antigravity", some "antigravity-oauth", some "login"⟩], ["accounts.google.com"]⟩)]

/-- The admin logs in and starts an authorization for the Antigravity plugin. -/
def antigravityStart : List Action :=
  .admin (.start (.login ⟨none, "correct horse"⟩)) :: adminSteps 0 5 ++
    .start (.guarded ⟨none, some "70ac", none⟩
      (.startPluginAuth ⟨antigravityOauth, "login", "prov_antigravity"⟩)) ::
    .replicate 5 (.advance 0 { enrollmentEnv with authBegin := .ok ipv6AuthorizeUrl })

/-- A poll between the removal of the session and the record is refused, and so is one after a
callback without a code. Bound to `[::1]`, the Antigravity plugin has a redirect whose callback is
not accepted without a cookie. -/
theorem polls_and_callbacks_refused :
    (∃ s s', (process loopbackDeployment claudeStored).run
        (loginAndStart ++ steps 1 2 ++ poll 2) = some s ∧
      (ledger loopbackDeployment claudeStored (loginAndStart ++ steps 1 2 ++ poll 2) "5747").map
        Flow.progress = some .completing ∧
      (process loopbackDeployment claudeStored).step s (.advance 2 enrollmentEnv) = some s' ∧
      s'.tasks[2]?.bind Stage.refusal = some invalidState.message) ∧
    (∃ s s', (process loopbackDeployment claudeStored).run (noCode ++ poll 3) = some s ∧
      (ledger loopbackDeployment claudeStored (noCode ++ poll 3) "5747").map Flow.progress =
        some (.ended none 30) ∧
      (process loopbackDeployment claudeStored).step s (.advance 3 enrollmentEnv) = some s' ∧
      s'.tasks[3]?.bind Stage.refusal = some invalidState.message) ∧
    ∃ s, (process ipv6Deployment antigravityStored).run antigravityStart = some s ∧
      (∃ f ∈ ledger ipv6Deployment antigravityStored antigravityStart "5747",
        f.progress = .waiting ∧ s.shared.now < f.session.expiresAt ∧
          loopbackRedirect ipv6Deployment f.session.pluginId =
            some (.ok "http://[::1]:8080/callback")) ∧
      (s.shared.sessions.takeLoopbackCallback ipv6Deployment.parseUrl "5747" s.shared.now).1 =
        none := by
  refine ⟨?_, ?_, ?_⟩
  · obtain ⟨s, hr, s', hs', hrefused⟩ :
        ∃ s ∈ (process loopbackDeployment claudeStored).run (loginAndStart ++ steps 1 2 ++ poll 2),
          ∃ s' ∈ (process loopbackDeployment claudeStored).step s (.advance 2 enrollmentEnv),
            s'.tasks[2]?.bind Stage.refusal = some invalidState.message := by decide +kernel
    exact ⟨s, s', hr, by decide +kernel, hs', hrefused⟩
  · obtain ⟨s, hr, s', hs', hrefused⟩ :
        ∃ s ∈ (process loopbackDeployment claudeStored).run (noCode ++ poll 3),
          ∃ s' ∈ (process loopbackDeployment claudeStored).step s (.advance 3 enrollmentEnv),
            s'.tasks[3]?.bind Stage.refusal = some invalidState.message := by decide +kernel
    exact ⟨s, s', hr, by decide +kernel, hs', hrefused⟩
  · obtain ⟨s, hr, ⟨f, hf, hwaiting, hnow, hplugin⟩, hrefused⟩ :
        ∃ s ∈ (process ipv6Deployment antigravityStored).run antigravityStart,
          (∃ f ∈ ledger ipv6Deployment antigravityStored antigravityStart "5747",
            f.progress = .waiting ∧ s.shared.now < f.session.expiresAt ∧
              f.session.pluginId = antigravityOauth) ∧
          (s.shared.sessions.takeLoopbackCallback ipv6Deployment.parseUrl "5747"
            s.shared.now).1 = none := by decide +kernel
    refine ⟨s, hr, ⟨f, hf, hwaiting, hnow, ?_⟩, hrefused⟩
    rw [hplugin]
    rfl

end Kinetix.Enrollment
