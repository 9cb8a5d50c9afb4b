import Kinetix.Enrollment.Effects

/-!
# What a step does to the flows

A flow is an authorization that was started, under its state. It waits until a callback or a pasted
URL consumes its session; then it is being completed, and it has ended when that handler has
returned, with an outcome if one was recorded. Here is what each step does to the flows and to the
two maps of the sessions.

## Implementation notes

The code keeps no list of flows: what happens to them is read off the steps.
-/

namespace Kinetix.Enrollment
open Checks

/-! ## What happens to flows -/

inductive Progress where
  | waiting
  | completing
  /-- The handler has returned, with the outcome that it recorded if it did. -/
  | ended (outcome : Option PluginAuthStatus) (endedAt : Nat)
  deriving DecidableEq

/-- An authorization from its start on. -/
structure Flow where
  session : PluginAuthSession
  progress : Progress
  deriving DecidableEq

inductive Event where
  | opened (state : String) (session : PluginAuthSession)
  /-- `start_plugin_auth` took the session back. -/
  | revoked (state : String)
  /-- The session was removed to be completed. -/
  | consumed (state : String)
  | ended (state : String) (outcome : Option PluginAuthStatus) (endedAt : Nat)

/-- The flows by their state. -/
abbrev Ledger : Type := String → Option Flow

def Progress.isWaiting : Progress → Bool
  | .waiting => true
  | _ => false

def Ledger.record (l : Ledger) : Event → Ledger
  | .opened state session => Function.update l state (some ⟨session, .waiting⟩)
  | .revoked state => Function.update l state ((l state).filter fun f => !f.progress.isWaiting)
  | .consumed state => Function.update l state ((l state).map fun f => ⟨f.session, .completing⟩)
  | .ended state outcome endedAt =>
    Function.update l state ((l state).map fun f => ⟨f.session, .ended outcome endedAt⟩)

/-- What a completion answers, where it does not end in an error. -/
def Reply.outcome : Reply → Option PluginAuthStatus
  | .redirected completion | .completed _ completion =>
    some ⟨completion.result, completion.providerId⟩
  | _ => none

/-- The completion that a handler is in. -/
def Stage.completing : Stage → Option Completion
  | .exchange c _ | .recheckPlugin c _ | .recheckProvider c .. | .listAccounts c ..
  | .insertAccount c .. | .reload c .. | .finalize c .. | .audit c _ => some c
  | _ => none

def Stage.ending (state : String) (now : Nat) : Stage → List Event
  | .returned reply => [.ended state reply.outcome now]
  | _ => []

/-- Whether `start_plugin_auth` takes the session back. -/
def takesBack (D : Deployment) (env : Env) (checked : CheckedStart) (redirectUri state : String) :
    Bool :=
  match env.authBegin with
  | .error _ => true
  | .ok authorizeUrl =>
    match checkAuthorizeUrl D checked redirectUri state authorizeUrl with
    | .error (revoked, _) => revoked
    | .ok () => false

/-- What the step of a handler does to flows. -/
def Stage.events (D : Deployment) (env : Env) (s s' : Shared) (stage next : Stage) : List Event :=
  match stage with
  | .startPlugin .. | .startBaseUrl _ =>
    match next with
    | .startBegin _ _ state _ => (s'.sessions.inner.lookup state).toList.map (.opened state)
    | _ => []
  | .startBegin checked redirectUri state _ =>
    bif takesBack D env checked redirectUri state then [.revoked state] else []
  | .manualTake _ query | .callbackTake _ query =>
    if (s.sessions.remove query.state s.now).1.isSome then
      .consumed query.state :: next.ending query.state s.now
    else []
  | stage =>
    match stage.completing with
    | some c => next.ending c.query.state s.now
    | none => []

def State.events (D : Deployment) (s : State) : Action → List Event
  | .advance i env =>
    match s.tasks[i]? with
    | some stage =>
      match stage.advance D env s.shared with
      | some (shared, next) => stage.events D env s.shared shared next
      | none => []
    | none => []
  | _ => []

def ledger (D : Deployment) (stored : Stored) (as : List Action) : Ledger :=
  ((process D stored).emitted (State.events D) as).foldl Ledger.record fun _ => none

/-- The states under which there is a session, a recorded outcome or a completion. -/
def State.statesInUse (s : State) : List String :=
  s.shared.sessions.inner.map Prod.fst ++ s.shared.sessions.completed.map Prod.fst ++
    s.tasks.filterMap fun stage => stage.completing.map (·.query.state)

def Event.drawn : Event → Option String
  | .opened state _ => some state
  | _ => none

/-- A state that is drawn for a session is not in use. -/
def State.DrawsFresh (D : Deployment) (s : State) (a : Action) : Prop :=
  ∀ state ∈ (s.events D a).filterMap Event.drawn, state ∉ s.statesInUse

instance (D : Deployment) (s : State) (a : Action) : Decidable (s.DrawsFresh D a) :=
  inferInstanceAs (Decidable (∀ state ∈ (s.events D a).filterMap Event.drawn,
    state ∉ s.statesInUse))

/-! ## What the maps hold of a flow -/

/-- No entry of the map has the key. -/
def Absent {α : Type} (entries : List (String × α)) (key : String) : Prop :=
  ∀ x, (key, x) ∉ entries

/-- An entry of the map with the key is this one, and it is there as long as it is alive. -/
def Only {α : Type} (entries : List (String × α)) (key : String) (x : α) (alive : Prop) : Prop :=
  (∀ y, (key, y) ∈ entries → y = x) ∧ (alive → (key, x) ∈ entries)

section
variable {α : Type} {entries : List (String × α)} {key : String} {x : α}

theorem mem_of_lookup (h : entries.lookup key = some x) : (key, x) ∈ entries := by
  obtain ⟨l₁, l₂, rfl, -⟩ := List.lookup_eq_some_iff.mp h
  simp

theorem Absent.lookup (h : Absent entries key) : entries.lookup key = none :=
  Option.eq_none_iff_forall_ne_some.mpr fun x hx => h x (mem_of_lookup hx)

theorem absent_of_lookup (h : entries.lookup key = none) : Absent entries key := by
  intro x hx
  have hne := List.lookup_eq_none_iff.mp h (key, x) hx
  simp at hne

theorem Only.lookup {alive : Prop} (h : Only entries key x alive) (ha : alive) :
    entries.lookup key = some x := by
  cases hl : entries.lookup key with
  | none => exact absurd (h.2 ha) (absent_of_lookup hl x)
  | some y => rw [h.1 y (mem_of_lookup hl)]

theorem Absent.filter (h : Absent entries key) (p : String × α → Bool) :
    Absent (entries.filter p) key :=
  fun y hy => h y (List.mem_filter.mp hy).1

/-- What is alive is found among the entries that are kept. -/
theorem Only.lookup_filter {alive : Prop} (h : Only entries key x alive) (ha : alive)
    {p : String × α → Bool} (hp : p (key, x) = true) :
    (entries.filter p).lookup key = some x := by
  have hkept : Only (entries.filter p) key x True :=
    ⟨fun y hy => h.1 y (List.mem_filter.mp hy).1, fun _ => List.mem_filter.mpr ⟨h.2 ha, hp⟩⟩
  exact hkept.lookup trivial

end

namespace PluginAuthSessions

/-- What the two maps hold under a state. -/
def Holds (sessions : PluginAuthSessions) (now : Nat) (state : String) : Option Flow → Prop
  | some ⟨session, .waiting⟩ =>
    Only sessions.inner state session (now < session.expiresAt) ∧
      Absent sessions.completed state
  | some ⟨session, .ended (some outcome) endedAt⟩ =>
    Absent sessions.inner state ∧
      Only sessions.completed state ⟨session.initiator, outcome, endedAt + pluginAuthTtl⟩
        (now < endedAt + pluginAuthTtl)
  | _ => Absent sessions.inner state ∧ Absent sessions.completed state

/-- Under a state nothing is new, and nothing is gone but what has expired. -/
structure Kept (now : Nat) (state : String) (sessions sessions' : PluginAuthSessions) : Prop where
  inner_old : ∀ x, (state, x) ∈ sessions'.inner → (state, x) ∈ sessions.inner
  inner_live : ∀ x, (state, x) ∈ sessions.inner → now < x.expiresAt → (state, x) ∈ sessions'.inner
  completed_old : ∀ x, (state, x) ∈ sessions'.completed → (state, x) ∈ sessions.completed
  completed_live : ∀ x, (state, x) ∈ sessions.completed → now < x.expiresAt →
    (state, x) ∈ sessions'.completed

variable {sessions sessions' sessions'' : PluginAuthSessions} {now now' : Nat}
  {state state' : String} {f : Option Flow} {session : PluginAuthSession}
  {status : PluginAuthStatus} {initiator : String}

theorem Kept.refl : Kept now state sessions sessions :=
  ⟨fun _ => id, fun _ h _ => h, fun _ => id, fun _ h _ => h⟩

theorem Kept.trans (h : Kept now state sessions sessions')
    (h' : Kept now state sessions' sessions'') : Kept now state sessions sessions'' where
  inner_old x hx := h.inner_old x (h'.inner_old x hx)
  inner_live x hx hnow := h'.inner_live x (h.inner_live x hx hnow) hnow
  completed_old x hx := h.completed_old x (h'.completed_old x hx)
  completed_live x hx hnow := h'.completed_live x (h.completed_live x hx hnow) hnow

theorem kept_retain : Kept now state sessions (sessions.retain now) where
  inner_old _ hx := mem_retain hx
  inner_live _ hx hnow := List.mem_filter.mpr ⟨hx, decide_eq_true hnow⟩
  completed_old _ := id
  completed_live _ hx _ := hx

theorem kept_revoke (h : state ≠ state') : Kept now state sessions (sessions.revoke state') where
  inner_old _ hx := mem_revoke hx
  inner_live _ hx _ := List.mem_filter.mpr ⟨hx, decide_eq_true h⟩
  completed_old _ := id
  completed_live _ hx _ := hx

theorem kept_status : Kept now state sessions (sessions.status state' initiator now).2 := by
  unfold status
  dsimp only [peek_snd]
  split
  · exact kept_retain
  · exact
      { inner_old := kept_retain.inner_old
        inner_live := kept_retain.inner_live
        completed_old := fun _ hx => (List.mem_filter.mp hx).1
        completed_live := fun _ hx hnow => List.mem_filter.mpr ⟨hx, decide_eq_true hnow⟩ }

theorem kept_create (h : state ≠ state') :
    Kept now state sessions (sessions.create state' now session) where
  inner_old x hx := by
    rcases mem_create hx with he | hx
    · exact absurd (congrArg Prod.fst he) h
    · exact hx
  inner_live x hx hnow := List.mem_cons_of_mem _
    ((kept_revoke h).inner_live x (kept_retain.inner_live x hx hnow) hnow)
  completed_old _ := id
  completed_live _ hx _ := hx

theorem kept_recordCompletion (h : state ≠ state') :
    Kept now state sessions (sessions.recordCompletion state' initiator status now) where
  inner_old _ := id
  inner_live _ hx _ := hx
  completed_old x hx := by
    rcases List.mem_cons.mp hx with he | hx
    · exact absurd (congrArg Prod.fst he) h
    · exact (List.mem_filter.mp (List.mem_filter.mp hx).1).1
  completed_live x hx hnow := List.mem_cons_of_mem _ (List.mem_filter.mpr
    ⟨List.mem_filter.mpr ⟨hx, decide_eq_true hnow⟩, decide_eq_true h⟩)

theorem kept_remove (h : state ≠ state') :
    Kept now state sessions (sessions.remove state' now).2 :=
  kept_retain.trans (kept_revoke h)

theorem absent_revoke : Absent (sessions.revoke state).inner state := by
  intro x hx
  simpa using (List.mem_filter.mp hx).2

/-- Where there was nothing to remove, what is removed has expired. -/
theorem kept_of_remove_none (h : (sessions.remove state' now).1 = none) :
    Kept now state sessions (sessions.remove state' now).2 := by
  by_cases hs : state = state'
  · subst hs
    refine
      { inner_old := fun x hx => mem_retain (mem_revoke hx)
        inner_live := fun x hx hnow => ?_
        completed_old := fun _ => id
        completed_live := fun _ hx _ => hx }
    have hkept : (state, x) ∈ (sessions.retain now).inner := kept_retain.inner_live x hx hnow
    cases hl : (sessions.retain now).inner.lookup state with
    | none => exact absurd hkept (absent_of_lookup hl x)
    | some y =>
      have hy : now < y.expiresAt := of_decide_eq_true (List.mem_filter.mp (mem_of_lookup hl)).2
      rw [remove, hl, Option.filter_some, if_pos (decide_eq_true hy)] at h
      cases h
  · exact kept_remove hs

theorem Holds.kept (h : sessions.Holds now state f) (hk : Kept now state sessions sessions') :
    sessions'.Holds now state f := by
  unfold Holds at h ⊢
  split at h
  · exact ⟨⟨fun y hy => h.1.1 y (hk.inner_old y hy), fun hnow => hk.inner_live _ (h.1.2 hnow) hnow⟩,
      fun y hy => h.2 y (hk.completed_old y hy)⟩
  · exact ⟨fun y hy => h.1 y (hk.inner_old y hy), fun y hy => h.2.1 y (hk.completed_old y hy),
      fun hnow => hk.completed_live _ (h.2.2 hnow) hnow⟩
  · exact ⟨fun y hy => h.1 y (hk.inner_old y hy), fun y hy => h.2 y (hk.completed_old y hy)⟩

theorem Holds.later (h : sessions.Holds now state f) (hle : now ≤ now') :
    sessions.Holds now' state f := by
  unfold Holds at h ⊢
  split at h
  · exact ⟨⟨h.1.1, fun hnow => h.1.2 (hle.trans_lt hnow)⟩, h.2⟩
  · exact ⟨h.1, h.2.1, fun hnow => h.2.2 (hle.trans_lt hnow)⟩
  · exact h

/-- A new session under a state that was not in use. -/
theorem Holds.opened (hexpires : session.expiresAt = now + pluginAuthTtl)
    (hcompleted : Absent sessions.completed state) :
    (sessions.create state now session).Holds now state (some ⟨session, .waiting⟩) := by
  have hsession : { session with expiresAt := now + pluginAuthTtl } = session := by
    rw [← hexpires]
  refine ⟨⟨fun y hy => ?_, fun _ => ?_⟩, hcompleted⟩
  · rcases List.mem_cons.mp hy with he | hold
    · exact (congrArg Prod.snd he).trans hsession
    · exact absurd hold (absent_revoke y)
  · rw [create, hsession]
    exact List.mem_cons_self

theorem Holds.revoked (h : sessions.Holds now state f) :
    (sessions.revoke state).Holds now state (f.filter fun f => !f.progress.isWaiting) := by
  have hgone : Absent (sessions.revoke state).inner state := absent_revoke
  rcases f with _ | ⟨session, _ | _ | ⟨_ | outcome, endedAt⟩⟩
  · exact ⟨hgone, h.2⟩
  · exact ⟨hgone, h.2⟩
  · exact ⟨hgone, h.2⟩
  · exact ⟨hgone, h.2⟩
  · exact ⟨hgone, h.2⟩

/-- What is removed is the session of a flow that waits. -/
theorem Holds.consumed (h : sessions.Holds now state f)
    (hr : (sessions.remove state now).1 = some session) : f = some ⟨session, .waiting⟩ ∧
      (sessions.remove state now).2.Holds now state (some ⟨session, .completing⟩) := by
  have hmem : (state, session) ∈ sessions.inner := (remove_eq_some hr).1
  rcases f with _ | ⟨session', _ | _ | ⟨_ | outcome, endedAt⟩⟩
  · exact absurd hmem (h.1 session)
  · rw [h.1.1 session hmem]
    exact ⟨rfl, absent_revoke, h.2⟩
  · exact absurd hmem (h.1 session)
  · exact absurd hmem (h.1 session)
  · exact absurd hmem (h.1 session)

theorem Holds.recorded (h : sessions.Holds now state (some ⟨session, .completing⟩)) :
    (sessions.recordCompletion state session.initiator status now).Holds now state
      (some ⟨session, .ended (some status) now⟩) := by
  refine ⟨h.1, fun y hy => ?_, fun _ => List.mem_cons_self⟩
  rcases List.mem_cons.mp hy with he | hold
  · exact congrArg Prod.snd he
  · exact absurd (List.mem_filter.mp (List.mem_filter.mp hold).1).1 (h.2 y)

end PluginAuthSessions

/-! ## What a step does to flows -/

/-- A completion in the name of an admin is in that of the initiator. -/
def Completion.Own (c : Completion) : Prop :=
  ∀ token, c.presented = .admitted token → token = c.session.initiator

/-- The redirect of the process's own address is for the plugins that have no loopback redirect. -/
def Stage.Redirected (D : Deployment) : Stage → Prop
  | .startBaseUrl checked => loopbackRedirect D checked.body.pluginId = none
  | _ => True

/-- A stage that is not in a completion. -/
def Stage.Apart (D : Deployment) (stage : Stage) : Prop :=
  stage.completing = none ∧ stage.Redirected D

/-- The session that is created. -/
def Shared.newSession (env : Env) (s : Shared) (checked : CheckedStart) (redirectUri : String) :
    PluginAuthSession where
  pluginId := checked.body.pluginId
  flowName := checked.body.flowName
  integrationId := checked.integrationId
  providerId := checked.body.providerId
  credentialBinding := checked.credentialBinding
  redirectUri := redirectUri
  pkceVerifier := env.pkceVerifier
  initiator := checked.token
  expiresAt := s.now + pluginAuthTtl
  serial := s.starts.length

/-- What the step of a handler does to the maps and the flows. -/
inductive Moves (D : Deployment) (env : Env) (s : Shared) :
    Stage → Shared → Stage → List Event → Prop where
  | quiet {stage next : Stage} {s' : Shared} (shared : s.Quiet D s')
      (kept : ∀ state, s.sessions.Kept s.now state s'.sessions)
      (stage_idle : stage.completing = none) (next_apart : next.Apart D) :
      Moves D env s stage s' next []
  | opened {stage : Stage} (checked : CheckedStart) (redirectUri : String)
      (redirect : stage.Redirected D → ∀ uri,
        loopbackRedirect D checked.body.pluginId = some (.ok uri) → redirectUri = uri)
      (stage_idle : stage.completing = none) :
      Moves D env s stage (s.createSession D env checked redirectUri).1
        (s.createSession D env checked redirectUri).2
        [.opened env.state (s.newSession env checked redirectUri)]
  | revoked {stage next : Stage} {state : String} (stage_idle : stage.completing = none)
      (next_apart : next.Apart D) :
      Moves D env s stage { s with sessions := s.sessions.revoke state } next [.revoked state]
  | consumed {stage next : Stage} {c : Completion}
      (removed : (s.sessions.remove c.query.state s.now).1 = some c.session) (own : c.Own)
      (stage_idle : stage.completing = none) (next_completing : next.completing = some c)
      (effect : Effect D env s stage
        { s with sessions := (s.sessions.remove c.query.state s.now).2 } next) :
      Moves D env s stage
        { s with sessions := (s.sessions.remove c.query.state s.now).2 } next
        [.consumed c.query.state]
  /-- The session was removed and the handler returns an error at once. -/
  | refused {stage next : Stage} {state : String} {session : PluginAuthSession}
      (removed : (s.sessions.remove state s.now).1 = some session)
      (stage_idle : stage.completing = none) (next_apart : next.Apart D) :
      Moves D env s stage { s with sessions := (s.sessions.remove state s.now).2 } next
        [.consumed state, .ended state none s.now]
  | continued {stage next : Stage} {s' : Shared} {c : Completion}
      (same : s'.sessions = s.sessions) (stage_completing : stage.completing = some c)
      (next_completing : next.completing = some c) (effect : Effect D env s stage s' next) :
      Moves D env s stage s' next []
  /-- The completion ends in an error, and nothing is recorded. -/
  | failed {stage next : Stage} {s' : Shared} {c : Completion}
      (same : s'.sessions = s.sessions) (stage_completing : stage.completing = some c)
      (next_apart : next.Apart D) (effect : Effect D env s stage s' next) :
      Moves D env s stage s' next [.ended c.query.state none s.now]
  | recorded {c : Completion} {completion : PluginAuthCompletion} {next : Stage}
      (next_apart : next.Apart D) :
      Moves D env s (.audit c completion) (s.record c completion).1 next
        [.ended c.query.state (some ⟨completion.result, completion.providerId⟩) s.now]

section
variable {D : Deployment} {env : Env} {s s' : Shared} {stage next : Stage} {c : Completion}

theorem Stage.apart_refused (error : ApiError) : (Stage.refused error).Apart D := ⟨rfl, trivial⟩

theorem Stage.Apart.idle (h : stage.Apart D) : stage.Idle := by
  cases stage <;> first | rfl | cases h.1

/-- A stage in a completion has no redirect to ask for. -/
theorem Stage.redirected_of_completing (h : next.completing = some c) : next.Redirected D := by
  cases next <;> first | exact trivial | cases h

theorem Stage.ending_of_completing {state : String} {now : Nat} (h : next.completing = some c) :
    next.ending state now = [] := by
  cases next <;> first | rfl | cases h

/-- A handler that is not in a completion and leaves the maps as they are. -/
theorem Moves.same (stage_idle : stage.completing = none) (next_apart : next.Apart D) :
    Moves D env s stage s next [] :=
  .quiet .refl (fun _ => .refl) stage_idle next_apart

variable {r : Except ApiError Stage}

theorem Stage.apart_ofResult (h : ∀ stage, r = .ok stage → stage.Apart D) :
    (Stage.ofResult r).Apart D := by
  cases r with
  | error error => exact apart_refused error
  | ok stage => exact h stage rfl

theorem Stage.apart_ite {p : Prop} [Decidable p] {a b : Stage} (ha : a.Apart D)
    (hb : b.Apart D) : (if p then a else b).Apart D := by
  split
  · exact ha
  · exact hb

theorem Guarded.apart_admitted (token : String) (handler : Guarded) :
    (handler.admitted token).Apart D := by
  cases handler <;> exact ⟨rfl, trivial⟩

theorem apart_authNext (credentials : Admin.Credentials) (handler : Guarded) :
    (authNext credentials handler).Apart D := by
  rw [authNext]
  split <;> exact ⟨rfl, trivial⟩

theorem Request.apart_entry (request : Request) : request.entry.Apart D := by
  cases request with
  | guarded credentials handler => cases handler <;> exact ⟨rfl, trivial⟩
  | pluginAuthCallback cookie query => exact ⟨rfl, trivial⟩

theorem Auth.moves (waiting : Auth) (handler : Guarded) :
    Moves D env s (.auth waiting handler) (waiting.advance D env s handler).1
      (waiting.advance D env s handler).2 [] := by
  have token_moves : ∀ token otherwise, otherwise.Apart D →
      Moves D env s (.auth waiting handler) (s.authToken token handler otherwise).1
        (s.authToken token handler otherwise).2 [] := by
    intro token otherwise hidle
    exact .quiet (.authToken token handler otherwise) (fun _ => .refl) rfl
      (Stage.apart_ite (handler.apart_admitted token) hidle)
  cases waiting with
  | cookie credentials =>
    rw [Auth.advance]
    split
    · exact .same rfl ⟨rfl, trivial⟩
    · exact .same rfl (apart_authNext credentials handler)
    · exact token_moves _ _ (apart_authNext credentials handler)
  | header token => exact token_moves token _ ⟨rfl, trivial⟩
  | verify token => exact .same rfl (Stage.apart_ite (handler.apart_admitted token) ⟨rfl, trivial⟩)

/-- A session that is created has the redirect of its plugin. -/
theorem createSession_moves {checked : CheckedStart} {redirectUri : String}
    (hredirect : stage.Redirected D → ∀ uri,
      loopbackRedirect D checked.body.pluginId = some (.ok uri) → redirectUri = uri)
    (stage_idle : stage.completing = none) :
    Moves D env s stage (s.createSession D env checked redirectUri).1
      (s.createSession D env checked redirectUri).2
      (((s.createSession D env checked redirectUri).1.sessions.inner.lookup env.state).toList.map
        (.opened env.state)) := by
  have hlookup : (s.createSession D env checked redirectUri).1.sessions.inner.lookup env.state =
      some (s.newSession env checked redirectUri) := List.lookup_cons_self
  rw [hlookup]
  exact .opened checked redirectUri hredirect stage_idle

theorem finishStart_moves {checked : CheckedStart} {redirectUri state pkceChallenge : String} :
    Moves D env s (.startBegin checked redirectUri state pkceChallenge)
      (s.finishStart D env checked redirectUri state).1
      (s.finishStart D env checked redirectUri state).2
      (bif takesBack D env checked redirectUri state then [.revoked state] else []) := by
  rw [Shared.finishStart, takesBack]
  cases env.authBegin with
  | error error => exact .revoked rfl ⟨rfl, trivial⟩
  | ok authorizeUrl =>
    dsimp only
    cases checkAuthorizeUrl D checked redirectUri state authorizeUrl with
    | ok _ => exact .same rfl ⟨rfl, trivial⟩
    | error refusal =>
      obtain ⟨revoked, error⟩ := refusal
      cases revoked with
      | true => exact .revoked rfl ⟨rfl, trivial⟩
      | false => exact .same rfl ⟨rfl, trivial⟩

/-- `complete_plugin_auth` goes on to the exchange or ends. -/
theorem begin_cases (c : Completion) :
    c.begin D = .audit c ⟨"cancelled", none⟩ ∨ (∃ code, c.begin D = .exchange c code) ∨
      ∃ error, c.begin D = .refused error := by
  rw [Completion.begin]
  split
  · exact .inl rfl
  · generalize hr : (do
        let code ← okOr (c.query.code.filter fun code => Text.trim code ≠ "")
          (.bad "authorization callback is missing code")
        pluginManager D
        return Stage.exchange c
          (if c.session.pluginId = claudeCodeOauth then code ++ "#" ++ c.query.state
            else code) : Except ApiError Stage) = r
    cases r with
    | error error => exact .inr (.inr ⟨error, rfl⟩)
    | ok next =>
      obtain ⟨code, -, hr⟩ := bind_eq_ok.mp hr
      obtain ⟨-, hr⟩ := seq_eq_ok.mp hr
      cases hr
      exact .inr (.inl ⟨_, rfl⟩)

/-- What is taken is removed, and then completed, or refused at once. -/
theorem taken_moves {query : PluginAuthCallbackQuery} {presented : Presented}
    {result : Option PluginAuthSession × PluginAuthSessions} (stage_idle : stage.completing = none)
    (rest : result.2 = (s.sessions.remove query.state s.now).2)
    (found : ∀ session, result.1 = some session →
      (s.sessions.remove query.state s.now).1 = some session ∧
        Completion.Admitted D ⟨session, query, presented, s.now⟩) :
    Moves D env s stage (s.taken D query presented result).1
      (s.taken D query presented result).2
      (if (s.sessions.remove query.state s.now).1.isSome then
        .consumed query.state :: (s.taken D query presented result).2.ending query.state s.now
      else []) := by
  obtain ⟨x, sessions⟩ := result
  dsimp only at rest found
  subst rest
  cases hremove : (s.sessions.remove query.state s.now).1 with
  | none =>
    cases x with
    | none =>
      exact .quiet (.remove query.state)
        (fun _ => PluginAuthSessions.kept_of_remove_none hremove) stage_idle ⟨rfl, trivial⟩
    | some session => exact absurd (hremove.symm.trans (found session rfl).1) (by simp)
  | some session =>
    cases x with
    | none => exact .refused hremove stage_idle ⟨rfl, trivial⟩
    | some session' =>
      obtain ⟨hremoved, hadmitted⟩ := found session' rfl
      let c : Completion := ⟨session', query, presented, s.now⟩
      have hown : c.Own := by
        rintro token rfl
        exact hadmitted
      rw [Shared.taken]
      dsimp only
      rcases begin_cases (D := D) c with hc | ⟨code, hc⟩ | ⟨e, hc⟩ <;> rw [hc]
      · exact .consumed (c := c) hremoved hown stage_idle rfl (.quiet (.remove query.state) rfl)
      · exact .consumed (c := c) hremoved hown stage_idle rfl (.taken hremoved rfl rfl hadmitted)
      · exact .refused hremove stage_idle ⟨rfl, trivial⟩

theorem take_moves {query : PluginAuthCallbackQuery} {token : String} {presented : Presented}
    (stage_idle : stage.completing = none)
    (h : ∀ session : PluginAuthSession, session.initiator = token →
      Completion.Admitted D ⟨session, query, presented, s.now⟩) :
    Moves D env s stage
      (s.taken D query presented (s.sessions.take query.state token s.now)).1
      (s.taken D query presented (s.sessions.take query.state token s.now)).2
      (if (s.sessions.remove query.state s.now).1.isSome then
        .consumed query.state ::
          (s.taken D query presented
            (s.sessions.take query.state token s.now)).2.ending query.state s.now
      else []) := by
  refine taken_moves stage_idle rfl fun session hsession => ?_
  obtain ⟨hremove, hinitiator⟩ := PluginAuthSessions.take_eq_some hsession
  exact ⟨hremove, h session hinitiator⟩

/-- The next step of a completion, or an error. -/
theorem Moves.ofResult (same : s'.sessions = s.sessions)
    (stage_completing : stage.completing = some c)
    (refused : ∀ error, Effect D env s stage s' (.refused error))
    (h : ∀ next, r = .ok next → next.completing = some c ∧ Effect D env s stage s' next) :
    Moves D env s stage s' (.ofResult r) ((Stage.ofResult r).ending c.query.state s.now) := by
  cases r with
  | error error => exact .failed same stage_completing ⟨rfl, trivial⟩ (refused error)
  | ok next =>
    obtain ⟨hnext, heffect⟩ := h next rfl
    have hending : (Stage.ofResult (.ok next)).ending c.query.state s.now = [] :=
      Stage.ending_of_completing hnext
    rw [hending]
    exact .continued same stage_completing hnext heffect

/-- A step of a completion that only reads. -/
theorem Moves.reads (stage_completing : stage.completing = some c)
    (h : ∀ next, r = .ok next → next.completing = some c ∧ Effect D env s stage s next) :
    Moves D env s stage s (.ofResult r) ((Stage.ofResult r).ending c.query.state s.now) :=
  .ofResult rfl stage_completing (fun _ => .idle rfl) h

theorem exchange_moves (c : Completion) (code : String) :
    Moves D env s (.exchange c code) { s with exchanges := s.exchanges ++ [c.session.serial] }
      (c.exchanged D env) ((c.exchanged D env).ending c.query.state s.now) := by
  rw [Completion.exchanged]
  split
  · exact .continued rfl rfl rfl (.exchanged (.inl rfl))
  · refine .ofResult rfl rfl (fun _ => .exchanged (.inl rfl)) fun next hnext => ?_
    obtain ⟨-, hnext⟩ := seq_eq_ok.mp hnext
    obtain ⟨secret, -, hnext⟩ := bind_eq_ok.mp hnext
    obtain ⟨-, hnext⟩ := seq_eq_ok.mp hnext
    cases hnext
    exact ⟨rfl, .exchanged (.inr ⟨_, rfl⟩)⟩

theorem resolveAuthIntegration_id {integrations : List Integration}
    {integrationId flowName : String} {integration : Integration}
    (h : resolveAuthIntegration integrations integrationId flowName = .ok integration) :
    integration.id = integrationId := by
  obtain ⟨found, hfound, h⟩ := bind_eq_ok.mp h
  obtain ⟨-, h⟩ := seq_eq_ok.mp h
  cases h
  have hid := List.find?_some (okOr_eq_ok.mp hfound)
  exact eq_of_beq hid

theorem query_eq_ok {α : Type} {answer a : α} :
    env.query answer = .ok a ↔ env.dbOk = true ∧ answer = a := by
  rw [Env.query]
  split <;> simp_all

theorem insertAccount_moves {provider : Config.ProviderRow} {encrypted label : String}
    {priority : Int64} :
    Moves D env s (.insertAccount c provider encrypted label priority)
      (s.insertAccount env c provider encrypted label priority).1
      (s.insertAccount env c provider encrypted label priority).2
      ((s.insertAccount env c provider encrypted label priority).2.ending c.query.state s.now) := by
  rw [Shared.insertAccount]
  split
  · rename_i tables htables
    exact .continued rfl rfl rfl (.inserted (query_eq_ok.mp htables).2)
  · exact .failed rfl rfl ⟨rfl, trivial⟩ (.idle rfl)
  · exact .failed rfl rfl ⟨rfl, trivial⟩ (.idle rfl)

theorem record_moves (completion : PluginAuthCompletion) :
    Moves D env s (.audit c completion) (s.record c completion).1 (s.record c completion).2
      ((s.record c completion).2.ending c.query.state s.now) := by
  have hnext : (s.record c completion).2.Apart D ∧
      (s.record c completion).2.ending c.query.state s.now =
        [.ended c.query.state (some ⟨completion.result, completion.providerId⟩) s.now] := by
    rw [Shared.record]
    split <;> exact ⟨⟨rfl, trivial⟩, rfl⟩
  rw [hnext.2]
  exact .recorded hnext.1

theorem advance_eq {p : Shared × Stage} (h : some p = some (s', next)) :
    p.1 = s' ∧ p.2 = next := by
  cases h
  exact ⟨rfl, rfl⟩

theorem Stage.moves (h : stage.advance D env s = some (s', next)) :
    Moves D env s stage s' next (stage.events D env s s' next) := by
  cases stage with
  | controlPlane credentials handler | callbackHealth cookie query =>
    cases h
    exact .same rfl (Stage.apart_ite ⟨rfl, trivial⟩ ⟨rfl, trivial⟩)
  | auth waiting handler =>
    obtain ⟨rfl, rfl⟩ := advance_eq h
    exact waiting.moves handler
  | startProvider token body =>
    cases h
    refine .same rfl (Stage.apart_ofResult fun next hnext => ?_)
    obtain ⟨row, -, hnext⟩ := bind_eq_ok.mp hnext
    obtain ⟨provider, -, hnext⟩ := bind_eq_ok.mp hnext
    obtain ⟨integrationId, -, hnext⟩ := bind_eq_ok.mp hnext
    obtain ⟨-, hnext⟩ := seq_eq_ok.mp hnext
    cases hnext
    exact ⟨rfl, trivial⟩
  | startPlugin token body provider integrationId =>
    rw [advance] at h
    split at h
    · rename_i checked _
      rw [Shared.startChecked] at h
      split at h
      · rename_i redirectUri hloopback
        cases h
        refine createSession_moves (fun _ uri huri => ?_) rfl
        rw [hloopback] at huri
        cases huri
        rfl
      · cases h
        exact .same rfl ⟨rfl, trivial⟩
      · rename_i hloopback
        cases h
        exact .same rfl ⟨rfl, hloopback⟩
    · cases h
      exact .same rfl ⟨rfl, trivial⟩
  | startBaseUrl checked =>
    rw [advance] at h
    split at h
    · cases h
      refine createSession_moves (fun hd uri huri => ?_) rfl
      rw [show loopbackRedirect D checked.body.pluginId = none from hd] at huri
      cases huri
    · cases h
      exact .same rfl ⟨rfl, trivial⟩
  | startBegin checked redirectUri state pkceChallenge =>
    obtain ⟨rfl, rfl⟩ := advance_eq h
    exact finishStart_moves
  | manualHealth token callbackUrl =>
    cases h
    refine .same rfl (Stage.apart_ite (Stage.apart_ofResult fun next hnext => ?_) ⟨rfl, trivial⟩)
    obtain ⟨⟨callback, state⟩, -, hnext⟩ := bind_eq_ok.mp hnext
    cases hnext
    exact ⟨rfl, trivial⟩
  | manualPeek token callback state =>
    cases h
    refine .quiet (.retain rfl) (fun _ => PluginAuthSessions.kept_retain) rfl
      (Stage.apart_ofResult fun next hnext => ?_)
    obtain ⟨session, -, hnext⟩ := bind_eq_ok.mp hnext
    obtain ⟨-, hnext⟩ := seq_eq_ok.mp hnext
    cases hnext
    exact ⟨rfl, trivial⟩
  | manualTake token query =>
    cases h
    exact take_moves rfl fun session hsession => hsession.symm
  | status token state =>
    cases h
    refine .quiet (.retain PluginAuthSessions.status_inner)
      (fun _ => PluginAuthSessions.kept_status) rfl (Stage.apart_ofResult fun next hnext => ?_)
    obtain ⟨answer, -, hnext⟩ := bind_eq_ok.mp hnext
    cases hnext
    exact ⟨rfl, trivial⟩
  | callbackTake cookie query =>
    cases cookie with
    | some token =>
      cases h
      exact take_moves rfl fun session hsession => hsession.symm
    | none =>
      cases h
      exact taken_moves rfl rfl fun _ => PluginAuthSessions.takeLoopbackCallback_eq_some
  | exchange c code =>
    cases h
    exact exchange_moves c code
  | recheckPlugin c result =>
    cases h
    refine .reads rfl fun next hnext => ?_
    obtain ⟨manifest, -, hnext⟩ := bind_eq_ok.mp hnext
    obtain ⟨⟨integration, binding⟩, hbinding, hnext⟩ := bind_eq_ok.mp hnext
    cases hnext
    obtain ⟨found, hfound, hbinding⟩ := bind_eq_ok.mp hbinding
    obtain ⟨strategy, -, hbinding⟩ := bind_eq_ok.mp hbinding
    cases hbinding
    exact ⟨rfl, .rechecked (resolveAuthIntegration_id hfound)⟩
  | recheckProvider c result integrationId binding =>
    cases h
    refine .reads rfl fun next hnext => ?_
    obtain ⟨row, hrow, hnext⟩ := bind_eq_ok.mp hnext
    obtain ⟨hdb, rfl⟩ := query_eq_ok.mp hrow
    obtain ⟨provider, hprovider, hnext⟩ := bind_eq_ok.mp hnext
    split at hnext
    · obtain ⟨encrypted, -, hnext⟩ := bind_eq_ok.mp hnext
      cases hnext
      exact ⟨rfl, .cleared hdb (okOr_eq_ok.mp hprovider) ‹_›⟩
    · cases hnext
      exact ⟨rfl, .idle rfl⟩
  | listAccounts c provider encrypted baseLabel =>
    cases h
    refine .reads rfl fun next hnext => ?_
    obtain ⟨accounts, -, hnext⟩ := bind_eq_ok.mp hnext
    cases hnext
    exact ⟨rfl, .listed⟩
  | insertAccount c provider encrypted label priority =>
    obtain ⟨rfl, rfl⟩ := advance_eq h
    exact insertAccount_moves
  | reload c provider accountId =>
    cases h
    refine .reads rfl fun next hnext => ?_
    obtain ⟨_, -, hnext⟩ := bind_eq_ok.mp hnext
    cases hnext
    exact ⟨rfl, .idle rfl⟩
  | finalize c provider accountId =>
    cases h
    refine .reads rfl fun next hnext => ?_
    obtain ⟨row, -, hnext⟩ := bind_eq_ok.mp hnext
    obtain ⟨account, -, hnext⟩ := bind_eq_ok.mp hnext
    split at hnext <;> cases hnext <;> exact ⟨rfl, .idle rfl⟩
  | audit c completion =>
    obtain ⟨rfl, rfl⟩ := advance_eq h
    exact record_moves completion
  | returned reply | dropped => cases h

theorem Moves.effect {events : List Event} (h : Moves D env s stage s' next events) :
    Effect D env s stage s' next := by
  cases h with
  | quiet shared _ _ next_apart => exact .quiet shared next_apart.idle
  | opened checked redirectUri => exact .created checked redirectUri
  | revoked _ next_apart => exact .quiet (.revoke _) next_apart.idle
  | refused _ _ next_apart => exact .quiet (.remove _) next_apart.idle
  | consumed _ _ _ _ effect | continued _ _ _ effect | failed _ _ _ effect => exact effect
  | recorded next_apart =>
    refine .quiet ?_ next_apart.idle
    rw [Shared.record]
    split <;> exact .sessions (fun _ => id) fun _ => Nat.le_refl _

end

end Kinetix.Enrollment
