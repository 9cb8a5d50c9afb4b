import Kinetix.Enrollment.Process
import Kinetix.Library.TaskList

/-!
# What a step of an enrollment does

A session moves from the map to one handler, from there to what was exchanged and to what was
inserted, and each step moves it once.
-/

namespace Kinetix.Enrollment
open Checks Config

/-- The admin's session, or the password that was presented in its place, is valid. -/
def Live (D : Deployment) (admin : Admin.Shared) (now : Nat) (token : String) : Prop :=
  (admin.sessions.valid token now).1 = true ∨
    Admin.verifyAdminPassword D.hash D.admin (some admin.setting) token = true

instance (D : Deployment) (admin : Admin.Shared) (now : Nat) (token : String) :
    Decidable (Live D admin now token) :=
  inferInstanceAs (Decidable (_ ∨ _))

/-- The provider that a session names is one for which it was started. -/
def Bound (tables : Tables) (session : PluginAuthSession) : Prop :=
  ∃ provider ∈ tables.getProvider session.providerId,
    provider.credentialMode = "auth_flow" ∧ provider.sourcePluginId = some session.pluginId ∧
      provider.sourceIntegrationId = some session.integrationId ∧
      provider.credentialPlugin = session.credentialBinding

instance (tables : Tables) (session : PluginAuthSession) : Decidable (Bound tables session) :=
  inferInstanceAs (Decidable (∃ _ ∈ _, _))

/-- The session was started at most ten minutes before it was taken. -/
def Completion.Started (c : Completion) (starts : List Start) : Prop :=
  ∃ b ∈ starts, b.session = c.session ∧ b.startedAt ≤ c.takenAt ∧
    c.takenAt ≤ b.startedAt + pluginAuthTtl

/-- What was presented is the session of the initiator, or nothing and the callback is of the
approved form. -/
def Completion.Admitted (D : Deployment) (c : Completion) : Prop :=
  match c.presented with
  | .cookie token | .admitted token => token = c.session.initiator
  | .loopback => c.session.loopbackCallback D.parseUrl = true

/-! ## Where a completion is -/

/-- The number of the session for which an account was inserted. -/
def Insertion.serial (e : Insertion) : Nat := e.completion.session.serial

/-- The completion that has been found to be bound and has not inserted its account. -/
def Stage.cleared : Stage → Option Completion
  | .listAccounts c .. | .insertAccount c .. => some c
  | _ => none

/-- The completion that the next step finds to be bound. -/
def Stage.clears (s : Shared) (env : Env) : Stage → Option Completion
  | .recheckProvider c _ integrationId binding =>
    if env.dbOk = true ∧ ∃ provider ∈ s.tables.getProvider c.session.providerId,
        enrolls c.session provider integrationId binding then some c else none
  | _ => none

/-- The completion whose code is to be exchanged. -/
def Stage.unexchanged : Stage → Option Completion
  | .exchange c _ => some c
  | _ => none

/-- The completion whose account is to be inserted. -/
def Stage.uninserted : Stage → Option Completion
  | .exchange c _ | .recheckPlugin c _ | .recheckProvider c .. | .listAccounts c ..
  | .insertAccount c .. => some c
  | _ => none

/-- What a handler has found out about its completion. -/
def Stage.Checked : Stage → Prop
  | .recheckProvider c _ integrationId _ => integrationId = c.session.integrationId
  | .listAccounts c provider .. | .insertAccount c provider .. =>
    provider.id = c.session.providerId
  | _ => True

variable {stage : Stage}

theorem Stage.uninserted_of_unexchanged {c : Completion} (h : stage.unexchanged = some c) :
    stage.uninserted = some c := by
  cases stage <;> first | exact h | cases h

theorem Stage.uninserted_of_cleared {c : Completion} (h : stage.cleared = some c) :
    stage.uninserted = some c := by
  cases stage <;> first | exact h | cases h

/-- A stage that has no account to insert. -/
def Stage.Idle (stage : Stage) : Prop := stage.uninserted = none

theorem Stage.Idle.unexchanged (h : stage.Idle) : stage.unexchanged = none :=
  Option.eq_none_iff_forall_ne_some.mpr fun c hc => by
    rw [Stage.Idle, uninserted_of_unexchanged hc] at h
    cases h

theorem Stage.Idle.cleared (h : stage.Idle) : stage.cleared = none :=
  Option.eq_none_iff_forall_ne_some.mpr fun c hc => by
    rw [Stage.Idle, uninserted_of_cleared hc] at h
    cases h

theorem Stage.Idle.checked (h : stage.Idle) : stage.Checked := by
  cases stage <;> first | exact trivial | cases h

theorem Request.entry_idle (request : Request) : request.entry.Idle := by
  cases request with
  | guarded credentials handler => cases handler <;> exact rfl
  | pluginAuthCallback cookie query => exact rfl

/-! ## Steps -/

/-- Nothing is started, exchanged or inserted: at most sessions are removed. -/
structure Shared.Quiet (D : Deployment) (s s' : Shared) : Prop where
  now : s'.now = s.now
  tables : s'.tables = s.tables
  starts : s'.starts = s.starts
  exchanges : s'.exchanges = s.exchanges
  insertions : s'.insertions = s.insertions
  live : ∀ token, Live D s.admin s.now token → Live D s'.admin s.now token
  mem : ∀ e ∈ s'.sessions.inner, e ∈ s.sessions.inner
  pending : ∀ k, s'.sessions.pending k ≤ s.sessions.pending k

/-- What a step of a handler can do. -/
inductive Effect (D : Deployment) (env : Env) (s : Shared) : Stage → Shared → Stage → Prop where
  | quiet {stage next : Stage} {s' : Shared} (shared : s.Quiet D s') (next_idle : next.Idle) :
      Effect D env s stage s' next
  | created {stage : Stage} (checked : CheckedStart) (redirectUri : String) :
      Effect D env s stage (s.createSession D env checked redirectUri).1
        (s.createSession D env checked redirectUri).2
  | taken {stage : Stage} {sessions : PluginAuthSessions} {c : Completion} {state code : String}
      (removed : (s.sessions.remove state s.now).1 = some c.session)
      (rest : sessions = (s.sessions.remove state s.now).2) (at_now : c.takenAt = s.now)
      (admitted : c.Admitted D) :
      Effect D env s stage { s with sessions } (.exchange c code)
  | exchanged {c : Completion} {code : String} {next : Stage}
      (next_stage : next.Idle ∨ ∃ result, next = .recheckPlugin c result) :
      Effect D env s (.exchange c code) { s with exchanges := s.exchanges ++ [c.session.serial] }
        next
  | rechecked {c : Completion} {result : AuthResult} {integrationId binding : String}
      (integration : integrationId = c.session.integrationId) :
      Effect D env s (.recheckPlugin c result) s (.recheckProvider c result integrationId binding)
  | cleared {c : Completion} {result : AuthResult} {integrationId binding : String}
      {provider : ProviderRow} {encrypted baseLabel : String} (dbOk : env.dbOk = true)
      (provider_mem : provider ∈ s.tables.getProvider c.session.providerId)
      (enrolls : enrolls c.session provider integrationId binding) :
      Effect D env s (.recheckProvider c result integrationId binding) s
        (.listAccounts c provider encrypted baseLabel)
  | listed {c : Completion} {provider : ProviderRow} {encrypted baseLabel label : String}
      {priority : Int64} :
      Effect D env s (.listAccounts c provider encrypted baseLabel) s
        (.insertAccount c provider encrypted label priority)
  | inserted {c : Completion} {provider : ProviderRow} {encrypted label : String}
      {priority : Int64} {tables : Tables}
      (tables_eq :
        s.tables.insertAccount (env.account provider encrypted label priority) = some tables) :
      Effect D env s (.insertAccount c provider encrypted label priority)
        { s with
          tables := tables
          insertions := s.insertions ++
            [⟨c, env.account provider encrypted label priority, s.now, s.admin, s.tables⟩] }
        (.reload c provider (env.account provider encrypted label priority).id)

section
variable {D : Deployment} {env : Env} {s s' : Shared} {stage next : Stage} {c : Completion}

theorem Shared.Quiet.refl : s.Quiet D s where
  now := rfl
  tables := rfl
  starts := rfl
  exchanges := rfl
  insertions := rfl
  live _ h := h
  mem _ h := h
  pending _ := Nat.le_refl _

/-- A change of the map after which no entry is new. -/
theorem Shared.Quiet.sessions {sessions : PluginAuthSessions}
    (mem : ∀ e ∈ sessions.inner, e ∈ s.sessions.inner)
    (pending : ∀ k, sessions.pending k ≤ s.sessions.pending k) :
    s.Quiet D { s with sessions } where
  now := rfl
  tables := rfl
  starts := rfl
  exchanges := rfl
  insertions := rfl
  live _ h := h
  mem := mem
  pending := pending

theorem Shared.Quiet.revoke (state : String) :
    s.Quiet D { s with sessions := s.sessions.revoke state } :=
  .sessions (fun _ => PluginAuthSessions.mem_revoke) (PluginAuthSessions.pending_revoke ·)

theorem Shared.Quiet.retain {sessions : PluginAuthSessions}
    (h : sessions.inner = (s.sessions.retain s.now).inner) : s.Quiet D { s with sessions } := by
  refine .sessions (fun e he => ?_) fun k => ?_
  · rw [h] at he
    exact PluginAuthSessions.mem_retain he
  · rw [PluginAuthSessions.pending, h]
    exact PluginAuthSessions.pending_retain k

theorem Shared.Quiet.remove (state : String) :
    s.Quiet D { s with sessions := (s.sessions.remove state s.now).2 } := by
  refine .sessions (fun e he => ?_) fun k => ?_
  · exact PluginAuthSessions.mem_retain (PluginAuthSessions.mem_revoke he)
  · exact Nat.le_trans (PluginAuthSessions.pending_revoke k) (PluginAuthSessions.pending_retain k)

theorem Shared.Quiet.authToken (token : String) (handler : Guarded) (otherwise : Stage) :
    s.Quiet D (s.authToken token handler otherwise).1 where
  now := rfl
  tables := rfl
  starts := rfl
  exchanges := rfl
  insertions := rfl
  live _ h := h.imp_left Admin.Sessions.valid_of_valid
  mem _ h := h
  pending _ := Nat.le_refl _

theorem Effect.idle (h : next.Idle) : Effect D env s stage s next := .quiet .refl h

/-! ## What each step keeps -/

/-- The completion is of the session with the number. -/
def concerns (k : Nat) (x : Option Completion) : Bool := x.any (·.session.serial == k)

/-- One, if the number was given to a session. -/
def issued (n k : Nat) : Nat := if k < n then 1 else 0

theorem issued_succ (n k : Nat) : issued (n + 1) k = issued n k + if n = k then 1 else 0 := by
  unfold issued
  split <;> split <;> split <;> omega

theorem Effect.now (h : Effect D env s stage s' next) : s'.now = s.now := by
  cases h with
  | quiet shared => exact shared.now
  | _ => rfl

theorem Effect.starts (h : Effect D env s stage s' next) : ∀ b ∈ s.starts, b ∈ s'.starts := by
  intro b hb
  cases h with
  | quiet shared => exact shared.starts ▸ hb
  | created => exact List.mem_append_left _ hb
  | _ => exact hb

theorem Effect.live (h : Effect D env s stage s' next) {token : String}
    (hl : Live D s.admin s.now token) : Live D s'.admin s'.now token := by
  rw [h.now]
  cases h with
  | quiet shared => exact shared.live token hl
  | _ => exact hl

theorem Effect.bound (h : Effect D env s stage s' next) {session : PluginAuthSession}
    (hb : Bound s.tables session) : Bound s'.tables session := by
  cases h with
  | quiet shared => exact shared.tables ▸ hb
  | inserted tables_eq =>
    rw [Bound] at hb ⊢
    rwa [s.tables.getProvider_insertAccount tables_eq]
  | _ => exact hb

theorem length_starts_createSession {checked : CheckedStart} {redirectUri : String} :
    (s.createSession D env checked redirectUri).1.starts.length = s.starts.length + 1 :=
  List.length_append

theorem Shared.pending_createSession (D : Deployment) (env : Env) (s : Shared)
    (checked : CheckedStart) (redirectUri : String) (k : Nat) :
    (s.createSession D env checked redirectUri).1.sessions.pending k ≤
      s.sessions.pending k + if s.starts.length = k then 1 else 0 :=
  PluginAuthSessions.pending_create k

/-- A session moves from the map to a handler and from there to what was exchanged. -/
theorem Effect.exchange_le (h : Effect D env s stage s' next) (k : Nat) :
    s'.sessions.pending k + (if concerns k next.unexchanged then 1 else 0) +
        s'.exchanges.count k + issued s.starts.length k ≤
      s.sessions.pending k + (if concerns k stage.unexchanged then 1 else 0) +
        s.exchanges.count k + issued s'.starts.length k := by
  cases h with
  | quiet shared next_idle =>
    have hpending := shared.pending k
    rw [next_idle.unexchanged, shared.starts, shared.exchanges]
    simp only [concerns, Option.any_none, Bool.false_eq_true, if_false]
    omega
  | created checked redirectUri =>
    have hpending := s.pending_createSession D env checked redirectUri k
    have hnext : (s.createSession D env checked redirectUri).2.unexchanged = none := rfl
    rw [hnext, length_starts_createSession, issued_succ]
    simp only [concerns, Option.any_none, Bool.false_eq_true, if_false]
    have hexchanges : (s.createSession D env checked redirectUri).1.exchanges = s.exchanges := rfl
    rw [hexchanges]
    omega
  | taken removed rest at_now admitted =>
    obtain ⟨-, -, hpending⟩ := PluginAuthSessions.remove_eq_some removed
    have hpending := hpending k
    subst rest
    simp only [concerns, Stage.unexchanged, Option.any_some, beq_iff_eq]
    omega
  | @exchanged c code next next_stage =>
    have hnext : next.unexchanged = none := by
      rcases next_stage with hidle | ⟨result, rfl⟩
      · exact hidle.unexchanged
      · rfl
    rw [hnext]
    simp only [concerns, Stage.unexchanged, Option.any_some, Option.any_none,
      Bool.false_eq_true, if_false, List.count_append, List.count_singleton, beq_iff_eq]
    omega
  | _ => exact Nat.le_refl _

/-- A session moves from the map to a handler and from there to what was inserted. -/
theorem Effect.insert_le (h : Effect D env s stage s' next) (k : Nat) :
    s'.sessions.pending k + (if concerns k next.uninserted then 1 else 0) +
        (s'.insertions.map Insertion.serial).count k + issued s.starts.length k ≤
      s.sessions.pending k + (if concerns k stage.uninserted then 1 else 0) +
        (s.insertions.map Insertion.serial).count k + issued s'.starts.length k := by
  cases h with
  | quiet shared next_idle =>
    have hpending := shared.pending k
    rw [shared.starts, shared.insertions, show next.uninserted = none from next_idle]
    simp only [concerns, Option.any_none, Bool.false_eq_true, if_false]
    omega
  | created checked redirectUri =>
    have hpending := s.pending_createSession D env checked redirectUri k
    have hnext : (s.createSession D env checked redirectUri).2.uninserted = none := rfl
    rw [hnext, length_starts_createSession, issued_succ]
    simp only [concerns, Option.any_none, Bool.false_eq_true, if_false]
    have hinsertions : (s.createSession D env checked redirectUri).1.insertions =
        s.insertions := rfl
    rw [hinsertions]
    omega
  | taken removed rest at_now admitted =>
    obtain ⟨-, -, hpending⟩ := PluginAuthSessions.remove_eq_some removed
    have hpending := hpending k
    subst rest
    simp only [concerns, Stage.uninserted, Option.any_some, beq_iff_eq]
    omega
  | @exchanged c code next next_stage =>
    rcases next_stage with hidle | ⟨result, rfl⟩
    · rw [show next.uninserted = none from hidle]
      simp only [concerns, Option.any_none, Bool.false_eq_true, if_false]
      omega
    · exact Nat.le_refl _
  | @inserted c provider encrypted label priority tables tables_eq =>
    simp only [concerns, Stage.uninserted, Option.any_some, Option.any_none,
      Bool.false_eq_true, if_false, List.map_append, List.map_singleton, List.count_append,
      List.count_singleton, Insertion.serial, beq_iff_eq]
    omega
  | _ => exact Nat.le_refl _

/-- Each session in the map was started and expires ten minutes after. -/
def Shared.Dated (s : Shared) : Prop :=
  ∀ e ∈ s.sessions.inner, ∃ b ∈ s.starts, b.session = e.2 ∧ b.startedAt ≤ s.now ∧
    e.2.expiresAt = b.startedAt + pluginAuthTtl

theorem Effect.dated (h : Effect D env s stage s' next) (hs : s.Dated) : s'.Dated := by
  intro e he
  cases h with
  | quiet shared =>
    rw [shared.starts, shared.now]
    exact hs e (shared.mem e he)
  | created checked redirectUri =>
    rcases PluginAuthSessions.mem_create he with rfl | hold
    · exact ⟨_, List.mem_append_right _ (List.mem_singleton_self _), rfl, Nat.le_refl _, rfl⟩
    · obtain ⟨b, hb, hsession, hle, hexpires⟩ := hs e hold
      exact ⟨b, List.mem_append_left _ hb, hsession, hle, hexpires⟩
  | taken removed rest at_now admitted =>
    subst rest
    exact hs e (PluginAuthSessions.mem_retain (PluginAuthSessions.mem_revoke he))
  | _ => exact hs e he

theorem Effect.checked (h : Effect D env s stage s' next) (hs : stage.Checked) :
    next.Checked := by
  cases h with
  | quiet shared next_idle => exact next_idle.checked
  | created | taken | inserted => exact trivial
  | exchanged next_stage =>
    rcases next_stage with hidle | ⟨result, rfl⟩
    · exact hidle.checked
    · exact trivial
  | rechecked integration => exact integration
  | cleared dbOk provider_mem enrolls => exact s.tables.id_of_mem_getProvider provider_mem
  | listed => exact hs

/-- A completion is what a handler had or has just taken its session. -/
theorem Effect.taken_of (h : Effect D env s stage s' next) (hs : s.Dated)
    (hc : next.uninserted = some c) :
    stage.uninserted = some c ∨ c.Started s'.starts ∧ c.Admitted D := by
  cases h with
  | quiet shared next_idle =>
    rw [show next.uninserted = none from next_idle] at hc
    cases hc
  | created | inserted => cases hc
  | taken removed rest at_now admitted =>
    cases hc
    obtain ⟨hmem, hlive, -⟩ := PluginAuthSessions.remove_eq_some removed
    obtain ⟨b, hb, hsession, hle, hexpires⟩ := hs _ hmem
    rw [hexpires] at hlive
    exact Or.inr ⟨⟨b, hb, hsession, at_now ▸ hle, by omega⟩, admitted⟩
  | exchanged next_stage =>
    rcases next_stage with hidle | ⟨result, rfl⟩
    · rw [show next.uninserted = none from hidle] at hc
      cases hc
    · exact Or.inl hc
  | _ => exact Or.inl hc

theorem validatePluginAuthEnrollment_eq_ok {provider : ProviderRow}
    {pluginId integrationId binding : String} :
    validatePluginAuthEnrollment provider pluginId integrationId binding = .ok () ↔
      provider.credentialMode = "auth_flow" ∧ provider.sourcePluginId = some pluginId ∧
        provider.sourceIntegrationId = some integrationId ∧
        provider.credentialPlugin = binding := by
  rw [validatePluginAuthEnrollment, seq_eq_ok, seq_eq_ok, refuseIf_eq_ok, refuseIf_eq_ok,
    refuseIf_eq_ok, not_not, not_not, not_or, not_not, not_not, and_assoc]

/-- A completion is cleared when its provider was found to be bound. -/
theorem Effect.cleared_of (h : Effect D env s stage s' next) (hs : stage.Checked)
    (hc : next.cleared = some c) :
    stage.cleared = some c ∨ stage.clears s env = some c ∧ Bound s.tables c.session := by
  cases h with
  | quiet shared next_idle =>
    rw [next_idle.cleared] at hc
    cases hc
  | created | taken | rechecked | inserted => cases hc
  | exchanged next_stage =>
    rcases next_stage with hidle | ⟨result, rfl⟩
    · rw [hidle.cleared] at hc
      cases hc
    · cases hc
  | cleared dbOk provider_mem enrolls =>
    cases hc
    have hintegration : _ = c.session.integrationId := hs
    subst hintegration
    exact Or.inr ⟨if_pos ⟨dbOk, _, provider_mem, enrolls⟩, _, provider_mem,
      validatePluginAuthEnrollment_eq_ok.mp enrolls.2⟩
  | listed => exact Or.inl hc

/-- A new account is that of a cleared completion. -/
theorem Effect.insertion_of (h : Effect D env s stage s' next) (hs : stage.Checked)
    {e : Insertion} (he : e ∈ s'.insertions) :
    e ∈ s.insertions ∨ stage.cleared = some e.completion ∧ e.insertedAt = s.now ∧
      e.admin = s.admin ∧ e.tables = s.tables ∧
      e.account.providerId = e.completion.session.providerId := by
  cases h with
  | quiet shared => exact Or.inl (shared.insertions ▸ he)
  | inserted =>
    rcases List.mem_append.mp he with hold | hnew
    · exact Or.inl hold
    · cases List.mem_singleton.mp hnew
      exact Or.inr ⟨rfl, rfl, rfl, rfl, hs⟩
  | _ => exact Or.inl he

end

end Kinetix.Enrollment
