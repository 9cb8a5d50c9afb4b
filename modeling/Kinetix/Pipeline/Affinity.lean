import Kinetix.Library.Unwinding
import Kinetix.Pipeline.Portability

/-!
# Session affinity

The map from a session to the target that last answered it. A request reads it for the provider of
its continuation state, for the candidate to promote and for the wait for a saturated target. The
map is keyed by the session alone, which the client chooses, so the requests of one virtual key
leave those of another alone only as long as the two use different sessions.

## Implementation notes

What a request reads elsewhere is its own data. The portability decision is that of a first attempt:
later ones compare with the provider of the attempt before. Any success may be remembered at any
time.
-/

namespace Kinetix.Pipeline
open Frontends Json StateMachine Kinetix.Types

/-! ## The map -/

/-- The target that a session last succeeded on, and when. -/
structure StickyEntry where
  targetKey : String
  /-- `at`. -/
  writtenAt : Nat

abbrev Sticky := String → Option StickyEntry

/-- `STICKY_TTL`, which is also the age at which `server.rs` sweeps. -/
def stickyTtl : Nat := 30 * 60 * 1000000000

/-- `sticky_remember`. -/
def stickyRemember (m : Sticky) (session targetKey : String) (now : Nat) : Sticky :=
  Function.update m session (some ⟨targetKey, now⟩)

/-- `sticky_lookup`: an entry that is too old says nothing. -/
def stickyLookup (m : Sticky) (session : String) (ttl now : Nat) : Option String :=
  (m session).bind fun e => if now - e.writtenAt ≤ ttl then some e.targetKey else none

/-- `sticky_sweep`. -/
def stickySweep (m : Sticky) (ttl now : Nat) : Sticky :=
  fun session => (m session).filter fun e => now - e.writtenAt ≤ ttl

/-! ## Requests -/

/-- What affinity reads of a route. -/
structure AffinityRoute extends RouteRow where
  id : String
  cacheAffinity : Bool
  stickyRouting : Bool
  portabilityPolicy : String

/-- A request of a virtual key, with the candidates that it has planned. -/
structure SessionRequest where
  key : String
  /-- The text of a header. -/
  header : String → Option String
  route : Option AffinityRoute
  targets : List ResolvedTarget
  modelId : ResolvedTarget → String
  providerId : ResolvedTarget → String
  displayName : ResolvedTarget → String
  facts : ResolvedTarget → TargetFacts
  requestedModel : String
  allowFallback : Bool
  request : InternalRequest

/-- `extract_session`. -/
def extractSession (header : String → Option String) : Option String :=
  ["x-kinetix-session", "x-claude-code-session-id", "x-session-id", "session_id",
    "x-conversation-id", "x-session-affinity"].findSome? fun name =>
      ((header name).map Text.trim).filter fun v => v ≠ "" ∧ v.utf8ByteSize ≤ 200

namespace SessionRequest
variable (r : SessionRequest)

def session : Option String := extractSession r.header

def targetKey (route : AffinityRoute) (t : ResolvedTarget) : String :=
  route.id ++ "|" ++ t.accountId ++ "|" ++ r.modelId t

/-- `session_origin_provider`. -/
def sessionOriginProvider (originKey : Option String) : Option String :=
  r.route.bind fun route => originKey.bind fun key =>
    (r.targets.find? (r.targetKey route · = key)).map r.providerId

/-- The candidates with the one of the session in front. -/
def promotedTargets (originKey : Option String) : List ResolvedTarget :=
  match r.route, originKey with
  | some route, some key =>
    if route.cacheAffinity || route.stickyRouting then
      match r.targets.findIdx? (r.targetKey route · = key) with
      | some pos => r.targets.rotate pos
      | none => r.targets
    else r.targets
  | _, _ => r.targets

/-- Whether an adaptive dispatch waits for a saturated target. -/
def affinity (originKey : Option String) (t : ResolvedTarget) : Bool :=
  r.route.any fun route => (route.cacheAffinity || route.stickyRouting) &&
    originKey.any fun key => r.targetKey route t = key

def portabilityConfig (originKey : Option String) : PortabilityConfig where
  attempt := ⟨r.route.map AffinityRoute.toRouteRow, r.requestedModel, r.allowFallback⟩
  portabilityPolicy := (r.route.map AffinityRoute.portabilityPolicy).getD ""
  providerId := r.providerId
  displayName := r.displayName
  sessionOriginProvider := r.sessionOriginProvider originKey
  request := r.request

end SessionRequest

/-- What a request decides with the session's target. -/
structure AffinityDecision where
  targets : List ResolvedTarget
  /-- The request that each candidate would be sent first, or the refusal. -/
  portability : List (Except ProxyError (InternalRequest × Option String))
  affinity : List Bool

def SessionRequest.decide (J : SerdeJson) (r : SessionRequest) (originKey : Option String) :
    AffinityDecision :=
  let targets := r.promotedTargets originKey
  let cfg := r.portabilityConfig originKey
  { targets
    portability := targets.map fun t =>
      cfg.portabilityDecision J cfg.sessionOriginProvider t (r.facts t)
    affinity := targets.map (r.affinity originKey) }

/-! ## Runs -/

/-- The sticky map, with what was decided. -/
structure AffinityState where
  sticky : Sticky
  /-- What each request decided, the last one first. -/
  decisions : List (String × AffinityDecision)

inductive AffinityAction where
  | plan (r : SessionRequest) (now : Nat)
  | succeeded (r : SessionRequest) (target : ResolvedTarget) (now : Nat)
  | sweep (now : Nat)

namespace AffinityAction

/-- The virtual key of the request. -/
def key : AffinityAction → Option String
  | .plan r _ => some r.key
  | .succeeded r _ _ => some r.key
  | .sweep _ => none

/-- The session that the action reads. -/
def reads : AffinityAction → Option String
  | .plan r _ => r.session
  | .succeeded _ _ _ => none
  | .sweep _ => none

/-- The session that the action writes: only a route's target is remembered. -/
def writes : AffinityAction → Option String
  | .plan _ _ => none
  | .succeeded r _ _ => if r.route.isSome then r.session else none
  | .sweep _ => none

end AffinityAction

namespace AffinityState
variable (J : SerdeJson) (s : AffinityState)

/-- `session_origin_key`. -/
def originKey (r : SessionRequest) (now : Nat) : Option String :=
  r.session.bind fun session => stickyLookup s.sticky session stickyTtl now

/-- A plan, a success or a sweep. -/
def step : AffinityAction → AffinityState
  | .plan r now => { s with decisions := (r.key, r.decide J (s.originKey r now)) :: s.decisions }
  | .succeeded r target now =>
    match r.session, r.route with
    | some session, some route =>
      { s with sticky := stickyRemember s.sticky session (r.targetKey route target) now }
    | _, _ => s
  | .sweep now => { s with sticky := stickySweep s.sticky stickyTtl now }

/-- The decisions of the requests of a key. -/
def decisionsOf (key : String) : List (String × AffinityDecision) :=
  s.decisions.filter (·.1 = key)

end AffinityState

/-- Requests of any keys, from an empty map. -/
def affinityMap (J : SerdeJson) : Machine AffinityState AffinityAction where
  start := ⟨fun _ => none, []⟩
  step s a := some (s.step J a)

/-- No session that a request of the key reads is written by a request of the other one. -/
def DisjointSessions (key other : String) (as : List AffinityAction) : Prop :=
  ∀ a ∈ as, ∀ b ∈ as, a.key = some key → b.key = some other → ∀ session,
    a.reads = some session → b.writes ≠ some session

/-! ## Isolation -/

section
variable {J : SerdeJson} {s t s' t' : AffinityState} {key other : String} {S : String → Prop}
  {a : AffinityAction}

/-- The entries of some sessions and the decisions of a key are the same. -/
structure AffinityState.SameFor (S : String → Prop) (key : String) (s t : AffinityState) :
    Prop where
  sticky : ∀ session, S session → s.sticky session = t.sticky session
  decisions : s.decisionsOf key = t.decisionsOf key

/-- The action reads only such sessions for the key and writes none of them for the other one. -/
def AffinityAction.Keeps (S : String → Prop) (key other : String) (a : AffinityAction) : Prop :=
  (a.key = some key → ∀ session, a.reads = some session → S session) ∧
    (a.key = some other → ∀ session, a.writes = some session → ¬ S session)

theorem AffinityState.step_succeeded {r : SessionRequest} {target : ResolvedTarget} {now : Nat} :
    (∃ session route, r.session = some session ∧ r.route = some route ∧
      (AffinityAction.succeeded r target now).writes = some session ∧
      s.step J (.succeeded r target now) =
        { s with sticky := stickyRemember s.sticky session (r.targetKey route target) now }) ∨
    ∀ s : AffinityState, s.step J (.succeeded r target now) = s := by
  cases hsession : r.session with
  | none => exact Or.inr fun s => by simp only [step, hsession]
  | some session =>
    cases hroute : r.route with
    | none => exact Or.inr fun s => by simp only [step, hsession, hroute]
    | some route =>
      refine Or.inl ⟨session, route, rfl, rfl, ?_, ?_⟩
      · simp only [AffinityAction.writes, hroute, Option.isSome_some, if_true, hsession]
      · simp only [step, hsession, hroute]

/-- A request of the other key leaves the sessions of the key alone. -/
theorem sameFor_other (hne : key ≠ other) (h : s.SameFor S key t) (ha : a.key = some other)
    (hkeeps : a.Keeps S key other) : s.SameFor S key (t.step J a) := by
  cases a with
  | plan r now =>
    refine ⟨h.sticky, h.decisions.trans ?_⟩
    have hkey : r.key ≠ key := fun heq => hne (heq.symm.trans (Option.some_injective _ ha))
    exact (List.filter_cons_of_neg (by simpa using hkey)).symm
  | succeeded r target now =>
    rcases AffinityState.step_succeeded (J := J) (s := t) (r := r) with
      ⟨session, route, -, -, hwrites, hstep⟩ | hstep
    · rw [hstep]
      refine ⟨fun session' hS => ?_, h.decisions⟩
      have hother : session' ≠ session := by
        rintro rfl
        exact hkeeps.2 ha session' hwrites hS
      exact (h.sticky session' hS).trans (Function.update_of_ne hother ..).symm
    · rw [hstep]
      exact h
  | sweep now => cases ha

/-- An action that both runs take does the same in both. -/
theorem sameFor_both (h : s.SameFor S key t) (hkeeps : a.Keeps S key other) :
    (s.step J a).SameFor S key (t.step J a) := by
  cases a with
  | plan r now =>
    refine ⟨h.sticky, ?_⟩
    by_cases hkey : r.key = key
    · have horigin : s.originKey r now = t.originKey r now := by
        unfold AffinityState.originKey stickyLookup
        cases hsession : r.session with
        | none => rfl
        | some session =>
          rw [Option.bind_some, Option.bind_some,
            h.sticky session (hkeeps.1 (congrArg some hkey) session hsession)]
      have hcons : ∀ u : AffinityState, (u.step J (.plan r now)).decisionsOf key =
          (r.key, r.decide J (u.originKey r now)) :: u.decisionsOf key := fun u =>
        List.filter_cons_of_pos (by simpa using hkey)
      rw [hcons, hcons, horigin, h.decisions]
    · have hskip : ∀ u : AffinityState, (u.step J (.plan r now)).decisionsOf key =
          u.decisionsOf key := fun u => List.filter_cons_of_neg (by simpa using hkey)
      rw [hskip, hskip, h.decisions]
  | succeeded r target now =>
    rcases AffinityState.step_succeeded (J := J) (s := s) (r := r) with
      ⟨session, route, hsession, hroute, -, hstep⟩ | hstep
    · have hstep' : t.step J (.succeeded r target now) =
          { t with sticky := stickyRemember t.sticky session (r.targetKey route target) now } := by
        simp only [AffinityState.step, hsession, hroute]
      rw [hstep, hstep']
      refine ⟨fun session' hS => ?_, h.decisions⟩
      simp only [stickyRemember, Function.update_apply, h.sticky session' hS]
    · rw [hstep, hstep]
      exact h
  | sweep now =>
    refine ⟨fun session hS => ?_, h.decisions⟩
    exact congrArg (Option.filter _) (h.sticky session hS)

theorem unwinding_affinity (J : SerdeJson) (hne : key ≠ other) (S : String → Prop) :
    Unwinding (affinityMap J) (fun a => decide (a.key ≠ some other))
      (fun _ a => a.Keeps S key other) (AffinityState.SameFor S key) where
  start := ⟨fun _ _ => rfl, rfl⟩
  symm h := ⟨fun session hS => (h.sticky session hS).symm, h.decisions.symm⟩
  quiet hquiet h hkeeps hstep := by
    cases hstep
    exact sameFor_other hne h (by simpa using hquiet) hkeeps
  loud _ h hkeeps _ hs ht := by
    cases hs
    cases ht
    exact sameFor_both h hkeeps

end

/-- Adding or removing requests of another key does not change what the requests of a key decide, if
the two use different sessions. -/
theorem session_affinity_isolated (J : SerdeJson) {key other : String} (hne : key ≠ other)
    (as bs : List AffinityAction) (s t : AffinityState)
    (hsame : as.filter (fun a => decide (a.key ≠ some other)) =
      bs.filter fun a => decide (a.key ≠ some other))
    (hdisjoint : DisjointSessions key other (as ++ bs))
    (hs : (affinityMap J).run as = some s) (ht : (affinityMap J).run bs = some t) :
    s.decisionsOf key = t.decisionsOf key := by
  let S := fun session => ∃ a ∈ as ++ bs, a.key = some key ∧ a.reads = some session
  have hkeeps : ∀ b ∈ as ++ bs, b.Keeps S key other := by
    intro b hb
    refine ⟨fun hkey session hreads => ⟨b, hb, hkey, hreads⟩, ?_⟩
    rintro hother session hwrites ⟨a, ha, hkey, hreads⟩
    exact hdisjoint a ha b hb hkey hother session hreads hwrites
  refine ((unwinding_affinity J hne S).run hsame ?_ ?_ hs ht).decisions
  · rintro pre a post u rfl -
    exact hkeeps a (by simp)
  · rintro pre a post u rfl -
    exact hkeeps a (by simp)

/-- A route with two accounts that keeps a session at its target. -/
def stickyRoute : AffinityRoute where
  name := "fast"
  maxAttempts := none
  fallbackTriggers _ := none
  id := "rte_1"
  cacheAffinity := false
  stickyRouting := true
  portabilityPolicy := "strip_with_warning"

def stickyTarget (accountId : String) : ResolvedTarget where
  routeTargetId := some "tgt_1"
  accountId
  account := {}
  providerName := "p"
  providerStrict := false

/-- A request of a key with a session. -/
def sessionRequest (key session : String) : SessionRequest where
  key
  header name := if name = "x-session-id" then some session else none
  route := some stickyRoute
  targets := [stickyTarget "acc_1", stickyTarget "acc_2"]
  modelId _ := "mod_1"
  providerId _ := "prov_1"
  displayName _ := "m"
  facts _ := ⟨false, ⟨[], []⟩, none⟩
  requestedModel := "fast"
  allowFallback := true
  request :=
    { requestedModel := "fast"
      system := []
      messages := []
      tools := []
      toolChoice := none
      toolChoiceName := none
      params := {}
      stream := false
      includeUsage := false
      thinking := none
      extra := []
      rawBody := none }

/-- The other key's session is another one. -/
theorem session_affinity_isolated_disjoint :
    ∃ s t, (affinityMap .ofEmptyObject).run
        [.succeeded (sessionRequest "key_b" "b") (stickyTarget "acc_2") 0,
          .plan (sessionRequest "key_a" "a") 1] = some s ∧
      (affinityMap .ofEmptyObject).run [.plan (sessionRequest "key_a" "a") 1] = some t ∧
      s.decisionsOf "key_a" = t.decisionsOf "key_a" := by
  refine ⟨_, _, rfl, rfl,
    session_affinity_isolated .ofEmptyObject (show "key_a" ≠ "key_b" by decide)
    [.succeeded (sessionRequest "key_b" "b") (stickyTarget "acc_2") 0,
      .plan (sessionRequest "key_a" "a") 1] [.plan (sessionRequest "key_a" "a") 1] _ _
      rfl ?_ rfl rfl⟩
  intro a ha b hb _ _ session hreads hwrites
  have hread : a.reads = some "a" ∨ a.reads = none := by
    fin_cases ha
    · exact Or.inr rfl
    · exact Or.inl rfl
    · exact Or.inl rfl
  have hwritten : b.writes = some "b" ∨ b.writes = none := by
    fin_cases hb
    · exact Or.inl rfl
    · exact Or.inr rfl
    · exact Or.inr rfl
  have hsession : session = "a" := by simpa [hreads] using hread
  have hother : session = "b" := by simpa [hwrites] using hwritten
  exact absurd (hsession.symm.trans hother) (by decide)

/-- Another key's request with the same session moves the candidates of the key's request. -/
theorem session_affinity_not_isolated :
    ∃ s t, (affinityMap .ofEmptyObject).run
        [.succeeded (sessionRequest "key_b" "a") (stickyTarget "acc_2") 0,
          .plan (sessionRequest "key_a" "a") 1] = some s ∧
      (affinityMap .ofEmptyObject).run [.plan (sessionRequest "key_a" "a") 1] = some t ∧
      s.decisionsOf "key_a" ≠ t.decisionsOf "key_a" := by
  refine ⟨_, _, rfl, rfl, fun h => ?_⟩
  have haccounts := congrArg (List.map fun d => d.2.targets.map ResolvedTarget.accountId) h
  revert haccounts
  decide

end Kinetix.Pipeline
