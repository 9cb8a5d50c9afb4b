import Kinetix.Frontends.Request
import Kinetix.Library.Fallible
import Kinetix.Pipeline.Fallback

/-!
# Portability of continuation state

The attempt loop with the request that each dispatch sends. A target of another provider than the
one whose state the client returns should get the request without that state. The loop decides this
by the provider of its previous dispatch, so the second of two dispatches to a foreign provider
gets the state unstripped.

## Implementation notes

The machine runs the attempt loop beside it: what the preparation of a request refuses is the
request error of the turn. Overrides of sampling parameters and the counts of the route trace are
left out.
-/

namespace Kinetix.Pipeline
open Account (Rfc3339)
open Checks Frontends Json StateMachine Kinetix.Types

/-! ## Continuation state in a request -/

/-- The part is a thinking part or a call with a signature. -/
def Part.isOpaque : Part → Bool
  | .thinking _ _ => true
  | .toolCall _ _ _ signature => signature.isSome
  | .text _ => false
  | .image _ => false
  | .toolResult _ _ _ _ => false

/-- `request_has_opaque_state`. -/
def requestHasOpaqueState (req : InternalRequest) : Bool :=
  req.messages.any fun message => message.parts.any Part.isOpaque

/-- What the stored state of a conversation gives for a target. -/
structure OpaqueHydrationReport where
  /-- The calls whose state exists but cannot go to the target. -/
  incompatibleIds : List String
  /-- The calls whose signatures are restored. -/
  restorations : List (String × String)

def OpaqueHydrationReport.nonportable (report : OpaqueHydrationReport) : Bool :=
  !report.incompatibleIds.isEmpty

/-- `hydrate_opaque_state` on a part, for one restoration. -/
def hydratePart (restoration : String × String) : Part → Part
  | .toolCall (some id) name arguments none =>
    if id = restoration.1 then .toolCall (some id) name arguments (some restoration.2)
    else .toolCall (some id) name arguments none
  | part => part

def mapParts (f : List Part → List Part) (req : InternalRequest) : InternalRequest :=
  { req with messages := req.messages.map fun message => { message with parts := f message.parts } }

/-- `hydrate_opaque_state`: stored signatures are put back. -/
def hydrateOpaqueState (req : InternalRequest) (report : OpaqueHydrationReport) : InternalRequest :=
  report.restorations.foldl (fun req restoration => mapParts (·.map (hydratePart restoration)) req)
    req

/-! ## Stripping -/

/-- The content parts of a raw message. -/
def stripContent : Value → Value
  | .array parts =>
    let kept := parts.filter fun part => (part.get "type").bind Value.asStr != some "thinking"
    .array (kept.map fun part =>
      match part with
      | .object fields => .object (removeField "thoughtSignature" (removeField "signature" fields))
      | part => part)
  | content => content

def stripRawMessage : Value → Value
  | .object fields =>
    let fields := removeField "reasoning_signature" (removeField "reasoning_content" fields)
    let fields :=
      if (fields.lookup "reasoning").any Value.isString then removeField "reasoning" fields
      else fields
    .object (mapField "content" stripContent fields)
  | message => message

/-- `strip_opaque_raw_body`. -/
def stripOpaqueRawBody (J : SerdeJson) (rawBody : Option String) : Option String :=
  rawBody.bind fun raw =>
    match J.fromStr raw with
    | none => none
    | some (.object fields) =>
      match fields.lookup "messages" with
      | some (.array messages) =>
        some (J.toString (.object
          (mapField "messages" (fun _ => .array (messages.map stripRawMessage)) fields)))
      | _ => some raw
    | some _ => some raw

/-- The call's stored state cannot go to the target. -/
def OpaqueHydrationReport.isIncompatible (report : OpaqueHydrationReport) (id : Option String) :
    Bool :=
  id.any (report.incompatibleIds.contains ·)

/-- A part without the state of another provider; a call may get the target's placeholder. -/
def stripPart (report : OpaqueHydrationReport) (placeholder : Option String) : Part → Part
  | .toolCall id name arguments _ =>
    .toolCall id name arguments (if report.isIncompatible id then placeholder else none)
  | part => part

def isPlaced (report : OpaqueHydrationReport) (placeholder : Option String) : Part → Bool
  | .toolCall id _ _ _ => report.isIncompatible id && placeholder.isSome
  | _ => false

/-- `strip_nonportable_state`: the request, and how many placeholders it got. -/
def stripNonportableState (J : SerdeJson) (req : InternalRequest) (report : OpaqueHydrationReport)
    (placeholder : Option String) : InternalRequest × Nat :=
  let strip := fun (parts : List Part) =>
    (parts.filter (!·.isThinking)).map (stripPart report placeholder)
  ({ mapParts strip req with rawBody := stripOpaqueRawBody J req.rawBody },
    (req.messages.flatMap Message.parts).countP (isPlaced report placeholder))

def portabilityWarning (displayName : String) (placed : Nat) : String :=
  if 0 < placed then
    "non-portable provider continuation state was replaced with the provider's documented " ++
      s!"placeholder for fallback to '{displayName}'"
  else
    s!"non-portable provider continuation state was omitted for fallback to '{displayName}'"

/-! ## Preparing a request -/

/-- The parameters of a request's attempt loop that portability depends on. -/
structure PortabilityConfig where
  attempt : Config
  /-- `portability_policy` of the route. -/
  portabilityPolicy : String
  /-- The provider of a target. -/
  providerId : ResolvedTarget → String
  displayName : ResolvedTarget → String
  /-- `session_origin_provider`. -/
  sessionOriginProvider : Option String
  request : InternalRequest

/-- `RouteRow::portability`. -/
def portability (policy : String) : String :=
  if policy = "reject" then "reject" else "strip_with_warning"

/-- What a turn gets to know about its target. -/
structure TargetFacts where
  crossFormat : Bool
  report : OpaqueHydrationReport
  placeholder : Option String

namespace PortabilityConfig
variable (J : SerdeJson) (cfg : PortabilityConfig)

/-- `apply_portability`: the request, with a warning if state was stripped. -/
def applyPortability (route : RouteRow) (target : ResolvedTarget) (facts : TargetFacts) :
    Except ProxyError (InternalRequest × Option String) := do
  let inlineOpaque := requestHasOpaqueState cfg.request
  if !inlineOpaque && !facts.report.nonportable then
    return (cfg.request, none)
  refuseIf (portability cfg.portabilityPolicy = "reject") (.unsupported
    (s!"route '{route.name}' forbids fallback because the conversation contains non-portable " ++
      s!"provider continuation state for target '{cfg.displayName target}'"))
  let (req, placed) := stripNonportableState J cfg.request facts.report facts.placeholder
  return (req, some (portabilityWarning (cfg.displayName target) placed))

/-- What a direct target does in the place of `apply_portability`. -/
def applyDirect (target : ResolvedTarget) (facts : TargetFacts) :
    Except ProxyError (InternalRequest × Option String) :=
  let inlineOpaque := requestHasOpaqueState cfg.request
  match facts.placeholder.filter fun _ => facts.report.nonportable && !inlineOpaque with
  | some placeholder =>
    let (req, placed) := stripNonportableState J cfg.request facts.report (some placeholder)
    .ok (req, some (portabilityWarning (cfg.displayName target) placed))
  | none =>
    if inlineOpaque || facts.report.nonportable then
      .error
        (.unsupported ("non-portable provider continuation state cannot be sent to a direct " ++
        "cross-format target"))
    else .ok (cfg.request, none)

/-- Whether portability is applied: the provider before is another one, or the target has another
format, or it cannot carry what is stored. -/
def crosses (before : Option String) (target : ResolvedTarget) (facts : TargetFacts) : Bool :=
  before.any (· ≠ cfg.providerId target) || facts.crossFormat || facts.report.nonportable

/-- The request after the portability decision. -/
def portabilityDecision (before : Option String) (target : ResolvedTarget) (facts : TargetFacts) :
    Except ProxyError (InternalRequest × Option String) :=
  if cfg.crosses before target facts then
    match cfg.attempt.route with
    | some route => cfg.applyPortability J route target facts
    | none => cfg.applyDirect J target facts
  else .ok (cfg.request, none)

/-- The request for a target, with its warning. -/
def prepare (before : Option String) (target : ResolvedTarget) (facts : TargetFacts) :
    Except ProxyError (InternalRequest × Option String) := do
  let out ← cfg.portabilityDecision J before target facts
  return (hydrateOpaqueState out.1 facts.report, out.2)

end PortabilityConfig

/-! ## The loop -/

/-- A dispatch with what was sent. -/
structure Dispatch where
  target : ResolvedTarget
  facts : TargetFacts
  request : InternalRequest
  warning : Option String

structure PortabilityState where
  attempt : State
  previousProviderId : Option String
  /-- The dispatches so far, in their order. -/
  sent : List Dispatch

/-- What one turn gets to know; the lookup of stored state may fail. -/
structure PortabilityTurn where
  turn : Turn
  crossFormat : Bool
  report : Except ProxyError OpaqueHydrationReport
  placeholder : Option String

namespace PortabilityConfig
variable (J : SerdeJson) (R : Rfc3339) (cfg : PortabilityConfig)

/-- The provider that the decision of a turn compares with. -/
def before (s : PortabilityState) (loop : Loop) : Option String :=
  s.previousProviderId.or (if loop.attemptsDone = 0 then cfg.sessionOriginProvider else none)

/-- The dispatch that a turn makes if nothing else keeps it. -/
def dispatch (s : PortabilityState) (loop : Loop) (target : ResolvedTarget) (a : PortabilityTurn) :
    Except ProxyError Dispatch := do
  let report ← a.report
  let facts : TargetFacts := ⟨a.crossFormat, report, a.placeholder⟩
  let (request, warning) ← cfg.prepare J (cfg.before s loop) target facts
  return ⟨target, facts, request, warning⟩

/-- The turn of the attempt loop, with the error of its request. -/
def turnWith (dispatch : Except ProxyError Dispatch) (t : Turn) : Turn :=
  match dispatch with
  | .error error => { t with requestError := some error }
  | .ok _ => t

/-- The state after a turn that sends or does not. -/
def recorded (s : PortabilityState) (next : State) (target : ResolvedTarget) :
    Option String → Except ProxyError Dispatch → PortabilityState
  | some _, .ok d => ⟨next, some (cfg.providerId target), s.sent ++ [d]⟩
  | some _, .error _ => { s with attempt := next }
  | none, _ => { s with attempt := next }

def step (m : Nat) (s : PortabilityState) (a : PortabilityTurn) : Option PortabilityState :=
  match s.attempt.progress with
  | .inr _ => none
  | .inl loop =>
    match loop.pendingTargets with
    | [] => (s.attempt.step R cfg.attempt m a.turn).map fun next => { s with attempt := next }
    | target :: _ =>
      let dispatch := cfg.dispatch J s loop target a
      let turn := turnWith dispatch a.turn
      (s.attempt.step R cfg.attempt m turn).map fun next =>
        cfg.recorded s next target (loop.turn R cfg.attempt m turn).2 dispatch

/-- The attempt loop over the targets of a plan, with what it sends. -/
def portabilityLoop (targets : List ResolvedTarget) : Machine PortabilityState PortabilityTurn where
  start := ⟨(attemptLoop R cfg.attempt targets).start, none, []⟩
  step := cfg.step J R (cfg.attempt.maxAttempts targets.length)

end PortabilityConfig

/-! ## What stripping leaves -/

section
variable {J : SerdeJson} {R : Rfc3339} {cfg : PortabilityConfig} {targets : List ResolvedTarget}

/-- A part that carries no state of the client: no thinking, and of the signatures only the target's
placeholder and what was restored for it. -/
def Part.Clean (facts : TargetFacts) : Part → Prop
  | .thinking _ _ => False
  | .toolCall id _ _ signature => ∀ text, signature = some text →
      facts.placeholder = some text ∨ ∃ call, id = some call ∧
        (call, text) ∈ facts.report.restorations
  | .text _ => True
  | .image _ => True
  | .toolResult _ _ _ _ => True

def CleanRequest (facts : TargetFacts) (req : InternalRequest) : Prop :=
  ∀ message ∈ req.messages, ∀ part ∈ message.parts, Part.Clean facts part

variable {s : PortabilityState} {d : Dispatch} {facts : TargetFacts} {a : PortabilityTurn}
  {loop : Loop}

theorem stripPart_clean {part : Part} (h : part.isThinking = false) :
    Part.Clean facts (stripPart facts.report facts.placeholder part) := by
  cases part with
  | thinking text signature => cases h
  | toolCall id name arguments signature =>
    intro text htext
    split at htext
    · exact .inl htext
    · cases htext
  | text text | image image | toolResult id name content isError => trivial

theorem stripNonportableState_clean (facts : TargetFacts) (req : InternalRequest) :
    CleanRequest facts (stripNonportableState J req facts.report facts.placeholder).1 := by
  intro message hmessage part hpart
  simp only [stripNonportableState, mapParts, List.mem_map] at hmessage
  obtain ⟨original, _, rfl⟩ := hmessage
  obtain ⟨before, hbefore, rfl⟩ := List.mem_map.mp hpart
  exact stripPart_clean (by simpa using (List.mem_filter.mp hbefore).2)

theorem hydratePart_clean {restoration : String × String} {part : Part}
    (hmem : restoration ∈ facts.report.restorations) (h : Part.Clean facts part) :
    Part.Clean facts (hydratePart restoration part) := by
  rw [hydratePart.eq_def]
  split
  · split
    · rename_i hid
      intro text htext
      cases htext
      exact .inr ⟨_, rfl, hid ▸ hmem⟩
    · exact h
  · exact h

theorem hydrateOpaqueState_clean {req : InternalRequest} (h : CleanRequest facts req) :
    CleanRequest facts (hydrateOpaqueState req facts.report) := by
  have hydrate : ∀ restorations : List (String × String),
      restorations ⊆ facts.report.restorations → ∀ req, CleanRequest facts req →
      CleanRequest facts (restorations.foldl
        (fun req restoration => mapParts (·.map (hydratePart restoration)) req) req) := by
    intro restorations
    induction restorations with
    | nil => exact fun _ req h => h
    | cons restoration restorations ih =>
      intro hsub req h
      obtain ⟨hmem, hrest⟩ := List.cons_subset.mp hsub
      refine ih hrest _ fun message hmessage part hpart => ?_
      obtain ⟨original, horiginal, rfl⟩ := List.mem_map.mp hmessage
      obtain ⟨before, hbefore, rfl⟩ := List.mem_map.mp hpart
      exact hydratePart_clean hmem (h original horiginal before hbefore)
  exact hydrate _ (List.Subset.refl _) req h

/-- Portability was applied to what was sent: the route's policy lets it, the client's state is
stripped, and there is a warning. -/
structure Dispatch.Ported (J : SerdeJson) (cfg : PortabilityConfig) (d : Dispatch) : Prop where
  policy : portability cfg.portabilityPolicy = "strip_with_warning"
  request : d.request = hydrateOpaqueState
    (stripNonportableState J cfg.request d.facts.report d.facts.placeholder).1 d.facts.report
  clean : CleanRequest d.facts d.request
  warned : d.warning.isSome

/-- What a dispatch sent was prepared with the provider before. -/
def Dispatch.PreparedAfter (J : SerdeJson) (cfg : PortabilityConfig) (before : Option String)
    (d : Dispatch) : Prop :=
  cfg.prepare J before d.target d.facts = .ok (d.request, d.warning)

theorem portability_eq (policy : String) (h : ¬ portability policy = "reject") :
    portability policy = "strip_with_warning" := by
  by_cases hpolicy : policy = "reject"
  · exact absurd (if_pos hpolicy) h
  · exact if_neg hpolicy

/-- With state in the request, a dispatch is ported exactly if it crosses. -/
theorem Dispatch.ported_iff {before : Option String} {route : RouteRow}
    (hroute : cfg.attempt.route = some route)
    (hstate : requestHasOpaqueState cfg.request = true) (h : d.PreparedAfter J cfg before) :
    d.Ported J cfg ↔ cfg.crosses before d.target d.facts = true := by
  obtain ⟨⟨req, warning⟩, hprepared, hpure⟩ := bind_eq_ok.mp h
  obtain ⟨hrequest, hwarning⟩ := Prod.mk.inj (pure_eq_ok.mp hpure)
  cases hcrosses : cfg.crosses before d.target d.facts with
  | true =>
    simp only [PortabilityConfig.portabilityDecision, if_pos hcrosses, hroute,
      PortabilityConfig.applyPortability, hstate, Bool.not_true, Bool.false_and,
      Bool.false_eq_true, if_false] at hprepared
    obtain ⟨hpolicy, hpure⟩ := seq_eq_ok.mp hprepared
    obtain ⟨hreq, hwarn⟩ := Prod.mk.inj (pure_eq_ok.mp hpure)
    refine iff_of_true ⟨portability_eq _ (refuseIf_eq_ok.mp hpolicy), ?_, ?_, ?_⟩ rfl
    · rw [← hrequest, ← hreq]
    · rw [← hrequest, ← hreq]
      exact hydrateOpaqueState_clean (stripNonportableState_clean _ _)
    · rw [← hwarning, ← hwarn]
      rfl
  | false =>
    rw [PortabilityConfig.portabilityDecision, if_neg (by simp [hcrosses])] at hprepared
    cases hprepared
    refine iff_of_false (fun hported => ?_) (by simp)
    have hwarned := hported.warned
    rw [← hwarning] at hwarned
    cases hwarned

/-! ## Runs -/

/-- A turn whose request is refused sends nothing. -/
theorem PortabilityConfig.turnWith_sent {m : Nat} {t : Turn} {error : ProxyError} :
    (loop.turn R cfg.attempt m (turnWith (.error error) t)).2 = none := by
  cases hsent : (loop.turn R cfg.attempt m (turnWith (.error error) t)).2 with
  | none => rfl
  | some id =>
    obtain ⟨target, rest, -, -, heligible, -⟩ := Loop.eligible_of_sent hsent
    cases heligible.request

theorem PortabilityConfig.dispatch_spec {target : ResolvedTarget}
    (h : cfg.dispatch J s loop target a = .ok d) :
    d.target = target ∧ d.PreparedAfter J cfg (cfg.before s loop) := by
  obtain ⟨report, -, h⟩ := bind_eq_ok.mp h
  obtain ⟨out, hprepare, h⟩ := bind_eq_ok.mp h
  cases pure_eq_ok.mp h
  exact ⟨rfl, hprepare⟩

/-- What a step does: a turn of the attempt loop, with a dispatch if one is sent. -/
theorem PortabilityConfig.step_eq_some {m : Nat} {s s' : PortabilityState}
    (h : cfg.step J R m s a = some s') : ∃ loop t, s.attempt.progress = .inl loop ∧
      s.attempt.step R cfg.attempt m t = some s'.attempt ∧
      ((s'.attempt.dispatched = s.attempt.dispatched ∧ s'.sent = s.sent ∧
          s'.previousProviderId = s.previousProviderId) ∨
        ∃ d, s'.sent = s.sent ++ [d] ∧ s'.previousProviderId = some (cfg.providerId d.target) ∧
          d.PreparedAfter J cfg (cfg.before s loop)) := by
  rw [PortabilityConfig.step] at h
  cases hs : s.attempt.progress with
  | inr e => simp [hs] at h
  | inl loop =>
    simp only [hs] at h
    refine ⟨loop, ?_⟩
    cases hp : loop.pendingTargets with
    | nil =>
      simp only [hp] at h
      obtain ⟨next, hnext, rfl⟩ := Option.map_eq_some_iff.mp h
      refine ⟨a.turn, rfl, hnext, .inl ⟨?_, rfl, rfl⟩⟩
      obtain ⟨loop', hloop', -, hsent⟩ := State.step_eq_some hnext
      cases hs.symm.trans hloop'
      simp only [hsent, Loop.turn, hp]
      rfl
    | cons target rest =>
      simp only [hp] at h
      obtain ⟨next, hnext, hs'⟩ := Option.map_eq_some_iff.mp h
      refine ⟨turnWith (cfg.dispatch J s loop target a) a.turn, rfl, ?_⟩
      obtain ⟨loop', hloop', -, hdispatched⟩ := State.step_eq_some hnext
      cases hs.symm.trans hloop'
      cases hsent : (loop.turn R cfg.attempt m
          (turnWith (cfg.dispatch J s loop target a) a.turn)).2 with
      | none =>
        rw [hsent] at hs' hdispatched
        subst hs'
        exact ⟨hnext, .inl ⟨hdispatched, rfl, rfl⟩⟩
      | some id =>
        cases hd : cfg.dispatch J s loop target a with
        | error error =>
          rw [hd, turnWith_sent] at hsent
          cases hsent
        | ok d =>
          obtain ⟨htarget, hprepared⟩ := dispatch_spec hd
          rw [hsent, hd] at hs'
          subst hs'
          rw [hd] at hnext
          exact ⟨hnext, .inr ⟨d, rfl, by rw [htarget]; rfl, hprepared⟩⟩

/-- The provider of the last of some dispatches. -/
def PortabilityConfig.lastProvider (cfg : PortabilityConfig) (sent : List Dispatch) :
    Option String :=
  sent.getLast?.map fun d => cfg.providerId d.target

/-- Every dispatch was prepared with the provider of the one before, and the first with the
session's. -/
structure PortabilityState.Traced (J : SerdeJson) (R : Rfc3339) (cfg : PortabilityConfig)
    (targets : List ResolvedTarget) (s : PortabilityState) : Prop where
  attempt : ∃ ts, (attemptLoop R cfg.attempt targets).run ts = some s.attempt
  previous : s.previousProviderId = cfg.lastProvider s.sent
  fresh : s.sent = [] → s.attempt.dispatched = []
  prepared : ∀ before d after, s.sent = before ++ d :: after →
    d.PreparedAfter J cfg ((cfg.lastProvider before).or cfg.sessionOriginProvider)

/-- The provider that a turn compares with. -/
theorem PortabilityState.Traced.before_eq (h : s.Traced J R cfg targets)
    (hs : s.attempt.progress = .inl loop) :
    cfg.before s loop = (cfg.lastProvider s.sent).or cfg.sessionOriginProvider := by
  rw [PortabilityConfig.before, h.previous]
  cases hsent : s.sent.getLast? with
  | some d => simp [PortabilityConfig.lastProvider, hsent]
  | none =>
    obtain ⟨ts, hts⟩ := h.attempt
    have hnone := h.fresh (List.getLast?_eq_none_iff.mp hsent)
    have hcount := ((counted_of_run hts).running loop hs).2.2
    rw [hnone, List.length_nil] at hcount
    rw [if_pos (by omega)]

/-- A further element is at the end, or the rest is a split of the old list. -/
theorem append_singleton_split {α : Type} {l before after : List α} {x d : α}
    (h : l ++ [x] = before ++ d :: after) :
    (before = l ∧ d = x ∧ after = []) ∨ ∃ rest, l = before ++ d :: rest := by
  rcases List.eq_nil_or_concat after with rfl | ⟨rest, y, rfl⟩
  · obtain ⟨hl, hx⟩ := List.append_inj' h rfl
    exact .inl ⟨hl.symm, (List.singleton_inj.mp hx).symm, rfl⟩
  · rw [List.concat_eq_append, ← List.cons_append, ← List.append_assoc] at h
    exact .inr ⟨rest, (List.append_inj' h rfl).1⟩

theorem PortabilityState.Traced.step {s s' : PortabilityState} (h : s.Traced J R cfg targets)
    (hstep : cfg.step J R (cfg.attempt.maxAttempts targets.length) s a = some s') :
    s'.Traced J R cfg targets := by
  obtain ⟨loop, t, hs, hattempt, hsent⟩ := PortabilityConfig.step_eq_some hstep
  obtain ⟨ts, hts⟩ := h.attempt
  have hrun := (attemptLoop R cfg.attempt targets).run_snoc_eq_some.mpr ⟨s.attempt, hts, hattempt⟩
  rcases hsent with ⟨hdispatched, hsent, hprevious⟩ | ⟨d, hsent, hprevious, hprepared⟩
  · refine ⟨⟨_, hrun⟩, ?_, ?_, ?_⟩
    · rw [hprevious, hsent, h.previous]
    · rw [hsent, hdispatched]
      exact h.fresh
    · rw [hsent]
      exact h.prepared
  · refine ⟨⟨_, hrun⟩, ?_, ?_, ?_⟩
    · rw [hprevious, hsent, PortabilityConfig.lastProvider, List.getLast?_concat, Option.map_some]
    · intro hnil
      rw [hsent] at hnil
      exact absurd hnil (by simp)
    · intro before d' after hsplit
      rw [hsent] at hsplit
      rcases append_singleton_split hsplit with ⟨rfl, rfl, rfl⟩ | ⟨rest, hrest⟩
      · rwa [← h.before_eq hs]
      · exact h.prepared before d' rest hrest

theorem traced_of_run {as : List PortabilityTurn}
    (h : (cfg.portabilityLoop J R targets).run as = some s) : s.Traced J R cfg targets := by
  refine (cfg.portabilityLoop J R targets).invariant ?_ (fun _ _ _ hs hstep => hs.step hstep) h
  refine ⟨⟨[], rfl⟩, rfl, fun _ => rfl, ?_⟩
  intro before d after hsplit
  exact absurd hsplit.symm (by simp [PortabilityConfig.portabilityLoop])

/-- The provider whose state the client returns: the session's if it is known, otherwise that of the
first dispatch. -/
def PortabilityConfig.origin (cfg : PortabilityConfig) (sent : List Dispatch) : Option String :=
  cfg.sessionOriginProvider.or (sent.head?.map fun d => cfg.providerId d.target)

/-- The dispatch goes to another provider than that of the state. -/
def Dispatch.Foreign (cfg : PortabilityConfig) (sent : List Dispatch) (d : Dispatch) : Prop :=
  cfg.origin sent ≠ some (cfg.providerId d.target)

/-- A foreign dispatch that does not follow one to its own provider crosses. -/
theorem crosses_of_foreign {sent before after : List Dispatch}
    (hsplit : sent = before ++ d :: after) (hforeign : d.Foreign cfg sent)
    (hlast : cfg.lastProvider before ≠ some (cfg.providerId d.target)) :
    cfg.crosses ((cfg.lastProvider before).or cfg.sessionOriginProvider) d.target d.facts =
      true := by
  have hother : ((cfg.lastProvider before).or cfg.sessionOriginProvider).any
      (· ≠ cfg.providerId d.target) = true := by
    cases hbefore : cfg.lastProvider before with
    | some id =>
      rw [hbefore] at hlast
      simpa using hlast
    | none =>
      have hnil : before = [] := by
        simpa [PortabilityConfig.lastProvider] using hbefore
      cases hsession : cfg.sessionOriginProvider with
      | none =>
        refine absurd ?_ hforeign
        simp [PortabilityConfig.origin, hsession, hsplit, hnil]
      | some id =>
        have hne := hforeign
        simp only [Dispatch.Foreign, PortabilityConfig.origin, hsession] at hne
        simpa using hne
  rw [PortabilityConfig.crosses, hother]
  rfl

/-- Of the dispatches to one provider in a row, a later one crosses only by its format or by what is
stored. -/
theorem crosses_of_same {before : List Dispatch}
    (hlast : cfg.lastProvider before = some (cfg.providerId d.target)) :
    cfg.crosses ((cfg.lastProvider before).or cfg.sessionOriginProvider) d.target d.facts =
      (d.facts.crossFormat || d.facts.report.nonportable) := by
  simp [PortabilityConfig.crosses, hlast]

/-- In a run over a route, portability is applied to every dispatch to another provider than that of
the state, exactly if those that directly follow a dispatch to the same provider have another
format, or stored state that the target cannot carry. -/
theorem portability_follows_origin_iff (J : SerdeJson) (R : Rfc3339) (cfg : PortabilityConfig)
    (targets : List ResolvedTarget) (route : RouteRow) (as : List PortabilityTurn)
    (s : PortabilityState) (hroute : cfg.attempt.route = some route)
    (hstate : requestHasOpaqueState cfg.request = true)
    (hrun : (cfg.portabilityLoop J R targets).run as = some s) :
    (∀ d ∈ s.sent, d.Foreign cfg s.sent → d.Ported J cfg) ↔
      ∀ before d after, s.sent = before ++ d :: after → d.Foreign cfg s.sent →
        cfg.lastProvider before = some (cfg.providerId d.target) →
        d.facts.crossFormat = true ∨ d.facts.report.nonportable = true := by
  have htraced := traced_of_run hrun
  constructor
  · intro h before d after hsplit hforeign hlast
    have hported := h d (hsplit ▸ List.mem_append_right _ List.mem_cons_self) hforeign
    rw [Dispatch.ported_iff hroute hstate (htraced.prepared before d after hsplit),
      crosses_of_same hlast, Bool.or_eq_true] at hported
    exact hported
  · intro h d hd hforeign
    obtain ⟨before, after, hsplit⟩ := List.append_of_mem hd
    rw [Dispatch.ported_iff hroute hstate (htraced.prepared before d after hsplit)]
    by_cases hlast : cfg.lastProvider before = some (cfg.providerId d.target)
    · rw [crosses_of_same hlast, Bool.or_eq_true]
      exact h before d after hsplit hforeign hlast
    · exact crosses_of_foreign hsplit hforeign hlast

end

/-- A route over three attempts. -/
def exampleRoute : RouteRow where
  name := "r"
  maxAttempts := some 3
  fallbackTriggers _ := none

/-- A request that returns the thinking of an earlier turn, for a route on which account `a` is one
provider's and the others are another's. -/
def examplePortability : PortabilityConfig where
  attempt := ⟨some exampleRoute, "r", true⟩
  portabilityPolicy := "strip_with_warning"
  providerId target := if target.accountId = "a" then "first" else "second"
  displayName _ := "model"
  sessionOriginProvider := none
  request :=
    { requestedModel := "r", system := [], messages := [⟨.assistant, [.thinking "hm" (some "sig")]⟩]
      tools := [], toolChoice := none, toolChoiceName := none, params := {}, stream := true
      includeUsage := false, thinking := none, extra := [], rawBody := none }

/-- A failing upstream. -/
def exampleServerError : UpstreamFailure where
  kind := .serverError
  status := some 502
  retryAfterSecs := none
  message := "bad gateway"
  quotaResetAt := none

/-- A turn over targets of one format, with nothing stored. -/
def examplePortabilityTurn (upstream : Upstream) : PortabilityTurn where
  turn := exampleTurn upstream
  crossFormat := false
  report := .ok ⟨[], []⟩
  placeholder := none

/-- The second provider gets the request without the thinking of the first. -/
theorem portability_follows_origin_fallback :
    ∃ s, (examplePortability.portabilityLoop .ofEmptyObject exampleTimes
        [exampleTarget "a", exampleTarget "b"]).run
        [examplePortabilityTurn (.failed exampleServerError), examplePortabilityTurn .validated] =
        some s ∧
      s.sent.length = 2 ∧
      ∀ d ∈ s.sent, d.Foreign examplePortability s.sent →
        d.Ported .ofEmptyObject examplePortability := by
  refine ⟨_, rfl, rfl, (portability_follows_origin_iff .ofEmptyObject exampleTimes
    examplePortability [exampleTarget "a", exampleTarget "b"] exampleRoute
    [examplePortabilityTurn (.failed exampleServerError), examplePortabilityTurn .validated] _ rfl
    rfl rfl).mpr ?_⟩
  intro before d after hsplit _ hlast
  cases before with
  | nil => cases hlast
  | cons x before =>
    cases before with
    | nil =>
      cases hsplit
      exact absurd hlast (by decide)
    | cons y before =>
      have hlength : 2 = (x :: y :: (before ++ d :: after)).length :=
        congrArg List.length hsplit
      simp only [List.length_cons, List.length_append] at hlength
      omega

/-- After two failures the second account of the second provider gets the thinking of the first
provider as it was. -/
theorem second_foreign_dispatch_unstripped :
    ∃ s d, (examplePortability.portabilityLoop .ofEmptyObject exampleTimes
        [exampleTarget "a", exampleTarget "b", exampleTarget "c"]).run
        [examplePortabilityTurn (.failed exampleServerError),
          examplePortabilityTurn (.failed exampleServerError), examplePortabilityTurn .validated] =
        some s ∧
      d ∈ s.sent ∧ d.Foreign examplePortability s.sent ∧
      d.request.messages = [⟨.assistant, [.thinking "hm" (some "sig")]⟩] ∧
      ¬ d.Ported .ofEmptyObject examplePortability := by
  refine ⟨_, _, rfl, List.mem_of_getLast? rfl, fun h => ?_, rfl, fun h => ?_⟩
  · exact absurd (show some "first" = some "second" from h) (by decide)
  · cases h.warned

end Kinetix.Pipeline
