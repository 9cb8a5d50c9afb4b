import Kinetix.Enrollment.Authorised
import Kinetix.Plugins.NetworkHosts

/-!
# The authorization URL of a plugin

`start_plugin_auth` from the creation of the session on: the plugin answers with any text, and the
text is handed to the browser if its scheme, its host and the parameters of its query pass.

## Main definitions

* `Carries`: a query has a parameter, and no other value for it.
* `HostBound`: a URL that is returned is the host's, and a state whose start is refused is revoked.
-/

namespace Kinetix.Enrollment
open Checks Plugins.NetworkHosts

/-! ## Parameters -/

section Parameters
variable {pairs : List (String × String)} {key value : String}

/-- The parameter is there, with this value each time. -/
def Carries (pairs : List (String × String)) (key value : String) : Prop :=
  (key, value) ∈ pairs ∧ ∀ other, (key, other) ∈ pairs → other = value

/-- A parameter that is repeated has one value. -/
def Unambiguous (pairs : List (String × String)) (key : String) : Prop :=
  ∀ value other, (key, value) ∈ pairs → (key, other) ∈ pairs → other = value

theorem lastValue_concat (e : String × String) :
    lastValue (pairs ++ [e]) key = if key = e.1 then some e.2 else lastValue pairs key := by
  rw [lastValue, List.reverse_append, List.reverse_singleton, List.singleton_append,
    List.lookup_cons]
  by_cases h : key = e.1
  · rw [if_pos h, beq_iff_eq.mpr h]
  · rw [if_neg h, beq_eq_false_iff_ne.mpr h]
    rfl

theorem mem_of_lastValue (h : lastValue pairs key = some value) : (key, value) ∈ pairs := by
  obtain ⟨before, after, hsplit, -⟩ := List.lookup_eq_some_iff.mp h
  have hmem : (key, value) ∈ pairs.reverse := by
    rw [hsplit]
    exact List.mem_append_right _ List.mem_cons_self
  exact List.mem_reverse.mp hmem

/-- Where the last value is right, all are exactly if no two differ. -/
theorem carries_iff_of_lastValue (h : lastValue pairs key = some value) :
    Carries pairs key value ↔ Unambiguous pairs key := by
  constructor
  · rintro ⟨-, hall⟩ a b ha hb
    rw [hall a ha, hall b hb]
  · intro hone
    exact ⟨mem_of_lastValue h, fun other hother => hone value other (mem_of_lastValue h) hother⟩

/-- One round of the loop over `query_pairs`, with `redirect_matches`, `pkce_present` and
`state_matches`. -/
def scanPair (redirectUri state : String) (found : Bool × Bool × Bool) (e : String × String) :
    Bool × Bool × Bool :=
  let (redirectMatches, pkcePresent, stateMatches) := found
  if e.1 = "redirect_uri" then (e.2 == redirectUri, pkcePresent, stateMatches)
  else if e.1 = "code_challenge" then (redirectMatches, e.2 != "", stateMatches)
  else if e.1 = "state" then (redirectMatches, pkcePresent, e.2 == state)
  else found

/-- The loop leaves what the last parameter of each name says. -/
theorem foldl_scanPair (redirectUri state : String) (pairs : List (String × String)) :
    pairs.foldl (scanPair redirectUri state) (false, false, false) =
      (lastValue pairs "redirect_uri" == some redirectUri,
        !(lastValue pairs "code_challenge").all (· == ""),
        lastValue pairs "state" == some state) := by
  induction pairs using List.reverseRecOn with
  | nil => rfl
  | append_singleton pairs e ih =>
    rw [List.foldl_append, ih, List.foldl_cons, List.foldl_nil, scanPair]
    simp only [lastValue_concat, eq_comm (a := e.1)]
    by_cases hredirect : "redirect_uri" = e.1
    · simp [← hredirect]
    by_cases hchallenge : "code_challenge" = e.1
    · simp [← hchallenge, bne]
    by_cases hstate : "state" = e.1
    · simp [← hstate]
    · simp [hredirect, hchallenge, hstate]

end Parameters

/-! ## The checks -/

section Checks
variable (D : Deployment) (checked : CheckedStart) (redirectUri state challenge : String)

/-- A URL that takes the browser to a declared host with the values of the host. -/
structure Url.Bound (url : Url) : Prop where
  https : url.scheme = "https"
  declared : ∃ host, url.host = some host ∧
    ∃ pattern ∈ checked.networkHosts, Declares (Text.trim pattern) (Text.trim host)
  redirect : Carries url.queryPairs "redirect_uri" redirectUri
  challenge : Carries url.queryPairs "code_challenge" challenge
  state : Carries url.queryPairs "state" state

/-- The state waits for no callback. -/
def PluginAuthSessions.Revoked (sessions : PluginAuthSessions) : Prop :=
  ∀ e ∈ sessions.inner, e.1 ≠ state

/-- What is to hold once the plugin has answered. -/
def HostBound (next : Shared × Stage) : Prop :=
  (∀ authorizeUrl redirect sent expiresIn manual,
    next.2 = .returned (.started authorizeUrl redirect sent expiresIn manual) →
      ∃ url, D.parseUrl authorizeUrl = some url ∧
        url.Bound checked redirectUri state challenge) ∧
  ∀ error, next.2 = .refused error → next.1.sessions.Revoked state

/-- A URL that passes the checks of the scheme, the host and the last parameter of each name. -/
structure Url.Passes (url : Url) (host : String) : Prop where
  https : url.scheme = "https"
  hasHost : url.host = some host
  matched : checked.networkHosts.any (hostMatches · host) = true
  redirect : lastValue url.queryPairs "redirect_uri" = some redirectUri
  challenge : (lastValue url.queryPairs "code_challenge").all (· == "") = false
  state : lastValue url.queryPairs "state" = some state

/-- Nothing in it that those checks do not see is foreign: no earlier parameter, no challenge, no
host that matches a wildcard without its dot. -/
structure Url.Plain (url : Url) (host : String) : Prop where
  dotted : ∃ pattern ∈ checked.networkHosts, hostMatches pattern host = true ∧
    ¬ Undotted (Text.trim pattern) (Text.trim host)
  redirect : Unambiguous url.queryPairs "redirect_uri"
  challenge : ∀ value, ("code_challenge", value) ∈ url.queryPairs → value = challenge
  state : Unambiguous url.queryPairs "state"

/-- The text has the scheme and the host of a URL, or its state waits no more; and if it passes, it
is plain. -/
def Harmless (s : Shared) (authorizeUrl : String) : Prop :=
  match D.parseUrl authorizeUrl with
  | none => s.sessions.Revoked state
  | some url =>
    (url.scheme = "https" → url.host = none → s.sessions.Revoked state) ∧
      ∀ host, url.Passes checked redirectUri state host → url.Plain checked challenge host

end Checks

section Answers
variable {D : Deployment} {checked : CheckedStart} {redirectUri state challenge : String}
  {authorizeUrl host : String} {url : Url}

theorem revoked_revoke (sessions : PluginAuthSessions) :
    (sessions.revoke state).Revoked state :=
  fun _ he => of_decide_eq_true (List.mem_filter.mp he).2

/-- The checks pass a text exactly if it is a URL that passes them. -/
theorem checkAuthorizeUrl_eq_ok :
    checkAuthorizeUrl D checked redirectUri state authorizeUrl = .ok () ↔
      ∃ url host, D.parseUrl authorizeUrl = some url ∧
        url.Passes checked redirectUri state host := by
  rw [checkAuthorizeUrl, bind_eq_ok]
  constructor
  · rintro ⟨url, hparse, hrest⟩
    obtain ⟨hhttps, hrest⟩ := seq_eq_ok.mp hrest
    obtain ⟨host, hhost, hrest⟩ := bind_eq_ok.mp hrest
    simp only [seq_eq_ok, refuseIf_eq_ok, okOr_eq_ok, not_not, Bool.not_eq_false,
      Bool.not_eq_true] at hparse hhttps hhost hrest
    obtain ⟨hmatched, hredirect, hchallenge, hstate⟩ := hrest
    exact ⟨url, host, hparse, hhttps, hhost, hmatched, hredirect, hchallenge, hstate⟩
  · rintro ⟨url, host, hparse, hhttps, hhost, hmatched, hredirect, hchallenge, hstate⟩
    refine ⟨url, okOr_eq_ok.mpr hparse, seq_eq_ok.mpr ⟨?_, bind_eq_ok.mpr ⟨host, ?_, ?_⟩⟩⟩
    · exact refuseIf_eq_ok.mpr (not_not.mpr hhttps)
    · exact okOr_eq_ok.mpr hhost
    · simp only [seq_eq_ok, refuseIf_eq_ok, not_not, Bool.not_eq_false, Bool.not_eq_true]
      exact ⟨hmatched, hredirect, hchallenge, hstate⟩

/-- A text that is no URL is refused, and the session stays. -/
theorem checkAuthorizeUrl_of_none (h : D.parseUrl authorizeUrl = none) :
    ∃ error, checkAuthorizeUrl D checked redirectUri state authorizeUrl = .error (false, error) :=
  ⟨_, by rw [checkAuthorizeUrl, h]; rfl⟩

/-- Among the URLs that are refused, the session stays with those of the right scheme that have no
host. -/
theorem revoked_of_error {revoked : Bool} {error : ApiError}
    (hparse : D.parseUrl authorizeUrl = some url)
    (h : checkAuthorizeUrl D checked redirectUri state authorizeUrl = .error (revoked, error)) :
    revoked = false ↔ url.scheme = "https" ∧ url.host = none := by
  have hrest := bind_eq_error.mp h
  rw [okOr_eq_error, hparse] at hrest
  obtain ⟨⟨⟩, -⟩ | ⟨_, hurl, hrest⟩ := hrest
  cases hurl
  rcases bind_eq_error.mp hrest with hscheme | ⟨_, hscheme, hrest⟩
  · obtain ⟨hhttp, heq⟩ := refuseIf_eq_error.mp hscheme
    cases heq
    simp [hhttp]
  rw [refuseIf_eq_ok, not_not] at hscheme
  rcases bind_eq_error.mp hrest with hhost | ⟨host, hhost, hrest⟩
  · obtain ⟨hnone, heq⟩ := okOr_eq_error.mp hhost
    cases heq
    simp [hnone, hscheme]
  · rw [okOr_eq_ok] at hhost
    simp only [bind_eq_error, refuseIf_eq_error, Prod.mk.injEq] at hrest
    have hrevoked : revoked = true := by
      grind
    simp [hrevoked, hhost]

theorem not_all_empty_iff {value : Option String} :
    value.all (· == "") = false ↔ ∃ text, value = some text ∧ text ≠ "" := by
  cases value with
  | none | some text => simp

/-- Of a URL that passes, the rest is the host's exactly if it is plain. -/
theorem bound_iff_plain (h : url.Passes checked redirectUri state host) :
    url.Bound checked redirectUri state challenge ↔ url.Plain checked challenge host := by
  obtain ⟨last, hlast, -⟩ := not_all_empty_iff.mp h.challenge
  have hpresent := mem_of_lastValue hlast
  constructor
  · intro hbound
    obtain ⟨found, hfound, pattern, hmem, hdeclares⟩ := hbound.declared
    rw [h.hasHost, Option.some.injEq] at hfound
    subst hfound
    exact {
      dotted := ⟨pattern, hmem, hostMatches_iff.mpr (.inl hdeclares),
        fun hundotted => not_declares_of_undotted hundotted hdeclares⟩
      redirect := (carries_iff_of_lastValue h.redirect).mp hbound.redirect
      challenge := hbound.challenge.2
      state := (carries_iff_of_lastValue h.state).mp hbound.state }
  · intro hplain
    obtain ⟨pattern, hmem, hmatches, hdotted⟩ := hplain.dotted
    have hdeclares := (hostMatches_iff.mp hmatches).resolve_right hdotted
    have hchallenge := hplain.challenge last hpresent
    exact {
      https := h.https
      declared := ⟨host, h.hasHost, pattern, hmem, hdeclares⟩
      redirect := (carries_iff_of_lastValue h.redirect).mpr hplain.redirect
      challenge := ⟨hchallenge ▸ hpresent, hplain.challenge⟩
      state := (carries_iff_of_lastValue h.state).mpr hplain.state }

variable {env : Env} {s : Shared}

/-- A refused start keeps to the property exactly if the state waits no more. -/
theorem hostBound_refused {next : Shared} {error : ApiError} :
    HostBound D checked redirectUri state challenge (next, .refused error) ↔
      next.sessions.Revoked state := by
  constructor
  · intro h
    exact h.2 error rfl
  · intro h
    refine ⟨fun _ _ _ _ _ hreturned => ?_, fun _ _ => h⟩
    cases hreturned

theorem hostBound_started {next : Shared} {redirect sent : String} {expiresIn : Nat}
    {manual : Bool} (hparse : D.parseUrl authorizeUrl = some url) :
    HostBound D checked redirectUri state challenge
        (next, .returned (.started authorizeUrl redirect sent expiresIn manual)) ↔
      url.Bound checked redirectUri state challenge := by
  constructor
  · intro h
    obtain ⟨found, hfound, hbound⟩ := h.1 _ _ _ _ _ rfl
    rw [hparse] at hfound
    cases hfound
    exact hbound
  · intro h
    refine ⟨fun _ _ _ _ _ hreturned => ?_, fun _ hrefused => ?_⟩
    · cases hreturned
      exact ⟨url, hparse, h⟩
    · cases hrefused

theorem finishStart_hostBound_iff :
    HostBound D checked redirectUri state challenge
        (s.finishStart D env checked redirectUri state) ↔
      ∀ authorizeUrl, env.authBegin = .ok authorizeUrl →
        Harmless D checked redirectUri state challenge s authorizeUrl := by
  rw [Shared.finishStart]
  cases hbegin : env.authBegin with
  | error message =>
    have hrevoked : HostBound D checked redirectUri state challenge
        ({ s with sessions := s.sessions.revoke state }, .refused (.bad message)) :=
      hostBound_refused.mpr (revoked_revoke s.sessions)
    exact iff_of_true hrevoked fun _ h => by cases h
  | ok authorizeUrl =>
    simp only [Except.ok.injEq, forall_eq']
    cases hcheck : checkAuthorizeUrl D checked redirectUri state authorizeUrl with
    | ok done =>
      obtain ⟨url, host, hparse, hpasses⟩ := checkAuthorizeUrl_eq_ok.mp hcheck
      refine (hostBound_started hparse).trans ((bound_iff_plain hpasses).trans ?_)
      rw [Harmless, hparse]
      constructor
      · refine fun hplain => ⟨fun _ hnone => ?_, fun host' hpasses' => ?_⟩
        · rw [hpasses.hasHost] at hnone
          cases hnone
        · have hsame := hpasses.hasHost.symm.trans hpasses'.hasHost
          rw [Option.some.injEq] at hsame
          exact hsame ▸ hplain
      · exact fun h => h.2 host hpasses
    | error refusal =>
      obtain ⟨revoked, error⟩ := refusal
      refine hostBound_refused.trans ?_
      rw [Harmless]
      cases hparse : D.parseUrl authorizeUrl with
      | none =>
        obtain ⟨_, hkept⟩ :=
          @checkAuthorizeUrl_of_none D checked redirectUri state authorizeUrl hparse
        rw [hcheck] at hkept
        cases hkept
        rfl
      | some url =>
        have hexit := revoked_of_error hparse hcheck
        have hfails (host : String) : ¬ url.Passes checked redirectUri state host := by
          intro hpasses
          have hok := checkAuthorizeUrl_eq_ok.mpr ⟨url, host, hparse, hpasses⟩
          rw [hcheck] at hok
          cases hok
        cases revoked with
        | true =>
          refine iff_of_true (revoked_revoke s.sessions) ⟨fun hhttps hnone => ?_, ?_⟩
          · cases hexit.mpr ⟨hhttps, hnone⟩
          · exact fun host hpasses => absurd hpasses (hfails host)
        | false =>
          obtain ⟨hhttps, hnone⟩ := hexit.mp rfl
          constructor
          · exact fun h => ⟨fun _ _ => h, fun host hpasses => absurd hpasses (hfails host)⟩
          · exact fun h => h.1 hhttps hnone

end Answers

/-! ## The authorization that a start gives -/

/-- After a session is created and the plugin has answered, whatever the other handlers did in
between: the URL that is returned is the host's and a state whose start is refused is revoked, if
and only if the answer is harmless. -/
theorem authorization_bound_iff (D : Deployment) (drawn env : Env) (created s : Shared)
    (checked : CheckedStart) (redirectUri : String) :
    (∀ next, (created.createSession D drawn checked redirectUri).2.advance D env s = some next →
      HostBound D checked redirectUri drawn.state (D.pkceChallenge drawn.pkceVerifier) next) ↔
    ∀ authorizeUrl, env.authBegin = .ok authorizeUrl →
      Harmless D checked redirectUri drawn.state (D.pkceChallenge drawn.pkceVerifier) s
        authorizeUrl := by
  rw [Shared.createSession, Stage.advance]
  simp only [Option.some.injEq, forall_eq']
  exact finishStart_hostBound_iff

/-! ## A masked parameter -/

/-- The code is to go elsewhere, and the parameter of the host comes after. -/
def maskedUrl : String :=
  "https://claude.ai/oauth/authorize?redirect_uri=https%3A%2F%2Fevil.example%2Fcallback" ++
    "&redirect_uri=http%3A%2F%2Flocalhost%3A8080%2Fcallback&code_challenge=x&state=5747"

def maskedParsed : Url where
  scheme := "https"
  host := some "claude.ai"
  port := none
  path := "/oauth/authorize"
  query := some (String.ofList (maskedUrl.toList.drop 34))
  queryPairs := [("redirect_uri", "https://evil.example/callback"),
    ("redirect_uri", "http://localhost:8080/callback"), ("code_challenge", "x"), ("state", "5747")]

def parseMasked (url : String) : Option Url :=
  if url = maskedUrl then some maskedParsed else none

def maskedDeployment : Deployment := { loopbackDeployment with parseUrl := parseMasked }

theorem parseUrl_maskedDeployment (url : String) :
    maskedDeployment.parseUrl url = parseMasked url := rfl

def claudeChecked : CheckedStart :=
  ⟨"70ac", ⟨claudeCodeOauth, "login", "prov_claude"⟩, "claude",
    "plugin:dev.kinetix.claude-code-oauth/claude-oauth", ["claude.ai"]⟩

/-- In a fresh process, with an answer of the plugin that comes at once. -/
def claudeAnswered (authorizeUrl : String) : Option (Shared × Stage) :=
  let (s, stage) := (process maskedDeployment claudeStored).start.shared.createSession
    maskedDeployment enrollmentEnv claudeChecked "http://localhost:8080/callback"
  stage.advance maskedDeployment { enrollmentEnv with authBegin := .ok authorizeUrl } s

/-- The property of the answers of this process. -/
def ClaudeBound (authorizeUrl : String) : Prop :=
  ∀ next, claudeAnswered authorizeUrl = some next →
    HostBound maskedDeployment claudeChecked "http://localhost:8080/callback" "5747"
      "E9Melhoa2OwvFrEMTJguCHaoeK1t8URWbuGJSstw-cM" next

variable {authorizeUrl : String}

theorem ClaudeBound.harmless (h : ClaudeBound authorizeUrl) :
    ∃ s : Shared, ¬ s.sessions.Revoked "5747" ∧ Harmless maskedDeployment claudeChecked
      "http://localhost:8080/callback" "5747" "E9Melhoa2OwvFrEMTJguCHaoeK1t8URWbuGJSstw-cM" s
        authorizeUrl := by
  refine ⟨_, ?_, finishStart_hostBound_iff.mp (h _ rfl) authorizeUrl rfl⟩
  exact fun hrevoked => hrevoked _ List.mem_cons_self rfl

theorem ClaudeBound.parses (h : ClaudeBound authorizeUrl) : parseMasked authorizeUrl ≠ none := by
  intro hparse
  obtain ⟨s, hpending, hharmless⟩ := h.harmless
  rw [Harmless, parseUrl_maskedDeployment, hparse] at hharmless
  exact hpending hharmless

theorem ClaudeBound.plain {url : Url} (h : ClaudeBound authorizeUrl)
    (hparse : parseMasked authorizeUrl = some url)
    (hpasses : url.Passes claudeChecked "http://localhost:8080/callback" "5747" "claude.ai") :
    url.Plain claudeChecked "E9Melhoa2OwvFrEMTJguCHaoeK1t8URWbuGJSstw-cM" "claude.ai" := by
  obtain ⟨s, -, hharmless⟩ := h.harmless
  rw [Harmless, parseUrl_maskedDeployment, hparse] at hharmless
  exact hharmless.2 _ hpasses

/-- The URL with the masked parameter is returned, and after an answer that is no URL the state
waits on. -/
theorem authorization_masked : ¬ ClaudeBound maskedUrl ∧ ¬ ClaudeBound "authorize" := by
  constructor
  · intro h
    have hpasses : maskedParsed.Passes claudeChecked "http://localhost:8080/callback" "5747"
        "claude.ai" := {
      https := rfl
      hasHost := rfl
      matched := by decide +kernel
      redirect := by decide +kernel
      challenge := by decide +kernel
      state := by decide +kernel }
    have hone := (h.plain (if_pos rfl) hpasses).redirect "http://localhost:8080/callback"
      "https://evil.example/callback" (by decide +kernel) (by decide +kernel)
    exact absurd hone (by decide +kernel)
  · intro h
    have hother : "authorize" ≠ maskedUrl := by decide +kernel
    exact h.parses (if_neg hother)

end Kinetix.Enrollment
