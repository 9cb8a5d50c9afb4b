import Kinetix.Library.Unwinding
import Kinetix.Plugins.HostCalls
import Kinetix.Plugins.Quota
import Mathlib.Data.Set.Basic

/-!
# The flow of secrets to a plugin

Two hosts that differ in the secrets of some providers only, and the same guest against the same
worlds. The guest learns nothing about the secrets as long as no signed request is handed to it, and
what goes out differently goes to a declared host of one of these providers. A signed request
carries the secret in plain text.
-/

namespace Kinetix.Plugins.HostCalls
open Config (ProviderRow AccountRow)
open Text

section Flow
variable (P : Params) (ctx : HostCtx) (hidden : Set String)

/-- Secrets that differ in accounts of hidden providers only, each of which makes a legal header or
none of them. -/
structure AlikeIn (w : World) (s s' : Secrets) : Prop where
  agree : ∀ id account, w.getAccount id = .ok (some account) → account.providerId ∉ hidden →
    s account.secretEnc = s' account.secretEnc
  legal : ∀ id account, w.getAccount id = .ok (some account) →
    P.legalHeader "authorization" ("Bearer " ++ s account.secretEnc) =
      P.legalHeader "authorization" ("Bearer " ++ s' account.secretEnc)

/-- The host is in the egress set that a hidden provider declares. -/
def DeclaredEgress (w : World) (host : String) : Prop :=
  ∃ providerId ∈ hidden, ∃ hosts, credentialEgressHosts P w providerId = .ok hosts ∧
    hosts.any (eqIgnoreAsciiCase · host) = true

/-- Two requests at one moment, which are the same or both go where a hidden provider declares. -/
def Contained (a b : World × Outgoing) : Prop :=
  a.1 = b.1 ∧
    (a.2 = b.2 ∨ a.2.host = b.2.host ∧ DeclaredEgress P hidden a.1 a.2.host)

/-- The states differ at most in requests that are contained. -/
structure StatesAlike (t t' : HostState) : Prop where
  outboundCount : t.outboundCount = t'.outboundCount
  pendingCache : t.pendingCache = t'.pendingCache
  storage : t.storage = t'.storage
  sent : List.Forall₂ (Contained P hidden) t.sent t'.sent

/-- A call that hands a signed request with the secret of a hidden provider to the guest. -/
def Releases (w : World) : Call → Prop
  | .sign req credential =>
    ctx.credentialSign = true ∧
      ∃ account hosts, authorize P ctx w credential = .ok (account, hosts) ∧
        account.providerId ∈ hidden ∧
        (((P.crate.parse req.url).bind (·.host)).map toAsciiLowercase).any
          (fun h => hosts.any (eqIgnoreAsciiCase · h)) = true
  | _ => False

end Flow

section Alike
variable {P : Params} {ctx : HostCtx} {hidden : Set String} {w : World} {s s' : Secrets}
  {t t' : HostState}

/-! ## What a credential adds to a request -/

variable {credential : CredentialRef} {account : AccountRow}

theorem resolveAccount_ok {providerId accountId : String}
    (h : resolveAccount w providerId accountId = .ok account) :
    w.getAccount accountId = .ok (some account) ∧ account.providerId = providerId := by
  simp only [resolveAccount, bind, Except.bind] at h
  split at h
  · exact nomatch h
  · next found hfound =>
      split at h
      · exact nomatch h
      · next row =>
          split at h
          · exact nomatch h
          · next hprovider =>
              split at h
              · exact nomatch h
              · cases h
                exact ⟨hfound, not_not.mp hprovider⟩

theorem mapError_eq_ok {α ε ε' : Type} {f : ε → ε'} {x : Except ε α} {a : α} :
    x.mapError f = .ok a ↔ x = .ok a := by
  cases x <;> simp [Except.mapError]

/-- The account of a credential is one of its provider, with the hosts that this one declares. -/
theorem authorize_ok {hosts : List String}
    (h : authorize P ctx w credential = .ok (account, hosts)) :
    (∃ id, w.getAccount id = .ok (some account)) ∧
      credentialEgressHosts P w account.providerId = .ok hosts := by
  cases credential with
  | named name => exact nomatch h
  | account providerId accountId =>
    simp only [authorize, bind, Except.bind] at h
    split at h
    · exact nomatch h
    · split at h
      · exact nomatch h
      · split at h
        · exact nomatch h
        · next row hrow =>
            split at h
            · exact nomatch h
            · next found hfound =>
                cases h
                obtain ⟨hget, hprovider⟩ := resolveAccount_ok (mapError_eq_ok.mp hrow)
                exact ⟨⟨accountId, hget⟩, hprovider ▸ mapError_eq_ok.mp hfound⟩

theorem injectCredential_of_error {e : String} (h : authorize P ctx w credential = .error e) :
    injectCredential P ctx w s credential = .error e := by
  rw [injectCredential, h]
  rfl

theorem injectCredential_of_ok {hosts : List String}
    (h : authorize P ctx w credential = .ok (account, hosts)) :
    injectCredential P ctx w s credential =
      .ok ("authorization", "Bearer " ++ s account.secretEnc, hosts) := by
  rw [injectCredential, h]
  rfl

variable (ctx) in
/-- The headers of a credential are the same, or legal alike and for a declared host. -/
theorem credentialHeader_alike (h : AlikeIn P hidden w s s') (credential : Option CredentialRef)
    (host : String) :
    credentialHeader P ctx w s credential host = credentialHeader P ctx w s' credential host ∨
      ∃ value value', credentialHeader P ctx w s credential host = .ok [("authorization", value)] ∧
        credentialHeader P ctx w s' credential host = .ok [("authorization", value')] ∧
        P.legalHeader "authorization" value = P.legalHeader "authorization" value' ∧
        DeclaredEgress P hidden w host := by
  cases credential with
  | none => exact .inl rfl
  | some credential =>
    cases hauth : authorize P ctx w credential with
    | error e =>
      simp only [credentialHeader, injectCredential_of_error hauth]
      exact .inl trivial
    | ok found =>
      obtain ⟨account, hosts⟩ := found
      obtain ⟨⟨id, haccount⟩, hhosts⟩ := authorize_ok hauth
      simp only [credentialHeader, injectCredential_of_ok hauth]
      by_cases hhost : hosts.any (eqIgnoreAsciiCase · host) = true
      · simp only [hhost, Bool.not_true, Bool.false_eq_true, if_false]
        by_cases hhidden : account.providerId ∈ hidden
        · exact .inr ⟨_, _, rfl, rfl, h.legal id account haccount,
            account.providerId, hhidden, hosts, hhosts, hhost⟩
        · rw [h.agree id account haccount hhidden]
          exact .inl rfl
      · simp only [hhost, Bool.not_false, if_true]
        exact .inl trivial

variable (ctx) in
/-- The requests that are built are the same, or legal alike and for a declared host. -/
theorem buildRequest_alike (h : AlikeIn P hidden w s s') (req : HttpRequest) (url : Outbound.Url)
    (host : String) :
    buildRequest P ctx w s req url host = buildRequest P ctx w s' req url host ∨
      ∃ out out', buildRequest P ctx w s req url host = .ok out ∧
        buildRequest P ctx w s' req url host = .ok out' ∧
        (out.headers.all fun h => P.legalHeader h.1 h.2) =
          (out'.headers.all fun h => P.legalHeader h.1 h.2) ∧
        Contained P hidden (w, out) (w, out') := by
  simp only [buildRequest]
  split
  · exact .inl rfl
  · rcases credentialHeader_alike ctx h req.credential host with
      heq | ⟨value, value', hvalue, hvalue', hlegal, hegress⟩
    · rw [heq]
      exact .inl rfl
    · rw [hvalue, hvalue']
      refine .inr ⟨_, _, rfl, rfl, ?_, rfl, .inr ⟨rfl, hegress⟩⟩
      simp only [List.all_append, List.all_cons, List.all_nil, Bool.and_true, hlegal]

/-! ## One call -/

theorem StatesAlike.snoc (h : StatesAlike P hidden t t') {a b : World × Outgoing}
    (hab : Contained P hidden a b) :
    StatesAlike P hidden { t with sent := t.sent ++ [a] } { t' with sent := t'.sent ++ [b] } :=
  { h with sent := List.rel_append h.sent (.cons hab .nil) }

theorem StatesAlike.counted (h : StatesAlike P hidden t t') :
    StatesAlike P hidden { t with outboundCount := t.outboundCount + 1 }
      { t' with outboundCount := t'.outboundCount + 1 } :=
  { h with outboundCount := congrArg (· + 1) h.outboundCount }

theorem send_alike (h : AlikeIn P hidden w s s') (ht : StatesAlike P hidden t t')
    (req : HttpRequest) :
    (send P ctx w s t req).1 = (send P ctx w s' t' req).1 ∧
      StatesAlike P hidden (send P ctx w s t req).2 (send P ctx w s' t' req).2 := by
  simp only [send, ← ht.outboundCount]
  cases checkRequest P ctx t.outboundCount req with
  | error e => exact ⟨rfl, ht⟩
  | ok found =>
    obtain ⟨url, host⟩ := found
    have hcounted := ht.counted
    rw [← ht.outboundCount] at hcounted
    dsimp only
    cases connect ctx w url host with
    | error e => exact ⟨rfl, hcounted⟩
    | ok _ =>
      rcases buildRequest_alike ctx h req url host with
        heq | ⟨out, out', hout, hout', hlegal, hcontained⟩
      · rw [heq]
        cases buildRequest P ctx w s' req url host with
        | error e => exact ⟨rfl, hcounted⟩
        | ok out =>
          dsimp only
          split
          · exact ⟨rfl, hcounted.snoc ⟨rfl, .inl rfl⟩⟩
          · exact ⟨rfl, hcounted⟩
      · rw [hout, hout']
        simp only [hlegal]
        split
        · exact ⟨rfl, hcounted.snoc hcontained⟩
        · exact ⟨rfl, hcounted⟩

/-- A signature that is not released is refused, or of a secret that is not hidden. -/
theorem sign_alike (h : AlikeIn P hidden w s s') {req : HttpRequest}
    (hquiet : ¬ Releases P ctx hidden w (.sign req credential)) :
    sign P ctx w s req credential = sign P ctx w s' req credential := by
  simp only [sign]
  cases hsign : ctx.credentialSign with
  | false => rfl
  | true =>
    cases hauth : authorize P ctx w credential with
    | error e =>
      rw [injectCredential_of_error hauth, injectCredential_of_error hauth]
    | ok found =>
      obtain ⟨account, hosts⟩ := found
      obtain ⟨⟨id, haccount⟩, -⟩ := authorize_ok hauth
      rw [injectCredential_of_ok hauth, injectCredential_of_ok hauth]
      by_cases hhidden : account.providerId ∈ hidden
      · cases htarget : (((P.crate.parse req.url).bind (·.host)).map toAsciiLowercase).any
            fun h => hosts.any (eqIgnoreAsciiCase · h) with
        | true => exact absurd ⟨hsign, account, hosts, hauth, hhidden, htarget⟩ hquiet
        | false => simp only [htarget, Bool.not_false, if_true]
      · rw [h.agree id account haccount hhidden]

theorem read_of_not_granted (hread : ctx.credentialRead = false) (credential : CredentialRef) :
    read P ctx w s credential =
      .error (err "permission_denied" "plugin has no credential_read grant") := by
  rw [read, hread]
  rfl

theorem cacheSet_alike (ht : StatesAlike P hidden t t') (name valueJson : String) (maxAgeMs : Nat) :
    (cacheSet P ctx t name valueJson maxAgeMs).1 = (cacheSet P ctx t' name valueJson maxAgeMs).1 ∧
      StatesAlike P hidden (cacheSet P ctx t name valueJson maxAgeMs).2
        (cacheSet P ctx t' name valueJson maxAgeMs).2 := by
  simp only [cacheSet, ← ht.pendingCache]
  repeat' split
  all_goals first
    | exact ⟨rfl, ht⟩
    | exact ⟨rfl, { ht with pendingCache := rfl }⟩

/-- A call that releases nothing is answered alike and leaves states that are alike. -/
theorem step_alike (hread : ctx.credentialRead = false) (h : AlikeIn P hidden w s s')
    (ht : StatesAlike P hidden t t') {c : Call} (hquiet : ¬ Releases P ctx hidden w c) :
    (step P ctx w s t c).1 = (step P ctx w s' t' c).1 ∧
      StatesAlike P hidden (step P ctx w s t c).2 (step P ctx w s' t' c).2 := by
  cases c with
  | send req => exact send_alike h ht req
  | get key => exact ⟨by simp only [step, ht.storage], ht⟩
  | put key value | delete key =>
    simp only [step, ht.storage]
    split
    · exact ⟨rfl, ht⟩
    · exact ⟨rfl, { ht with storage := rfl }⟩
  | cacheSet name valueJson maxAgeMs => exact cacheSet_alike ht name valueJson maxAgeMs
  | log message | nowSeconds | nowMillis | lease credential => exact ⟨rfl, ht⟩
  | sign req credential => exact ⟨congrArg Answer.signed (sign_alike h hquiet), ht⟩
  | read credential =>
    refine ⟨?_, ht⟩
    simp only [step, read_of_not_granted hread]

/-! ## Whole runs -/

/-- What a guest gets back and what goes out in its name. -/
abbrev runOf (P : Params) (ctx : HostCtx) (secrets : Secrets) (guest : List Answer → Option Call)
    (worlds : ℕ → World) (start : HostState) (n : ℕ) : List Answer × HostState :=
  Interaction.run (fun w => step P ctx w secrets) guest worlds start n

/-- Nothing that the guest gets depends on the hidden secrets, and what depends on them goes to
declared hosts. -/
structure Sealed (P : Params) (ctx : HostCtx) (hidden : Set String) (s s' : Secrets)
    (guest : List Answer → Option Call) (worlds : ℕ → World) (start : HostState)
    (n : ℕ) : Prop where
  answers : (runOf P ctx s guest worlds start n).1 = (runOf P ctx s' guest worlds start n).1
  sent : List.Forall₂ (Contained P hidden) (runOf P ctx s guest worlds start n).2.sent
    (runOf P ctx s' guest worlds start n).2.sent

theorem contained_refl (a : World × Outgoing) : Contained P hidden a a := ⟨rfl, .inl rfl⟩

/-- A guest that may not read credentials, and to which no signed request is handed, learns nothing
of a secret, and the secret goes to hosts that its provider declares. -/
theorem sealed_of_quiet {guest : List Answer → Option Call} {worlds : ℕ → World} {start : HostState}
    {n : ℕ} (hread : ctx.credentialRead = false)
    (hsecrets : ∀ k, AlikeIn P hidden (worlds k) s s')
    (hquiet : Interaction.LetThrough (fun w => step P ctx w s) guest worlds start
      (fun w c => ¬ Releases P ctx hidden w c) n) :
    Sealed P ctx hidden s s' guest worlds start n := by
  have hstart : StatesAlike P hidden start start :=
    ⟨rfl, rfl, rfl, List.forall₂_same.mpr fun a _ => contained_refl a⟩
  obtain ⟨hanswers, hstates⟩ := Interaction.runs_alike (fun w => step P ctx w s') hstart
    (fun k t t' c ht hc => step_alike hread (hsecrets k) ht hc) hquiet
  exact ⟨hanswers, hstates.sent⟩

end Alike

/-! ## A guest that relays a signed request -/

namespace Relay

def provider : ProviderRow :=
  ⟨"p", "acme", "https://api.example/", "openai", "bearer", none, none, "\x7b\x7d", 1000,
    "permissive", none, "\x7b\x7d", 1, 0, "", 0, "", "", "", "", "manual", none, none⟩

def account : AccountRow :=
  ⟨"a", "p", "main", "sealed", "****", "healthy", none, none, "none", none, none, 1, 1, none, none,
    none, 0, ""⟩

def tools : Outbound.Url := { scheme := "https", host := some "tools.example" }

def crate : Outbound.UrlCrate where
  parse text :=
    if text = "https://api.example/" then some { scheme := "https", host := some "api.example" }
    else if text = "https://tools.example/" then some tools
    else none
  join _ _ := .error "relative URL without a base"
  text url := "https://" ++ url.host.getD "" ++ "/"

def params : Params where
  crate := crate
  legalHeader _ value := value.toList.all fun c => c = '\t' ∨ ' ' ≤ c ∧ c ≠ '\x7f'
  sha256 := .ofTable ⟨[], nofun, nofun, nofun⟩
  isJson _ := false
  sealing := Storage.exampleSealing

/-- A plugin that may sign for the provider, and may also reach a host of its own. -/
def ctx : HostCtx where
  pluginId := "dev.example"
  capability := "source_models"
  networkHosts := ["api.example", "tools.example"]
  credentialRead := false
  credentialSign := true
  credentialScopes := ["provider:p"]
  storageQuota := 1024
  maxOutboundRequests := 4
  maxHttpBody := 1024
  bufferedHttpAllowed := true
  allowPrivateNetwork := false

def world : World where
  getAccount id := .ok (if id = "a" then some account else none)
  getProvider id := .ok (if id = "p" then some provider else none)
  decrypts _ := .ok ()
  lookupHost _ port := .ok [⟨.v4 0x08080808, port⟩]
  buildClient := .ok ()
  exchange := .ok { status := 200, headers := [], chunks := [] }
  tx := Storage.healthy
  nowMillis := 0

def start : HostState := { storage := ⟨[], List.nodup_nil⟩ }

def request (credential : Option CredentialRef) : HttpRequest :=
  { method := "GET", url := "https://api.example/", headers := [], body := [], credential }

/-- Sends one request with the credential. -/
def direct : List Answer → Option Call
  | [] => some (.send (request (some (.account "p" "a"))))
  | _ => none

/-- Has a request signed and sends it to the other host. -/
def relay : List Answer → Option Call
  | [] => some (.sign (request none) (.account "p" "a"))
  | [.signed (.ok req)] => some (.send { req with url := "https://tools.example/" })
  | _ => none

theorem alikeIn {s s' : String}
    (h : params.legalHeader "authorization" ("Bearer " ++ s) =
      params.legalHeader "authorization" ("Bearer " ++ s')) :
    AlikeIn params {"p"} world (fun _ => s) fun _ => s' where
  agree id found hfound hother := by
    simp only [world, Except.ok.injEq, Option.ite_none_right_eq_some, Option.some.injEq] at hfound
    exact absurd (hfound.2 ▸ rfl) hother
  legal _ _ _ := h

def signed (secret : String) : HttpRequest :=
  { request none with headers := [("authorization", "Bearer " ++ secret)] }

def relayed (secret : String) : HttpRequest :=
  { signed secret with url := "https://tools.example/" }

def relayedOut (secret : String) : Outgoing where
  host := "tools.example"
  url := tools
  method := "GET"
  headers := [("authorization", "Bearer " ++ secret)]
  body := []

theorem sign_request : ∀ secret ∈ ["sk-1", "sk-2"],
    sign params ctx world (fun _ => secret) (request none) (.account "p" "a") =
      .ok (signed secret) := by
  decide +kernel

theorem check_relayed : ∀ secret ∈ ["sk-1", "sk-2"],
    checkRequest params ctx 0 (relayed secret) = .ok (tools, "tools.example") ∧
      buildRequest params ctx world (fun _ => secret) (relayed secret) tools "tools.example" =
        .ok (relayedOut secret) ∧
      ((relayedOut secret).headers.all fun h => params.legalHeader h.1 h.2) = true := by
  decide +kernel

theorem connect_tools : connect ctx world tools "tools.example" = .ok () := by decide +kernel

theorem send_relayed {secret : String} (h : secret ∈ ["sk-1", "sk-2"]) :
    send params ctx world (fun _ => secret) start (relayed secret) =
      (receive ctx world.exchange,
        { start with outboundCount := 1, sent := [(world, relayedOut secret)] }) := by
  obtain ⟨hcheck, hbuild, hlegal⟩ := check_relayed secret h
  have hcount : start.outboundCount = 0 := rfl
  rw [send, hcount, hcheck]
  dsimp only
  rw [connect_tools]
  dsimp only
  rw [hbuild]
  dsimp only
  rw [if_pos hlegal]
  rfl

/-- The first answer has the secret, and so has the request that goes out. -/
theorem run_relay {secret : String} (h : secret ∈ ["sk-1", "sk-2"]) :
    runOf params ctx (fun _ => secret) relay (fun _ => world) start 2 =
      ([.signed (.ok (signed secret)), receive ctx world.exchange],
        { start with outboundCount := 1, sent := [(world, relayedOut secret)] }) := by
  have hfirst : runOf params ctx (fun _ => secret) relay (fun _ => world) start 1 =
      ([.signed (.ok (signed secret))], start) := by
    rw [runOf, Interaction.run_of_some (c := .sign (request none) (.account "p" "a")) rfl]
    simp only [Interaction.run, step, sign_request secret h, List.nil_append]
  have hnext : relay (runOf params ctx (fun _ => secret) relay (fun _ => world) start 1).1 =
      some (.send (relayed secret)) := by
    rw [hfirst]
    rfl
  rw [runOf, Interaction.run_of_some hnext, ← runOf, hfirst]
  simp only [step, send_relayed h, List.singleton_append]

end Relay

/-- A request that is sent with the credential. -/
theorem direct_sealed :
    Sealed Relay.params Relay.ctx {"p"} (fun _ => "sk-1") (fun _ => "sk-2") Relay.direct
      (fun _ => Relay.world) Relay.start 2 := by
  refine sealed_of_quiet rfl (fun _ => Relay.alikeIn (by decide +kernel)) fun k _ c hc => ?_
  unfold Relay.direct at hc
  split at hc
  · cases hc
    exact id
  · exact nomatch hc

/-- The guest gets the secret, and sends it to a host that the provider does not declare. -/
theorem relay_not_sealed :
    Relay.ctx.credentialRead = false ∧
    (∀ k : ℕ, AlikeIn Relay.params {"p"} ((fun _ => Relay.world) k) (fun _ => "sk-1")
      fun _ => "sk-2") ∧
    (runOf Relay.params Relay.ctx (fun _ => "sk-1") Relay.relay (fun _ => Relay.world)
        Relay.start 2).1 ≠
      (runOf Relay.params Relay.ctx (fun _ => "sk-2") Relay.relay (fun _ => Relay.world)
        Relay.start 2).1 ∧
    ¬ List.Forall₂ (Contained Relay.params {"p"})
      (runOf Relay.params Relay.ctx (fun _ => "sk-1") Relay.relay (fun _ => Relay.world)
        Relay.start 2).2.sent
      (runOf Relay.params Relay.ctx (fun _ => "sk-2") Relay.relay (fun _ => Relay.world)
        Relay.start 2).2.sent := by
  refine ⟨rfl, fun _ => Relay.alikeIn (by decide +kernel), ?_, ?_⟩
  · rw [Relay.run_relay List.mem_cons_self,
      Relay.run_relay (List.mem_cons_of_mem _ List.mem_cons_self)]
    intro h
    simp only [List.cons.injEq, Answer.signed.injEq, Except.ok.injEq] at h
    exact absurd h.1 (by decide +kernel)
  · rw [Relay.run_relay List.mem_cons_self,
      Relay.run_relay (List.mem_cons_of_mem _ List.mem_cons_self)]
    intro h
    obtain ⟨-, heq | ⟨-, providerId, hid, hosts, hhosts, hhost⟩⟩ := (List.forall₂_cons.mp h).1
    · exact absurd heq (by decide +kernel)
    · cases hid
      have hdeclared : credentialEgressHosts Relay.params Relay.world "p" =
          .ok ["api.example"] := by
        decide +kernel
      cases hdeclared.symm.trans hhosts
      exact absurd hhost (by decide +kernel)

end Kinetix.Plugins.HostCalls
