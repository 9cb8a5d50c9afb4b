import Kinetix.Config.Registry
import Kinetix.Foundation.Json
import Kinetix.Outbound.Destination

/-!
# Redirects

`send_provider_request` of `outbound.rs`: redirects are followed by hand. Every hop is resolved and
validated again, and only a hop to an authorized host gets the headers of the provider.

## Implementation notes

The environment is what the code cannot choose: the answers of the DNS and of the upstreams, and
what other requests do to the shared cache between two hops, each at the time of a hop. An adapter
adds headers and query parameters to a request, as a `RequestBuilder` lets it. Logging and the pause
before a retry are left out.
-/

namespace Kinetix.Outbound
open Json KeyedTable Net Kinetix.Types
open Config (ProviderRow)

/-- `MAX_REDIRECTS`. -/
def maxRedirects : Nat := 5

/-- `MAX_TRANSIENT_GATEWAY_RETRIES`. -/
def maxTransientGatewayRetries : Nat := 1

/-! ## Credential hosts -/

/-- `ProviderRow::credential_hosts`. -/
def credentialHosts (row : ProviderRow) : List String :=
  ((Text.splitAt row.credentialHosts ',').map Text.trim).filter (· ≠ "")

/-- The host of the base URL. -/
def baseHost (U : UrlCrate) (row : ProviderRow) : Option String :=
  (U.parse row.baseUrl).bind (·.host)

/-- `host_authorized`: the base host or a declared one, in any case. -/
def hostAuthorized (U : UrlCrate) (row : ProviderRow) (host : String) : Bool :=
  let host := Text.toAsciiLowercase host
  (baseHost U row).map Text.toAsciiLowercase = some host ||
    (credentialHosts row).any fun h => Text.toAsciiLowercase h = host

/-- `extra_headers_map`: none if one of them is not a text. -/
def extraHeadersMap (J : SerdeJson) (row : ProviderRow) : List (String × String) :=
  match (J.fromStr row.extraHeaders).bind (·.asObject) with
  | some fields =>
    (fields.mapM fun field : String × Value => field.2.asStr.map (field.1, ·)).getD []
  | none => []

/-! ## Errors of the transport -/

/-- What `redact` splits a text into: tokens with the character that ends them. -/
def splitInclusive (p : Char → Bool) : List Char → List (List Char)
  | [] => []
  | c :: cs =>
    if p c then [c] :: splitInclusive p cs
    else
      match splitInclusive p cs with
      | [] => [[c]]
      | token :: tokens => (c :: token) :: tokens

/-- `trim_matches`. -/
def trimMatches (p : Char → Bool) (cs : List Char) : List Char :=
  ((cs.dropWhile p).reverse.dropWhile p).reverse

/-- `looks_like_secret`. -/
def looksLikeSecret (cs : List Char) : Bool :=
  let s := String.ofList cs
  (["sk-", "AIza", "AQ.", "gsk_", "sk-ant", "ya29."].any (Text.startsWith s) &&
      12 < s.utf8ByteSize) ||
    (40 ≤ s.utf8ByteSize && 36 ≤ cs.countP (·.isAlphanum))

/-- `redact` of `crypto.rs`. -/
def redact (text : String) : String :=
  let ends c := Text.isWhitespace c || c == '"' || c == '\'' || c == '='
  let around c := ends c || c == ',' || c == '{' || c == '}'
  String.ofList <| (splitInclusive ends text.toList).flatMap fun token =>
    if looksLikeSecret (trimMatches around token) then
      "[REDACTED]".toList ++ (token.getLast?.filter ends).toList
    else token

/-- What is read of an error of `reqwest`. -/
structure ReqwestError where
  isTimeout : Bool
  isConnect : Bool
  text : String

def OutboundError.transport (error : ReqwestError) : OutboundError where
  message :=
    if error.isTimeout then "upstream request timed out"
    else if error.isConnect then "connection to upstream failed"
    else s!"upstream request failed: {redact error.text}"
  timeout := error.isTimeout

def OutboundError.adapter (failure : UpstreamFailure) : OutboundError where
  message := failure.message
  timeout := failure.kind = .timeout
  adapterFailure := some failure

/-! ## Requests -/

inductive Method where
  | get
  | post
  | other (name : String)
  deriving DecidableEq

/-- A request to a provider, before its headers. -/
structure ProviderRequest where
  method : Method
  url : Url
  jsonBody : Option Value := none
  acceptEventStream : Bool := false
  requestId : Option String := none
  headers : List (String × String) := []
  totalTimeout : Option Nat := none

/-- A request as it is built up. -/
structure RequestBuilder where
  method : Method
  url : Url
  timeout : Option Nat := none
  headers : List (String × String) := []
  query : List (String × String) := []
  body : Option Value := none

/-- What an adapter adds to a request. -/
structure Auth where
  headers : List (String × String) := []
  query : List (String × String) := []

/-- Who is asked, with which credential. -/
structure UpstreamContext where
  provider : ProviderRow
  credential : String

/-- What the loop reads of a response. -/
structure Response where
  status : Nat
  /-- The `Location` header, if there is one, and its text if it has one. -/
  location : Option (Option String) := none
  deriving DecidableEq

/-- What `send_provider_request` is called with. -/
structure Call where
  allowPrivate : Bool
  allowInsecureGlobal : Bool
  applyAuth : UpstreamContext → Except UpstreamFailure Auth
  ctx : UpstreamContext
  request : ProviderRequest

/-- What a call takes from outside: crates, DNS, the connections and the network. -/
structure Environment where
  url : UrlCrate
  json : SerdeJson
  lookup : Nat → String → Nat → Except String (List SocketAddr)
  /-- What other requests pinned since the hop before. -/
  others : Nat → List Pinning
  /-- Whether a client cannot be built. -/
  builds : Nat → Option String
  answers : Nat → RequestBuilder → Except ReqwestError Response

/-- A request that was sent. -/
structure SentRequest where
  time : Nat
  destination : ResolvedDestination
  client : Client
  request : RequestBuilder

/-- The pinned clients, the time, and what has been sent. -/
structure Transport where
  cache : ClientCache
  time : Nat := 0
  sent : List SentRequest := []

/-- The method after a redirect, and whether the body is kept. -/
def redirectedMethod (status : Nat) (method : Method) : Method × Bool :=
  if status = 303 ∨ (status = 301 ∨ status = 302) ∧ method = .post then (.get, false)
  else (method, true)

/-- `should_retry_transient_gateway`. -/
def shouldRetryTransientGateway (acceptEventStream : Bool) (status retriesDone : Nat) : Bool :=
  acceptEventStream && retriesDone < maxTransientGatewayRetries &&
    (status = 502 || status = 503 || status = 504)

def followsRedirects (row : ProviderRow) : Bool := row.followRedirects ≠ 0

namespace Call
variable (C : Call) (E : Environment)

def insecureTls : Bool := C.allowInsecureGlobal || C.ctx.provider.allowInsecureTls ≠ 0

/-- The host of a URL may get the credential. -/
def credentialsAuthorized (url : Url) : Bool :=
  url.host.any (hostAuthorized E.url C.ctx.provider)

/-- A request as any host may get it. -/
def plainRequest (method : Method) (url : Url) (body : Option Value) : RequestBuilder where
  method := method
  url := url
  timeout := C.request.totalTimeout
  headers :=
    (if body.isSome then [("content-type", "application/json")] else []) ++
      (if C.request.acceptEventStream then [("accept", "text/event-stream")] else []) ++
      (C.request.requestId.map fun id => ("x-request-id", id)).toList
  body := body

/-- A request has the credential only if its host is authorized. -/
def buildRequest (method : Method) (url : Url) (body : Option Value) :
    Except OutboundError RequestBuilder :=
  let builder := C.plainRequest method url body
  if C.credentialsAuthorized E url then
    match C.applyAuth C.ctx with
    | .error failure => .error (.adapter failure)
    | .ok auth =>
      .ok { builder with
        headers := builder.headers ++ auth.headers ++ extraHeadersMap E.json C.ctx.provider ++
          C.request.headers
        query := builder.query ++ auth.query }
  else .ok builder

/-- One hop: the destination is resolved, its client pinned, and the request built and sent. -/
def sendHop (t : Transport) (current : Url) (method : Method) (body : Option Value) :
    Transport × Except OutboundError Response :=
  let now := t.time
  let t := { t with cache := (E.others now).foldl pin t.cache, time := now + 1 }
  match resolveDestination E.url (E.lookup now) current C.allowPrivate C.insecureTls with
  | .error e => (t, .error e)
  | .ok destination =>
    let (cache, client) := pinnedClient t.cache destination C.insecureTls (E.builds now)
    let t := { t with cache := cache }
    match client with
    | .error e => (t, .error e)
    | .ok client =>
      match C.buildRequest E method current body with
      | .error e => (t, .error e)
      | .ok request =>
        let t := { t with sent := t.sent ++ [⟨now, destination, client, request⟩] }
        match E.answers now request with
        | .error e => (t, .error (.transport e))
        | .ok response => (t, .ok response)

/-- The loop over the hops, with the number of redirects that are left. -/
def followRedirects (left : Nat) (t : Transport) (current : Url) (method : Method)
    (body : Option Value) : Transport × Except OutboundError Response :=
  match C.sendHop E t current method body with
  | (t, .error e) => (t, .error e)
  | (t, .ok response) =>
    if !(300 ≤ response.status && response.status < 400) || !followsRedirects C.ctx.provider then
      (t, .ok response)
    else
      match left with
      | 0 => (t, .error (.denied s!"upstream redirect limit exceeded ({maxRedirects})"))
      | left + 1 =>
        match response.location with
        | none => (t, .ok response)
        | some none => (t, .error (.denied "upstream redirect has invalid Location header"))
        | some (some location) =>
          match E.url.join current location with
          | .error e => (t, .error (.denied s!"invalid upstream redirect target: {e}"))
          | .ok next =>
            let (method, preserveBody) := redirectedMethod response.status method
            followRedirects left t next method (if preserveBody then body else none)

/-- `send_provider_request_once`: the first host is checked before anything is sent. -/
def sendProviderRequestOnce (t : Transport) : Transport × Except OutboundError Response :=
  if !C.credentialsAuthorized E C.request.url then
    let host := C.request.url.host.getD "<missing>"
    (t, .error (.denied (s!"credential host binding: '{host}' is not an authorized host for " ++
      s!"provider '{C.ctx.provider.name}'")))
  else C.followRedirects E maxRedirects t C.request.url C.request.method C.request.jsonBody

/-- The loop over the tries, with the number of retries that are left. -/
def retrying (left : Nat) (t : Transport) : Transport × Except OutboundError Response :=
  match C.sendProviderRequestOnce E t with
  | (t, .error e) => (t, .error e)
  | (t, .ok response) =>
    if shouldRetryTransientGateway C.request.acceptEventStream response.status
        (maxTransientGatewayRetries - left) then
      match left with
      | 0 => (t, .ok response)  -- there is no retry after the last one
      | left + 1 => retrying left t
    else (t, .ok response)

/-- `send_provider_request`, with the retries of a gateway. -/
def sendProviderRequest (t : Transport) : Transport × Except OutboundError Response :=
  C.retrying E maxTransientGatewayRetries t

end Call

/-! ## Confinement -/

/-- The address that a host is written as, which in the second family stands in brackets. -/
def literalOf (host : String) : Option IpAddr :=
  (parseIpAddr host).or <| (Text.stripPrefix host "[").bind fun rest =>
    (Text.stripSuffix rest ']').bind parseIpAddr

/-- To which addresses a client may connect for a URL: to a literal itself, and for the host that
it is pinned to, to the addresses it is pinned to. -/
structure LawfulConnector (connects : Client → Url → List IpAddr) : Prop where
  literal : ∀ client url host ip, url.host = some host →
    literalOf (Text.toAsciiLowercase host) = some ip → ∀ a ∈ connects client url, a = ip
  pinned : ∀ client url host, url.host = some host →
    literalOf (Text.toAsciiLowercase host) = none → Text.toAsciiLowercase host = client.host →
      ∀ a ∈ connects client url, ∃ s ∈ client.addrs, s.ip = a

/-- A literal in brackets is no name that the DNS knows. -/
def RefusesBrackets (E : Environment) : Prop :=
  ∀ n host port ip, parseIpAddr host = none → literalOf host = some ip →
    ∃ e, E.lookup n host port = .error e

namespace Call
variable {C : Call} {E : Environment} {connects : Client → Url → List IpAddr}

/-- A request goes to addresses of a destination that passed the validation at its hop, and only an
authorized host gets more than a plain request. -/
structure Confined (C : Call) (E : Environment) (connects : Client → Url → List IpAddr)
    (s : SentRequest) : Prop where
  validated : resolveDestination E.url (E.lookup s.time) s.request.url C.allowPrivate
    C.insecureTls = .ok s.destination
  connects : ∀ ip ∈ connects s.client s.request.url,
    (∃ a ∈ s.destination.addrs, a.ip = ip) ∧ (C.allowPrivate = true ∨ isBlockedIp ip = false)
  plain : C.credentialsAuthorized E s.request.url = false →
    ∃ method body, s.request = C.plainRequest method s.request.url body

/-- From one state to another one, so many requests may have been sent, all of them confined. -/
structure Sends (C : Call) (E : Environment) (connects : Client → Url → List IpAddr) (n : Nat)
    (t t' : Transport) : Prop where
  pinned : Pinned t'.cache
  sent : ∃ more, t'.sent = t.sent ++ more ∧ more.length ≤ n ∧ ∀ s ∈ more, C.Confined E connects s

theorem Sends.nothing {n : Nat} {t t' : Transport} (hpinned : Pinned t'.cache)
    (hsent : t'.sent = t.sent) : C.Sends E connects n t t' :=
  ⟨hpinned, [], by simp [hsent]⟩

theorem Sends.trans {m n : Nat} {t₁ t₂ t₃ : Transport} (h : C.Sends E connects m t₁ t₂)
    (h' : C.Sends E connects n t₂ t₃) : C.Sends E connects (m + n) t₁ t₃ := by
  obtain ⟨more, hmore, hlength, hall⟩ := h.sent
  obtain ⟨more', hmore', hlength', hall'⟩ := h'.sent
  refine ⟨h'.pinned, more ++ more', by rw [hmore', hmore, List.append_assoc], ?_, fun s hs => ?_⟩
  · rw [List.length_append]
    omega
  · exact (List.mem_append.mp hs).elim (hall s) (hall' s)

theorem Sends.mono {m n : Nat} {t t' : Transport} (h : C.Sends E connects m t t') (hle : m ≤ n) :
    C.Sends E connects n t t' := by
  obtain ⟨more, hmore, hlength, hall⟩ := h.sent
  exact ⟨h.pinned, more, hmore, hlength.trans hle, hall⟩

/-- An unauthorized host gets a plain request. -/
theorem buildRequest_ok {method : Method} {url : Url} {body : Option Value}
    {request : RequestBuilder} (h : C.buildRequest E method url body = .ok request) :
    request.url = url ∧
      (C.credentialsAuthorized E url = false → request = C.plainRequest method url body) := by
  unfold buildRequest at h
  dsimp only at h
  split at h
  next hauthorized =>
    split at h
    · cases h
    · cases h
      exact ⟨rfl, fun hne => absurd hauthorized (by simp [hne])⟩
  next =>
    cases h
    exact ⟨rfl, fun _ => rfl⟩

/-- A client that is pinned to a destination connects to the addresses of the destination. -/
theorem connects_to_destination (hconnects : LawfulConnector connects) (hdns : RefusesBrackets E)
    {n : Nat} {url : Url} {d : ResolvedDestination} {client : Client}
    (hresolved : ResolvedFor (E.lookup n) C.allowPrivate url d) (hhost : client.host = d.host)
    (haddrs : client.addrs.Perm d.addrs) :
    ∀ ip ∈ connects client url,
      (∃ a ∈ d.addrs, a.ip = ip) ∧ (C.allowPrivate = true ∨ isBlockedIp ip = false) := by
  intro ip hip
  obtain ⟨host, hurl, hlower⟩ := Option.map_eq_some_iff.mp hresolved.host
  have hmem : ∃ a ∈ d.addrs, a.ip = ip := by
    cases hliteral : literalOf d.host with
    | none =>
      obtain ⟨a, ha, heq⟩ := hconnects.pinned client url host hurl (hlower ▸ hliteral)
        (hlower.trans hhost.symm) ip hip
      exact ⟨a, haddrs.mem_iff.mp ha, heq⟩
    | some ip' =>
      have heq := hconnects.literal client url host ip' hurl (hlower ▸ hliteral) ip hip
      cases hparse : parseIpAddr d.host with
      | none =>
        obtain ⟨answer, hanswer, -⟩ := hresolved.answered hparse
        obtain ⟨e, he⟩ := hdns n d.host d.port ip' hparse hliteral
        rw [hanswer] at he
        cases he
      | some parsed =>
        rw [literalOf, hparse, Option.some_or, Option.some.injEq] at hliteral
        obtain ⟨a, rest, hcons⟩ := List.exists_cons_of_ne_nil d.nonempty
        have ha : a ∈ d.addrs := hcons ▸ List.mem_cons_self
        refine ⟨a, ha, ?_⟩
        rw [hresolved.literal parsed hparse a ha, hliteral, heq]
  obtain ⟨a, ha, rfl⟩ := hmem
  exact ⟨⟨a, ha, rfl⟩, hresolved.allowed a ha⟩

theorem sendHop_sends (hconnects : LawfulConnector connects) (hdns : RefusesBrackets E)
    {t : Transport} (ht : Pinned t.cache) (current : Url) (method : Method) (body : Option Value) :
    C.Sends E connects 1 t (C.sendHop E t current method body).1 := by
  have hothers := ht.pinAll (E.others t.time)
  unfold sendHop
  dsimp only
  split
  · exact .nothing hothers rfl
  next destination hdestination =>
    have hpin := hothers.pin ⟨destination, C.insecureTls, E.builds t.time⟩
    split
    next => exact .nothing hpin rfl
    next client hclient =>
      obtain ⟨hhost, -, haddrs⟩ := pinnedClient_ok hothers hclient
      split
      next => exact .nothing hpin rfl
      next request hrequest =>
        obtain ⟨hurl, hplain⟩ := buildRequest_ok hrequest
        have hconfined : C.Confined E connects ⟨t.time, destination, client, request⟩ := by
          subst hurl
          exact ⟨hdestination, connects_to_destination hconnects hdns
            (resolvedFor_of_resolveDestination hdestination) hhost haddrs,
            fun hne => ⟨method, body, hplain hne⟩⟩
        have hsent : ∀ s ∈ [SentRequest.mk t.time destination client request],
            C.Confined E connects s := fun s hs => List.mem_singleton.mp hs ▸ hconfined
        split
        · exact ⟨hpin, _, rfl, le_rfl, hsent⟩
        · exact ⟨hpin, _, rfl, le_rfl, hsent⟩

theorem followRedirects_sends (hconnects : LawfulConnector connects) (hdns : RefusesBrackets E)
    (left : Nat) {t : Transport} (ht : Pinned t.cache) (current : Url) (method : Method)
    (body : Option Value) :
    C.Sends E connects (left + 1) t (C.followRedirects E left t current method body).1 := by
  induction left generalizing t current method body with
  | zero =>
    have hhop := sendHop_sends (C := C) hconnects hdns ht current method body
    rw [followRedirects]
    split
    next t₁ e hrun =>
      rw [hrun] at hhop
      exact hhop
    next t₁ response hrun =>
      rw [hrun] at hhop
      split_ifs
      · exact hhop
      · exact hhop
  | succ left ih =>
    have hhop := sendHop_sends (C := C) hconnects hdns ht current method body
    rw [followRedirects]
    split
    next t₁ e hrun =>
      rw [hrun] at hhop
      exact hhop.mono (by omega)
    next t₁ response hrun =>
      rw [hrun] at hhop
      split_ifs
      · exact hhop.mono (by omega)
      · dsimp only
        split
        · exact hhop.mono (by omega)
        · exact hhop.mono (by omega)
        · split
          · exact hhop.mono (by omega)
          · exact (hhop.trans (ih hhop.pinned _ _ _)).mono (by omega)

theorem sendProviderRequestOnce_sends (hconnects : LawfulConnector connects)
    (hdns : RefusesBrackets E) {t : Transport} (ht : Pinned t.cache) :
    C.Sends E connects 6 t (C.sendProviderRequestOnce E t).1 := by
  unfold sendProviderRequestOnce
  split_ifs
  · exact .nothing ht rfl
  · exact followRedirects_sends hconnects hdns maxRedirects ht _ _ _

/-- After the first try there is nothing more, or one more try for a stream. -/
theorem sendProviderRequest_tries (C : Call) (E : Environment) (t : Transport) :
    (C.sendProviderRequest E t).1 = (C.sendProviderRequestOnce E t).1 ∨
      C.request.acceptEventStream = true ∧ (C.sendProviderRequest E t).1 =
        (C.sendProviderRequestOnce E (C.sendProviderRequestOnce E t).1).1 := by
  have hlast : ∀ t, (C.retrying E 0 t).1 = (C.sendProviderRequestOnce E t).1 := by
    intro t
    rw [retrying]
    split
    next t₁ e hrun => rw [hrun]
    next t₁ response hrun =>
      rw [hrun]
      split_ifs
      · rfl
      · rfl
  unfold sendProviderRequest
  rw [maxTransientGatewayRetries, retrying]
  split
  next t₁ e hrun => exact .inl (by rw [hrun])
  next t₁ response hrun =>
    rw [hrun]
    split_ifs with hretry
    · refine .inr ⟨?_, hlast t₁⟩
      rw [shouldRetryTransientGateway, Bool.and_eq_true, Bool.and_eq_true] at hretry
      exact hretry.1.1
    · exact .inl rfl

/-- What one call of `send_provider_request` may do, in any environment and with any cache that
calls of `pinned_client` led to: two tries of six requests at most, the second one only for a
stream, and each request confined. -/
theorem send_provider_request_confined (hconnects : LawfulConnector connects)
    (hdns : RefusesBrackets E) {t : Transport} (ht : Pinned t.cache) :
    ∃ first second : List SentRequest,
      (C.sendProviderRequestOnce E t).1.sent = t.sent ++ first ∧
      (C.sendProviderRequest E t).1.sent = t.sent ++ first ++ second ∧
      first.length ≤ 6 ∧ second.length ≤ 6 ∧
      (second ≠ [] → C.request.acceptEventStream = true) ∧
      (first ++ second).length ≤ 12 ∧
      ∀ s ∈ first ++ second, C.Confined E connects s := by
  have hfirst := sendProviderRequestOnce_sends (C := C) hconnects hdns ht
  obtain ⟨first, hsent, hlength, hall⟩ := hfirst.sent
  obtain hone | ⟨hstream, htwo⟩ := sendProviderRequest_tries C E t
  · refine ⟨first, [], hsent, by rw [hone, hsent, List.append_nil], hlength, Nat.zero_le 6,
      fun h => absurd rfl h, ?_, ?_⟩
    · rw [List.append_nil]
      omega
    · rwa [List.append_nil]
  · have hsecond := sendProviderRequestOnce_sends (C := C) hconnects hdns hfirst.pinned
    obtain ⟨second, hsent', hlength', hall'⟩ := hsecond.sent
    refine ⟨first, second, hsent, by rw [htwo, hsent', hsent], hlength, hlength', fun _ => hstream,
      ?_, fun s hs => ?_⟩
    · rw [List.length_append]
      omega
    · exact (List.mem_append.mp hs).elim (hall s) (hall' s)

end Call

/-! ## A detour -/

namespace Detour

def provider : ProviderRow :=
  ⟨"p", "acme", "https://api.example", "openai", "bearer", none, none, "{}", 1000, "permissive",
    none, "{}", 1, 1, "", 0, "", "", "", "", "manual", none, none⟩

def api (path : String) : Url := { scheme := "https", host := some "api.example", path := path }

def elsewhere : Url := { scheme := "https", host := some "elsewhere.example" }

/-- An upstream that redirects to another host, which redirects back. -/
def env : Environment where
  url := {
    parse := fun text => if text = "https://api.example" then some (api "/") else none
    join := fun _ location =>
      if location = "https://elsewhere.example/" then .ok elsewhere else .ok (api location)
    text := fun _ => "https://api.example/" }
  json := .ofEmptyObject
  lookup _ host port :=
    if host = "api.example" then .ok [⟨.v4 0x08080808, port⟩]
    else if host = "elsewhere.example" then .ok [⟨.v4 0x01010101, port⟩]
    else .error "no such host"
  others _ := []
  builds _ := none
  answers n _ :=
    if n = 0 then .ok ⟨307, some (some "https://elsewhere.example/")⟩
    else if n = 1 then .ok ⟨302, some (some "/v2")⟩
    else .ok ⟨200, none⟩

def call : Call where
  allowPrivate := false
  allowInsecureGlobal := false
  applyAuth ctx := .ok { headers := [("authorization", "Bearer " ++ ctx.credential)] }
  ctx := ⟨provider, "secret"⟩
  request := { method := .post, url := api "/v1", acceptEventStream := true }

def connects (client : Client) (url : Url) : List IpAddr :=
  match url.host with
  | none => []
  | some host =>
    match literalOf (Text.toAsciiLowercase host) with
    | some ip => [ip]
    | none =>
      if Text.toAsciiLowercase host = client.host then client.addrs.map (·.ip) else []

theorem lawful : LawfulConnector connects where
  literal client url host ip hhost hliteral a ha := by
    unfold connects at ha
    rw [hhost] at ha
    dsimp only at ha
    rw [hliteral] at ha
    exact List.mem_singleton.mp ha
  pinned client url host hhost hliteral hpinned a ha := by
    unfold connects at ha
    rw [hhost] at ha
    dsimp only at ha
    rw [hliteral] at ha
    simp only [if_pos hpinned] at ha
    exact List.mem_map.mp ha

theorem refuses : RefusesBrackets env := by
  intro n host port ip hparse hliteral
  have hnames : literalOf "api.example" = none ∧ literalOf "elsewhere.example" = none := by
    decide +kernel
  refine ⟨"no such host", ?_⟩
  change (if host = "api.example" then _ else if host = "elsewhere.example" then _ else _) = _
  rw [if_neg, if_neg]
  · rintro rfl
    rw [hnames.2] at hliteral
    cases hliteral
  · rintro rfl
    rw [hnames.1] at hliteral
    cases hliteral

end Detour

open Detour in
/-- The key is sent to the provider's host before and after the detour, and not on it. -/
theorem send_provider_request_confined_detour :
    (∃ first second : List SentRequest,
      (call.sendProviderRequestOnce env ⟨Table.empty PinnedClient.key, 0, []⟩).1.sent =
        [] ++ first ∧
      (call.sendProviderRequest env ⟨Table.empty PinnedClient.key, 0, []⟩).1.sent =
        [] ++ first ++ second ∧
      first.length ≤ 6 ∧ second.length ≤ 6 ∧
      (second ≠ [] → call.request.acceptEventStream = true) ∧ (first ++ second).length ≤ 12 ∧
      ∀ s ∈ first ++ second, call.Confined env connects s) ∧
    (call.sendProviderRequest env ⟨Table.empty PinnedClient.key, 0, []⟩).1.sent.map
        (fun s => (s.request.url.host, s.request.headers.any (·.1 = "authorization"))) =
      [(some "api.example", true), (some "elsewhere.example", false), (some "api.example", true)] :=
  ⟨Call.send_provider_request_confined lawful refuses ⟨[], rfl⟩, by decide +kernel⟩

end Kinetix.Outbound
