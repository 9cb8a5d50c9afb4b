import Kinetix.Outbound.Redirects
import Kinetix.Plugins.NetworkHosts
import Kinetix.Plugins.Storage

/-!
# Host calls of a plugin

The host imports of `runtime.rs` that a plugin instance can call: buffered HTTP, storage, the log,
the clock and credentials, with the backing of `manager.rs`.

## Implementation notes

The `url` crate, the legality of a header for the `http` crate, SHA-256 and the reading of JSON are
parameters. What the database, the DNS, the network and the clock answer at a call is the world of
that call; the storage of the plugin is part of the state. The plaintext of a stored secret is given
by a function of its ciphertext. A plugin that was trapped makes no further call, so a guest that
would go on is more than there is. Lines of the log leave no trace.
-/

namespace Kinetix.Plugins.HostCalls
open Config (ProviderRow AccountRow)
open Outbound (UrlCrate Url baseHost credentialHosts isBlockedIp)
open NetworkHosts (egressAllowed)
open Plugins.Storage
open Net Text

structure PluginError where
  code : String
  message : String
  retryable : Bool := false
  retryAfter : Option Nat := none
  resetAt : Option String := none
  deriving DecidableEq

inductive CredentialRef where
  | account (providerId accountId : String)
  | named (name : String)
  deriving DecidableEq

/-- A request that a guest makes. -/
structure HttpRequest where
  method : String
  url : String
  headers : List (String × String)
  body : List UInt8
  credential : Option CredentialRef := none
  deriving DecidableEq

structure HttpResponse where
  status : Nat
  headers : List (String × String)
  body : List UInt8
  bodyTruncated : Bool
  deriving DecidableEq

/-- What is used of an error of `reqwest`. -/
inductive NetError where
  | timeout
  | connect
  | other
  deriving DecidableEq

/-- `classify_reqwest`. -/
def classifyReqwest : NetError → String
  | .timeout => "timeout"
  | .connect => "connection error"
  | .other => "request error"

/-- What an upstream sends back: headers whose value is no text, and what ends the body early. -/
structure Reply where
  status : Nat
  headers : List (String × Option String)
  chunks : List (List UInt8)
  failure : Option NetError := none

/-- What is outside of the host when a call is made. -/
structure World where
  getAccount : String → Except String (Option AccountRow)
  getProvider : String → Except String (Option ProviderRow)
  /-- Whether a ciphertext can be decrypted. -/
  decrypts : String → Except String Unit
  lookupHost : String → Nat → Except String (List SocketAddr)
  buildClient : Except String Unit
  exchange : Except NetError Reply
  tx : TxEnv
  nowMillis : Nat

/-- The plaintexts of the stored ciphertexts. -/
abbrev Secrets := String → String

/-- The context of an instance; the counter and the caches are in the state. -/
structure HostCtx where
  pluginId : String
  capability : String
  networkHosts : List String
  credentialRead : Bool
  credentialSign : Bool
  credentialScopes : List String
  storageQuota : UInt64
  maxOutboundRequests : Nat
  maxHttpBody : Nat
  bufferedHttpAllowed : Bool
  allowPrivateNetwork : Bool

structure Params where
  crate : UrlCrate
  legalHeader : String → String → Bool
  sha256 : Sha256
  isJson : String → Bool
  sealing : Sealing

/-- A request that goes out. -/
structure Outgoing where
  host : String
  url : Url
  method : String
  headers : List (String × String)
  body : List UInt8
  deriving DecidableEq

/-- What the calls of an instance change: the requests that went out, each in its world, are kept
for the record only. -/
structure HostState where
  outboundCount : Nat := 0
  pendingCache : List (String × String × Nat) := []
  storage : KvTable
  sent : List (World × Outgoing) := []

/-- A call of the host. -/
inductive Call where
  | send (req : HttpRequest)
  | get (key : String)
  | put (key : String) (value : List UInt8)
  | delete (key : String)
  | cacheSet (name valueJson : String) (maxAgeMs : Nat)
  | log (message : String)
  | nowSeconds
  | nowMillis
  | sign (req : HttpRequest) (credential : CredentialRef)
  | lease (credential : CredentialRef)
  | read (credential : CredentialRef)

/-- What the host answers. -/
inductive Answer where
  | response (result : Except PluginError HttpResponse)
  | trapped (error : PluginError)
  | value (value : Option (List UInt8))
  | done (result : Except String Unit)
  | logged
  | time (n : Nat)
  | signed (result : Except PluginError HttpRequest)
  | text (result : Except PluginError String)

def err (code message : String) : PluginError := { code, message }

/-! ## Credentials -/

section Credentials
variable (P : Params) (ctx : HostCtx) (w : World) (secrets : Secrets)

/-- The strategies of the scopes are tried in turn. -/
def strategyAllows (provider : ProviderRow) (scopes : List String) : Bool :=
  scopes.any fun scope =>
    match stripPrefix scope "credential_strategy:" with
    | some strategy => provider.credentialPlugin = "plugin:" ++ ctx.pluginId ++ "/" ++ strategy
    | none => false

/-- `credential_scope_allows` of the backing. -/
def credentialScopeAllows (providerId : String) : Except String Bool :=
  if ctx.credentialScopes.any fun scope => scope = "*" ∨ scope = "provider:" ++ providerId then
    .ok true
  else do
    match ← w.getProvider providerId with
    | none => pure false
    | some provider => pure (strategyAllows ctx provider ctx.credentialScopes)

/-- The account of a credential, whose secret can be decrypted. -/
def resolveAccount (providerId accountId : String) : Except String AccountRow := do
  match ← w.getAccount accountId with
  | none => .error "account not found"
  | some account =>
    if account.providerId ≠ providerId then
      .error ("account '" ++ accountId ++ "' does not belong to provider '" ++ providerId ++ "'")
    else do
      w.decrypts account.secretEnc
      pure account

/-- `credential_egress_hosts` of the backing. -/
def credentialEgressHosts (providerId : String) : Except String (List String) := do
  match ← w.getProvider providerId with
  | none => .error ("provider '" ++ providerId ++ "' not found")
  | some provider =>
    pure (Candidates.dedupeSorted
      ((baseHost P.crate provider).toList ++ credentialHosts provider))

/-- What `inject_credential` checks before it has a secret: the account and the egress hosts. -/
def authorize (credential : CredentialRef) : Except String (AccountRow × List String) :=
  match credential with
  | .named _ => .error "named credentials are not resolvable in v1"
  | .account providerId accountId => do
    let inScope ← (credentialScopeAllows ctx w providerId).mapError
      ("credential scope check failed: " ++ ·)
    if !inScope then .error ("plugin is not scoped to provider '" ++ providerId ++ "'")
    else do
      let account ← (resolveAccount w providerId accountId).mapError
        ("credential resolution failed: " ++ ·)
      let hosts ← (credentialEgressHosts P w providerId).mapError
        ("credential host resolution failed: " ++ ·)
      pure (account, hosts)

/-- `inject_credential`: the header and the hosts that it may go to. -/
def injectCredential (credential : CredentialRef) :
    Except String (String × String × List String) :=
  (authorize P ctx w credential).map fun (account, hosts) =>
    ("authorization", "Bearer " ++ secrets account.secretEnc, hosts)

end Credentials

/-! ## Buffered HTTP -/

section Http
variable (P : Params) (ctx : HostCtx) (w : World) (secrets : Secrets)

def unavailable (message : String) : PluginError :=
  { code := "upstream_unavailable", message, retryable := true }

/-- `resolve_plugin_destination`. -/
def resolvePluginDestination (host : String) (port : Nat) :
    Except PluginError (List SocketAddr) := do
  let found ←
    match parseIpAddr host with
    | some ip => pure [⟨ip, port⟩]
    | none =>
      (w.lookupHost host port).mapError fun e =>
        unavailable ("DNS resolution for '" ++ host ++ "' failed: " ++ e)
  let addrs := Outbound.sortDedup found
  if addrs = [] then
    .error (unavailable ("DNS resolution for '" ++ host ++ "' returned no addresses"))
  else
    match if ctx.allowPrivateNetwork then none else addrs.find? (isBlockedIp ·.ip) with
    | some blocked =>
      .error (err "permission_denied" ("host '" ++ host ++
        "' resolves to a blocked private/reserved address (" ++ blocked.ip.text ++ ")"))
    | none => pure addrs

/-- `read_bounded`. -/
def readBounded (limit : Nat) (failure : Option NetError) :
    List UInt8 → List (List UInt8) → Except NetError (List UInt8 × Bool)
  | out, [] =>
    match failure with
    | some e => .error e
    | none => .ok (out, false)
  | out, chunk :: chunks =>
    if limit < out.length + chunk.length then
      .ok (out ++ chunk.take (min (limit - out.length) chunk.length), true)
    else readBounded limit failure (out ++ chunk) chunks

/-- The checks of a request before anything is looked up. -/
def checkRequest (outboundCount : Nat) (req : HttpRequest) : Except PluginError (Url × String) := do
  if !ctx.bufferedHttpAllowed then
    .error (err "permission_denied"
      "buffered host-http is not available to this plugin capability")
  else if ctx.maxOutboundRequests ≤ outboundCount then
    .error (err "permission_denied" "outbound request budget exhausted")
  else
    match P.crate.parse req.url with
    | none => .error (err "invalid_configuration" "invalid URL")
    | some url =>
      if url.scheme ≠ "https" then
        .error (err "permission_denied" "only https outbound requests are permitted")
      else if url.username ≠ "" ∨ url.password.isSome then
        .error (err "permission_denied" "outbound URLs may not contain userinfo")
      else
        match url.host.map toAsciiLowercase with
        | none => .error (err "invalid_configuration" "URL has no host")
        | some host =>
          if !egressAllowed ctx.networkHosts host then
            .error (err "permission_denied"
              ("host '" ++ host ++ "' is not in the plugin's network_hosts"))
          else if ctx.maxHttpBody < req.body.length then
            .error (err "permission_denied" "request body too large")
          else if req.headers.any fun h => eqIgnoreAsciiCase h.1 "host" then
            .error (err "permission_denied" "plugins may not override the Host header")
          else if req.headers.any fun h =>
              ["content-length", "transfer-encoding", "connection"].any
                (eqIgnoreAsciiCase h.1) then
            .error (err "permission_denied" "plugins may not set authority/framing headers")
          else .ok (url, host)

/-- The addresses are resolved and the client is built. -/
def connect (url : Url) (host : String) : Except PluginError Unit := do
  let _ ← resolvePluginDestination ctx w host (url.portOrKnownDefault.getD 443)
  w.buildClient.mapError fun e => unavailable ("building pinned HTTP client failed: " ++ e)

/-- The header of the credential of a request, if it has one. -/
def credentialHeader (credential : Option CredentialRef) (host : String) :
    Except PluginError (List (String × String)) :=
  match credential with
  | none => .ok []
  | some credential =>
    match injectCredential P ctx w secrets credential with
    | .error e => .error (err "permission_denied" e)
    | .ok (name, value, hosts) =>
      if !hosts.any (eqIgnoreAsciiCase · host) then
        .error (err "permission_denied"
          ("provider credential may not be sent to host '" ++ host ++ "'"))
      else .ok [(name, value)]

/-- The request that a builder makes. -/
def buildRequest (req : HttpRequest) (url : Url) (host : String) : Except PluginError Outgoing := do
  let method := String.ofList (req.method.toList.map Char.toUpper)
  if method ∉ ["GET", "POST", "PUT", "DELETE", "PATCH"] then
    .error (err "invalid_configuration" "unsupported method")
  else do
    let injected ← credentialHeader P ctx w secrets req.credential host
    pure { host, url, method, headers := req.headers ++ injected, body := req.body }

/-- What comes back to the guest of an exchange. -/
def receive : Except NetError Reply → Answer
  | .error e =>
    .response (.error (unavailable ("outbound request failed: " ++ classifyReqwest e)))
  | .ok reply =>
    match readBounded ctx.maxHttpBody reply.failure [] reply.chunks with
    | .error e =>
      .trapped (unavailable ("reading outbound response failed: " ++ classifyReqwest e))
    | .ok (body, bodyTruncated) =>
      .response (.ok {
        status := reply.status
        headers := reply.headers.map fun h => (h.1, h.2.getD "")
        body
        bodyTruncated
      })

/-- `host_http::send`. A header that is not legal makes the builder fail, and nothing is sent. -/
def send (s : HostState) (req : HttpRequest) : Answer × HostState :=
  match checkRequest P ctx s.outboundCount req with
  | .error e => (.response (.error e), s)
  | .ok (url, host) =>
    let s := { s with outboundCount := s.outboundCount + 1 }
    match connect ctx w url host with
    | .error e => (.response (.error e), s)
    | .ok _ =>
      match buildRequest P ctx w secrets req url host with
      | .error e => (.response (.error e), s)
      | .ok out =>
        if out.headers.all fun h => P.legalHeader h.1 h.2 then
          (receive ctx w.exchange, { s with sent := s.sent ++ [(w, out)] })
        else (receive ctx (.error .other), s)

end Http

/-! ## The other calls -/

section Calls
variable (P : Params) (ctx : HostCtx) (w : World) (secrets : Secrets)

def hostOwned (key : String) : Bool := startsWith key "_config:" || startsWith key "_cache:"

/-- The answer to a write, of which the error is a text. -/
def written (result : Except KvError Unit) (what : String) : Answer :=
  .done (result.mapError fun e => "storage " ++ what ++ " failed: " ++ e.message)

/-- `cache_set`. -/
def cacheSet (s : HostState) (name valueJson : String) (maxAgeMs : Nat) : Answer × HostState :=
  let fail (message : String) : Answer × HostState := (.done (.error message), s)
  let others := s.pendingCache.filter (·.1 ≠ name)
  if ctx.capability ≠ "routing_facts.refresh" then
    fail "cache publication is only available during cached routing-fact refresh"
  else if name = "" ∨ 128 < name.utf8ByteSize ∨
      ¬ name.toList.all fun c => c.isAlphanum || c = '.' || c = '-' || c = '_' then
    fail "invalid cached routing fact name"
  else if !P.isJson valueJson then fail "cache value is not valid JSON"
  else if maxAgeMs = 0 ∨ 24 * 3600 * 1000 < maxAgeMs then fail "max_age_ms out of range"
  else if others.length = s.pendingCache.length ∧ 256 ≤ s.pendingCache.length then
    fail "cached routing fact count exceeds 256"
  else if ctx.storageQuota.toNat <
      (others.map fun entry => entry.2.1.utf8ByteSize).sum + valueJson.utf8ByteSize then
    fail "cached routing facts exceed storage quota"
  else (.done (.ok ()), { s with pendingCache := others ++ [(name, valueJson, maxAgeMs)] })

/-- `host_credential::sign`. -/
def sign (req : HttpRequest) (credential : CredentialRef) : Except PluginError HttpRequest :=
  if !ctx.credentialSign then
    .error (err "permission_denied" "plugin has no credential signing grant")
  else
    match injectCredential P ctx w secrets credential with
    | .error e => .error (err "permission_denied" e)
    | .ok (name, value, hosts) =>
      let target := ((P.crate.parse req.url).bind (·.host)).map toAsciiLowercase
      if !target.any fun h => hosts.any (eqIgnoreAsciiCase · h) then
        .error (err "permission_denied" "provider credential may not be signed for this host")
      else .ok { req with headers := req.headers ++ [(name, value)] }

/-- `host_credential::lease`. -/
def lease (credential : CredentialRef) : Except PluginError String :=
  if !ctx.credentialSign && !ctx.credentialRead then
    .error (err "permission_denied" "plugin has no credential lease grant")
  else
    match credential with
    | .named _ => .error (err "invalid_configuration" "named credential")
    | .account providerId accountId =>
      if !(credentialScopeAllows ctx w providerId).toOption.getD false then
        .error (err "permission_denied"
          ("plugin is not scoped to provider '" ++ providerId ++ "'"))
      else .ok ("lease_" ++
        P.sha256.hex (ctx.pluginId ++ ":" ++ providerId ++ ":" ++ accountId))

/-- `host_credential::read`. -/
def read (credential : CredentialRef) : Except PluginError String :=
  if !ctx.credentialRead then
    .error (err "permission_denied" "plugin has no credential_read grant")
  else
    match injectCredential P ctx w secrets credential with
    | .error e => .error (err "permission_denied" e)
    | .ok (_, value, _) => .ok ((stripPrefix value "Bearer ").getD value)

/-- One call of the guest. -/
def step (s : HostState) : Call → Answer × HostState
  | .send req => send P ctx w secrets s req
  | .get key =>
    let found := if w.tx.selects then (kvGet P.sealing s.storage key).toOption.join else none
    (.value found, s)
  | .put key value =>
    if hostOwned key then (.done (.error "host-owned storage namespace is read-only"), s)
    else
      let result := kvPutLimited P.sealing ctx.storageQuota s.storage key value w.tx
      (written result.1 "write", { s with storage := result.2 })
  | .delete key =>
    if hostOwned key then (.done (.error "host-owned storage namespace is read-only"), s)
    else
      let result := kvDelete s.storage key w.tx
      (written result.1 "delete", { s with storage := result.2 })
  | .cacheSet name valueJson maxAgeMs => cacheSet P ctx s name valueJson maxAgeMs
  | .log _ => (.logged, s)
  | .nowSeconds => (.time (w.nowMillis / 1000), s)
  | .nowMillis => (.time w.nowMillis, s)
  | .sign req credential => (.signed (sign P ctx w secrets req credential), s)
  | .lease credential => (.text (lease P ctx w credential), s)
  | .read credential => (.text (read P ctx w secrets credential), s)

end Calls

end Kinetix.Plugins.HostCalls
