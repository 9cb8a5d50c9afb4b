import Kinetix.Foundation.SocketAddr
import Kinetix.Foundation.Types
import Kinetix.Library.KeyedTable
import Mathlib.Data.List.Destutter

/-!
# Destinations and pinned clients

The address policy of `net.rs` and `resolve_destination` of `outbound.rs`: a URL is resolved, and
all addresses of the answer have to be allowed.

`pinned_client` of `outbound.rs`: clients are shared by destinations with one key. The key tells the
host, the port, the mode of TLS and all addresses, so a client that comes out of the cache connects
to the addresses that were just validated.

## Implementation notes

The `url` crate is a parameter. A URL has the parts that are read, and its path, query and fragment
together. A DNS answer is a list of addresses, or the text of an error.

What is kept of a client is what `pinned_client` sets differently from one client to the other. A
client that cannot be built is the choice of the environment.
-/

namespace Kinetix.Outbound
open Net Kinetix.Types

/-- `OutboundError`. -/
structure OutboundError where
  message : String
  timeout : Bool := false
  adapterFailure : Option UpstreamFailure := none
  deriving DecidableEq

def OutboundError.denied (message : String) : OutboundError := { message := message }

/-- What is read of a URL. -/
structure Url where
  scheme : String
  username : String := ""
  password : Option String := none
  host : Option String
  /-- A port that is not the one of the scheme. -/
  port : Option Nat := none
  path : String := "/"
  deriving DecidableEq

/-- The functions of the `url` crate. -/
structure UrlCrate where
  parse : String → Option Url
  join : Url → String → Except String Url
  text : Url → String

def Url.portOrKnownDefault (url : Url) : Option Nat :=
  url.port.or <|
    if url.scheme = "http" ∨ url.scheme = "ws" then some 80
    else if url.scheme = "https" ∨ url.scheme = "wss" then some 443
    else if url.scheme = "ftp" then some 21
    else none

/-! ## The address policy -/

/-- `is_blocked_ip`, for version 4. -/
def isBlockedIpv4 (bits : BitVec 32) : Bool :=
  let a := bits.toNat / 2 ^ 24
  let b := bits.toNat / 2 ^ 16 % 256
  let sharedAddressSpace := a = 100 ∧ 64 ≤ b ∧ b ≤ 127
  let benchmarking := a = 198 ∧ (b = 18 ∨ b = 19)
  let loopback := a = 127
  let isPrivate := a = 10 ∨ (a = 172 ∧ 16 ≤ b ∧ b ≤ 31) ∨ (a = 192 ∧ b = 168)
  let linkLocal := a = 169 ∧ b = 254
  let unspecified := bits = 0
  let broadcast := bits = BitVec.allOnes 32
  let multicast := 224 ≤ a ∧ a ≤ 239
  loopback ∨ isPrivate ∨ linkLocal ∨ unspecified ∨ broadcast ∨ multicast ∨ a = 0 ∨
    sharedAddressSpace ∨ benchmarking

/-- `is_blocked_ip`. -/
def isBlockedIp : IpAddr → Bool
  | .v4 bits => isBlockedIpv4 bits
  | .v6 bits =>
    -- an address of the first family in one of the second is taken out of it
    if bits.toNat / 2 ^ 32 = 0xffff then isBlockedIpv4 (bits.setWidth 32)
    else
      let first := bits.toNat / 2 ^ 112
      let uniqueLocal := first &&& 0xfe00 = 0xfc00
      let linkLocal := first &&& 0xffc0 = 0xfe80
      bits = 1 ∨ bits = 0 ∨ first / 256 = 255 ∨ uniqueLocal ∨ linkLocal

/-- `is_blocked_host`. -/
def isBlockedHost (host : String) : Bool :=
  let lower := Text.toAsciiLowercase (Text.trim host)
  if lower = "" then true
  else if lower = "localhost" || Text.endsWith lower ".localhost" || Text.endsWith lower ".internal"
  then true
  else if lower = "metadata.google.internal" then true
  else
    match parseIpAddr lower with
    | some ip => isBlockedIp ip
    | none => false

example : ["127.0.0.1", "10.0.0.1", "172.16.0.1", "169.254.1.1", "::1", "fd00::1", "fe80::1",
    "::ffff:10.0.0.1"].all (fun s => (parseIpAddr s).any isBlockedIp) := by
  decide +kernel

example : ["8.8.8.8", "2606:4700:4700::1111", "::ffff:8.8.8.8"].all
    (fun s => (parseIpAddr s).any fun ip => !isBlockedIp ip) := by
  decide +kernel

/-! ## Resolution -/

/-- A destination with the addresses that its host was resolved to. -/
structure ResolvedDestination where
  host : String
  port : Nat
  addrs : List SocketAddr
  nonempty : addrs ≠ []
  deriving DecidableEq

/-- `sort_unstable` and `dedup`. -/
def sortDedup (addrs : List SocketAddr) : List SocketAddr :=
  (addrs.mergeSort SocketAddr.le).destutter (· ≠ ·)

/-- `validate_destination_addrs`. -/
def validateDestinationAddrs (host : String) (addrs : List SocketAddr) (allowPrivate : Bool) :
    Except OutboundError { addrs : List SocketAddr // addrs ≠ [] } :=
  if h : addrs = [] then
    .error (.denied s!"DNS resolution for '{host}' returned no addresses")
  else
    match if allowPrivate then none else addrs.find? (isBlockedIp ·.ip) with
    | some blocked =>
      .error (.denied (s!"host '{host}' resolves to a blocked private/reserved address " ++
        s!"({blocked.ip.text})"))
    | none => .ok ⟨addrs, h⟩

/-- The addresses of a literal, or the answer for a name. -/
def hostAddrs (lookup : String → Nat → Except String (List SocketAddr)) (host : String)
    (port : Nat) : Except OutboundError (List SocketAddr) :=
  match parseIpAddr host with
  | some ip => .ok [⟨ip, port⟩]
  | none =>
    match lookup host port with
    | .ok addrs => .ok addrs
    | .error e => .error (.denied s!"DNS resolution for '{host}' failed: {e}")

/-- `resolve_destination`. -/
def resolveDestination (U : UrlCrate) (lookup : String → Nat → Except String (List SocketAddr))
    (url : Url) (allowPrivate allowInsecureTls : Bool) : Except OutboundError ResolvedDestination :=
  if url.username ≠ "" ∨ url.password.isSome then
    .error (.denied "upstream URLs may not contain userinfo")
  else if url.scheme ≠ "https" ∧ !allowInsecureTls then
    .error (.denied s!"plain-HTTP upstream '{U.text url}' refused: TLS is mandatory")
  else if url.scheme ≠ "http" ∧ url.scheme ≠ "https" then
    .error (.denied s!"unsupported upstream URL scheme '{url.scheme}'")
  else
    match url.host with
    | none => .error (.denied "upstream URL has no host")
    | some host =>
      let host := Text.toAsciiLowercase host
      if !allowPrivate && isBlockedHost host then
        .error (.denied s!"upstream host '{host}' is blocked by SSRF policy")
      else
        match url.portOrKnownDefault with
        | none => .error (.denied "upstream URL has no usable port")
        | some port =>
          match hostAddrs lookup host port with
          | .error e => .error e
          | .ok addrs =>
            match validateDestinationAddrs host (sortDedup addrs) allowPrivate with
            | .error e => .error e
            | .ok addrs => .ok ⟨host, port, addrs.val, addrs.property⟩

/-- What a destination is for a URL: its host in lower case, and allowed addresses of which each is
the literal or in the answer for the name. -/
structure ResolvedFor (lookup : String → Nat → Except String (List SocketAddr))
    (allowPrivate : Bool) (url : Url) (d : ResolvedDestination) : Prop where
  host : url.host.map Text.toAsciiLowercase = some d.host
  port : url.portOrKnownDefault = some d.port
  allowed : ∀ a ∈ d.addrs, allowPrivate = true ∨ isBlockedIp a.ip = false
  literal : ∀ ip, parseIpAddr d.host = some ip → ∀ a ∈ d.addrs, a = ⟨ip, d.port⟩
  answered : parseIpAddr d.host = none →
    ∃ answer, lookup d.host d.port = .ok answer ∧ ∀ a ∈ d.addrs, a ∈ answer

theorem mem_of_mem_sortDedup {addrs : List SocketAddr} {a : SocketAddr} (h : a ∈ sortDedup addrs) :
    a ∈ addrs :=
  List.mem_mergeSort.mp ((List.destutter_sublist _ _).subset h)

theorem validateDestinationAddrs_ok {host : String} {addrs : List SocketAddr} {allowPrivate : Bool}
    {valid : { addrs : List SocketAddr // addrs ≠ [] }}
    (h : validateDestinationAddrs host addrs allowPrivate = .ok valid) :
    valid.val = addrs ∧ ∀ a ∈ addrs, allowPrivate = true ∨ isBlockedIp a.ip = false := by
  unfold validateDestinationAddrs at h
  split_ifs at h with hnil hprivate
  · cases h
    exact ⟨rfl, fun a _ => .inl hprivate⟩
  · split at h
    · cases h
    next hfind =>
      cases h
      refine ⟨rfl, fun a ha => .inr ?_⟩
      simpa using List.find?_eq_none.mp hfind a ha

theorem resolvedFor_of_resolveDestination {U : UrlCrate}
    {lookup : String → Nat → Except String (List SocketAddr)} {url : Url}
    {allowPrivate allowInsecureTls : Bool} {d : ResolvedDestination}
    (h : resolveDestination U lookup url allowPrivate allowInsecureTls = .ok d) :
    ResolvedFor lookup allowPrivate url d := by
  unfold resolveDestination at h
  split_ifs at h
  split at h
  · cases h
  next host hhost =>
    dsimp only at h
    split_ifs at h
    split at h
    · cases h
    next port hport =>
      split at h
      · cases h
      next addrs haddrs =>
        split at h
        · cases h
        next valid hvalid =>
          cases h
          obtain ⟨hval, hallowed⟩ := validateDestinationAddrs_ok hvalid
          have hmem : ∀ a ∈ valid.val, a ∈ addrs := fun a ha => mem_of_mem_sortDedup (hval ▸ ha)
          unfold hostAddrs at haddrs
          refine ⟨by simp [hhost], hport, fun a ha => hallowed a (hval ▸ ha), ?_, ?_⟩
          · intro ip hip a ha
            rw [hip] at haddrs
            cases haddrs
            exact List.mem_singleton.mp (hmem a ha)
          · intro hip
            rw [hip] at haddrs
            dsimp only at haddrs
            split at haddrs
            · next answer hlookup =>
              cases haddrs
              exact ⟨addrs, hlookup, hmem⟩
            · cases haddrs

open KeyedTable

/-- `MAX_PINNED_CLIENTS`. -/
def maxPinnedClients : Nat := 256

/-- A client that resolves its host to its addresses. -/
structure Client where
  host : String
  addrs : List SocketAddr
  insecureTls : Bool
  deriving DecidableEq

/-- The texts of the addresses of a key. -/
def ResolvedDestination.ips (d : ResolvedDestination) : List String :=
  (d.addrs.map SocketAddr.text).mergeSort fun s t => s ≤ t

def ResolvedDestination.cacheKey (d : ResolvedDestination) (insecureTls : Bool) : String :=
  d.host ++ ":" ++ toString d.port ++ "|" ++ toString insecureTls ++ "|" ++ ",".intercalate d.ips

/-- An entry of the cache. -/
structure PinnedClient where
  key : String
  client : Client

abbrev ClientCache : Type := Table PinnedClient.key

/-- `pinned_client`, with the text of the error if a client cannot be built. -/
def pinnedClient (cache : ClientCache) (destination : ResolvedDestination) (insecureTls : Bool)
    (failure : Option String) : ClientCache × Except OutboundError Client :=
  let key := destination.cacheKey insecureTls
  match cache.find key with
  | some entry => (cache, .ok entry.client)
  | none =>
    match failure with
    | some e => (cache, .error { message := s!"building pinned upstream client failed: {e}" })
    | none =>
      let client := ⟨destination.host, destination.addrs, insecureTls⟩
      let cache :=
        if maxPinnedClients ≤ cache.rows.length then Table.empty PinnedClient.key else cache
      (cache.upsert ⟨key, client⟩, .ok client)

/-- A call of `pinned_client`. -/
structure Pinning where
  destination : ResolvedDestination
  insecureTls : Bool
  failure : Option String

/-- A client is kept for its key. -/
def pin (cache : ClientCache) (p : Pinning) : ClientCache :=
  (pinnedClient cache p.destination p.insecureTls p.failure).1

/-- The states that calls of `pinned_client` lead to, whatever their destinations. -/
def Pinned (cache : ClientCache) : Prop :=
  ∃ pinnings : List Pinning, cache = pinnings.foldl pin (Table.empty PinnedClient.key)

/-! ## The key -/

variable {cache : ClientCache} (d : ResolvedDestination)

theorem toList_cacheKey (insecureTls : Bool) :
    (d.cacheKey insecureTls).toList.reverse = (",".intercalate d.ips).toList.reverse ++
      '|' :: ((toString insecureTls).toList.reverse ++
        '|' :: ((toString d.port).toList.reverse ++ ':' :: d.host.toList.reverse)) := by
  have hbar : "|".toList = ['|'] := rfl
  have hcolon : ":".toList = [':'] := rfl
  simp [ResolvedDestination.cacheKey, hbar, hcolon]

theorem ips_ne_nil : d.ips ≠ [] := by
  intro h
  have hlength := congrArg List.length h
  rw [ResolvedDestination.ips, List.length_mergeSort, List.length_map, List.length_nil] at hlength
  exact d.nonempty (List.length_eq_zero_iff.mp hlength)

/-- An address is written without the separators of a key. -/
theorem separators_notMem_ips : ∀ s ∈ d.ips, ',' ∉ s.toList ∧ '|' ∉ s.toList := by
  intro s hs
  rw [ResolvedDestination.ips, List.mem_mergeSort] at hs
  obtain ⟨a, -, rfl⟩ := List.mem_map.mp hs
  exact ⟨notMem_socketText (by simp) (by decide) (by decide) a,
    notMem_socketText (by simp) (by decide) (by decide) a⟩

/-- A key tells its destination, up to the order of the addresses. -/
theorem cacheKey_inj {d d' : ResolvedDestination} {insecureTls insecureTls' : Bool}
    (h : d.cacheKey insecureTls = d'.cacheKey insecureTls') :
    d.host = d'.host ∧ insecureTls = insecureTls' ∧ d.addrs.Perm d'.addrs := by
  have hips : ∀ d : ResolvedDestination, '|' ∉ (",".intercalate d.ips).toList.reverse := by
    intro d hmem
    rw [List.mem_reverse] at hmem
    obtain hc | ⟨s, hs, hc⟩ := Text.mem_intercalate (c := ',') hmem
    · exact absurd hc (by decide)
    · exact (separators_notMem_ips d s hs).2 hc
  have hbool : ∀ b : Bool, '|' ∉ (toString b).toList.reverse := by decide
  have hport : ∀ n : Nat, ':' ∉ (toString n).toList.reverse := by
    intro n hmem
    exact absurd (mem_toString (List.mem_reverse.mp hmem)) (by decide)
  have hlist := congrArg (fun s : String => s.toList.reverse) h
  rw [toList_cacheKey, toList_cacheKey] at hlist
  -- The key is read from its end, as a host may contain any character.
  obtain ⟨hjoined, hlist⟩ := Text.append_cons_inj (hips d) (hips d') hlist
  obtain ⟨htls, hlist⟩ := Text.append_cons_inj (hbool insecureTls) (hbool insecureTls') hlist
  obtain ⟨-, hhost⟩ := Text.append_cons_inj (hport d.port) (hport d'.port) hlist
  refine ⟨String.toList_inj.mp (List.reverse_injective hhost), ?_, ?_⟩
  · have htext := String.toList_inj.mp (List.reverse_injective htls)
    revert htext
    cases insecureTls <;> cases insecureTls' <;> decide
  · have htexts := Text.intercalate_inj (c := ',') (fun s hs => (separators_notMem_ips d s hs).1)
      (fun s hs => (separators_notMem_ips d' s hs).1) (ips_ne_nil d) (ips_ne_nil d')
      (String.toList_inj.mp (List.reverse_injective hjoined))
    have hsorted : ∀ d : ResolvedDestination, d.ips.Perm (d.addrs.map SocketAddr.text) := fun _ =>
      List.mergeSort_perm _ _
    have hperm : (d.addrs.map SocketAddr.text).Perm (d'.addrs.map SocketAddr.text) :=
      (hsorted d).symm.trans (htexts ▸ hsorted d')
    exact (List.map_perm_map_iff fun _ _ => SocketAddr.text_inj).mp hperm

/-! ## The cache -/

/-- Every client is filed under the key of a destination to which it is pinned. -/
def Filed (cache : ClientCache) : Prop :=
  ∀ entry ∈ cache.rows, ∃ (d : ResolvedDestination) (insecureTls : Bool),
    entry.key = d.cacheKey insecureTls ∧ entry.client = ⟨d.host, d.addrs, insecureTls⟩

theorem pin_filed (h : Filed cache) (p : Pinning) : Filed (pin cache p) := by
  unfold pin pinnedClient
  dsimp only
  split
  · exact h
  · split
    · exact h
    · intro entry hentry
      obtain rfl | ⟨hmem, -⟩ := Table.mem_upsert.mp hentry
      · exact ⟨p.destination, p.insecureTls, rfl, rfl⟩
      · split_ifs at hmem
        · cases hmem
        · exact h entry hmem

theorem Pinned.pin (h : Pinned cache) (p : Pinning) : Pinned (Outbound.pin cache p) := by
  obtain ⟨pinnings, rfl⟩ := h
  exact ⟨pinnings ++ [p], by rw [List.foldl_append, List.foldl_cons, List.foldl_nil]⟩

theorem Pinned.pinAll (h : Pinned cache) (pinnings : List Pinning) :
    Pinned (pinnings.foldl Outbound.pin cache) := by
  induction pinnings generalizing cache with
  | nil => exact h
  | cons p pinnings ih => exact ih (h.pin p)

theorem Pinned.filed (h : Pinned cache) : Filed cache := by
  obtain ⟨pinnings, rfl⟩ := h
  induction pinnings using List.reverseRecOn with
  | nil =>
    intro entry hentry
    cases hentry
  | append_singleton pinnings p ih =>
    rw [List.foldl_append]
    exact pin_filed ih p

/-- Whatever is in the cache, a client that is handed out is pinned to the destination it is for. -/
theorem pinnedClient_ok (h : Pinned cache) {d : ResolvedDestination} {insecureTls : Bool}
    {failure : Option String} {client : Client}
    (hclient : (pinnedClient cache d insecureTls failure).2 = .ok client) :
    client.host = d.host ∧ client.insecureTls = insecureTls ∧ client.addrs.Perm d.addrs := by
  unfold pinnedClient at hclient
  dsimp only at hclient
  split at hclient
  next entry hfind =>
    cases hclient
    obtain ⟨hmem, hkey⟩ := Table.find_eq_some.mp hfind
    obtain ⟨d', insecureTls', hfiled, hpinned⟩ := h.filed entry hmem
    obtain ⟨hhost, htls, haddrs⟩ := cacheKey_inj (hfiled.symm.trans hkey)
    rw [hpinned]
    exact ⟨hhost, htls, haddrs⟩
  · split at hclient
    · cases hclient
    · cases hclient
      exact ⟨rfl, rfl, .refl _⟩

end Kinetix.Outbound
