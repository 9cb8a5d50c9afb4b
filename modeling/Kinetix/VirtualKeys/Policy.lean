import Kinetix.Account.Row
import Kinetix.Foundation.IpAddr
import Kinetix.Foundation.Types
import Kinetix.Library.Fallible
import Kinetix.VirtualKeys.Row

/-!
# The policy of a virtual key

`validate` and `enforce_ip` of `limits.rs`, and the three ways from a request to an upstream: an
inference request, a count of its tokens, and the tester of the admin interface. A restriction that
is stored in a form nobody can interpret should refuse every request. The lists do; a status that is
none of the three known ones and an expiry that is no RFC 3339 time do not, and the tester never
looks at the allowlist of addresses.

## Implementation notes

What else decides about a request (its limits, the registry, capabilities) is a parameter. The order
of the targets of an inference request is left out: its attempt loop goes to none but these.
-/

namespace Kinetix.VirtualKeys
open Account (Rfc3339)
open Checks Net Text Kinetix.Types

/-! ## Client address -/

/-- `client_ip`. A header's text is missing if it has other than visible ASCII characters. -/
def clientIp (header : String → Option String) : Option IpAddr :=
  let parse (text : String) := parseIpAddr (trim text)
  (((header "cf-connecting-ip").bind parse).or
    ((header "x-forwarded-for").bind fun text =>
      parse (String.ofList (text.toList.takeWhile (· ≠ ','))))).or
    ((header "x-real-ip").bind parse)

/-- `ip_matches`. -/
def ipMatches (ip : IpAddr) (entry : String) : Bool :=
  match splitOnce '/' entry with
  | some (net, length) =>
    match parseIpAddr (trim net), parseU8 (trim length) with
    | some net, some length => cidrContains net length ip
    | some _, none => false
    | none, _ => false
  | none =>
    match parseIpAddr entry with
    | some e => e == ip
    | none => false

/-- `ip_allowed`: an entry that does not parse allows nothing. -/
def ipAllowed (ip : IpAddr) (allow : List String) : Bool :=
  allow.any fun entry => ipMatches ip (trim entry)

/-- The addresses that an entry of an allowlist stands for. -/
def entryNetwork (entry : String) : Option Network :=
  match splitOnce '/' (trim entry) with
  | some (net, length) => do
    let net ← parseIpAddr (trim net)
    let length ← parseU8 (trim length)
    Network.ofPrefix net length
  | none => (parseIpAddr (trim entry)).map Network.single

theorem ipMatches_iff {ip : IpAddr} {entry : String} :
    ipMatches ip (trim entry) = true ↔ ∃ n, entryNetwork entry = some n ∧ n.Contains ip := by
  rw [ipMatches, entryNetwork]
  cases splitOnce '/' (trim entry) with
  | some parts =>
    obtain ⟨net, length⟩ := parts
    cases hnet : parseIpAddr (trim net) with
    | none => simp [hnet]
    | some net =>
      cases hlength : parseU8 (trim length) with
      | none => simp [hnet, hlength]
      | some length => simp [hnet, hlength, cidrContains_iff]
  | none =>
    cases parseIpAddr (trim entry) with
    | none => simp
    | some a => simp [Network.single_contains]

theorem ipAllowed_iff {ip : IpAddr} {allow : List String} :
    ipAllowed ip allow = true ↔
      ∃ entry ∈ allow, ∃ n, entryNetwork entry = some n ∧ n.Contains ip := by
  simp only [ipAllowed, List.any_eq_true, ipMatches_iff]

/-! ## Checks -/

section
variable (J : SerdeStrings) (R : Rfc3339)

/-- `enforce_ip`. -/
def enforceIp (k : VirtualKeyRow) (ip : Option IpAddr) : Except ProxyError Unit :=
  let allow := k.ips J
  if allow = [] then .ok ()
  else match ip with
    | some ip =>
      if ipAllowed ip allow then .ok ()
      else .error ⟨.forbidden, s!"this virtual key is not permitted from {ip.text}", none⟩
    | none =>
      .error ⟨.forbidden, "this virtual key requires an IP allowlist match but no client " ++
        "IP could be determined", none⟩

/-- The expiry check of `validate`. -/
def checkExpiry (k : VirtualKeyRow) (now : Int) : Except ProxyError Unit :=
  match k.expiresAt.bind R.parseDt with
  | some exp =>
    refuseIf (exp ≤ now) (.unauthorized s!"this virtual key expired on {R.toRfc3339 exp}")
  | none => .ok ()

/-- `validate`, at the time that it reads. -/
def validate (k : VirtualKeyRow) (requestedModel : String) (now : Int) :
    Except ProxyError Unit := do
  refuseIf (k.status = "revoked") (.unauthorized "this virtual key has been revoked")
  refuseIf (k.status = "disabled") ⟨.forbidden, "this virtual key is disabled", none⟩
  checkExpiry R k now
  refuseIf (!k.permitsModel J requestedModel)
    ⟨.forbidden, s!"this key is not allowed to use model '{requestedModel}'", none⟩

end

/-! ## From a request to its targets -/

structure ProviderRow where
  id : String
  strict : Bool
  deriving DecidableEq

structure ModelRow where
  id : String
  contextWindow : Option Int
  deriving DecidableEq

structure AccountRow where
  priority : Int
  healthy : Bool
  deriving DecidableEq

/-- What the policy reads of a candidate. -/
structure ResolvedTarget where
  account : AccountRow
  model : ModelRow
  provider : ProviderRow
  deriving DecidableEq

/-- What a requested model stands for: a model with its provider's accounts, or a route. -/
inductive Resolved where
  | single (provider : ProviderRow) (model : ModelRow)
    (accounts : Except ProxyError (List AccountRow))
  | route (targets : List ResolvedTarget)

structure Request where
  header : String → Option String
  requestedModel : String
  approxInputTokens : Nat

/-- What decides about a request besides the policy of its key. -/
structure Surroundings where
  /-- `controller.reserve`, or `controller.check_current` for a count. -/
  admission : Except ProxyError Unit
  resolve : Except ProxyError Resolved
  /-- `profile_satisfies_needs` of the execution profile, if there is one. -/
  satisfiesNeeds : ProviderRow → ModelRow → Except ProxyError Bool
  /-- The predicate of a target of a route. -/
  eligible : ResolvedTarget → Bool

/-- `allowed_providers.is_empty() || allowed_providers.contains(id)`. -/
def permitsProvider (allowed : List String) (id : String) : Bool :=
  allowed == [] || allowed.contains id

/-- The estimate fits into the context window. -/
def fitsContextWindow (approxInputTokens : Nat) (t : ResolvedTarget) : Bool :=
  match t.model.contextWindow with
  | some ctx => !(0 < ctx && ctx.toNat < approxInputTokens)
  | none => true

section
variable (J : SerdeStrings) (R : Rfc3339) (w : Surroundings) (k : VirtualKeyRow) (req : Request)

/-- The attempt list of `pipeline::run`. -/
def candidates : Resolved → Except ProxyError (List ResolvedTarget)
  | .single provider model accounts => accounts.map fun rows => rows.map (⟨·, model, provider⟩)
  | .route targets => .ok (targets.filter w.eligible)

/-- `pipeline::run`, up to the targets of the attempt loop. -/
def run (now : Int) : Except ProxyError (List ResolvedTarget) := do
  validate J R k req.requestedModel now
  w.admission
  let candidates ← candidates w (← w.resolve)
  let targets := candidates.filter fun t =>
    permitsProvider (k.providers J) t.provider.id && fitsContextWindow req.approxInputTokens t
  refuseIf (targets.isEmpty) (.unsupported ("no configured target can satisfy this request " ++
    "(predicates, capabilities, or limits mismatch)"))
  return targets

/-- `token_count_exact_target`. -/
def tokenCountExactTarget : Except ProxyError (Option ResolvedTarget) := do
  match ← w.resolve with
  | .single provider model accounts =>
    refuseIf (!permitsProvider (k.providers J) provider.id)
      ⟨.forbidden, "this key is not allowed to use the resolved provider", none⟩
    let satisfied ← w.satisfiesNeeds provider model
    refuseIf (provider.strict && !satisfied)
      (.unsupported "resolved model cannot satisfy this token-count request")
    return ((← accounts).find? (·.healthy)).map (⟨·, model, provider⟩)
  | .route targets =>
    let capabilitiesMatch := fun (t : ResolvedTarget) =>
      !t.provider.strict || (w.satisfiesNeeds t.provider t.model).toOption.getD false
    let targets := targets.filter fun t =>
      permitsProvider (k.providers J) t.provider.id && capabilitiesMatch t
    let first ← okOr targets.head?
      (.unsupported "no configured target can satisfy this token-count request")
    -- targets with different tokenizers are not asked
    if targets.any fun t => t.provider.id ≠ first.provider.id ∨ t.model.id ≠ first.model.id then
      return none
    return (targets.mergeSort fun t u => t.account.priority ≤ u.account.priority).find?
      (·.account.healthy)

/-- The handlers that lead to an upstream. -/
inductive Path where
  /-- `handle` of `api.rs`. -/
  | inference
  /-- `count_message_tokens` of `api.rs`. -/
  | countTokens
  /-- `test_stream` of `admin.rs`. -/
  | testStream
  deriving DecidableEq

/-- The targets that a request may be dispatched to. The key is checked at the one time and, by an
inference request, again at the other. -/
def dispatchTargets (path : Path) (now later : Int) : Except ProxyError (List ResolvedTarget) := do
  match path with
  | .inference =>
    enforceIp J k (clientIp req.header)
    validate J R k req.requestedModel now
    run J R w k req later
  | .countTokens =>
    enforceIp J k (clientIp req.header)
    validate J R k req.requestedModel now
    w.admission
    return (← tokenCountExactTarget J w k).toList
  | .testStream =>
    validate J R k req.requestedModel now
    run J R w k req later

end

/-- The times at which a handler checks the key. -/
def Path.checkedAt (now later : Int) : Path → List Int
  | .inference => [now, later]
  | .countTokens => [now]
  | .testStream => [now, later]

/-! ## Restrictions -/

section
variable (J : SerdeStrings) (R : Rfc3339) (k : VirtualKeyRow)

/-- The key has not expired at any of the times: it has no expiry, or one that is still to come. -/
def Unexpired (times : List Int) : Prop :=
  ∀ text, k.expiresAt = some text → ∃ exp, R.parseDt text = some exp ∧ ∀ t ∈ times, t < exp

/-- The key may be used from anywhere, or the address lies in a listed network. -/
def FromAllowedIp (ip : Option IpAddr) : Prop :=
  ∃ allow, J.fromStr k.allowedIps = some allow ∧
    (allow ≠ [] → ∃ a, ip = some a ∧
      ∃ entry ∈ allow, ∃ n, entryNetwork entry = some n ∧ n.Contains a)

def ForAllowedModel (model : String) : Prop :=
  ∃ allow, J.fromStr k.allowedModels = some allow ∧
    ∃ pattern ∈ allow, PatternAdmits pattern model

def ToAllowedProvider (provider : String) : Prop :=
  ∃ allow, J.fromStr k.allowedProviders = some allow ∧ (allow ≠ [] → provider ∈ allow)

/-- All that a stored row asks of a request that goes to a provider. -/
structure Restrictions (path : Path) (req : Request) (now later : Int) (provider : String) :
    Prop where
  active : k.status = "active"
  unexpired : Unexpired R k (path.checkedAt now later)
  ip : FromAllowedIp J k (clientIp req.header)
  model : ForAllowedModel J k req.requestedModel
  provider : ToAllowedProvider J k provider

/-- The status is a known one, and the expiry is a time. -/
structure Interpreted : Prop where
  status : k.status = "active" ∨ k.status = "disabled" ∨ k.status = "revoked"
  expiry : ∀ text, k.expiresAt = some text → (R.parseDt text).isSome

/-- What the checks of a request look for; only the tester leaves the address out. -/
structure Passes (path : Path) (req : Request) (now later : Int) (provider : String) : Prop where
  notRevoked : k.status ≠ "revoked"
  notDisabled : k.status ≠ "disabled"
  unexpired : ∀ text exp, k.expiresAt = some text → R.parseDt text = some exp →
    ∀ t ∈ path.checkedAt now later, t < exp
  ip : path ≠ .testStream → FromAllowedIp J k (clientIp req.header)
  model : ForAllowedModel J k req.requestedModel
  provider : ToAllowedProvider J k provider

end

section
variable {J : SerdeStrings} {R : Rfc3339} {k : VirtualKeyRow} {w : Surroundings} {req : Request}

theorem enforceIp_isOk (hk : k.ListsReadable J) (ip : Option IpAddr) :
    enforceIp J k ip = .ok () ↔ FromAllowedIp J k ip := by
  obtain ⟨allow, hallow⟩ := Option.isSome_iff_exists.mp hk.ips
  simp only [enforceIp, FromAllowedIp, VirtualKeyRow.ips, hallow, Option.getD_some,
    Option.some.injEq, exists_eq_left']
  by_cases hempty : allow = []
  · simp [hempty]
  · cases ip with
    | none => simp [hempty]
    | some a =>
      simp only [ne_eq, hempty, not_false_eq_true, forall_const,
        Option.some.injEq, exists_eq_left', ← ipAllowed_iff]
      split <;> simp_all

theorem permitsModel_iff_forAllowedModel (hk : k.ListsReadable J) {model : String} :
    k.permitsModel J model = true ↔ ForAllowedModel J k model := by
  obtain ⟨allow, hallow⟩ := Option.isSome_iff_exists.mp hk.models
  simp [permitsModel_iff, ForAllowedModel, VirtualKeyRow.models, hallow]

variable {provider : String} {now later : Int} {path : Path}

theorem permitsProvider_iff (hk : k.ListsReadable J) :
    permitsProvider (k.providers J) provider = true ↔ ToAllowedProvider J k provider := by
  obtain ⟨allow, hallow⟩ := Option.isSome_iff_exists.mp hk.providers
  simp only [permitsProvider, ToAllowedProvider, VirtualKeyRow.providers, hallow,
    Option.getD_some, Option.some.injEq, exists_eq_left']
  by_cases hempty : allow = []
  · simp [hempty]
  · simp [hempty]

/-- An expiry that cannot be read is no expiry. -/
theorem checkExpiry_isOk {now : Int} : checkExpiry R k now = .ok () ↔
    ∀ text exp, k.expiresAt = some text → R.parseDt text = some exp → now < exp := by
  rw [checkExpiry]
  cases hexpiry : k.expiresAt with
  | none => simp
  | some text =>
    rw [Option.bind_some]
    constructor
    · intro h text' exp htext hparse
      cases htext
      rw [hparse, refuseIf_eq_ok] at h
      exact not_le.mp h
    · intro h
      cases hparse : R.parseDt text with
      | none => rfl
      | some exp => exact refuseIf_eq_ok.mpr (not_le.mpr (h text exp rfl hparse))

/-- A key passes `validate` unless its status is one of two, its expiry is a time that has come, or
it is not for the model. -/
theorem validate_isOk (hk : k.ListsReadable J) {model : String} {now : Int} :
    validate J R k model now = .ok () ↔
      k.status ≠ "revoked" ∧ k.status ≠ "disabled" ∧
        (∀ text exp, k.expiresAt = some text → R.parseDt text = some exp → now < exp) ∧
        ForAllowedModel J k model := by
  rw [← permitsModel_iff_forAllowedModel hk, ← checkExpiry_isOk, validate, seq_eq_ok, seq_eq_ok,
    seq_eq_ok, refuseIf_eq_ok, refuseIf_eq_ok, refuseIf_eq_ok, Bool.not_eq_true',
    Bool.not_eq_false]

/-- The targets of an inference request have passed the checks of the key. -/
theorem run_passes (hk : k.ListsReadable J) {now : Int} {targets : List ResolvedTarget}
    (h : run J R w k req now = .ok targets) :
    validate J R k req.requestedModel now = .ok () ∧
      ∀ t ∈ targets, ToAllowedProvider J k t.provider.id := by
  rw [run, seq_eq_ok, seq_eq_ok] at h
  obtain ⟨hvalid, -, h⟩ := h
  obtain ⟨resolved, -, h⟩ := bind_eq_ok.mp h
  obtain ⟨candidates, -, h⟩ := bind_eq_ok.mp h
  obtain ⟨-, h⟩ := seq_eq_ok.mp h
  refine ⟨hvalid, fun t ht => ?_⟩
  rw [← pure_eq_ok.mp h, List.mem_filter, Bool.and_eq_true] at ht
  exact (permitsProvider_iff hk).mp ht.2.1

theorem tokenCountExactTarget_passes (hk : k.ListsReadable J) {t : ResolvedTarget}
    (h : tokenCountExactTarget J w k = .ok (some t)) : ToAllowedProvider J k t.provider.id := by
  obtain ⟨resolved, -, h⟩ := bind_eq_ok.mp h
  cases resolved with
  | single provider model accounts =>
    obtain ⟨hprovider, h⟩ := seq_eq_ok.mp h
    obtain ⟨satisfied, -, h⟩ := bind_eq_ok.mp h
    obtain ⟨-, h⟩ := seq_eq_ok.mp h
    obtain ⟨accounts, -, h⟩ := bind_eq_ok.mp h
    obtain ⟨account, -, rfl⟩ := Option.map_eq_some_iff.mp (pure_eq_ok.mp h)
    rw [refuseIf_eq_ok, Bool.not_eq_true', Bool.not_eq_false] at hprovider
    exact (permitsProvider_iff hk).mp hprovider
  | route targets =>
    obtain ⟨first, -, h⟩ := bind_eq_ok.mp h
    split at h
    · cases pure_eq_ok.mp h
    · have hmem := List.mem_of_find?_eq_some (pure_eq_ok.mp h)
      rw [List.mem_mergeSort, List.mem_filter, Bool.and_eq_true] at hmem
      exact (permitsProvider_iff hk).mp hmem.2.1

/-- A request that reaches an upstream passes the checks of its path. -/
theorem dispatchTargets_passes (hk : k.ListsReadable J) {targets : List ResolvedTarget}
    (h : dispatchTargets J R w k req path now later = .ok targets) :
    ∀ t ∈ targets, Passes J R k path req now later t.provider.id := by
  intro t ht
  cases path with
  | inference =>
    obtain ⟨hip, h⟩ := seq_eq_ok.mp h
    obtain ⟨hnow, h⟩ := seq_eq_ok.mp h
    obtain ⟨hlater, hproviders⟩ := run_passes hk h
    obtain ⟨hrevoked, hdisabled, hnow, hmodel⟩ := (validate_isOk hk).mp hnow
    obtain ⟨-, -, hlater, -⟩ := (validate_isOk hk).mp hlater
    refine ⟨hrevoked, hdisabled, ?_, fun _ => (enforceIp_isOk hk _).mp hip, hmodel,
      hproviders t ht⟩
    intro text exp htext hexp
    simp [Path.checkedAt, hnow text exp htext hexp, hlater text exp htext hexp]
  | countTokens =>
    obtain ⟨hip, h⟩ := seq_eq_ok.mp h
    obtain ⟨hnow, h⟩ := seq_eq_ok.mp h
    obtain ⟨-, h⟩ := seq_eq_ok.mp h
    obtain ⟨target, htarget, h⟩ := bind_eq_ok.mp h
    obtain ⟨hrevoked, hdisabled, hnow, hmodel⟩ := (validate_isOk hk).mp hnow
    rw [← pure_eq_ok.mp h, Option.mem_toList] at ht
    refine ⟨hrevoked, hdisabled, ?_, fun _ => (enforceIp_isOk hk _).mp hip, hmodel,
      tokenCountExactTarget_passes hk (ht ▸ htarget)⟩
    intro text exp htext hexp
    simp [Path.checkedAt, hnow text exp htext hexp]
  | testStream =>
    obtain ⟨hnow, h⟩ := seq_eq_ok.mp h
    obtain ⟨hlater, hproviders⟩ := run_passes hk h
    obtain ⟨hrevoked, hdisabled, hnow, hmodel⟩ := (validate_isOk hk).mp hnow
    obtain ⟨-, -, hlater, -⟩ := (validate_isOk hk).mp hlater
    refine ⟨hrevoked, hdisabled, ?_, fun hpath => (hpath rfl).elim, hmodel, hproviders t ht⟩
    intro text exp htext hexp
    simp [Path.checkedAt, hnow text exp htext hexp, hlater text exp htext hexp]

/-- Surroundings with one target and no other restriction. -/
def Surroundings.only (t : ResolvedTarget) : Surroundings where
  admission := .ok ()
  resolve := .ok (.route [t])
  satisfiesNeeds _ _ := .ok true
  eligible _ := true

/-- A target that any request fits, of a healthy account. -/
def plainTarget (provider : String) : ResolvedTarget :=
  ⟨⟨1, true⟩, ⟨"model", none⟩, ⟨provider, false⟩⟩

/-- A request that passes the checks reaches the provider if nothing else keeps it. -/
theorem dispatchTargets_of_passes (hk : k.ListsReadable J)
    (h : Passes J R k path req now later provider) :
    dispatchTargets J R (.only (plainTarget provider)) k req path now later =
      .ok [plainTarget provider] := by
  have hip : path ≠ .testStream → enforceIp J k (clientIp req.header) = .ok () :=
    fun hpath => (enforceIp_isOk hk _).mpr (h.ip hpath)
  have hvalid : ∀ t ∈ path.checkedAt now later, validate J R k req.requestedModel t = .ok () := by
    intro t ht
    refine (validate_isOk hk).mpr ⟨h.notRevoked, h.notDisabled, ?_, h.model⟩
    exact fun text exp htext hexp => h.unexpired text exp htext hexp t ht
  have hprovider := (permitsProvider_iff hk).mpr h.provider
  have hrun : ∀ t, validate J R k req.requestedModel t = .ok () →
      run J R (.only (plainTarget provider)) k req t = .ok [plainTarget provider] := by
    intro t ht
    simp [run, ht, Surroundings.only, candidates, plainTarget, hprovider, fitsContextWindow,
      refuseIf, bind, Except.bind, pure, Except.pure]
  cases path with
  | inference =>
    rw [dispatchTargets, hip (by simp), hvalid now (by simp [Path.checkedAt]), ← hrun later
      (hvalid later (by simp [Path.checkedAt]))]
    rfl
  | countTokens =>
    rw [dispatchTargets, hip (by simp), hvalid now (by simp [Path.checkedAt])]
    simp [tokenCountExactTarget, Surroundings.only, plainTarget, hprovider, okOr, bind,
      Except.bind, pure, Except.pure]
  | testStream =>
    rw [dispatchTargets, hvalid now (by simp [Path.checkedAt]), ← hrun later
      (hvalid later (by simp [Path.checkedAt]))]
    rfl

/-- The checks of a row whose status and expiry can be interpreted look for all that it asks, but
for the tester's address. -/
theorem Passes.restrictions (h : Passes J R k path req now later provider) (hk : Interpreted R k)
    (hip : path = .testStream → FromAllowedIp J k (clientIp req.header)) :
    Restrictions J R k path req now later provider := by
  constructor
  · exact hk.status.resolve_right (not_or.mpr ⟨h.notDisabled, h.notRevoked⟩)
  · intro text htext
    obtain ⟨exp, hexp⟩ := Option.isSome_iff_exists.mp (hk.expiry text htext)
    exact ⟨exp, hexp, h.unexpired text exp htext hexp⟩
  · by_cases hpath : path = .testStream
    · exact hip hpath
    · exact h.ip hpath
  · exact h.model
  · exact h.provider

theorem Restrictions.interpreted (h : Restrictions J R k path req now later provider) :
    Interpreted R k := by
  refine ⟨.inl h.active, fun text htext => ?_⟩
  obtain ⟨exp, hexp, -⟩ := h.unexpired text htext
  exact Option.isSome_iff_exists.mpr ⟨exp, hexp⟩

/-- What a stored row asks holds of every request that reaches an upstream, exactly if its status
and its expiry can be interpreted and the tester's address is an allowed one, or if one of the
checks refuses the request. -/
theorem key_policy_enforced_iff (J : SerdeStrings) (hJ : J.ReadsBack) (R : Rfc3339)
    (k : VirtualKeyRow) (hk : Stored J k) (path : Path) (req : Request) (now later : Int)
    (provider : String) :
    (∀ w targets, dispatchTargets J R w k req path now later = .ok targets →
      ∀ t ∈ targets, t.provider.id = provider → Restrictions J R k path req now later provider) ↔
    (Interpreted R k ∧ (path = .testStream → FromAllowedIp J k (clientIp req.header))) ∨
      ¬ Passes J R k path req now later provider := by
  have hlists := hk.listsReadable hJ
  constructor
  · intro h
    by_cases hpasses : Passes J R k path req now later provider
    · have hrestrictions := h _ _ (dispatchTargets_of_passes hlists hpasses)
        (plainTarget provider) (List.mem_singleton_self _) rfl
      exact .inl ⟨hrestrictions.interpreted, fun _ => hrestrictions.ip⟩
    · exact .inr hpasses
  · rintro h w targets hdispatch t ht rfl
    have hpasses := dispatchTargets_passes hlists hdispatch t ht
    rcases h with ⟨hinterpreted, hip⟩ | hrefused
    · exact hpasses.restrictions hinterpreted hip
    · exact (hrefused hpasses).elim

end

/-- A reader that knows the end of the first minute. -/
def firstMinute : Rfc3339 where
  toRfc3339 _ := "1970-01-01T00:01:00+00:00"
  parseDt text := if text = "1970-01-01T00:01:00+00:00" then some (Clock.seconds 60) else none

/-- A key for one network, which expires after the first minute. -/
def exampleKey : VirtualKeyRow :=
  createKey plainJson
    { expiresAt := some "1970-01-01T00:01:00+00:00", allowedIps := ["10.0.0.0/8"] }

def exampleRequest : Request where
  header name := if name = "x-real-ip" then some "10.1.2.3" else none
  requestedModel := "model"
  approxInputTokens := 1

theorem exampleKey_enforced :
    dispatchTargets plainJson firstMinute (.only (plainTarget "provider")) exampleKey exampleRequest
        .inference 0 1 = .ok [plainTarget "provider"] ∧
      Restrictions plainJson firstMinute exampleKey .inference exampleRequest 0 1 "provider" := by
  have hdispatch : dispatchTargets plainJson firstMinute (.only (plainTarget "provider")) exampleKey
      exampleRequest .inference 0 1 = .ok [plainTarget "provider"] := by decide +kernel
  have hinterpreted : Interpreted firstMinute exampleKey := by
    refine ⟨.inl rfl, fun text htext => ?_⟩
    cases htext
    rfl
  exact ⟨hdispatch, (key_policy_enforced_iff plainJson plainJson_readsBack firstMinute exampleKey
    (.created _) .inference exampleRequest 0 1 "provider").mpr
      (.inl ⟨hinterpreted, fun h => by cases h⟩) _ _ hdispatch _ (List.mem_singleton_self _) rfl⟩

/-- An administrator pauses a key with a status that the checks do not know, and it goes on. -/
theorem paused_key_dispatched : Stored plainJson (setVirtualKeyStatus exampleKey "paused") ∧
    dispatchTargets plainJson firstMinute (.only (plainTarget "provider"))
      (setVirtualKeyStatus exampleKey "paused") exampleRequest .inference 0 1 =
        .ok [plainTarget "provider"] ∧
    ¬ Restrictions plainJson firstMinute (setVirtualKeyStatus exampleKey "paused") .inference
      exampleRequest 0 1 "provider" := by
  refine ⟨.status _ (.created _), by decide +kernel, fun h => ?_⟩
  exact absurd h.active (by decide)

end Kinetix.VirtualKeys
