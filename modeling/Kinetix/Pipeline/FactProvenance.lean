import Kinetix.Library.Fallible
import Kinetix.Library.FirstWriter
import Kinetix.Plugins.Circuit
import Kinetix.Predicates.Eval

/-!
# Routing facts of plugins

`gather_plugin_facts` of `pipeline.rs`: the facts of every enabled provider, under their full names,
in the order of the plugins. A cached provider has the facts of its last refresh, which the plugin
manager checked and dated; a pure one is asked.

When predicates see under `plugin.<id>.<name>` only what the plugin of that id says there itself, in
a fact that is fresh, whatever the other plugins say and whatever the order of all.

## Implementation notes

What plugins return is a parameter, of which one request sees one answer for each plugin. The clock,
an instant in nanoseconds, stands still while the facts are gathered; `parse_dt` is chrono's parser
and is a parameter, as are `serde_json::from_str` and `to_string`. What `serde_json` says about a
value that is no JSON is left out of the refusal.
-/

namespace Kinetix.Pipeline.RoutingFacts
open Checks Json Predicates
open Plugins.Circuit (PluginFault)

/-- `RoutingFact` of the plugin interface. -/
structure RoutingFact where
  name : String
  valueJson : String
  observedAt : Option String := none
  maxAgeMs : Option UInt64 := none

/-- An entry of `cached_facts`. -/
structure CachedFact where
  name : String
  value : Value
  observedAt : Option String := none
  maxAgeMs : Option UInt64 := none

/-! ## Snapshots -/

/-- `CACHE_PREFIX`. -/
def cachePrefix : String := "_cache:"

/-- What is stored of a fact, before it is a text. -/
def envelope (value : Value) (observedAt : String) (maxAgeMs : UInt64) : Value :=
  .object [("value", value), ("observed_at", .string observedAt),
    ("max_age_ms", .number (.int maxAgeMs.toNat))]

section Snapshots
variable (J : SerdeJson) (observedAt : String)

/-- The checks of a fact, and its row. -/
def addFact (snapshot : List (String × String)) (fact : RoutingFact) :
    Except PluginFault (List (String × String)) := do
  let maxAgeMs ← okOr fact.maxAgeMs
    (.invalidResult s!"cached routing fact '{fact.name}' must declare max_age_ms")
  refuseIf (fact.name = "" ∨ 128 < fact.name.utf8ByteSize ∨
      ¬ fact.name.toList.all fun c => c.isAlphanum || c = '.' || c = '-' || c = '_')
    (.invalidResult s!"invalid cached routing fact name '{fact.name}'")
  refuseIf (cachePrefix ++ fact.name ∈ snapshot.map Prod.fst)
    (.invalidResult s!"duplicate cached routing fact '{fact.name}'")
  let value ← okOr (J.fromStr fact.valueJson)
    (.invalidResult s!"cached routing fact '{fact.name}' has invalid JSON")
  refuseIf (maxAgeMs = 0 ∨ 24 * 60 * 60 * 1000 < maxAgeMs)
    (.invalidResult s!"cached routing fact '{fact.name}' max_age_ms is out of range")
  pure (snapshot ++ [(cachePrefix ++ fact.name, J.toString (envelope value observedAt maxAgeMs))])

/-- `build_cached_fact_snapshot`; the pending facts were set with `cache_set`. -/
def buildCachedFactSnapshot (facts pending : List RoutingFact) :
    Except PluginFault (List (String × String)) := do
  refuseIf (256 < facts.length + pending.length)
    (.invalidResult "cached routing fact count exceeds 256")
  (facts ++ pending).foldlM (addFact J observedAt) []

end Snapshots

/-- The last refresh that succeeded, with the rows that it stored. -/
structure Refresh (J : SerdeJson) where
  facts : List RoutingFact := []
  pending : List RoutingFact := []
  observedAt : String
  snapshot : List (String × String)
  built : buildCachedFactSnapshot J observedAt facts pending = .ok snapshot

/-- A row of a snapshot that can be read. -/
def readRow (J : SerdeJson) (row : String × String) : Option CachedFact :=
  (J.fromStr row.2).map fun env =>
    { name := (Text.stripPrefix row.1 cachePrefix).getD row.1
      value := (env.get "value").getD .null
      observedAt := (env.get "observed_at").bind (·.asStr)
      maxAgeMs := ((env.get "max_age_ms").bind (·.asU64)).map UInt64.ofNat }

/-- `cached_facts`. -/
def Refresh.cachedFacts {J : SerdeJson} (refresh : Refresh J) : List CachedFact :=
  (refresh.snapshot.mergeSort fun a b => a.1 ≤ b.1).filterMap (readRow J)

/-- What a refresh stored of a fact that the plugin returned or set, as it is read. -/
def Refresh.Stores {J : SerdeJson} (refresh : Refresh J) (fact : RoutingFact)
    (cached : CachedFact) : Prop :=
  ∃ value maxAgeMs, J.fromStr fact.valueJson = some value ∧ fact.maxAgeMs = some maxAgeMs ∧
    readRow J (cachePrefix ++ fact.name,
      J.toString (envelope value refresh.observedAt maxAgeMs)) = some cached

theorem name_of_readRow {J : SerdeJson} {name text : String} {cached : CachedFact}
    (h : readRow J (cachePrefix ++ name, text) = some cached) : cached.name = name := by
  obtain ⟨env, -, rfl⟩ := Option.map_eq_some_iff.mp h
  dsimp only
  rw [Text.stripPrefix_eq_some.mpr rfl, Option.getD_some]

/-- Every row of a snapshot is that of a fact. -/
theorem mem_foldlM_addFact {J : SerdeJson} {observedAt : String} {facts : List RoutingFact}
    {start snapshot : List (String × String)} {row : String × String}
    (h : facts.foldlM (addFact J observedAt) start = .ok snapshot) (hrow : row ∈ snapshot) :
    row ∈ start ∨ ∃ fact ∈ facts, ∃ value maxAgeMs, J.fromStr fact.valueJson = some value ∧
      fact.maxAgeMs = some maxAgeMs ∧
      row = (cachePrefix ++ fact.name, J.toString (envelope value observedAt maxAgeMs)) := by
  induction facts generalizing start with
  | nil =>
    obtain rfl := pure_eq_ok.mp h
    exact .inl hrow
  | cons fact facts ih =>
    rw [List.foldlM_cons] at h
    obtain ⟨next, hnext, hrest⟩ := bind_eq_ok.mp h
    obtain hmem | ⟨other, hother, hstored⟩ := ih hrest
    · simp only [addFact, bind_eq_ok, okOr_eq_ok, pure_eq_ok] at hnext
      obtain ⟨maxAgeMs, hage, -, -, -, -, value, hvalue, -, -, rfl⟩ := hnext
      rcases List.mem_append.mp hmem with hold | hnew
      · exact .inl hold
      · exact .inr ⟨fact, List.mem_cons_self, value, maxAgeMs, hvalue, hage,
          List.mem_singleton.mp hnew⟩
    · exact .inr ⟨other, List.mem_cons_of_mem _ hother, hstored⟩

/-- A cached fact is one that the plugin returned or set, dated by the manager. -/
theorem Refresh.exists_of_mem_cachedFacts {J : SerdeJson} {refresh : Refresh J}
    {cached : CachedFact}
    (h : cached ∈ refresh.cachedFacts) :
    ∃ fact ∈ refresh.facts ++ refresh.pending, fact.name = cached.name ∧
      refresh.Stores fact cached := by
  obtain ⟨row, hrow, hread⟩ := List.mem_filterMap.mp h
  obtain ⟨-, hbuilt⟩ := seq_eq_ok.mp refresh.built
  obtain hnil | ⟨fact, hfact, value, maxAgeMs, hvalue, hage, rfl⟩ :=
    mem_foldlM_addFact hbuilt (List.mem_mergeSort.mp hrow)
  · exact absurd hnil List.not_mem_nil
  · exact ⟨fact, hfact, (name_of_readRow hread).symm, value, maxAgeMs, hvalue, hage, hread⟩

structure Manifest where
  /-- `provides.routing_facts`. -/
  routingFacts : List String
  routingFactsMode : String

structure PluginRow where
  id : String
  version : String
  /-- `status().is_enabled()`. -/
  enabled : Bool
  manifest : Option Manifest

/-- What the plugin manager has and what it is answered, by the id of a plugin. -/
structure PluginManager (J : SerdeJson) where
  list : Except String (List PluginRow)
  /-- The refresh whose rows are stored, if they can be read. -/
  refreshed : String → Except String (Refresh J)
  /-- `routing_facts`, and `routing_facts_cancellable` where the client can disconnect. -/
  routingFacts : String → Value → Except PluginFault (List RoutingFact)

variable {J : SerdeJson}

/-- The same manager with other plugins. -/
def PluginManager.listing (manager : PluginManager J) (rows : List PluginRow) : PluginManager J :=
  { manager with list := .ok rows }

/-- The clock and the parser of times. -/
structure Env where
  /-- `Utc::now`. -/
  now : Int
  parseDt : String → Option Int

/-- `PluginFault::message`. -/
def faultMessage : PluginFault → String
  | .trap m => "guest trapped: " ++ m
  | .timeout => "plugin invocation timed out"
  | .permissionDenied m => "permission denied: " ++ m
  | .invalidResult m => "invalid result: " ++ m
  | .pluginError code message _ _ => code ++ ": " ++ message
  | .cancelled => "invocation cancelled by client"
  | .internal m => m

/-- The facts, and the providers that failed. -/
structure Gathered where
  facts : PluginFacts := {}
  failures : List (String × String) := []

/-- The facts of the request that a plugin gets to see. -/
def requestJson (req : RequestFacts) : Value :=
  let optional (s : Option String) : Value := (s.map Value.string).getD .null
  .object [("frontend", .string req.frontend),
    ("requested_model", .string req.requestedModel),
    ("requested_route", optional req.requestedRoute),
    ("key_tag", optional req.keyTag),
    ("has_tools", .bool req.hasTools),
    ("has_images", .bool req.hasImages),
    ("has_reasoning", .bool req.hasReasoning),
    ("input_tokens", .number (.int req.inputTokens.toNat))]

/-- `plugin.<id>.<name>`. -/
def factName (id name : String) : String := "plugin." ++ id ++ "." ++ name

/-- `num_milliseconds` of a duration in nanoseconds. -/
def numMilliseconds (duration : Int) : Int := duration.tdiv 1000000

/-- `max_age as i64`, which wraps. -/
def asI64 (n : UInt64) : Int := n.toInt64.toInt

section Gather
variable (manager : PluginManager J) (env : Env) (req : RequestFacts)

/-- The test of the age of a fact, which is the same in both modes. -/
def isStale (observedAt : Option String) (maxAgeMs : Option UInt64) : Bool :=
  match observedAt, maxAgeMs with
  | some observed, some maxAge =>
    match env.parseDt observed with
    | some ts => decide (asI64 maxAge < numMilliseconds (env.now - ts))
    | none => false
  | _, _ => false

/-- A fact under its full name, before its age is tested. -/
structure Offer where
  entry : PluginFactEntry
  observedAt : Option String
  maxAgeMs : Option UInt64

/-- A fact of a snapshot goes under the name of its plugin. -/
def cachedOffer (row : PluginRow) (fact : CachedFact) : Offer where
  entry := {
    name := factName row.id fact.name
    value := fact.value
    source := .object [("plugin", .string row.id), ("version", .string row.version),
      ("capability", .string "routing-facts"), ("mode", .string "cached"),
      ("observed_at", (fact.observedAt.map Value.string).getD .null)]
  }
  observedAt := fact.observedAt
  maxAgeMs := fact.maxAgeMs

/-- The value of a fact that a plugin returns; what is no JSON is a string. -/
def pureValue (J : SerdeJson) (fact : RoutingFact) : Value :=
  (J.fromStr fact.valueJson).getD (.string fact.valueJson)

/-- A fact that a plugin returns keeps the name that the plugin gave it. -/
def pureOffer (J : SerdeJson) (row : PluginRow) (fact : RoutingFact) : Offer where
  entry := {
    name := fact.name
    value := pureValue J fact
    source := .object [("plugin", .string row.id), ("version", .string row.version),
      ("capability", .string "routing-facts")]
  }
  observedAt := fact.observedAt
  maxAgeMs := fact.maxAgeMs

/-- The facts that are not stale are inserted in turn. -/
def insertOffers (facts : PluginFacts) (offers : List Offer) : PluginFacts :=
  facts.insertAll ((offers.filter fun offer => ¬ isStale env offer.observedAt offer.maxAgeMs).map
    Offer.entry)

/-- A provider of routing facts that is asked. -/
def provider (row : PluginRow) : Option Manifest :=
  if row.enabled then row.manifest.filter (·.routingFacts ≠ []) else none

/-- The facts of one plugin. -/
def gatherRow (gathered : Gathered) (row : PluginRow) : Gathered :=
  match provider row with
  | none => gathered
  | some manifest =>
    if manifest.routingFactsMode = "cached" then
      match manager.refreshed row.id with
      | .ok refresh =>
        { gathered with
          facts := insertOffers env gathered.facts (refresh.cachedFacts.map (cachedOffer row)) }
      | .error e => { gathered with failures := gathered.failures ++ [(row.id, e)] }
    else
      match manager.routingFacts row.id (requestJson req) with
      | .ok list =>
        { gathered with facts := insertOffers env gathered.facts (list.map (pureOffer J row)) }
      | .error fault =>
        if fault.code ≠ "cancelled" then
          { gathered with failures := gathered.failures ++ [(row.id, faultMessage fault)] }
        else gathered

/-- The facts of plugins that are listed. -/
def gatherRows (rows : List PluginRow) : Gathered := rows.foldl (gatherRow manager env req) {}

/-- `gather_plugin_facts`. -/
def gatherPluginFacts (manager : Option (PluginManager J)) : Gathered :=
  match manager with
  | none => {}
  | some manager =>
    match manager.list with
    | .error _ => {}
    | .ok rows => gatherRows manager env req rows

theorem gatherPluginFacts_listing (rows : List PluginRow) :
    gatherPluginFacts env req (some (manager.listing rows)) = gatherRows manager env req rows := rfl

/-! ## What each plugin offers -/

/-- What a plugin offers under full names. -/
def offers (row : PluginRow) : List Offer :=
  match provider row with
  | none => []
  | some manifest =>
    if manifest.routingFactsMode = "cached" then
      match manager.refreshed row.id with
      | .ok refresh => refresh.cachedFacts.map (cachedOffer row)
      | .error _ => []
    else
      match manager.routingFacts row.id (requestJson req) with
      | .ok list => list.map (pureOffer J row)
      | .error _ => []

/-- The offers that are not stale, as keys and values. -/
def said (row : PluginRow) : List (String × Value) :=
  ((offers manager req row).filter fun offer => ¬ isStale env offer.observedAt offer.maxAgeMs).map
    fun offer => (offer.entry.name, offer.entry.value)

variable {manager env req} {row : PluginRow} {rows : List PluginRow} {gathered : Gathered}

theorem insertOffers_nil (facts : PluginFacts) : insertOffers env facts [] = facts := rfl

/-- A plugin has its offers inserted. -/
theorem facts_gatherRow : (gatherRow manager env req gathered row).facts =
    insertOffers env gathered.facts (offers manager req row) := by
  rw [gatherRow, offers]
  split
  · exact (insertOffers_nil _).symm
  · split
    · split
      · rfl
      · exact (insertOffers_nil _).symm
    · split
      · rfl
      · rw [apply_ite Gathered.facts]
        exact (ite_self _).trans (insertOffers_nil _).symm

/-- Inserts add what was not known before. -/
theorem get_insertAll_eq (facts : PluginFacts) (entries : List PluginFactEntry) (name : String) :
    (facts.insertAll entries).get name =
      (facts.get name).or ((entries.map fun e => (e.name, e.value)).lookup name) := by
  induction entries generalizing facts with
  | nil => simp [PluginFacts.insertAll]
  | cons e entries ih =>
    rw [PluginFacts.insertAll, List.foldl_cons, ← PluginFacts.insertAll, ih,
      PluginFacts.get_insert, Option.or_assoc, List.map_cons, List.lookup_cons]
    by_cases h : e.name = name
    · rw [if_pos h, Option.some_or, beq_iff_eq.mpr h.symm]
    · have hne : (name == e.name) = false := by simpa using Ne.symm h
      rw [if_neg h, Option.none_or, hne]

theorem get_insertOffers (facts : PluginFacts) (name : String) :
    (insertOffers env facts (offers manager req row)).get name =
      (facts.get name).or ((said manager env req row).lookup name) := by
  rw [insertOffers, get_insertAll_eq, List.map_map]
  rfl

/-- The facts gathered are those that the plugins say, the first of each name. -/
theorem get_gatherRows (name : String) : (gatherRows manager env req rows).facts.get name =
    FirstWriter.stored (said manager env req) rows name := by
  have hfold : ∀ gathered : Gathered,
      (rows.foldl (gatherRow manager env req) gathered).facts.get name =
      (gathered.facts.get name).or (FirstWriter.stored (said manager env req) rows name) := by
    induction rows with
    | nil => simp
    | cons row rows ih =>
      intro gathered
      rw [List.foldl_cons, ih, facts_gatherRow, get_insertOffers, FirstWriter.stored_cons,
        Option.or_assoc]
  exact hfold {}

end Gather

variable {manager : PluginManager J} {env : Env} {req : RequestFacts} {t : Predicates.TargetFacts}
  {row : PluginRow} {rows rows' : List PluginRow} {name : String} {value : Value} {offer : Offer}

/-! ## Fresh facts -/

/-- A fact is as old as it says, if it says how old it may be. -/
def Usable (env : Env) (observedAt : Option String) (maxAgeMs : Option UInt64) : Prop :=
  ∀ maxAge, maxAgeMs = some maxAge → ∃ ts, observedAt.bind env.parseDt = some ts ∧
    numMilliseconds (env.now - ts) ≤ maxAge.toNat

/-- A fact says how old it may be, and not from when it is. -/
def Offer.Undated (env : Env) (offer : Offer) : Prop :=
  offer.maxAgeMs.isSome ∧ offer.observedAt.bind env.parseDt = none

theorem asI64_le (n : UInt64) : asI64 n ≤ n.toNat := by
  have hcond : asI64 n = n.toBitVec.toInt := rfl
  rw [hcond, BitVec.toInt_eq_toNat_cond]
  have hnat : n.toBitVec.toNat = n.toNat := rfl
  split <;> omega

/-- A fact that is dated and not found stale is fresh, although the age it may have wraps. -/
theorem Offer.usable (hstale : ¬ isStale env offer.observedAt offer.maxAgeMs)
    (hdated : ¬ offer.Undated env) : Usable env offer.observedAt offer.maxAgeMs := by
  intro maxAge hmax
  cases hts : offer.observedAt.bind env.parseDt with
  | none => exact absurd ⟨hmax ▸ rfl, hts⟩ hdated
  | some ts =>
    obtain ⟨observed, hobserved, hparse⟩ := Option.bind_eq_some_iff.mp hts
    refine ⟨ts, rfl, ?_⟩
    rw [hobserved, hmax] at hstale
    have hage : ¬ asI64 maxAge < numMilliseconds (env.now - ts) := by
      simpa [isStale, hparse] using hstale
    exact (not_lt.mp hage).trans (asI64_le maxAge)

/-! ## What a plugin tells -/

/-- A plugin returned a value under a name of its own, in a fact that is fresh. -/
inductive Tells (manager : PluginManager J) (env : Env) (req : RequestFacts) (row : PluginRow)
    (name : String) (value : Value) : Prop
  | cached {manifest : Manifest} {refresh : Refresh J} {fact : RoutingFact} {cached : CachedFact}
      (asked : provider row = some manifest) (mode : manifest.routingFactsMode = "cached")
      (answer : manager.refreshed row.id = .ok refresh)
      (mem : fact ∈ refresh.facts ++ refresh.pending) (named : fact.name = name)
      (stored : refresh.Stores fact cached) (valued : cached.value = value)
      (usable : Usable env cached.observedAt cached.maxAgeMs)
  | pure {manifest : Manifest} {list : List RoutingFact} {fact : RoutingFact}
      (asked : provider row = some manifest) (mode : manifest.routingFactsMode ≠ "cached")
      (answer : manager.routingFacts row.id (requestJson req) = .ok list) (mem : fact ∈ list)
      (named : fact.name = factName row.id name) (valued : pureValue J fact = value)
      (usable : Usable env fact.observedAt fact.maxAgeMs)

theorem factName_inj {id name other : String} :
    factName id name = factName id other ↔ name = other := by
  simp [factName, ← String.toList_inj]

/-- What a plugin tells is what it offers under its full name. -/
theorem tells_of_offer (hmem : offer ∈ offers manager req row)
    (hname : offer.entry.name = factName row.id name)
    (husable : Usable env offer.observedAt offer.maxAgeMs) :
    Tells manager env req row name offer.entry.value := by
  rw [offers] at hmem
  split at hmem
  · exact absurd hmem List.not_mem_nil
  rename_i manifest hasked
  split at hmem
  · rename_i hmode
    split at hmem
    · rename_i refresh hanswer
      obtain ⟨cached, hcached, rfl⟩ := List.mem_map.mp hmem
      obtain ⟨fact, hfact, hnamed, hstored⟩ := refresh.exists_of_mem_cachedFacts hcached
      exact .cached hasked hmode hanswer hfact (hnamed.trans (factName_inj.mp hname)) hstored rfl
        husable
    · exact absurd hmem List.not_mem_nil
  · rename_i hmode
    split at hmem
    · rename_i list hanswer
      obtain ⟨fact, hfact, rfl⟩ := List.mem_map.mp hmem
      exact .pure hasked hmode hanswer hfact hname rfl husable
    · exact absurd hmem List.not_mem_nil

/-! ## What a predicate sees -/

/-- A predicate sees a fact of a plugin as it is gathered. -/
theorem factValue_factName {fact : FactRef} {id : String} {facts : PluginFacts}
    (h : fact.name = factName id name) :
      factValue fact req t facts = facts.get (factName id name) := by
  have hstart : Text.startsWith fact.name "plugin." = true := by
    rw [h, factName, String.append_assoc, String.append_assoc, Text.startsWith,
      List.isPrefixOf_iff_prefix, String.toList_append]
    exact List.prefix_append _ _
  rw [factValue, if_pos hstart, h]

theorem factValue_listing {fact : FactRef} {id name : String} (h : fact.name = factName id name) :
    factValue fact req t (gatherPluginFacts env req (some (manager.listing rows))).facts =
      (gatherRows manager env req rows).facts.get (factName id name) := by
  rw [factValue_factName h, gatherPluginFacts_listing]

/-- Predicates see under the names of an installed plugin, enabled or not, only what that plugin
tells, and this the same whoever the other plugins are, in whatever order. Under other names they
see nothing. -/
structure Provenance (manager : PluginManager J) (env : Env) (req : RequestFacts)
    (t : Predicates.TargetFacts) (rows : List PluginRow) : Prop where
  own : ∀ rows' : List PluginRow, rows'.Perm rows → ∀ row ∈ rows,
    ∀ (name : String) (fact : FactRef) (value : Value), fact.name = factName row.id name →
      factValue fact req t (gatherPluginFacts env req (some (manager.listing rows'))).facts =
          some value →
        Tells manager env req row name value
  installed : ∀ rows' : List PluginRow, rows'.Perm rows →
    ∀ (id name : String) (fact : FactRef) (value : Value), fact.name = factName id name →
      factValue fact req t (gatherPluginFacts env req (some (manager.listing rows'))).facts =
          some value →
        ∃ row ∈ rows, ∃ own, factName row.id own = factName id name
  alone : ∀ rows' : List PluginRow, rows'.Perm rows → ∀ row ∈ rows,
    ∀ (name : String) (fact : FactRef), fact.name = factName row.id name →
      factValue fact req t (gatherPluginFacts env req (some (manager.listing rows'))).facts =
        factValue fact req t (gatherPluginFacts env req (some (manager.listing [row]))).facts

/-- The first fact of a plugin under a full name that is not found stale. -/
def firstOffer (manager : PluginManager J) (env : Env) (req : RequestFacts) (row : PluginRow)
    (fullName : String) : Option Offer :=
  (offers manager req row).find? fun offer =>
    ¬ isStale env offer.observedAt offer.maxAgeMs ∧ offer.entry.name = fullName

theorem lookup_said (fullName : String) : (said manager env req row).lookup fullName =
    (firstOffer manager env req row fullName).map (·.entry.value) := by
  rw [said, firstOffer]
  generalize offers manager req row = list
  induction list with
  | nil => rfl
  | cons offer list ih =>
    rw [List.filter_cons, List.find?_cons]
    by_cases hstale : isStale env offer.observedAt offer.maxAgeMs = true
    · simpa [hstale] using ih
    · by_cases hname : offer.entry.name = fullName
      · simp [hstale, hname]
      · have hne : (fullName == offer.entry.name) = false := by simpa using Ne.symm hname
        simpa [hstale, hname, List.lookup_cons, hne] using ih

/-- The facts of a plugin are its own in every order of the plugins exactly if no other plugin
offers a name of it, unless with the value that it offers itself. -/
theorem alone_iff (hrow : row ∈ rows) (fullName : String) :
    (∀ rows' : List PluginRow, rows'.Perm rows →
      (gatherRows manager env req rows').facts.get fullName =
        (gatherRows manager env req [row]).facts.get fullName) ↔
      ∀ other ∈ rows, ∀ theirs, firstOffer manager env req other fullName = some theirs →
        ∃ ours, firstOffer manager env req row fullName = some ours ∧
          ours.entry.value = theirs.entry.value := by
  simp only [get_gatherRows, FirstWriter.stored_singleton]
  rw [FirstWriter.stored_perm_iff hrow]
  simp only [lookup_said, Option.map_eq_some_iff]
  constructor
  · intro h other hother theirs htheirs
    exact h other hother _ ⟨theirs, htheirs, rfl⟩
  · rintro h other hother v ⟨theirs, htheirs, rfl⟩
    exact h other hother theirs htheirs

/-- What is seen under a name is offered by one of the plugins, and what one of them offers
is seen. -/
theorem exists_seen_iff (fullName : String) :
    (∃ value, (gatherRows manager env req rows).facts.get fullName = some value) ↔
      ∃ row ∈ rows, ∃ offer, firstOffer manager env req row fullName = some offer := by
  rw [get_gatherRows]
  constructor
  · rintro ⟨value, hvalue⟩
    obtain ⟨row, hrow, hsaid⟩ := FirstWriter.exists_of_stored hvalue
    rw [lookup_said, Option.map_eq_some_iff] at hsaid
    exact ⟨row, hrow, hsaid.imp fun _ h => h.1⟩
  · rintro ⟨row, hrow, offer, hoffer⟩
    refine Option.ne_none_iff_exists'.mp fun hnone => ?_
    have hsaid := FirstWriter.stored_eq_none.mp hnone row hrow
    rw [lookup_said, hoffer] at hsaid
    cases hsaid

/-- A reader of one text. -/
def trueReader : SerdeJson where
  fromStr text := if text = "true" then some (.bool true) else none
  toString _ := "true"

/-- A plugin that was never refreshed, and one that names a fact of the first and returns a fact of
its own that is not dated. -/
def intruded : PluginManager trueReader where
  list := .ok []
  refreshed _ := .ok { observedAt := "", snapshot := [], built := rfl }
  routingFacts _ _ := .ok [{ name := "plugin.a.trusted", valueJson := "true" },
    { name := "plugin.b.up", valueJson := "true", maxAgeMs := some 1000 }]

/-- The plugin that is named is installed, and not enabled. -/
def owner : PluginRow := ⟨"a", "1.0.0", false, some ⟨["a-facts"], "cached"⟩⟩

def intruder : PluginRow := ⟨"b", "1.0.0", true, some ⟨["b-facts"], "pure"⟩⟩

def quietEnv : Env where
  now := 0
  parseDt _ := none

def plainRequest : RequestFacts := ⟨"openai", "m", none, none, false, false, false, 0⟩

def plainTarget : Predicates.TargetFacts := ⟨"m", "p", {}, .null, none, none⟩

end Kinetix.Pipeline.RoutingFacts
