import Kinetix.Config.Atomicity
import Kinetix.Config.KeyEdits

/-!
# Edits of the configuration

A failed edit of a route or an account leaves every row as it was, and two edits of a key are both
kept, exactly under conditions that the handlers do not see to: none of them runs its statements in
a transaction.
-/

namespace Kinetix.Config
open Statements VirtualKeys

namespace Edits

def env : Env where
  json := .ofEmptyObject
  now := ""
  routeId := "r"
  targetId i := String.ofList (List.replicate i 't')
  auditId := "a"
  encrypt := some

def noFaults : Faults := fun _ => false

def provider : ProviderRow :=
  ⟨"p", "acme", "https://acme.example", "openai", "bearer", none, none, "{}", 1000, "permissive",
    none, "{}", 1, 0, "", 0, "", "", "", "", "auth_flow", none, none⟩

def account : AccountRow :=
  ⟨"x", "p", "main", "", "****", "disabled", none, none, "none", none, none, 1, 1, none, none, none,
    0, ""⟩

/-- A route without targets and an account. -/
def store : Store where
  tables :=
    { providers := [provider]
      accounts := [account]
      models := []
      aliases := []
      routes := [newRoute "s" "slow" "" ⟨"", "priority", "{}", "reject", false, false, none⟩]
      routeTargets := [] }
  audit := []

/-- A route with a target for an unknown model. -/
def routeBody : RouteBody where
  name := "fast"
  description := "new"
  strategy := "priority"
  fallbackTriggers := .null
  portabilityPolicy := "reject"
  stickyRouting := false
  cacheAffinity := false
  maxAttempts := none
  targets := [⟨none, "m", 1, 1, .null, .null⟩]

/-- A new key for an account of which the provider takes none. -/
def accountBody : AccountBody := ⟨"main", some "secret", 1, 1, none, "none", none⟩

def keyRow : KeyRow where
  id := "k"
  keyHash := ""
  name := "old"
  owner := "old"
  tag := ""
  allowedModels := "[]"
  allowedProviders := "[]"
  rpmLimit := none
  tpmLimit := none
  dailyBudget := none
  monthlyBudget := none
  expiresAt := none
  status := "active"
  allowedIps := "[]"
  bodyLogging := 0
  createdAt := ""
  revokedAt := none

/-- One call sets the name, the other one the owner. -/
def keyBodies : Bool → KeyBody
  | true => { name := some "new" }
  | false => { owner := some "new" }

def emptyLists : SerdeStrings := ⟨fun _ => "[]", fun _ => some []⟩

def next (who : Bool) : EditingAction := ⟨who, false, ""⟩

/-- One call after the other. -/
def inTurn : List EditingAction := List.replicate 3 (next true) ++ List.replicate 3 (next false)

/-- Both calls read before either of them writes. -/
def overlapping : List EditingAction :=
  [next true, next false] ++ List.replicate 2 (next true) ++ List.replicate 2 (next false)

theorem targetId_injective : Function.Injective env.targetId := by
  intro i j h
  have hlen := congrArg (fun s => s.toList.length) h
  simpa [env] using hlen

theorem fresh : env.Fresh store := ⟨targetId_injective, fun _ _ ht => absurd ht List.not_mem_nil⟩

theorem disjoint : DisjointBodies emptyLists keyBodies where
  status := Or.inl rfl
  column c := by cases c <;> decide

end Edits

open Edits

/-- When exactly a failed `create_route`, `update_route` or `update_account` leaves every row as it
was, and when exactly two calls of `update_key` for different fields are both kept. -/
theorem edits_all_or_nothing_iff (env : Env) (s : Store) (f : Faults) (hfresh : env.Fresh s)
    (J : SerdeStrings) (first : KeyRow) (bodies : Bool → KeyBody)
    (hdisjoint : DisjointBodies J bodies) :
    (∀ body, AllOrNothing (createRoute env body) s f ↔ CreateRouteSafe env body s f) ∧
    (∀ id body, AllOrNothing (updateRoute env id body) s f ↔ UpdateRouteSafe env id body s f) ∧
    (∀ id body, AllOrNothing (updateAccount env id body) s f ↔ UpdateAccountSafe env id body s f) ∧
    ∀ as t, (updateKeys J first bodies).run as = some t →
      (∀ who, t.calls who = .returned true) →
        ((∀ who, t.row.Carries J (bodies who)) ↔
          (updateKeys J first bodies).Meets (fun _ => Editing.Unchanged J bodies) as) :=
  ⟨fun _ => createRoute_allOrNothing hfresh, fun _ _ => updateRoute_allOrNothing hfresh,
    fun _ _ => updateAccount_allOrNothing, fun _ _ => updateKeys_carries_iff hdisjoint⟩

theorem edits_all_or_nothing_iff_small :
    (AllOrNothing (createRoute Edits.env routeBody) store noFaults ↔
      CreateRouteSafe Edits.env routeBody store noFaults) ∧
    ∃ t, (updateKeys emptyLists keyRow keyBodies).run inTurn = some t ∧
      ((∀ who, t.row.Carries emptyLists (keyBodies who)) ↔
        (updateKeys emptyLists keyRow keyBodies).Meets
          (fun _ => Editing.Unchanged emptyLists keyBodies) inTurn) := by
  obtain ⟨hcreate, -, -, hkeys⟩ :=
    edits_all_or_nothing_iff Edits.env store noFaults fresh emptyLists keyRow keyBodies disjoint
  refine ⟨hcreate routeBody, _, rfl, hkeys inTurn _ rfl ?_⟩
  decide

/-- A target with an unknown model leaves a route without it, a refused secret leaves an account
healthy, and the second of two overlapping calls takes back what the first one set. -/
theorem edits_not_all_or_nothing :
    ¬ AllOrNothing (createRoute Edits.env routeBody) store noFaults ∧
    ¬ AllOrNothing (updateRoute Edits.env "s" routeBody) store noFaults ∧
    ¬ AllOrNothing (updateAccount Edits.env "x" accountBody) store noFaults ∧
    ∃ t, (updateKeys emptyLists keyRow keyBodies).run overlapping = some t ∧
      (∀ who, t.calls who = .returned true) ∧
        ¬ ∀ who, t.row.Carries emptyLists (keyBodies who) := by
  refine ⟨fun h => ?_, fun h => ?_, fun h => ?_, _, rfl, by decide, fun h => ?_⟩
  · have hstore := congrArg (fun s => s.tables.routes.length) (h _ rfl)
    revert hstore
    decide
  · have hstore := congrArg (fun s => s.tables.routes.map RouteRow.description) (h _ rfl)
    revert hstore
    decide
  · have hstore := congrArg (fun s => s.tables.accounts.map AccountRow.status) (h _ rfl)
    revert hstore
    decide
  · have hname := (h true).column .name "new" rfl
    revert hname
    decide

end Kinetix.Config
