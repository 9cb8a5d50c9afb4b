import Kinetix.Enrollment.Flows

/-!
# An enrollment is single-use, bound and authorised

A session is removed from the map before its code is exchanged, so that it leads to one exchange and
one account at most. The binding of the provider is looked at once, two awaits before the account is
inserted, and whether the admin who started the session is still logged in is not looked at in a
callback.
-/

namespace Kinetix.Enrollment
open Config StateMachine

structure Insertion.Authorised (D : Deployment) (starts : List Start) (e : Insertion) : Prop where
  started : e.completion.Started starts
  admitted : e.completion.Admitted D
  live : Live D e.admin e.insertedAt e.completion.session.initiator
  bound : Bound e.tables e.completion.session
  provider : e.account.providerId = e.completion.session.providerId

/-- Each started session leads to at most one exchange and one account, and each account was
inserted with authority. -/
structure Enrolled (D : Deployment) (s : Shared) : Prop where
  exchanged_once : ∀ k, s.exchanges.count k ≤ 1
  inserted_once : ∀ k, (s.insertions.map Insertion.serial).count k ≤ 1
  authorised : ∀ e ∈ s.insertions, e.Authorised D s.starts

/-! ## The condition -/

def State.cleared (s : State) : List Completion := s.tasks.filterMap Stage.cleared

/-- A completion is found to be bound while its initiator is logged in; and until it has inserted
its account, the admin stays logged in, and the provider bound. -/
def State.Undisturbed (D : Deployment) (s : State) : Action → Prop
  | .advance i env => ∀ c ∈ s.tasks[i]?.bind (Stage.clears s.shared env),
      Live D s.shared.admin s.shared.now c.session.initiator
  | .wait seconds => ∀ c ∈ s.cleared,
      Live D s.shared.admin (s.shared.now + seconds) c.session.initiator
  | .admin a => ∀ admin ∈ s.adminStep D a, ∀ c ∈ s.cleared,
      Live D admin.shared s.shared.now c.session.initiator
  | .write tables => ∀ c ∈ s.cleared, Bound tables c.session
  | .changePlugins _ | .start _ | .drop _ => True

instance (D : Deployment) (s : State) : (a : Action) → Decidable (s.Undisturbed D a)
  | .advance i _ => inferInstanceAs (Decidable (∀ c ∈ s.tasks[i]?.bind _, Live D _ _ _))
  | .wait _ => inferInstanceAs (Decidable (∀ c ∈ s.cleared, Live D _ _ _))
  | .admin a =>
    inferInstanceAs (Decidable (∀ admin ∈ s.adminStep D a, ∀ c ∈ s.cleared, Live D _ _ _))
  | .write tables => inferInstanceAs (Decidable (∀ c ∈ s.cleared, Bound tables _))
  | .changePlugins _ => .isTrue trivial
  | .start _ => .isTrue trivial
  | .drop _ => .isTrue trivial

/-! ## Runs -/

structure Inv (D : Deployment) (s : State) : Prop where
  exchange_le : ∀ k, s.shared.sessions.pending k +
      s.tasks.countP (fun stage => concerns k stage.unexchanged) + s.shared.exchanges.count k ≤
    issued s.shared.starts.length k
  insert_le : ∀ k, s.shared.sessions.pending k +
      s.tasks.countP (fun stage => concerns k stage.uninserted) +
        (s.shared.insertions.map Insertion.serial).count k ≤
    issued s.shared.starts.length k
  dated : s.shared.Dated
  taken : ∀ (i : Nat) stage c, s.tasks[i]? = some stage → stage.uninserted = some c →
    c.Started s.shared.starts ∧ c.Admitted D
  checked : ∀ (i : Nat) stage, s.tasks[i]? = some stage → stage.Checked
  cleared : ∀ c ∈ s.cleared, Live D s.shared.admin s.shared.now c.session.initiator ∧
    Bound s.shared.tables c.session
  authorised : ∀ e ∈ s.shared.insertions, e.Authorised D s.shared.starts

section
variable {D : Deployment} {s s' : State} {a : Action}

theorem issued_le_one (n k : Nat) : issued n k ≤ 1 := by
  unfold issued
  split <;> omega

theorem Inv.enrolled (h : Inv D s) : Enrolled D s.shared where
  exchanged_once k := by
    have hle := h.exchange_le k
    have hone := issued_le_one s.shared.starts.length k
    omega
  inserted_once k := by
    have hle := h.insert_le k
    have hone := issued_le_one s.shared.starts.length k
    omega
  authorised := h.authorised

theorem mem_cleared {c : Completion} : c ∈ s.cleared ↔
    ∃ (i : Nat) (stage : Stage), s.tasks[i]? = some stage ∧ stage.cleared = some c := by
  rw [State.cleared, List.mem_filterMap]
  constructor
  · rintro ⟨stage, hmem, hc⟩
    obtain ⟨i, hi⟩ := List.mem_iff_getElem?.mp hmem
    exact ⟨i, stage, hi, hc⟩
  · rintro ⟨i, stage, hi, hc⟩
    exact ⟨stage, List.mem_of_getElem? hi, hc⟩

theorem Completion.Started.mono {c : Completion} {starts starts' : List Start}
    (h : c.Started starts) (hs : ∀ b ∈ starts, b ∈ starts') : c.Started starts' := by
  obtain ⟨b, hb, h⟩ := h
  exact ⟨b, hs b hb, h⟩

theorem Insertion.Authorised.mono {e : Insertion} {starts starts' : List Start}
    (h : e.Authorised D starts) (hs : ∀ b ∈ starts, b ∈ starts') : e.Authorised D starts' where
  started := h.started.mono hs
  admitted := h.admitted
  live := h.live
  bound := h.bound
  provider := h.provider

/-- Time passes, another handler moves, or tables are written. -/
theorem Inv.frame {shared : Shared} {adminTasks : List Admin.Stage} (h : Inv D s)
    (hnow : s.shared.now ≤ shared.now) (hsessions : shared.sessions = s.shared.sessions)
    (hstarts : shared.starts = s.shared.starts)
    (hexchanges : shared.exchanges = s.shared.exchanges)
    (hinsertions : shared.insertions = s.shared.insertions)
    (hcleared : ∀ c ∈ s.cleared, Live D shared.admin shared.now c.session.initiator ∧
      Bound shared.tables c.session) : Inv D ⟨shared, adminTasks, s.tasks⟩ where
  exchange_le k := by
    rw [hsessions, hexchanges, hstarts]
    exact h.exchange_le k
  insert_le k := by
    rw [hsessions, hinsertions, hstarts]
    exact h.insert_le k
  dated e he := by
    rw [hsessions] at he
    obtain ⟨b, hb, hsession, hle, hexpires⟩ := h.dated e he
    exact ⟨b, hstarts ▸ hb, hsession, Nat.le_trans hle hnow, hexpires⟩
  taken i stage c hi hc := by
    rw [hstarts]
    exact h.taken i stage c hi hc
  checked := h.checked
  cleared := hcleared
  authorised e he := by
    rw [hstarts]
    exact h.authorised e (hinsertions ▸ he)

/-- A handler begins with nothing to insert. -/
theorem Inv.start_request (h : Inv D s) (request : Request) :
    Inv D { s with tasks := s.tasks ++ [request.entry] } where
  exchange_le k := by
    have hle := h.exchange_le k
    rwa [List.countP_append, List.countP_singleton, request.entry_idle.unexchanged]
  insert_le k := by
    have hle := h.insert_le k
    have hidle : request.entry.uninserted = none := request.entry_idle
    rwa [List.countP_append, List.countP_singleton, hidle]
  dated := h.dated
  taken j stage c hj hc := by
    rcases TaskList.of_start hj with ⟨-, rfl⟩ | hold
    · rw [show request.entry.uninserted = none from request.entry_idle] at hc
      cases hc
    · exact h.taken j stage c hold hc
  checked j stage hj := by
    rcases TaskList.of_start hj with ⟨-, rfl⟩ | hold
    · exact request.entry_idle.checked
    · exact h.checked j stage hold
  cleared c hc := by
    obtain ⟨j, stage, hj, hstage⟩ := mem_cleared.mp hc
    rcases TaskList.of_start hj with ⟨-, rfl⟩ | hold
    · rw [request.entry_idle.cleared] at hstage
      cases hstage
    · exact h.cleared c (mem_cleared.mpr ⟨j, stage, hold, hstage⟩)
  authorised := h.authorised

theorem Inv.advance {i : Nat} {env : Env} {stage next : Stage} {shared : Shared} (h : Inv D s)
    (hi : s.tasks[i]? = some stage) (heffect : Effect D env s.shared stage shared next)
    (hsafe : ∀ c, next.cleared = some c → stage.cleared = some c ∨
      Live D s.shared.admin s.shared.now c.session.initiator ∧ Bound s.shared.tables c.session) :
    Inv D { s with shared := shared, tasks := s.tasks.set i next } where
  exchange_le k := by
    have hle := h.exchange_le k
    have hmove := heffect.exchange_le k
    have hcount := TaskList.countP_set next (fun stage => concerns k stage.unexchanged) hi
    dsimp only at hcount ⊢
    omega
  insert_le k := by
    have hle := h.insert_le k
    have hmove := heffect.insert_le k
    have hcount := TaskList.countP_set next (fun stage => concerns k stage.uninserted) hi
    dsimp only at hcount ⊢
    omega
  dated := heffect.dated h.dated
  taken j stage' c hj hc := by
    have hold : ∀ (l : Nat) stage, s.tasks[l]? = some stage → stage.uninserted = some c →
        c.Started shared.starts ∧ c.Admitted D := fun l stage hl hc =>
      (h.taken l stage c hl hc).imp_left fun hstarted => hstarted.mono heffect.starts
    rcases TaskList.of_set hj with ⟨-, rfl⟩ | ⟨-, hj⟩
    · rcases heffect.taken_of h.dated hc with hc | hnew
      · exact hold i stage hi hc
      · exact hnew
    · exact hold j stage' hj hc
  checked j stage' hj := by
    rcases TaskList.of_set hj with ⟨-, rfl⟩ | ⟨-, hold⟩
    · exact heffect.checked (h.checked i stage hi)
    · exact h.checked j stage' hold
  cleared c hc := by
    have hold : ∀ (l : Nat) stage, s.tasks[l]? = some stage → stage.cleared = some c →
        Live D shared.admin shared.now c.session.initiator ∧ Bound shared.tables c.session :=
      fun l stage hl hc =>
        (h.cleared c (mem_cleared.mpr ⟨l, stage, hl, hc⟩)).imp heffect.live heffect.bound
    obtain ⟨j, stage', hj, hstage⟩ := mem_cleared.mp hc
    rcases TaskList.of_set hj with ⟨-, rfl⟩ | ⟨-, hj⟩
    · rcases hsafe c hstage with hc | ⟨hlive, hbound⟩
      · exact hold i stage hi hc
      · exact ⟨heffect.live hlive, heffect.bound hbound⟩
    · exact hold j stage' hj hstage
  authorised e he := by
    rcases heffect.insertion_of (h.checked i stage hi) he with hold | hnew
    · exact (h.authorised e hold).mono heffect.starts
    · obtain ⟨hcleared, hnow, hadmin, htables, hprovider⟩ := hnew
      obtain ⟨hstarted, hadmitted⟩ := h.taken i stage _ hi (Stage.uninserted_of_cleared hcleared)
      obtain ⟨hlive, hbound⟩ := h.cleared _ (mem_cleared.mpr ⟨i, stage, hi, hcleared⟩)
      exact
        { started := hstarted.mono heffect.starts
          admitted := hadmitted
          live := hnow ▸ hadmin ▸ hlive
          bound := htables ▸ hbound
          provider := hprovider }

/-- A handler whose future is dropped has nothing to insert any more. -/
theorem Inv.drop {i : Nat} {stage : Stage} (h : Inv D s) (hi : s.tasks[i]? = some stage) :
    Inv D { s with tasks := s.tasks.set i .dropped } :=
  h.advance hi (.idle rfl : Effect D { dbOk := true } s.shared stage s.shared .dropped)
    fun c hc => by cases hc

theorem Inv.step (h : Inv D s) (hsafe : s.Undisturbed D a) (hs : s.step D a = some s') :
    Inv D s' := by
  cases a with
  | wait seconds =>
    cases hs
    refine h.frame (Nat.le_add_right _ seconds) rfl rfl rfl rfl fun c hc => ?_
    exact ⟨hsafe c hc, (h.cleared c hc).2⟩
  | admin a =>
    obtain ⟨admin, hadmin, hs⟩ := Option.bind_eq_some_iff.mp hs
    cases hs
    refine h.frame (Nat.le_refl _) rfl rfl rfl rfl fun c hc => ?_
    exact ⟨hsafe admin hadmin c hc, (h.cleared c hc).2⟩
  | write tables =>
    cases hs
    refine h.frame (Nat.le_refl _) rfl rfl rfl rfl fun c hc => ?_
    exact ⟨(h.cleared c hc).1, hsafe c hc⟩
  | changePlugins plugins =>
    cases hs
    exact h.frame (Nat.le_refl _) rfl rfl rfl rfl h.cleared
  | start request =>
    cases hs
    exact h.start_request request
  | advance i env =>
    obtain ⟨stage, hstage, hs⟩ := Option.bind_eq_some_iff.mp hs
    obtain ⟨⟨shared, next⟩, hadvance, hs⟩ := Option.bind_eq_some_iff.mp hs
    cases hs
    refine h.advance hstage (Stage.moves hadvance).effect fun c hc => ?_
    refine ((Stage.moves hadvance).effect.cleared_of (h.checked i stage hstage) hc).imp_right ?_
    intro ⟨hclears, hbound⟩
    exact ⟨hsafe c (Option.mem_bind_iff.mpr ⟨stage, hstage, hclears⟩), hbound⟩
  | drop i =>
    rw [State.step] at hs
    split at hs
    · cases hs
    · cases hs
      exact h.drop ‹_›
    · cases hs

theorem Inv.start (stored : Stored) : Inv D (process D stored).start where
  exchange_le k := Nat.zero_le _
  insert_le k := Nat.zero_le _
  dated e he := by cases he
  taken i stage c hi := by cases hi
  checked i stage hi := by cases hi
  cleared c hc := by cases hc
  authorised e he := by cases he

end

/-- In every run in which each completion is found to be bound while its initiator is logged in, and
neither that login nor the binding ends before its account is inserted, each started session leads
to at most one exchange and one account, and each account is inserted with authority. -/
theorem accounts_enrolled (D : Deployment) (stored : Stored) (as : List Action) (s : State)
    (hc : (process D stored).Meets (fun _ s a => s.Undisturbed D a) as)
    (hr : (process D stored).run as = some s) : Enrolled D s.shared := by
  refine Inv.enrolled ((process D stored).run_induction_of_meets
    (I := fun _ s => Inv D s) (Inv.start stored) ?_ as s hc hr)
  intro as s a s' h hsafe hs
  exact h.step hsafe hs

/-! ## Runs of the loopback plugin -/

/-- The digest of the admin's password. -/
def loginHash : Sha256 := .ofTable
  { digests := [("correct horse",
      "4104d36f8da2c254349f85836793ebe029e0c957063a34c91c2e9203187b5631")]
    injective := by simp
    hex := by decide
    nonempty := by decide }

def authorizeUrl : String :=
  "https://claude.ai/oauth/authorize?state=5747&redirect_uri=http%3A%2F%2Flocalhost%3A8080" ++
    "%2Fcallback&code_challenge=E9Melhoa2OwvFrEMTJguCHaoeK1t8URWbuGJSstw-cM"

/-- The URLs that the runs meet. -/
def parseLoopback (url : String) : Option Url :=
  if url = "http://127.0.0.1:8080" then
    some { scheme := "http", host := some "127.0.0.1", port := some 8080, path := "/" }
  else if url = authorizeUrl then
    some
      { scheme := "https"
        host := some "claude.ai"
        port := none
        path := "/oauth/authorize"
        query := some (String.ofList (authorizeUrl.toList.drop 34))
        queryPairs := [("state", "5747"), ("redirect_uri", "http://localhost:8080/callback"),
          ("code_challenge", "E9Melhoa2OwvFrEMTJguCHaoeK1t8URWbuGJSstw-cM")] }
  else if url = "http://localhost:8080/callback" then
    some { scheme := "http", host := some "localhost", port := some 8080, path := "/callback" }
  else none

def loopbackDeployment : Deployment where
  hash := loginHash
  admin := ⟨"correct horse", none, 86400⟩
  bind := "127.0.0.1:8080"
  publicBaseUrl := "http://localhost:8080"
  pluginHost := true
  parseUrl := parseLoopback
  json := .ofEmptyObject
  pkceChallenge verifier :=
    if verifier = "dBjftJeZ4CVP-mB92K27uhbUJU1p1r_wW1gFWFOEjXk" then
      "E9Melhoa2OwvFrEMTJguCHaoeK1t8URWbuGJSstw-cM"
    else ""
  encrypt text := if text = "\x7b\x7d" then some "AAECAwQFBgcICQoLc2VhbGVk" else none

/-- A provider that was set up from the plugin, without accounts. -/
def claudeProvider : ProviderRow where
  id := "prov_claude"
  name := "Claude"
  baseUrl := "https://api.anthropic.com"
  wireFormat := "anthropic"
  authScheme := "bearer"
  customHeaderName := none
  customParamName := none
  extraHeaders := "\x7b\x7d"
  timeoutMs := 120000
  capabilityMode := "strict"
  modelsPath := none
  rateLimitRules := "[]"
  enabled := 1
  followRedirects := 0
  credentialHosts := "[]"
  allowInsecureTls := 0
  createdAt := "2026-05-01T00:00:00Z"
  wirePlugin := ""
  credentialPlugin := "plugin:dev.kinetix.claude-code-oauth/claude-oauth"
  modelSourcePlugin := ""
  credentialMode := "auth_flow"
  sourcePluginId := some claudeCodeOauth
  sourceIntegrationId := some "claude"

def claudeStored : Stored where
  setting := none
  tables := ⟨[claudeProvider], [], [], [], [], []⟩
  plugins := [(claudeCodeOauth,
    some ⟨[⟨"claude", some "claude-oauth", some "login"⟩], ["claude.ai"]⟩)]

/-- What the steps of an undisturbed enrollment meet. -/
def enrollmentEnv : Env where
  dbOk := true
  state := "5747"
  pkceVerifier := "dBjftJeZ4CVP-mB92K27uhbUJU1p1r_wW1gFWFOEjXk"
  authBegin := .ok authorizeUrl
  authExchange := .ok ⟨"\x7b\x7d", none⟩
  accountId := "acc_1"
  createdAt := "2026-05-01T00:01:00Z"

def steps (i n : Nat) : List Action := .replicate n (.advance i enrollmentEnv)

def adminSteps (i n : Nat) : List Action :=
  .replicate n (.admin (.advance i ⟨true, "", 0, "70ac"⟩))

/-- The admin logs in and starts an authorization; the browser is sent back with a code. -/
def loginAndStart : List Action :=
  .admin (.start (.login ⟨none, "correct horse"⟩)) :: adminSteps 0 5 ++
    .start (.guarded ⟨none, some "70ac", none⟩
      (.startPluginAuth ⟨claudeCodeOauth, "login", "prov_claude"⟩)) :: steps 0 5 ++
    [.wait 30, .start (.pluginAuthCallback (some "70ac") ⟨"5747", some "code", none⟩)]

def logout : List Action := .admin (.start (.logout (some "70ac"))) :: adminSteps 1 3

/-- The provider is bound to another strategy. -/
def rebind : Action :=
  .write ⟨[{ claudeProvider with credentialPlugin := "" }], [], [], [], [], []⟩

/-- A completed enrollment that is not disturbed. -/
theorem accounts_enrolled_loopback :
    ∃ s, (process loopbackDeployment claudeStored).run (loginAndStart ++ steps 1 10) = some s ∧
      s.shared.insertions.map Insertion.insertedAt = [30] ∧
      Enrolled loopbackDeployment s.shared := by
  obtain ⟨s, hr, hinserted⟩ :
      ∃ s ∈ (process loopbackDeployment claudeStored).run (loginAndStart ++ steps 1 10),
        s.shared.insertions.map Insertion.insertedAt = [30] := by decide +kernel
  refine ⟨s, hr, hinserted,
    accounts_enrolled loopbackDeployment claudeStored (loginAndStart ++ steps 1 10) s ?_ hr⟩
  exact Machine.Along.meets _ (by decide +kernel)

/-- The admin logs out before the browser comes back, and the account is inserted all the same. In
another run the provider is bound to another strategy after it was looked at. -/
theorem accounts_not_enrolled :
    (∃ s, (process loopbackDeployment claudeStored).run (loginAndStart ++ logout ++ steps 1 7) =
        some s ∧ ¬ Enrolled loopbackDeployment s.shared) ∧
    ∃ s, (process loopbackDeployment claudeStored).run
        (loginAndStart ++ steps 1 6 ++ [rebind] ++ steps 1 1) = some s ∧
      ¬ Enrolled loopbackDeployment s.shared := by
  constructor
  · obtain ⟨s, hr, e, he, hdead⟩ :
        ∃ s ∈ (process loopbackDeployment claudeStored).run (loginAndStart ++ logout ++ steps 1 7),
          ∃ e ∈ s.shared.insertions, ¬ Live loopbackDeployment e.admin e.insertedAt
            e.completion.session.initiator := by decide +kernel
    exact ⟨s, hr, fun h => hdead (h.authorised e he).live⟩
  · obtain ⟨s, hr, e, he, hunbound⟩ :
        ∃ s ∈ (process loopbackDeployment claudeStored).run
            (loginAndStart ++ steps 1 6 ++ [rebind] ++ steps 1 1),
          ∃ e ∈ s.shared.insertions, ¬ Bound e.tables e.completion.session := by decide +kernel
    exact ⟨s, hr, fun h => hunbound (h.authorised e he).bound⟩

end Kinetix.Enrollment
