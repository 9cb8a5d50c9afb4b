import Kinetix.Library.TaskList
import Kinetix.Plugins.Authority

/-!
# A plugin runs only with approved authority

Packages, manifests, grants and the enabled flag change in statements of their own. What keeps an
invocation within what was approved is that installing clears the grants in the statement that
stores the package, and that grants are compared with the manifest of the row that was read.
-/

namespace Kinetix.Plugins.Authority
open Checks KeyedTable StateMachine

/-- The package with the digest has the component and the manifest. -/
def Genuine (H : Host) (sha256 : String) (component : List UInt8) (manifest : Manifest) : Prop :=
  ∃ bytes package, readPackage H bytes = .ok package ∧
    H.parseAndValidate package.manifestToml = .ok manifest ∧
    package.component = component ∧ package.packageSha256 = sha256

/-- What an invocation holds, by the state in which it read its row and the one in which it read the
grants. Each grant was approved after the package of the row was installed. -/
structure Sanctioned (H : Host) (t u : Shared) (v : Invocation) : Prop where
  read : t.plugin = some v.row
  enabled : v.row.enabled = true
  manifest : H.readManifest v.row.manifestJson = some v.manifest
  package : Genuine H v.row.packageSha256 v.component v.manifest
  networkHosts : v.ctx.networkHosts = v.manifest.permissions.networkHosts
  credentialScopes : v.ctx.credentialScopes = v.manifest.permissions.credentialScopes
  credentialRead : v.ctx.credentialRead = v.manifest.permissions.credentialRead
  credentialSign : v.ctx.credentialSign = !v.manifest.permissions.credentialScopes.isEmpty
  recorded : ∀ g, g ∈ u.permissions.rows ↔ g ∈ permissionGrants H v.manifest
  approved : ∀ g ∈ permissionGrants H v.manifest,
    ∃ a ∈ u.approvals, t.installs ≤ a.installs ∧ g ∈ a.grants

/-- The run went through two such states. -/
def Authorized (H : Host) (as : List Action) (v : Invocation) : Prop :=
  ∃ pre mid post t u, as = pre ++ mid ++ post ∧ (manager H).run pre = some t ∧
    (manager H).run (pre ++ mid) = some u ∧ Sanctioned H t.shared u.shared v

/-- No operation is in flight. -/
def State.Quiescent (s : State) : Prop :=
  ∀ (i : Nat) (stage : Stage), s.tasks[i]? = some stage → ¬ stage.InFlight

/-- The action does not start anything but an invocation. -/
def Action.Prepares : Action → Prop
  | .start (.prepare _) => True
  | .start _ => False
  | _ => True

/-- No invocation that is begun in the state is let run before another operation is. -/
def State.CannotPrepare (H : Host) (s : State) : Prop :=
  ∀ bs s', (∀ b ∈ bs, b.Prepares) → (manager H).runFrom s bs = some s' →
    ∀ i v, s.tasks.length ≤ i → s'.tasks[i]? ≠ some (.running v)

/-! ## Grants -/

section
variable {H : Host} {manifest : Manifest} {grants approved : List PermissionGrant}

theorem ensurePermissionsApproved_eq_ok :
    ensurePermissionsApproved H manifest approved = .ok grants ↔
      (∀ g, g ∈ approved ↔ g ∈ permissionGrants H manifest) ∧ approved = grants := by
  rw [ensurePermissionsApproved, seq_eq_ok, refuseIf_eq_ok, not_not, pure_eq_ok, Finset.ext_iff]
  simp only [List.mem_toFinset]
  exact and_congr_left fun _ => forall_congr' fun _ => Iff.comm

theorem permissionGrants_nodup : ((permissionGrants H manifest).map
    PermissionGrant.permission).Nodup := by
  simp only [permissionGrants]
  split <;> split <;> split <;> simp [listGrant, credentialReadGrant]

theorem mem_readPermissions {s : Shared} {g : PermissionGrant} :
    g ∈ s.readPermissions ↔ g ∈ s.permissions.rows :=
  (List.perm_insertionSort _ _).mem_iff

/-- Grants of different permissions set different fields. -/
theorem applyGrant_comm {g g' : PermissionGrant} (h : g.permission = g'.permission → g = g')
    (p : Permissions) : applyGrant H (applyGrant H p g) g' =
      applyGrant H (applyGrant H p g') g := by
  by_cases he : g = g'
  · rw [he]
  · have hne : g.permission ≠ g'.permission := fun hp => he (h hp)
    unfold applyGrant
    grind

theorem foldl_permissionGrants :
    (permissionGrants H manifest).foldl (applyGrant H) {} = manifest.permissions := by
  have hread := H.strings_readsBack
  obtain ⟨_, _, hosts, scopes, read⟩ := manifest
  cases read <;> by_cases hh : hosts = [] <;> by_cases hs : scopes = [] <;>
    simp [permissionGrants, applyGrant, listGrant, credentialReadGrant, readBool, hh, hs,
      hread _]

/-- The grants of a manifest, in whatever order, give the authority that it asks for. -/
theorem foldl_applyGrant (hnodup : (grants.map PermissionGrant.permission).Nodup)
    (hmem : ∀ g, g ∈ grants ↔ g ∈ permissionGrants H manifest) :
    grants.foldl (applyGrant H) {} = manifest.permissions := by
  have hperm : grants.Perm (permissionGrants H manifest) :=
    (List.perm_ext_iff_of_nodup hnodup.of_map permissionGrants_nodup.of_map).mpr hmem
  rw [hperm.foldl_eq' ?_ _, foldl_permissionGrants]
  intro g hg g' hg' p
  exact applyGrant_comm (fun h => List.inj_on_of_nodup_map hnodup hg hg' h) p

end

/-! ## Packages -/

section
variable {H : Host} {sha256 : String} {component : List UInt8} {manifest : Manifest}

theorem readPackage_packageSha256 {bytes : List UInt8} {package : Package}
    (h : readPackage H bytes = .ok package) : package.packageSha256 = H.sha256Hex bytes := by
  obtain ⟨⟨manifestToml, component⟩, -, h⟩ := bind_eq_ok.mp h
  cases h
  rfl

/-- The digest of a package determines its component and its manifest. -/
theorem Genuine.unique {component' : List UInt8} {manifest' : Manifest}
    (h : Genuine H sha256 component manifest) (h' : Genuine H sha256 component' manifest') :
    component = component' ∧ manifest = manifest' := by
  obtain ⟨bytes, package, hp, hm, rfl, hsha⟩ := h
  obtain ⟨bytes', package', hp', hm', rfl, hsha'⟩ := h'
  have hbytes : bytes = bytes' := by
    apply H.sha256Hex_injective
    rw [← readPackage_packageSha256 hp, ← readPackage_packageSha256 hp', hsha, hsha']
  subst hbytes
  obtain rfl := Except.ok.inj (hp.symm.trans hp')
  exact ⟨rfl, Except.ok.inj (hm.symm.trans hm')⟩

/-- Digests that are equal but for the case of their letters are equal. -/
theorem sha256Hex_eq {bytes bytes' : List UInt8}
    (h : Text.eqIgnoreAsciiCase (H.sha256Hex bytes) (H.sha256Hex bytes') = true) :
    H.sha256Hex bytes = H.sha256Hex bytes' := by
  rwa [Text.eqIgnoreAsciiCase, beq_iff_eq, H.sha256Hex_lowercase, H.sha256Hex_lowercase] at h

end

/-! ## What the state keeps -/

/-- The row and the cached component are those of a package, and each grant was approved since the
last install. -/
structure Shared.Kept (H : Host) (s : Shared) : Prop where
  row : ∀ row, s.plugin = some row → ∃ manifest,
    H.readManifest row.manifestJson = some manifest ∧
      Genuine H row.packageSha256 row.component manifest
  cache : ∀ c, s.cache = some c → ∃ manifest, Genuine H c.packageSha256 c.component manifest
  packages : ∀ p ∈ s.packages.rows, ∃ bytes, H.sha256Hex bytes = p.packageSha256
  approved : ∀ g ∈ s.permissions.rows, ∃ a ∈ s.approvals, a.installs = s.installs ∧ g ∈ a.grants

namespace Shared.Kept
variable {H : Host} {s : Shared}

theorem upsertPlugin {sha256 : String} {component : List UInt8} {manifest : Manifest}
    (h : s.Kept H) (hg : Genuine H sha256 component manifest) :
    (s.upsertPlugin H sha256 component manifest).Kept H where
  row := by
    rintro row hrow
    cases hrow
    exact ⟨manifest, H.readManifest_manifestJson manifest, hg⟩
  cache := h.cache
  packages := by
    intro p hp
    rcases Table.of_mem_insertOrIgnore hp with rfl | hp
    · obtain ⟨bytes, package, hpackage, -, -, hsha⟩ := hg
      exact ⟨bytes, (readPackage_packageSha256 hpackage).symm.trans hsha⟩
    · exact h.packages p hp
  approved := by
    intro g hg
    cases hg

theorem rememberComponent {sha256 : String} {component : List UInt8} {manifest : Manifest}
    (h : s.Kept H) (hg : Genuine H sha256 component manifest) :
    (s.rememberComponent sha256 component).Kept H where
  row := h.row
  cache := by
    intro c hc
    cases hc
    exact ⟨manifest, hg⟩
  packages := h.packages
  approved := h.approved

theorem replacePermissions {grants : List PermissionGrant} {s' : Shared} (h : s.Kept H)
    (hs : s.replacePermissions grants = some s') : s'.Kept H := by
  rw [Shared.replacePermissions, Option.bind_eq_bind, Option.bind_eq_some_iff] at hs
  obtain ⟨table, htable, hs⟩ := hs
  split at hs
  · cases hs
  · cases hs
    refine ⟨h.row, h.cache, h.packages, ?_⟩
    intro g hg
    rw [Table.rows_ofRows htable] at hg
    exact ⟨⟨s.installs, grants⟩, List.mem_cons_self, rfl, hg⟩

theorem revokePermission (h : s.Kept H) (permission : String) :
    (s.revokePermission permission).Kept H where
  row := h.row
  cache := h.cache
  packages := h.packages
  approved g hg := h.approved g (Table.mem_deleteWhere.mp hg).1

theorem setEnabled (h : s.Kept H) (enabled : Bool) : (s.setEnabled enabled).Kept H where
  row := by
    intro row hrow
    obtain ⟨row', hrow', rfl⟩ := Option.map_eq_some_iff.mp hrow
    exact h.row row' hrow'
  cache := h.cache
  packages := h.packages
  approved := h.approved

theorem deletePlugin (h : s.Kept H) : s.deletePlugin.Kept H where
  row row hrow := by cases hrow
  cache := h.cache
  packages := h.packages
  approved g hg := by cases hg

theorem forget (h : s.Kept H) : Shared.Kept H { s with cache := none } where
  row := h.row
  cache c hc := by cases hc
  packages := h.packages
  approved := h.approved

end Shared.Kept

/-! ## What an operation in flight keeps -/

/-- An invocation read the row, and it was enabled, in a state that the run went through. -/
def ReadIn (H : Host) (as : List Action) (caller : Caller) (row : PluginRow)
    (manifest : Manifest) : Prop :=
  Genuine H row.packageSha256 row.component manifest ∧
    ∀ cached, caller = .prepare cached → ∃ pre post t, as = pre ++ post ∧
      (manager H).run pre = some t ∧ t.shared.plugin = some row ∧ row.enabled = true ∧
      H.readManifest row.manifestJson = some manifest

/-- The grants that an invocation read in the second state after its row in the first one. -/
structure Granted (H : Host) (t u : Shared) (row : PluginRow) (manifest : Manifest)
    (grants : List PermissionGrant) : Prop where
  read : t.plugin = some row
  enabled : row.enabled = true
  readable : H.readManifest row.manifestJson = some manifest
  matched : ensurePermissionsApproved H manifest u.readPermissions = .ok grants
  approved : ∀ g ∈ u.permissions.rows, ∃ a ∈ u.approvals, t.installs ≤ a.installs ∧ g ∈ a.grants

def GrantedIn (H : Host) (as : List Action) (caller : Caller) (row : PluginRow)
    (manifest : Manifest) (grants : List PermissionGrant) : Prop :=
  Genuine H row.packageSha256 row.component manifest ∧
    ∀ cached, caller = .prepare cached → ∃ pre mid post t u, as = pre ++ mid ++ post ∧
      (manager H).run pre = some t ∧ (manager H).run (pre ++ mid) = some u ∧
      Granted H t.shared u.shared row manifest grants

/-- What an operation carries along is genuine. -/
def Stage.Sound (H : Host) (as : List Action) : Stage → Prop
  | .upsert sha256 component manifest => Genuine H sha256 component manifest
  | .remember sha256 component => ∃ manifest, Genuine H sha256 component manifest
  | .packageLoad _ retained _ => ∃ bytes, H.sha256Hex bytes = retained.packageSha256
  | .permissions caller row manifest => ReadIn H as caller row manifest
  | .compile caller row manifest grants => GrantedIn H as caller row manifest grants
  | .rememberCompiled caller row manifest grants component =>
    GrantedIn H as caller row manifest grants ∧ Genuine H row.packageSha256 component manifest
  | .running v => Authorized H as v
  | _ => True

section
variable {H : Host} {as : List Action} {s s' : Shared} {env : Env} {caller : Caller}
  {row : PluginRow} {manifest : Manifest} {grants : List PermissionGrant} {stage : Stage}

theorem ReadIn.snoc (h : ReadIn H as caller row manifest) (a : Action) :
    ReadIn H (as ++ [a]) caller row manifest := by
  refine ⟨h.1, fun cached hc => ?_⟩
  obtain ⟨pre, post, t, rfl, hread⟩ := h.2 cached hc
  exact ⟨pre, post ++ [a], t, List.append_assoc .., hread⟩

theorem GrantedIn.snoc (h : GrantedIn H as caller row manifest grants) (a : Action) :
    GrantedIn H (as ++ [a]) caller row manifest grants := by
  refine ⟨h.1, fun cached hc => ?_⟩
  obtain ⟨pre, mid, post, t, u, rfl, hread⟩ := h.2 cached hc
  exact ⟨pre, mid, post ++ [a], t, u, List.append_assoc .., hread⟩

theorem Authorized.snoc {v : Invocation} (h : Authorized H as v) (a : Action) :
    Authorized H (as ++ [a]) v := by
  obtain ⟨pre, mid, post, t, u, rfl, hv⟩ := h
  exact ⟨pre, mid, post ++ [a], t, u, List.append_assoc .., hv⟩

theorem Stage.Sound.snoc (h : stage.Sound H as) (a : Action) : stage.Sound H (as ++ [a]) := by
  cases stage with
  | permissions caller row manifest => exact ReadIn.snoc h a
  | compile caller row manifest grants => exact GrantedIn.snoc h a
  | rememberCompiled caller row manifest grants component => exact ⟨GrantedIn.snoc h.1 a, h.2⟩
  | running v => exact Authorized.snoc h a
  | _ => exact h

/-- The grants that were read are exactly those of the manifest. -/
theorem Granted.sanctioned {t u : Shared} {component : List UInt8}
    (h : Granted H t u row manifest grants)
    (hg : Genuine H row.packageSha256 component manifest) :
    Sanctioned H t u ⟨row, manifest, newStore H grants, component⟩ := by
  obtain ⟨hmem, rfl⟩ := ensurePermissionsApproved_eq_ok.mp h.matched
  have hnodup : (u.readPermissions.map PermissionGrant.permission).Nodup :=
    ((List.perm_insertionSort _ _).map _).nodup_iff.mpr u.permissions.primaryKey
  have hauthority := foldl_applyGrant hnodup hmem
  have hrows : ∀ g, g ∈ u.permissions.rows ↔ g ∈ permissionGrants H manifest := fun g =>
    mem_readPermissions.symm.trans (hmem g)
  exact {
    read := h.read
    enabled := h.enabled
    manifest := h.readable
    package := hg
    networkHosts := congrArg Permissions.networkHosts hauthority
    credentialScopes := congrArg Permissions.credentialScopes hauthority
    credentialRead := congrArg Permissions.credentialRead hauthority
    credentialSign := congrArg (fun p : Permissions => !p.credentialScopes.isEmpty) hauthority
    recorded := hrows
    approved := fun g hgrant => h.approved g ((hrows g).mpr hgrant) }

theorem instantiate_sound {component : List UInt8}
    (h : GrantedIn H as caller row manifest grants)
    (hg : Genuine H row.packageSha256 component manifest) :
    (instantiate H row manifest grants component caller).Sound H as := by
  cases caller with
  | enable | validate => exact trivial
  | prepare cached =>
    obtain ⟨pre, mid, post, t, u, has, ht, hu, hgranted⟩ := h.2 cached rfl
    exact ⟨pre, mid, post, t, u, has, ht, hu, hgranted.sanctioned hg⟩

theorem Stage.sound_ofExcept {result : Except String Stage}
    (h : ∀ stage, result = .ok stage → stage.Sound H as) :
    (Stage.ofExcept result).Sound H as := by
  cases result with
  | ok stage => exact h stage rfl
  | error message => exact trivial

/-! ## Steps -/

theorem installFromSource_sound {bytes : List UInt8} {expected : Option String}
    (h : installFromSource H env bytes expected = .ok stage) : stage.Sound H as := by
  obtain ⟨package, hpackage, h⟩ := bind_eq_ok.mp h
  obtain ⟨-, h⟩ := seq_eq_ok.mp h
  obtain ⟨manifest, hmanifest, h⟩ := bind_eq_ok.mp h
  obtain ⟨-, h⟩ := seq_eq_ok.mp h
  cases h
  split
  · exact ⟨bytes, package, hpackage, hmanifest, rfl, rfl⟩
  · exact trivial

variable {next : Stage} {sha256 : String} {after : Option Shared} {st : State}

theorem rollbackGet_sound (h : rollbackGet H s env sha256 = .ok stage) : stage.Sound H as := by
  obtain ⟨-, h⟩ := seq_eq_ok.mp h
  obtain ⟨current, -, h⟩ := bind_eq_ok.mp h
  obtain ⟨-, h⟩ := seq_eq_ok.mp h
  cases h
  exact trivial

theorem packageGet_sound {rollback : Bool} (hs : s.Kept H)
    (h : packageGet H s env rollback sha256 = .ok stage) : stage.Sound H as := by
  obtain ⟨-, h⟩ := seq_eq_ok.mp h
  obtain ⟨retained, hretained, h⟩ := bind_eq_ok.mp h
  cases h
  exact hs.packages retained (Table.find_eq_some.mp (okOr_eq_ok.mp hretained)).1

/-- A retained package that is loaded has the digest of its row. -/
theorem loadRetainedPackage_genuine {retained : PackageRow} {bytes : List UInt8}
    {package : Package} (hretained : ∃ bytes, H.sha256Hex bytes = retained.packageSha256)
    (h : loadRetainedPackage H retained sha256 bytes = .ok (package, manifest)) :
    Genuine H retained.packageSha256 package.component manifest := by
  obtain ⟨hsha, h⟩ := seq_eq_ok.mp h
  obtain ⟨package', hpackage, h⟩ := bind_eq_ok.mp h
  obtain ⟨manifest', hmanifest, h⟩ := bind_eq_ok.mp h
  obtain ⟨-, h⟩ := seq_eq_ok.mp h
  obtain ⟨-, h⟩ := seq_eq_ok.mp h
  cases h
  obtain ⟨bytes', hbytes'⟩ := hretained
  refine ⟨bytes, package, hpackage, hmanifest, rfl, ?_⟩
  have hsame := (not_not.mp (refuseIf_eq_ok.mp hsha)).1
  rw [← hbytes'] at hsame ⊢
  exact (readPackage_packageSha256 hpackage).trans (sha256Hex_eq hsame)

theorem packageLoad_sound {rollback : Bool} {retained : PackageRow}
    (hretained : ∃ bytes, H.sha256Hex bytes = retained.packageSha256)
    (h : packageLoad H env rollback retained sha256 = .ok stage) : stage.Sound H as := by
  obtain ⟨bytes, -, h⟩ := bind_eq_ok.mp h
  obtain ⟨⟨package, manifest⟩, hload, h⟩ := bind_eq_ok.mp h
  cases rollback with
  | true =>
    obtain ⟨-, h⟩ := seq_eq_ok.mp h
    cases h
    exact loadRetainedPackage_genuine hretained hload
  | false =>
    cases h
    exact trivial

theorem approveGet_sound {scope : Option Scope} (h : approveGet H s env scope = .ok stage) :
    stage.Sound H as := by
  obtain ⟨⟨row, manifest⟩, -, h⟩ := bind_eq_ok.mp h
  cases scope with
  | none =>
    cases h
    exact trivial
  | some scope =>
    obtain ⟨grants, -, h⟩ := bind_eq_ok.mp h
    cases h
    exact trivial

theorem revokeGet_sound {permission : String} (h : revokeGet H s env permission = .ok stage) :
    stage.Sound H as := by
  obtain ⟨-, h⟩ := seq_eq_ok.mp h
  obtain ⟨-, h⟩ := seq_eq_ok.mp h
  cases h
  exact trivial

/-- The row that is read now is genuine, and enabled if an invocation goes on with it. -/
theorem get_sound (hs : st.shared.Kept H) (hrun : (manager H).run as = some st)
    (h : get H st.shared env caller = .ok stage) (a : Action) : stage.Sound H (as ++ [a]) := by
  obtain ⟨-, h⟩ := seq_eq_ok.mp h
  obtain ⟨row, hrow, h⟩ := bind_eq_ok.mp h
  obtain ⟨henabled, h⟩ := seq_eq_ok.mp h
  obtain ⟨manifest, hmanifest, h⟩ := bind_eq_ok.mp h
  rw [okOr_eq_ok] at hrow hmanifest
  obtain ⟨manifest', hmanifest', hgenuine⟩ := hs.row row hrow
  obtain rfl := Option.some.inj (hmanifest.symm.trans hmanifest')
  cases caller with
  | enable =>
    obtain ⟨-, h⟩ := seq_eq_ok.mp h
    cases h
    exact ⟨hgenuine, fun cached hc => by cases hc⟩
  | validate =>
    cases h
    exact ⟨hgenuine, fun cached hc => by cases hc⟩
  | prepare cached =>
    cases h
    exact ⟨hgenuine, fun _ _ => ⟨as, [a], st, rfl, hrun, hrow,
      Bool.not_eq_false _ ▸ refuseIf_eq_ok.mp henabled, hmanifest⟩⟩

/-! ## Installs -/

theorem Env.write_eq (h : env.write s after next = (s', stage)) :
    (s' = s ∧ stage = .refused env.dbError) ∨ (after = some s' ∧ stage = next) := by
  unfold Env.write at h
  split at h <;> obtain ⟨rfl, rfl⟩ := Prod.mk.inj h
  · exact Or.inr ⟨rfl, rfl⟩
  · exact Or.inl ⟨rfl, rfl⟩

/-- A statement that writes keeps what both its success and its failure keep. -/
theorem Env.write_induction {P : Shared → Stage → Prop} (h : env.write s after next = (s', stage))
    (hfail : P s (.refused env.dbError)) (hdone : ∀ t, after = some t → P t next) : P s' stage := by
  obtain ⟨rfl, rfl⟩ | ⟨hafter, rfl⟩ := Env.write_eq h
  · exact hfail
  · exact hdone s' hafter

/-- A statement that writes undoes no installation if its success does not. -/
theorem Env.installs_le (h : env.write s after next = (s', stage))
    (hdone : ∀ t, after = some t → s.installs ≤ t.installs) : s.installs ≤ s'.installs :=
  Env.write_induction (P := fun t _ => s.installs ≤ t.installs) h le_rfl hdone

theorem installs_replacePermissions (h : s.replacePermissions grants = some s') :
    s'.installs = s.installs := by
  obtain ⟨table, -, h⟩ := Option.bind_eq_some_iff.mp h
  split at h
  · cases h
  · cases h
    rfl

theorem Stage.installs_le (h : stage.advance H env s = some (s', next)) :
    s.installs ≤ s'.installs := by
  cases stage with
  | upsert sha256 component manifest =>
    apply Env.installs_le (Option.some.inj h)
    intro t ht
    cases ht
    exact Nat.le_succ _
  | approveReplace grants =>
    apply Env.installs_le (Option.some.inj h)
    intro t ht
    exact (installs_replacePermissions ht).ge
  | revokeDelete permission | disable | removeDelete | enableSet =>
    apply Env.installs_le (Option.some.inj h)
    intro t ht
    cases ht
    exact le_rfl
  | running _ | done | refused _ | dropped => cases h
  | _ =>
    cases h
    exact le_rfl

theorem State.step_installs {st st' : State} {a : Action} (h : st.step H a = some st') :
    st.shared.installs ≤ st'.shared.installs := by
  cases a with
  | start operation | drop i =>
    cases h
    exact le_rfl
  | advance i env =>
    obtain ⟨stage, -, h⟩ := Option.bind_eq_some_iff.mp h
    obtain ⟨⟨shared, next⟩, hstep, h⟩ := Option.bind_eq_some_iff.mp h
    cases h
    exact Stage.installs_le hstep

theorem State.runFrom_installs {st st' : State} (h : (manager H).runFrom st as = some st') :
    st.shared.installs ≤ st'.shared.installs :=
  (manager H).runFrom_invariant (P := fun _ => True)
    (I := fun t => st.shared.installs ≤ t.shared.installs)
    (fun _ _ _ _ ht hstep => le_trans ht (State.step_installs hstep)) (fun _ _ => trivial)
    le_rfl h

/-- The grants that are read now were approved after the package of the row was installed. -/
theorem permissions_sound (hs : st.shared.Kept H) (hrun : (manager H).run as = some st)
    (hread : ReadIn H as caller row manifest)
    (h : permissions H st.shared env caller row manifest = .ok stage) (a : Action) :
    stage.Sound H (as ++ [a]) := by
  obtain ⟨-, h⟩ := seq_eq_ok.mp h
  obtain ⟨grants, hgrants, h⟩ := bind_eq_ok.mp h
  cases h
  refine ⟨hread.1, fun cached hc => ?_⟩
  obtain ⟨pre, post, t, rfl, ht, hrow, henabled, hmanifest⟩ := hread.2 cached hc
  have hpost : (manager H).runFrom t post = some st := by
    rwa [Machine.run_append, ht] at hrun
  refine ⟨pre, post, [a], t, st, rfl, ht, hrun, hrow, henabled, hmanifest, hgrants, ?_⟩
  intro g hg
  obtain ⟨approval, hmem, hinstalls, hgrant⟩ := hs.approved g hg
  exact ⟨approval, hmem, hinstalls ▸ State.runFrom_installs hpost, hgrant⟩

theorem compile_sound (hs : s.Kept H) (hgranted : GrantedIn H as caller row manifest grants)
    (h : compile H s env caller row manifest grants = .ok stage) : stage.Sound H as := by
  obtain ⟨-, h⟩ := seq_eq_ok.mp h
  split at h
  · cases h
    exact instantiate_sound hgranted hgranted.1
  · split at h
    · rename_i component hcached
      cases h
      obtain ⟨c, hc, rfl⟩ := Option.map_eq_some_iff.mp hcached
      obtain ⟨hc, hsha⟩ := Option.filter_eq_some_iff.mp hc
      obtain ⟨manifest', hgenuine⟩ := hs.cache c hc
      rw [beq_iff_eq.mp hsha] at hgenuine
      obtain ⟨hcomponent, -⟩ := hgenuine.unique hgranted.1
      exact instantiate_sound hgranted (hcomponent ▸ hgranted.1)
    · cases h
      exact ⟨hgranted, hgranted.1⟩

/-- A step of an operation keeps what the state and the operation keep. -/
theorem Stage.advance_sound (hs : st.shared.Kept H) (hrun : (manager H).run as = some st)
    (hstage : stage.Sound H as) (h : stage.advance H env st.shared = some (s', next)) (a : Action) :
    s'.Kept H ∧ next.Sound H (as ++ [a]) := by
  have write : ∀ {after : Option Shared} {next' : Stage},
      env.write st.shared after next' = (s', next) → (∀ t, after = some t → t.Kept H) →
      next'.Sound H (as ++ [a]) → s'.Kept H ∧ next.Sound H (as ++ [a]) := by
    intro after next' hw hkept hnext
    refine Env.write_induction (P := fun t stage => t.Kept H ∧ stage.Sound H (as ++ [a])) hw
      ⟨hs, trivial⟩ fun t ht => ⟨hkept t ht, hnext⟩
  cases stage with
  | install bytes expected =>
    cases h
    exact ⟨hs, sound_ofExcept fun _ => installFromSource_sound⟩
  | upsert sha256 component manifest =>
    refine write (Option.some.inj h) ?_ ⟨manifest, hstage⟩
    rintro t ⟨⟩
    exact hs.upsertPlugin hstage
  | remember sha256 component =>
    cases h
    obtain ⟨manifest, hgenuine⟩ := hstage
    exact ⟨hs.rememberComponent hgenuine, trivial⟩
  | rollbackGet sha256 =>
    cases h
    exact ⟨hs, sound_ofExcept fun _ => rollbackGet_sound⟩
  | packageGet rollback sha256 =>
    cases h
    exact ⟨hs, sound_ofExcept fun _ => packageGet_sound hs⟩
  | packageLoad rollback retained sha256 =>
    cases h
    exact ⟨hs, sound_ofExcept fun _ => packageLoad_sound hstage⟩
  | retainedRead sha256 =>
    cases h
    refine ⟨hs, sound_ofExcept fun stage hr => ?_⟩
    obtain ⟨bytes, -, hr⟩ := bind_eq_ok.mp hr
    cases hr
    exact trivial
  | approveGet scope =>
    cases h
    exact ⟨hs, sound_ofExcept fun _ => approveGet_sound⟩
  | approveReplace grants =>
    exact write (Option.some.inj h) (fun t ht => hs.replacePermissions ht) trivial
  | revokeGet permission =>
    cases h
    exact ⟨hs, sound_ofExcept fun _ => revokeGet_sound⟩
  | revokeDelete permission =>
    refine write (Option.some.inj h) ?_ trivial
    rintro t ⟨⟩
    exact hs.revokePermission permission
  | disable =>
    refine write (Option.some.inj h) ?_ trivial
    rintro t ⟨⟩
    exact hs.setEnabled false
  | removeDelete =>
    refine write (Option.some.inj h) ?_ trivial
    rintro t ⟨⟩
    exact hs.deletePlugin
  | removeCache =>
    cases h
    exact ⟨hs.forget, trivial⟩
  | get caller =>
    cases h
    exact ⟨hs, sound_ofExcept fun _ hr => get_sound hs hrun hr a⟩
  | permissions caller row manifest =>
    cases h
    exact ⟨hs, sound_ofExcept fun _ hr => permissions_sound hs hrun hstage hr a⟩
  | compile caller row manifest grants =>
    cases h
    exact ⟨hs, sound_ofExcept fun _ => compile_sound hs (GrantedIn.snoc hstage a)⟩
  | rememberCompiled caller row manifest grants component =>
    cases h
    exact ⟨hs.rememberComponent hstage.2,
      instantiate_sound (GrantedIn.snoc hstage.1 a) hstage.2⟩
  | enableSet =>
    refine write (Option.some.inj h) ?_ trivial
    rintro t ⟨⟩
    exact hs.setEnabled true
  | enableClear =>
    cases h
    refine ⟨hs, sound_ofExcept fun stage hr => ?_⟩
    obtain ⟨-, hr⟩ := seq_eq_ok.mp hr
    cases hr
    exact trivial
  | running _ | done | refused _ | dropped => cases h

theorem Operation.first_sound (operation : Operation) : operation.first.Sound H as := by
  cases operation <;> exact trivial

/-- In every state of a run the rows and all that operations carry along are genuine. -/
theorem manager_sound : ∀ as st, (manager H).run as = some st →
    st.shared.Kept H ∧ ∀ (i : Nat) (stage : Stage), st.tasks[i]? = some stage →
      stage.Sound H as := by
  refine (manager H).run_induction (I := fun as st => st.shared.Kept H ∧
    ∀ (i : Nat) (stage : Stage), st.tasks[i]? = some stage → stage.Sound H as) ?_ ?_
  · refine ⟨⟨?_, ?_, ?_, ?_⟩, ?_⟩
    · intro row hrow
      cases hrow
    · intro c hc
      cases hc
    · intro p hp
      cases hp
    · intro g hg
      cases hg
    · intro i stage hi
      cases hi
  · intro as st a st' hrun ⟨hkept, htasks⟩ hstep
    cases a with
    | start operation =>
      cases hstep
      refine ⟨hkept, fun i stage hi => ?_⟩
      rcases TaskList.of_start hi with ⟨-, rfl⟩ | hi
      · exact operation.first_sound
      · exact (htasks i stage hi).snoc _
    | advance i env =>
      obtain ⟨stage, hi, hstep⟩ := Option.bind_eq_some_iff.mp hstep
      obtain ⟨⟨shared, next⟩, hadvance, hstep⟩ := Option.bind_eq_some_iff.mp hstep
      cases hstep
      obtain ⟨hkept', hnext⟩ :=
        Stage.advance_sound hkept hrun (htasks i stage hi) hadvance (.advance i env)
      refine ⟨hkept', fun j task hj => ?_⟩
      rcases TaskList.of_set hj with ⟨-, rfl⟩ | ⟨-, hj⟩
      · exact hnext
      · exact (htasks j task hj).snoc _
    | drop i =>
      cases hstep
      refine ⟨hkept, fun j task hj => ?_⟩
      rcases TaskList.of_set hj with ⟨-, rfl⟩ | ⟨-, hj⟩
      · exact trivial
      · exact (htasks j task hj).snoc _

end

/-! ## Quiescent states -/

/-- An invocation that has not got past the grants, which differ from those of the manifest. -/
def Stage.Blocked (H : Host) (s : Shared) : Stage → Prop
  | .get (.prepare _) => True
  | .permissions (.prepare _) row manifest =>
    s.plugin = some row ∧ H.readManifest row.manifestJson = some manifest
  | .refused _ | .dropped => True
  | _ => False

/-- The rows are as in a quiescent state, and all that was begun since is an invocation that has not
got past the grants. -/
structure State.Stuck (H : Host) (s s' : State) : Prop where
  plugin : s'.shared.plugin = s.shared.plugin
  permissions : s'.shared.permissions = s.shared.permissions
  length : s.tasks.length ≤ s'.tasks.length
  old : ∀ (i : Nat) (stage : Stage), i < s.tasks.length → s'.tasks[i]? = some stage →
    ¬ stage.InFlight
  new : ∀ (i : Nat) (stage : Stage), s.tasks.length ≤ i → s'.tasks[i]? = some stage →
    stage.Blocked H s.shared

section
variable {H : Host} {s s' s'' : State}

theorem Stage.advance_of_not_inFlight {stage : Stage} {env : Env} {t : Shared}
    (h : ¬ stage.InFlight) : stage.advance H env t = none := by
  cases stage with
  | running _ | done | refused _ | dropped => rfl
  | _ => exact absurd trivial h

/-- An invocation does not get past grants that differ from those of the manifest. -/
theorem Stage.Blocked.advance {t t' : Shared} {env : Env} {stage next : Stage}
    (hplugin : t.plugin = s.shared.plugin) (hgrants : t.permissions = s.shared.permissions)
    (hdiffer : ∀ row manifest, s.shared.plugin = some row →
      H.readManifest row.manifestJson = some manifest →
      ¬ ∀ g, g ∈ s.shared.permissions.rows ↔ g ∈ permissionGrants H manifest)
    (h : stage.Blocked H s.shared) (hstep : stage.advance H env t = some (t', next)) :
    t' = t ∧ next.Blocked H s.shared := by
  have go : ∀ {result : Except String Stage},
      (∀ stage, result = .ok stage → stage.Blocked H s.shared) →
      (Stage.ofExcept result).Blocked H s.shared := by
    intro result hr
    cases result with
    | ok stage => exact hr stage rfl
    | error message => exact trivial
  cases stage with
  | get caller =>
    cases caller with
    | prepare cached =>
      cases hstep
      refine ⟨rfl, go fun stage hr => ?_⟩
      obtain ⟨-, hr⟩ := seq_eq_ok.mp hr
      obtain ⟨row, hrow, hr⟩ := bind_eq_ok.mp hr
      obtain ⟨-, hr⟩ := seq_eq_ok.mp hr
      obtain ⟨manifest, hmanifest, hr⟩ := bind_eq_ok.mp hr
      cases hr
      exact ⟨hplugin ▸ okOr_eq_ok.mp hrow, okOr_eq_ok.mp hmanifest⟩
    | _ => exact False.elim h
  | permissions caller row manifest =>
    cases caller with
    | prepare cached =>
      cases hstep
      obtain ⟨hrow, hmanifest⟩ := h
      refine ⟨rfl, go fun stage hr => ?_⟩
      obtain ⟨-, hr⟩ := seq_eq_ok.mp hr
      obtain ⟨grants, happroved, -⟩ := bind_eq_ok.mp hr
      obtain ⟨hmem, -⟩ := ensurePermissionsApproved_eq_ok.mp happroved
      refine absurd (fun g => ?_) (hdiffer row manifest hrow hmanifest)
      rw [← hgrants]
      exact mem_readPermissions.symm.trans (hmem g)
    | _ => exact False.elim h
  | refused _ | dropped => cases hstep
  | _ => exact False.elim h

theorem State.Stuck.step {a : Action}
    (hdiffer : ∀ row manifest, s.shared.plugin = some row →
      H.readManifest row.manifestJson = some manifest →
      ¬ ∀ g, g ∈ s.shared.permissions.rows ↔ g ∈ permissionGrants H manifest)
    (ha : a.Prepares) (h : s.Stuck H s') (hstep : s'.step H a = some s'') : s.Stuck H s'' := by
  cases a with
  | start operation =>
    cases operation with
    | prepare cached =>
      cases hstep
      refine ⟨h.plugin, h.permissions, ?_, ?_, ?_⟩
      · rw [List.length_append]
        exact Nat.le_add_right_of_le h.length
      · intro i stage hlt hi
        rcases TaskList.of_start hi with ⟨rfl, -⟩ | hi
        · exact absurd h.length (Nat.not_le.mpr hlt)
        · exact h.old i stage hlt hi
      · intro i stage hle hi
        rcases TaskList.of_start hi with ⟨-, rfl⟩ | hi
        · exact trivial
        · exact h.new i stage hle hi
    | _ => exact False.elim ha
  | advance i env =>
    obtain ⟨stage, hi, hstep⟩ := Option.bind_eq_some_iff.mp hstep
    obtain ⟨⟨shared, next⟩, hadvance, hstep⟩ := Option.bind_eq_some_iff.mp hstep
    cases hstep
    have hnew : s.tasks.length ≤ i := by
      by_contra hlt
      rw [Stage.advance_of_not_inFlight (h.old i stage (Nat.not_le.mp hlt) hi)] at hadvance
      cases hadvance
    obtain ⟨rfl, hnext⟩ := (h.new i stage hnew hi).advance h.plugin h.permissions hdiffer hadvance
    refine ⟨h.plugin, h.permissions, ?_, ?_, ?_⟩
    · rw [List.length_set]
      exact h.length
    · intro j task hlt hj
      rcases TaskList.of_set hj with ⟨rfl, -⟩ | ⟨-, hj⟩
      · exact absurd hnew (Nat.not_le.mpr hlt)
      · exact h.old j task hlt hj
    · intro j task hle hj
      rcases TaskList.of_set hj with ⟨-, rfl⟩ | ⟨-, hj⟩
      · exact hnext
      · exact h.new j task hle hj
  | drop i =>
    cases hstep
    refine ⟨h.plugin, h.permissions, ?_, ?_, ?_⟩
    · rw [List.length_set]
      exact h.length
    · intro j task hlt hj
      rcases TaskList.of_set hj with ⟨-, rfl⟩ | ⟨-, hj⟩
      · exact id
      · exact h.old j task hlt hj
    · intro j task hle hj
      rcases TaskList.of_set hj with ⟨-, rfl⟩ | ⟨-, hj⟩
      · exact trivial
      · exact h.new j task hle hj

/-- In a quiescent state whose grants differ from those of the manifest no invocation can run. -/
theorem State.Quiescent.cannotPrepare (h : s.Quiescent)
    (hdiffer : ∀ row manifest, s.shared.plugin = some row →
      H.readManifest row.manifestJson = some manifest →
      ¬ ∀ g, g ∈ s.shared.permissions.rows ↔ g ∈ permissionGrants H manifest) :
    s.CannotPrepare H := by
  intro bs s' hbs hrun i v hi hv
  have hstart : s.Stuck H s := by
    refine ⟨rfl, rfl, le_rfl, fun i stage _ hi => h i stage hi, fun i stage hle hi => ?_⟩
    rw [List.getElem?_eq_none hle] at hi
    cases hi
  have hstuck := (manager H).runFrom_invariant (I := fun t => s.Stuck H t)
    (fun _ _ _ ha ht hstep => ht.step hdiffer ha hstep) hbs hstart hrun
  exact hstuck.new i _ hi hv

end

/-! ## Authority -/

/-- Every invocation that is let run was enabled when its row was read, runs the component of the
package whose manifest was checked, and holds exactly what that manifest asks for, all of which was
approved after the package was installed. In a quiescent state the recorded grants of an enabled
plugin are those of its manifest, or no invocation can be prepared. -/
theorem authority_approved (H : Host) {as : List Action} {s : State}
    (hrun : (manager H).run as = some s) :
    (∀ (i : Nat) (v : Invocation), s.tasks[i]? = some (.running v) → Authorized H as v) ∧
    (s.Quiescent → ∀ row, s.shared.plugin = some row → row.enabled = true →
      (∃ manifest, H.readManifest row.manifestJson = some manifest ∧
        Genuine H row.packageSha256 row.component manifest ∧
        ∀ g, g ∈ s.shared.permissions.rows ↔ g ∈ permissionGrants H manifest) ∨
      s.CannotPrepare H) := by
  obtain ⟨hkept, htasks⟩ := manager_sound as s hrun
  refine ⟨fun i v hi => htasks i _ hi, fun hquiet row hrow _ => ?_⟩
  obtain ⟨manifest, hmanifest, hgenuine⟩ := hkept.row row hrow
  by_cases hsame : ∀ g, g ∈ s.shared.permissions.rows ↔ g ∈ permissionGrants H manifest
  · exact Or.inl ⟨manifest, hmanifest, hgenuine, hsame⟩
  · refine Or.inr (hquiet.cannotPrepare fun row' manifest' hrow' hmanifest' => ?_)
    obtain rfl := Option.some.inj (hrow.symm.trans hrow')
    obtain rfl := Option.some.inj (hmanifest.symm.trans hmanifest')
    exact hsame

/-! A host with one package, which asks for two network hosts and for the credential, to read it and
to sign for one of the hosts. -/

def sampleManifest : Manifest where
  id := "foo"
  version := "1.0.0"
  permissions := {
    networkHosts := ["a.example", "b.example"]
    credentialScopes := ["a.example"]
    credentialRead := true }

def sampleManifestToml : String :=
  "id = \"foo\"\nversion = \"1.0.0\"\n\n[permissions]\n" ++
    "network_hosts = [\"a.example\", \"b.example\"]\ncredential_scopes = [\"a.example\"]\n" ++
    "credential_read = true\n"

def sampleManifestJson : String :=
  "\x7b\"id\":\"foo\",\"version\":\"1.0.0\",\"permissions\":\x7b" ++
    "\"network_hosts\":[\"a.example\",\"b.example\"],\"credential_scopes\":[\"a.example\"]," ++
    "\"credential_read\":true\x7d\x7d"

/-- Any other manifest is written as a list. -/
def otherManifestJson (m : Manifest) : String :=
  let J := VirtualKeys.plainJson
  J.toString [m.id, m.version, J.toString m.permissions.networkHosts,
    J.toString m.permissions.credentialScopes, if m.permissions.credentialRead then "true" else ""]

def readOtherManifest (text : String) : Option Manifest := do
  let J := VirtualKeys.plainJson
  let fields ← J.fromStr text
  let id ← fields[0]?
  let version ← fields[1]?
  let hosts ← J.fromStr (← fields[2]?)
  let scopes ← J.fromStr (← fields[3]?)
  let read ← fields[4]?
  pure ⟨id, version, ⟨hosts, scopes, read == "true"⟩⟩

theorem readOtherManifest_otherManifestJson (m : Manifest) :
    readOtherManifest (otherManifestJson m) = some m := by
  have hread := VirtualKeys.plainJson_readsBack
  obtain ⟨id, version, hosts, scopes, read⟩ := m
  cases read <;> simp [readOtherManifest, otherManifestJson, hread _]

set_option maxRecDepth 2000 in
theorem sampleManifestJson_unreadable :
    VirtualKeys.plainJson.fromStr sampleManifestJson = none := by decide

def samplePackage : List UInt8 := [102, 111, 111, 46, 107, 120, 112]

def samplePackageSha256 : String :=
  "13f3a3ecc5d7dbff1275804ea3e6b555e89dc90e994cb038bcb08a117604bd06"

/-- The digest of any other package. -/
def otherSha256 (bytes : List UInt8) : String :=
  String.ofList (':' :: bytes.map fun b => Char.ofNat (256 + b.toNat))

theorem otherSha256_injective : Function.Injective otherSha256 := by
  have hchar : ∀ n : Fin 256, (Char.ofNat (256 + n.val)).toNat = 256 + n.val := by decide +kernel
  have hinjective : Function.Injective fun b : UInt8 => Char.ofNat (256 + b.toNat) := by
    intro b b' h
    have hnat := congrArg Char.toNat h
    dsimp only at hnat
    rw [hchar ⟨b.toNat, b.toNat_lt⟩, hchar ⟨b'.toNat, b'.toNat_lt⟩] at hnat
    exact UInt8.toNat_inj.mp (Nat.add_left_cancel hnat)
  intro bytes bytes' h
  exact List.map_injective_iff.mpr hinjective (List.cons.inj (String.ofList_injective h)).2

theorem otherSha256_lowercase (bytes : List UInt8) :
    Text.toAsciiLowercase (otherSha256 bytes) = otherSha256 bytes := by
  have hchar : ∀ n : Fin 256, (Char.ofNat (256 + n.val)).toLower = Char.ofNat (256 + n.val) := by
    decide +kernel
  rw [← String.toList_inj, Text.toAsciiLowercase, String.toList_map, otherSha256,
    String.toList_ofList, List.map_cons, List.map_map]
  congr 1
  exact List.map_congr_left fun b _ => hchar ⟨b.toNat, b.toNat_lt⟩

theorem samplePackageSha256_lowercase :
    Text.toAsciiLowercase samplePackageSha256 = samplePackageSha256 := by
  rw [← String.toList_inj, Text.toAsciiLowercase, String.toList_map]
  decide

def sampleHost : Host where
  id := "foo"
  archive bytes :=
    if bytes = samplePackage then .ok (sampleManifestToml, [0, 97, 115, 109, 13, 0, 1, 0])
    else .error "reading .kxp entries"
  parseAndValidate toml := if toml = sampleManifestToml then .ok sampleManifest
    else .error "invalid plugin.toml"
  sha256Hex bytes := if bytes = samplePackage then samplePackageSha256 else otherSha256 bytes
  manifestJson m := if m = sampleManifest then sampleManifestJson else otherManifestJson m
  readManifest text :=
    if text = sampleManifestJson then some sampleManifest else readOtherManifest text
  strings := VirtualKeys.plainJson
  sha256Hex_injective := by
    have hne : ∀ bytes, samplePackageSha256 ≠ otherSha256 bytes := by
      intro bytes h
      have hhead := congrArg (fun s => s.toList.head?) h
      simp [otherSha256, samplePackageSha256] at hhead
    intro bytes bytes' h
    dsimp only at h
    split at h <;> split at h
    · simp_all
    · exact absurd h (hne bytes')
    · exact absurd h.symm (hne bytes)
    · exact otherSha256_injective h
  sha256Hex_lowercase bytes := by
    split
    · exact samplePackageSha256_lowercase
    · exact otherSha256_lowercase bytes
  readManifest_manifestJson m := by
    by_cases hm : m = sampleManifest
    · simp [hm]
    · have hother := readOtherManifest_otherManifestJson m
      have hne : otherManifestJson m ≠ sampleManifestJson := by
        intro h
        rw [h] at hother
        exact absurd hother (by simp [readOtherManifest, sampleManifestJson_unreadable])
      rw [if_neg hm, if_neg hne, hother]
  strings_readsBack := VirtualKeys.plainJson_readsBack

/-- The package is installed, approved and enabled, and then called. -/
def sampleRun : List Action :=
  [.start (.install samplePackage none), .advance 0 {}, .advance 0 {}, .advance 0 {},
    .start .approve, .advance 1 {}, .advance 1 {},
    .start .enable, .advance 2 {}, .advance 2 {}, .advance 2 {}, .advance 2 {}, .advance 2 {},
    .start (.prepare true), .advance 3 {}, .advance 3 {}, .advance 3 {}]

set_option maxRecDepth 4000 in
theorem authority_approved_called : ∃ s v, (manager sampleHost).run sampleRun = some s ∧
    s.tasks[3]? = some (.running v) ∧
    v.ctx = ⟨["a.example", "b.example"], true, true, ["a.example"]⟩ ∧
    Authorized sampleHost sampleRun v := by
  refine ⟨_, _, rfl, rfl, rfl, ?_⟩
  exact (authority_approved sampleHost rfl).1 3 _ rfl

end Kinetix.Plugins.Authority
