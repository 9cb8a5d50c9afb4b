import Kinetix.Plugins.Quota
import Kinetix.Plugins.UiSettings

/-!
# Updates of settings

An update that succeeds stores what was submitted and nothing else. One that fails leaves behind
what it had written before, so it is without effect only if that was stored already.
-/

namespace Kinetix.Plugins.UiSettings
open Batch Checks Json KeyedTable Storage Words

/-! ## What an update is for -/

/-- The bytes a submitted value stands for. -/
def submitted : Value → Option (List UInt8)
  | .bool b => some (utf8 (toString b))
  | .string text => some (utf8 text)
  | _ => none

/-- A request that fails leaves every value as it was, and one that succeeds leaves the submitted
values and the others as they were. -/
structure AllOrNothing (S : Sealing) (values : SubmittedValues) (t : KvTable)
    (outcome : Except SettingError Value × KvTable) : Prop where
  failed : ∀ e, outcome.1 = .error e → ∀ key, kvGet S outcome.2 key = kvGet S t key
  written : ∀ view, outcome.1 = .ok view → ∀ entry ∈ values.entries,
    kvGet S outcome.2 (storageKey entry.1) = .ok (submitted entry.2)
  kept : ∀ view, outcome.1 = .ok view → ∀ key, key ∉ values.entries.map (storageKey ·.1) →
    kvGet S outcome.2 key = kvGet S t key

/-! ## What is accepted -/

/-- The bytes of the values of a list. -/
def submittedSize (entries : List (String × Value)) : Nat :=
  (entries.map fun entry => ((submitted entry.2).getD []).length).sum

/-- The statements of `kv_put_limited` succeed. -/
structure Healthy (tx : TxEnv) : Prop where
  begins : tx.begins = true
  selects : tx.selects = true
  inserts : tx.inserts 0 = true
  commits : tx.commits = true

/-- There is room for a value of a key in a table into which some values have been put: the other
values can be measured, and are within the quota with it. -/
structure Fits (S : Sealing) (quota : UInt64) (t : KvTable) (before : List (String × Value))
    (key : String) (value : List UInt8) : Prop where
  readable : ∀ row ∈ t.rows, row.key ∉ before.map (storageKey ·.1) → row.key ≠ key → Sealed S row
  within : (t.deleteWhere fun k => k ∈ before.map (storageKey ·.1) ∨ k = key).total (size S) +
    submittedSize before + value.length ≤ quota.toNat

/-- A value passes its checks and can be stored after the ones before it. -/
structure Accepts (S : Sealing) (env : Env) (settings : List UiSetting) (quota : UInt64)
    (t : KvTable) (before : List (String × Value)) (entry : String × Value) : Prop where
  passes : ∃ encoded, checkValue settings entry.1 entry.2 = .ok encoded
  deletes : submitted entry.2 = none → (env.tx entry.1).deletes = true
  healthy : ∀ value, submitted entry.2 = some value → Healthy (env.tx entry.1)
  fits : ∀ value, submitted entry.2 = some value →
    Fits S quota t before (storageKey entry.1) value

/-- The settings that were not submitted can be read. -/
structure Readable (S : Sealing) (env : Env) (settings : List UiSetting) (t : KvTable)
    (values : SubmittedValues) : Prop where
  get : env.getAgain = none
  reads : ∀ setting ∈ settings, env.reads (storageKey setting.key) = none
  stored : ∀ setting ∈ settings, setting.key ∉ values.entries.map Prod.fst →
    ∃ stored shown, kvGet S t (storageKey setting.key) = .ok stored ∧
      shownValue setting stored = .ok shown

/-- Once a value that is not stored already has been accepted, the later ones are accepted too and
the settings can be read again. -/
def Settles (S : Sealing) (env : Env) (settings : List UiSetting) (quota : UInt64) (t : KvTable)
    (values : SubmittedValues) : Prop :=
  ∀ before entry after, values.entries = before ++ entry :: after →
    (∀ b e a, before ++ [entry] = b ++ e :: a → Accepts S env settings quota t b e) →
    kvGet S t (storageKey entry.1) ≠ .ok (submitted entry.2) →
    (∀ b e a, values.entries = b ++ e :: a → Accepts S env settings quota t b e) ∧
      Readable S env settings t values

/-! ## One value -/

section
variable {S : Sealing} {env : Env} {settings : List UiSetting} {quota : UInt64} {t : KvTable}
  {entry : String × Value} {before : List (String × Value)} {key : String} {value : List UInt8}

theorem storageKey_inj {a b : String} : storageKey a = storageKey b ↔ a = b :=
  String.append_right_inj _

variable {entries : List (String × Value)} {row : Option PluginRow} {setting : UiSetting}
  {manifest : Manifest} {id : String}

theorem encodeValue_eq_ok {v : Value} {text : String} (h : encodeValue setting key v = .ok text) :
    submitted v = some (utf8 text) := by
  rw [encodeValue] at h
  split at h
  · obtain ⟨b, hb, h⟩ := bind_eq_ok.mp h
    cases pure_eq_ok.mp h
    cases v <;> cases okOr_eq_ok.mp hb
    rfl
  split at h
  · obtain ⟨text', htext, h⟩ := bind_eq_ok.mp h
    obtain ⟨-, h⟩ := seq_eq_ok.mp h
    obtain ⟨-, h⟩ := seq_eq_ok.mp h
    cases pure_eq_ok.mp h
    cases v <;> cases okOr_eq_ok.mp htext
    rfl
  · cases h

/-- A value that passes the checks is stored as what it stands for. -/
theorem checkValue_eq_ok {v : Value} {encoded : Option (List UInt8)}
    (h : checkValue settings key v = .ok encoded) : encoded = submitted v := by
  obtain ⟨setting, -, h⟩ := bind_eq_ok.mp h
  split at h
  next hnull =>
    obtain ⟨-, h⟩ := seq_eq_ok.mp h
    cases pure_eq_ok.mp h
    cases v <;> first | rfl | cases hnull
  next =>
    obtain ⟨text, htext, h⟩ := bind_eq_ok.mp h
    obtain ⟨-, h⟩ := seq_eq_ok.mp h
    rw [encodeValue_eq_ok htext]
    exact (pure_eq_ok.mp h).symm

/-- The table with a value put in its place. -/
def put (S : Sealing) (env : Env) (t : KvTable) (entry : String × Value) : KvTable :=
  match submitted entry.2 with
  | none => t.deleteWhere (· == storageKey entry.1)
  | some value =>
    t.upsert ⟨storageKey entry.1, S.seal ((env.tx entry.1).nonce 0) value, (env.tx entry.1).now⟩

theorem kvGet_put :
    kvGet S (put S env t entry) key =
      if key = storageKey entry.1 then .ok (submitted entry.2) else kvGet S t key := by
  rw [put]
  split
  next hnone =>
    rw [kvGet, Table.find_deleteWhere, hnone]
    by_cases hkey : key = storageKey entry.1
    · simp [hkey]
    · simp only [beq_iff_eq, hkey, if_false]
      rfl
  next value hsome =>
    rw [kvGet, Table.find_upsert, hsome]
    by_cases hkey : key = storageKey entry.1
    · rw [if_pos hkey.symm, if_pos hkey]
      exact congrArg (Except.map some) (plaintext_seal _ _ _ _)
    · rw [if_neg (Ne.symm hkey), if_neg hkey]
      rfl

/-- The rows that are measured hold values. -/
theorem sealed_of_used_eq_ok {skip : String → Bool} {rows : List KvRow} {acc n : Nat}
    (h : used S skip rows acc = .ok n) : ∀ row ∈ rows, skip row.key = false → Sealed S row := by
  induction rows generalizing acc with
  | nil => exact fun row hrow => (List.not_mem_nil hrow).elim
  | cons row rows ih =>
    rw [used] at h
    rw [List.forall_mem_cons]
    split at h
    next hskip => exact ⟨fun hnot => absurd (hskip.symm.trans hnot) (by decide), ih h⟩
    next =>
      obtain ⟨value, hvalue, h⟩ := bind_eq_ok.mp h
      obtain ⟨acc', -, h⟩ := bind_eq_ok.mp h
      exact ⟨fun _ => ⟨value, hvalue⟩, ih h⟩

theorem fits_nil :
    Fits S quota t [] key value ↔ (∀ row ∈ t.rows, row.key ≠ key → Sealed S row) ∧
      (t.deleteWhere (· == key)).total (size S) + value.length ≤ quota.toNat := by
  have hother : (fun k : String => decide (k ∈ ([] : List (String × Value)).map (storageKey ·.1) ∨
      k = key)) = (· == key) := by
    funext k
    simp [beq_eq_decide]
  constructor
  · rintro ⟨hreadable, hwithin⟩
    rw [hother] at hwithin
    exact ⟨fun row hrow => hreadable row hrow List.not_mem_nil, hwithin⟩
  · rintro ⟨hreadable, hwithin⟩
    refine ⟨fun row hrow _ => hreadable row hrow, ?_⟩
    rw [hother]
    exact hwithin

theorem of_used_eq_ok {n : Nat} (h : used S (· == key) t.rows 0 = .ok n) :
    (∀ row ∈ t.rows, row.key ≠ key → Sealed S row) ∧
      n = (t.deleteWhere (· == key)).total (size S) := by
  have hsealed := sealed_of_used_eq_ok h
  have hn := (used_spec (· == key) hsealed 0).1 n h
  rw [Nat.zero_add] at hn
  exact ⟨fun row hrow hne => hsealed row hrow (beq_eq_false_iff_ne.mpr hne), hn⟩

theorem used_eq_ok (hsealed : ∀ row ∈ t.rows, row.key ≠ key → Sealed S row)
    (hmax : (t.deleteWhere (· == key)).total (size S) ≤ u64Max) :
    used S (· == key) t.rows 0 = .ok ((t.deleteWhere (· == key)).total (size S)) := by
  cases hused : used S (· == key) t.rows 0 with
  | ok n => rw [(of_used_eq_ok hused).2]
  | error e =>
    have hlarge := (used_spec (· == key)
      (fun row hrow hne => hsealed row hrow (beq_eq_false_iff_ne.mp hne)) 0).2 e hused
    rw [Nat.zero_add] at hlarge
    exact absurd hmax (Nat.not_le_of_lt hlarge)

variable (S quota t key value) in
/-- A value is written exactly if there is room for it and no statement fails. -/
theorem kvPutLimited_cases (tx : TxEnv) :
    (Healthy tx ∧ Fits S quota t [] key value ∧ kvPutLimited S quota t key value tx =
      (.ok (), t.upsert ⟨key, S.seal (tx.nonce 0) value, tx.now⟩)) ∨
    (¬ (Healthy tx ∧ Fits S quota t [] key value) ∧
      ∃ e, kvPutLimited S quota t key value tx = (.error e, t)) := by
  rw [kvPutLimited, transact, fits_nil]
  by_cases hbegins : tx.begins = true
  · rw [if_pos hbegins]
    split
    next t' hbody =>
      obtain ⟨hselects, hbody⟩ := seq_eq_ok.mp hbody
      obtain ⟨n, hn, hbody⟩ := bind_eq_ok.mp hbody
      obtain ⟨m, hm, hbody⟩ := bind_eq_ok.mp hbody
      obtain ⟨hquota, hbody⟩ := seq_eq_ok.mp hbody
      obtain ⟨hinserts, hbody⟩ := seq_eq_ok.mp hbody
      cases pure_eq_ok.mp hbody
      obtain ⟨rfl, -⟩ := checkedAdd_eq_some.mp (okOr_eq_ok.mp hm)
      obtain ⟨hsealed, rfl⟩ := of_used_eq_ok hn
      rw [refuseIf_eq_ok, Nat.not_lt] at hquota
      by_cases hcommits : tx.commits = true
      · rw [if_pos hcommits]
        refine Or.inl ⟨⟨hbegins, ?_, ?_, hcommits⟩, ⟨hsealed, hquota⟩, rfl⟩
        · simpa [TxEnv.statement] using hselects
        · simpa [TxEnv.statement] using hinserts
      · rw [if_neg hcommits]
        exact Or.inr ⟨fun h => hcommits h.1.commits, _, rfl⟩
    next e hbody =>
      refine Or.inr ⟨?_, e, rfl⟩
      rintro ⟨hh, hsealed, hquota⟩
      have htotal := Nat.le_trans (Nat.le_of_add_right_le hquota) (quota_le quota)
      rw [used_eq_ok hsealed htotal, TxEnv.statement, hh.selects, TxEnv.statement,
        hh.inserts] at hbody
      have hadd := checkedAdd_eq_some.mpr ⟨rfl, Nat.le_trans hquota (quota_le quota)⟩
      simp [refuseIf, okOr, bind, Except.bind, pure, Except.pure, hadd, Nat.not_lt.mpr hquota]
        at hbody
  · rw [if_neg hbegins]
    exact Or.inr ⟨fun h => hbegins h.1.begins, _, rfl⟩

/-- One turn of the loop. -/
theorem lawful_updateSetting (S : Sealing) (env : Env) (settings : List UiSetting)
    (quota : UInt64) :
    Lawful (updateSetting S env settings quota)
      (fun t entry => Accepts S env settings quota t [] entry) (put S env) where
  accepted t entry h := by
    obtain ⟨encoded, hcheck⟩ := h.passes
    have hencoded := checkValue_eq_ok hcheck
    rw [updateSetting, hcheck, put]
    cases encoded with
    | none =>
      simp only [← hencoded, kvDelete, h.deletes hencoded.symm, if_true]
      rfl
    | some value =>
      rcases kvPutLimited_cases S quota t (storageKey entry.1) value (env.tx entry.1) with
        ⟨-, -, hput⟩ | ⟨hnot, -⟩
      · simp only [← hencoded, hput]
        rfl
      · exact absurd ⟨h.healthy value hencoded.symm, h.fits value hencoded.symm⟩ hnot
  refused t entry h := by
    rw [updateSetting]
    split
    next e _ => exact ⟨e, rfl⟩
    next hcheck =>
      have hnone := checkValue_eq_ok hcheck
      rw [kvDelete]
      split
      next hdeletes =>
        refine absurd ⟨⟨none, hcheck⟩, fun _ => hdeletes, ?_, ?_⟩ h
        · exact fun value hsome => by cases hnone.trans hsome
        · exact fun value hsome => by cases hnone.trans hsome
      next => exact ⟨_, rfl⟩
    next value hcheck =>
      have hsome := checkValue_eq_ok hcheck
      rcases kvPutLimited_cases S quota t (storageKey entry.1) value (env.tx entry.1) with
        ⟨hh, hf, -⟩ | ⟨-, e, he⟩
      · refine absurd ⟨⟨some value, hcheck⟩, ?_, ?_, ?_⟩ h
        · exact fun hnone => by cases hsome.trans hnone
        · exact fun _ _ => hh
        · intro value' hsome'
          cases hsome.trans hsome'
          exact hf
      · exact ⟨.storage e, by rw [he]; rfl⟩

/-! ## Several values -/

variable (S env t entry) in
/-- The row of the value, if it has one, before the rows of the other keys. -/
theorem rows_put :
    ∃ new, (put S env t entry).rows =
        new ++ t.rows.filter (fun row => !(row.key == storageKey entry.1)) ∧
      (∀ row ∈ new, row.key = storageKey entry.1 ∧ Sealed S row) ∧
      (new.map (size S)).sum = ((submitted entry.2).getD []).length := by
  rw [put]
  cases submitted entry.2 with
  | none => exact ⟨[], rfl, fun row hrow => (List.not_mem_nil hrow).elim, rfl⟩
  | some value =>
    refine ⟨[⟨storageKey entry.1, S.seal ((env.tx entry.1).nonce 0) value,
      (env.tx entry.1).now⟩], ?_, fun row hrow => ?_, ?_⟩
    · rw [List.singleton_append]
      refine congrArg _ (List.filter_congr fun row _ => ?_)
      simp [beq_eq_decide]
    · rw [List.mem_singleton.mp hrow]
      exact ⟨rfl, sealed_seal _ _ _ _⟩
    · rw [List.map_singleton, List.sum_singleton, size_seal]
      rfl

theorem total_put {p : String → Bool} (hp : p (storageKey entry.1) = false) :
    ((put S env t entry).deleteWhere p).total (size S) =
      (t.deleteWhere fun k => k == storageKey entry.1 || p k).total (size S) +
        ((submitted entry.2).getD []).length := by
  obtain ⟨new, hrows, hkeys, hsize⟩ := rows_put S env t entry
  have hnew : new.filter (fun row => !p row.key) = new :=
    List.filter_eq_self.mpr fun row hrow => by rw [(hkeys row hrow).1, hp]; rfl
  rw [Table.total, Table.rows_deleteWhere, hrows, List.filter_append, hnew, List.filter_filter,
    List.map_append, List.sum_append, hsize, Nat.add_comm, Table.total, Table.rows_deleteWhere]
  simp only [Bool.not_or, Bool.and_comm]

/-- What fits after a value has been put into the table fits after that value. -/
theorem fits_put (hkey : key ≠ storageKey entry.1)
    (hnew : storageKey entry.1 ∉ before.map (storageKey ·.1)) :
    Fits S quota (put S env t entry) before key value ↔
      Fits S quota t (entry :: before) key value := by
  obtain ⟨new, hrows, hkeys, -⟩ := rows_put S env t entry
  have hother : (fun k => k == storageKey entry.1 ||
      decide (k ∈ before.map (storageKey ·.1) ∨ k = key)) =
      fun k => decide (k ∈ (entry :: before).map (storageKey ·.1) ∨ k = key) := by
    funext k
    simp only [List.map_cons, List.mem_cons, beq_eq_decide, Bool.decide_or, Bool.or_assoc]
  have hsize : submittedSize (entry :: before) =
      ((submitted entry.2).getD []).length + submittedSize before := by
    rw [submittedSize, List.map_cons, List.sum_cons, submittedSize]
  have hp : decide (storageKey entry.1 ∈ before.map (storageKey ·.1) ∨
      storageKey entry.1 = key) = false := by
    simp only [hnew, hkey.symm, or_self, decide_false]
  constructor
  · rintro ⟨hreadable, hwithin⟩
    constructor
    · intro row hrow hbefore hne
      rw [List.map_cons, List.mem_cons, not_or] at hbefore
      refine hreadable row ?_ hbefore.2 hne
      rw [hrows, List.mem_append, List.mem_filter]
      exact Or.inr ⟨hrow, by simp [hbefore.1]⟩
    · rw [total_put hp, hother] at hwithin
      omega
  · rintro ⟨hreadable, hwithin⟩
    constructor
    · intro row hrow hbefore hne
      rw [hrows, List.mem_append, List.mem_filter] at hrow
      rcases hrow with hrow | ⟨hrow, hold⟩
      · exact (hkeys row hrow).2
      · refine hreadable row hrow ?_ hne
        rw [List.map_cons, List.mem_cons, not_or]
        exact ⟨by simpa using hold, hbefore⟩
    · rw [total_put hp, hother]
      omega

theorem storageKey_notMem {name : String} (h : name ∉ before.map Prod.fst) :
    storageKey name ∉ before.map (storageKey ·.1) := by
  intro hmem
  obtain ⟨other, hother, heq⟩ := List.mem_map.mp hmem
  exact h (storageKey_inj.mp heq ▸ List.mem_map_of_mem hother)

theorem accepts_put {other : String × Value} (hne : other.1 ≠ entry.1)
    (hnew : entry.1 ∉ before.map Prod.fst) :
    Accepts S env settings quota (put S env t entry) before other ↔
      Accepts S env settings quota t (entry :: before) other := by
  have hfits (value : List UInt8) :
      Fits S quota (put S env t entry) before (storageKey other.1) value ↔
        Fits S quota t (entry :: before) (storageKey other.1) value :=
    fits_put (storageKey_inj.not.mpr hne) (storageKey_notMem hnew)
  exact ⟨fun h =>
    ⟨h.passes, h.deletes, h.healthy, fun value hv => (hfits value).mp (h.fits value hv)⟩,
    fun h => ⟨h.passes, h.deletes, h.healthy, fun value hv => (hfits value).mpr (h.fits value hv)⟩⟩

theorem accepts_foldl_put {other : String × Value}
    (h : ((before ++ [other]).map Prod.fst).Nodup) :
    Accepts S env settings quota (before.foldl (put S env) t) [] other ↔
      Accepts S env settings quota t before other := by
  induction before generalizing t with
  | nil => exact Iff.rfl
  | cons entry before ih =>
    rw [List.cons_append, List.map_cons, List.nodup_cons, List.map_append, List.mem_append,
      not_or] at h
    rw [List.foldl_cons, ih (by rw [List.map_append]; exact h.2)]
    exact accepts_put (fun heq => h.1.2 (by simp [heq])) h.1.1

/-- Values with different keys are accepted one after the other exactly if each of them is after
those before it. -/
theorem allAccepted_iff (h : (entries.map Prod.fst).Nodup) :
    AllAccepted (fun t entry => Accepts S env settings quota t [] entry) (put S env) t entries ↔
      ∀ b e a, entries = b ++ e :: a → Accepts S env settings quota t b e := by
  refine forall_congr' fun b => forall_congr' fun e => forall_congr' fun a => ?_
  refine forall_congr' fun heq => accepts_foldl_put ?_
  rw [heq, List.append_cons, List.map_append] at h
  exact (List.nodup_append.mp h).1

theorem kvGet_foldl_put_of_notMem (h : key ∉ entries.map (storageKey ·.1)) :
    kvGet S (entries.foldl (put S env) t) key = kvGet S t key := by
  induction entries generalizing t with
  | nil => rfl
  | cons entry entries ih =>
    rw [List.map_cons, List.mem_cons, not_or] at h
    rw [List.foldl_cons, ih h.2, kvGet_put, if_neg h.1]

theorem kvGet_foldl_put_of_mem (h : (entries.map Prod.fst).Nodup) (hentry : entry ∈ entries) :
    kvGet S (entries.foldl (put S env) t) (storageKey entry.1) = .ok (submitted entry.2) := by
  induction entries generalizing t with
  | nil => cases hentry
  | cons first entries ih =>
    rw [List.map_cons, List.nodup_cons] at h
    rw [List.foldl_cons]
    rcases List.mem_cons.mp hentry with rfl | hentry
    · rw [kvGet_foldl_put_of_notMem (storageKey_notMem h.1), kvGet_put, if_pos rfl]
    · exact ih h.2 hentry

/-- Values that are stored already change nothing. -/
theorem kvGet_foldl_put_of_held (h : (entries.map Prod.fst).Nodup)
    (hheld : ∀ entry ∈ entries, kvGet S t (storageKey entry.1) = .ok (submitted entry.2))
    (key : String) : kvGet S (entries.foldl (put S env) t) key = kvGet S t key := by
  by_cases hkey : key ∈ entries.map (storageKey ·.1)
  · obtain ⟨entry, hentry, rfl⟩ := List.mem_map.mp hkey
    rw [kvGet_foldl_put_of_mem h hentry, hheld entry hentry]
  · exact kvGet_foldl_put_of_notMem hkey

/-! ## The view -/

theorem fromUtf8_utf8 (text : String) : fromUtf8 (utf8 text) = some text := by
  rw [fromUtf8, utf8, Array.toArray_toList]
  exact dif_pos text.isValidUTF8

/-- What was submitted can be shown. -/
theorem exists_shownValue_submitted (setting : UiSetting) (v : Value) :
    ∃ shown, shownValue setting (submitted v) = .ok shown := by
  rw [shownValue.eq_def]
  split
  · exact ⟨_, rfl⟩
  split
  next _ _ bytes hbytes =>
    have htext : ∃ text, bytes = utf8 text := by
      cases v <;> cases hbytes
      · exact ⟨_, rfl⟩
      · exact ⟨_, rfl⟩
    obtain ⟨text, rfl⟩ := htext
    rw [fromUtf8_utf8]
    exact ⟨_, rfl⟩
  · exact ⟨_, rfl⟩
  · exact ⟨_, rfl⟩

theorem loadManifest_eq_ok {failure : Option String} : loadManifest id row failure = .ok manifest ↔
      failure = none ∧ ∃ r, row = some r ∧ r.manifest = some manifest := by
  rw [loadManifest, seq_eq_ok, refuseIf_eq_ok, bind_eq_ok]
  simp only [okOr_eq_ok, Option.not_isSome_iff_eq_none]

theorem readSetting_eq_ok {stored : Option (List UInt8)} :
    readSetting S env t setting = .ok stored ↔
      env.reads (storageKey setting.key) = none ∧
        kvGet S t (storageKey setting.key) = .ok stored := by
  rw [readSetting]
  split
  next h => simp [h]
  next h =>
    rw [h]
    cases kvGet S t (storageKey setting.key) <;> simp [Except.mapError]

theorem exists_settingField_iff : (∃ field, settingField S env t setting = .ok field) ↔
      env.reads (storageKey setting.key) = none ∧ ∃ stored shown,
        kvGet S t (storageKey setting.key) = .ok stored ∧
          shownValue setting stored = .ok shown := by
  constructor
  · rintro ⟨field, h⟩
    obtain ⟨stored, hstored, h⟩ := bind_eq_ok.mp h
    obtain ⟨shown, hshown, -⟩ := bind_eq_ok.mp h
    obtain ⟨hreads, hget⟩ := readSetting_eq_ok.mp hstored
    exact ⟨hreads, stored, shown, hget, hshown⟩
  · rintro ⟨hreads, stored, shown, hget, hshown⟩
    rw [settingField, readSetting_eq_ok.mpr ⟨hreads, hget⟩]
    refine ⟨_, bind_eq_ok.mpr ⟨stored, rfl, bind_eq_ok.mpr ⟨shown, hshown, rfl⟩⟩⟩

theorem exists_uiSettings_iff {failure : Option String}
    (hrow : ∃ r, row = some r ∧ r.manifest = some manifest) :
    (∃ view, uiSettings S env id row failure t = .ok view) ↔
      failure = none ∧ ∀ setting ∈ manifest.settings,
        env.reads (storageKey setting.key) = none ∧ ∃ stored shown,
          kvGet S t (storageKey setting.key) = .ok stored ∧
            shownValue setting stored = .ok shown := by
  simp only [← exists_settingField_iff, ← Fallible.exists_mapM_eq_ok_iff]
  constructor
  · rintro ⟨view, h⟩
    obtain ⟨manifest', hload, h⟩ := bind_eq_ok.mp h
    obtain ⟨fields, hfields, -⟩ := bind_eq_ok.mp h
    obtain ⟨hfailure, r, rfl, hr⟩ := loadManifest_eq_ok.mp hload
    obtain ⟨_, hsame, hr'⟩ := hrow
    cases hsame
    cases hr.symm.trans hr'
    exact ⟨hfailure, fields, hfields⟩
  · rintro ⟨hfailure, fields, hfields⟩
    exact ⟨_, bind_eq_ok.mpr ⟨manifest, loadManifest_eq_ok.mpr ⟨hfailure, hrow⟩,
      bind_eq_ok.mpr ⟨fields, hfields, rfl⟩⟩⟩

/-- The view can be read after all values were written exactly if the other settings can be read. -/
theorem exists_uiSettings_foldl_put_iff (id : String) {values : SubmittedValues}
    (hrow : ∃ r, row = some r ∧ r.manifest = some manifest) :
    (∃ view, uiSettings S env id row env.getAgain (values.entries.foldl (put S env) t) = .ok view) ↔
      Readable S env manifest.settings t values := by
  rw [exists_uiSettings_iff hrow]
  constructor
  · rintro ⟨hget, hall⟩
    refine ⟨hget, fun setting hs => (hall setting hs).1, fun setting hs hkey => ?_⟩
    have hstored := (hall setting hs).2
    rwa [kvGet_foldl_put_of_notMem (storageKey_notMem hkey)] at hstored
  · rintro ⟨hget, hreads, hstored⟩
    refine ⟨hget, fun setting hs => ⟨hreads setting hs, ?_⟩⟩
    by_cases hkey : setting.key ∈ values.entries.map Prod.fst
    · obtain ⟨entry, hentry, heq⟩ := List.mem_map.mp hkey
      obtain ⟨shown, hshown⟩ := exists_shownValue_submitted setting entry.2
      exact ⟨_, shown, heq ▸ kvGet_foldl_put_of_mem values.distinct hentry, hshown⟩
    · rw [kvGet_foldl_put_of_notMem (storageKey_notMem hkey)]
      exact hstored setting hs hkey

/-! ## Exactly when -/

theorem prepareUpdate_eq_ok {policy : HostPolicy}
    (h : prepareUpdate env policy id row = .ok (settings, quota)) :
    ∃ r manifest, row = some r ∧ r.manifest = some manifest ∧ manifest.settings = settings := by
  obtain ⟨manifest, hload, h⟩ := bind_eq_ok.mp h
  obtain ⟨limits, -, h⟩ := bind_eq_ok.mp h
  cases pure_eq_ok.mp h
  obtain ⟨-, r, hrow, hr⟩ := loadManifest_eq_ok.mp hload
  exact ⟨r, manifest, hrow, hr, rfl⟩

theorem distinct_of_append {values : SubmittedValues} {before after : List (String × Value)}
    (h : values.entries = before ++ after) : (before.map Prod.fst).Nodup := by
  have hdistinct := values.distinct
  rw [h, List.map_append] at hdistinct
  exact (List.nodup_append.mp hdistinct).1

variable (S t) in
/-- How an update ends that gets to its loop: it is done, or it has written the values of a part of
the list, and some value after that part was refused or the view cannot be read. -/
theorem update_cases {policy : HostPolicy} (values : SubmittedValues)
    (h : prepareUpdate env policy id row = .ok (settings, quota)) :
    (((∀ b e a, values.entries = b ++ e :: a → Accepts S env settings quota t b e) ∧
        Readable S env settings t values) ∧
      ∃ view, updateUiSettings S env policy id row values t =
        (.ok view, values.entries.foldl (put S env) t)) ∨
    (¬ ((∀ b e a, values.entries = b ++ e :: a → Accepts S env settings quota t b e) ∧
        Readable S env settings t values) ∧
      ∃ before after error, values.entries = before ++ after ∧
        (∀ b e a, before = b ++ e :: a → Accepts S env settings quota t b e) ∧
        (∀ e a, after = e :: a → ¬ Accepts S env settings quota t before e) ∧
        updateUiSettings S env policy id row values t =
          (.error error, before.foldl (put S env) t)) := by
  obtain ⟨r, manifest, hrow, hr, rfl⟩ := prepareUpdate_eq_ok h
  rw [← allAccepted_iff values.distinct,
    ← exists_uiSettings_foldl_put_iff id ⟨r, hrow, hr⟩, updateUiSettings, h]
  dsimp only
  rcases applyEach_spec (lawful_updateSetting S env manifest.settings quota) t values.entries with
    ⟨hall, hok⟩ | ⟨before, entry, after, e, hentries, hbefore, hrefused, herror⟩
  · rw [hok]
    dsimp only
    cases hview : uiSettings S env id row env.getAgain (values.entries.foldl (put S env) t) with
    | ok view => exact Or.inl ⟨⟨hall, view, rfl⟩, view, rfl⟩
    | error e =>
      refine Or.inr ⟨?_, values.entries, [], e, (List.append_nil _).symm, ?_, ?_, rfl⟩
      · rintro ⟨-, view, ⟨⟩⟩
      · exact (allAccepted_iff values.distinct).mp hall
      · rintro e a ⟨⟩
  · rw [herror]
    refine Or.inr ⟨fun hall => hrefused (hall.1 before entry after hentries), before,
      entry :: after, e, hentries, ?_, ?_, rfl⟩
    · exact (allAccepted_iff (distinct_of_append hentries)).mp hbefore
    · rintro e a ⟨⟩
      refine (accepts_foldl_put ?_).not.mp hrefused
      exact distinct_of_append (hentries.trans (List.append_cons _ _ _))

/-- What is accepted after what came before it is before the first value that is refused. -/
theorem mem_of_refused {done rest after : List (String × Value)}
    (h : done ++ rest = before ++ entry :: after)
    (haccepted : ∀ b e a, before ++ [entry] = b ++ e :: a → Accepts S env settings quota t b e)
    (hrefused : ∀ e a, rest = e :: a → ¬ Accepts S env settings quota t done e) :
    entry ∈ done := by
  rcases List.append_eq_append_iff.mp h with ⟨middle, rfl, hrest⟩ | ⟨middle, rfl, hrest⟩
  · exfalso
    cases middle with
    | nil => exact hrefused entry after hrest (haccepted _ entry [] (by simp))
    | cons e middle =>
      exact hrefused e _ hrest (haccepted done e (middle ++ [entry]) (by simp))
  · cases middle with
    | nil =>
      refine absurd (haccepted before entry [] rfl) ?_
      simpa using hrefused entry after hrest.symm
    | cons e middle =>
      obtain ⟨rfl, -⟩ := List.cons.inj hrest
      exact List.mem_append_right _ List.mem_cons_self

/-- What was written stays when a later value is refused or the view cannot be read, and shows
unless it was stored already. -/
theorem update_all_or_nothing_iff (S : Sealing) (env : Env) (policy : HostPolicy) (id : String)
    (row : Option PluginRow) (values : SubmittedValues) (t : KvTable) :
    AllOrNothing S values t (updateUiSettings S env policy id row values t) ↔
      ∀ settings quota, prepareUpdate env policy id row = .ok (settings, quota) →
        Settles S env settings quota t values := by
  constructor
  · intro h settings quota hprepare before entry after hentries hbefore hchanged
    rcases update_cases S t values hprepare with
      ⟨hdone, -⟩ | ⟨-, done, rest, e, hsplit, -, hrefused, hresult⟩
    · exact hdone
    · exfalso
      have hmem : entry ∈ done := mem_of_refused (hsplit ▸ hentries) hbefore hrefused
      have hkept := h.failed e (by rw [hresult]) (storageKey entry.1)
      rw [hresult, kvGet_foldl_put_of_mem (distinct_of_append hsplit) hmem] at hkept
      exact hchanged hkept.symm
  · intro h
    cases hprepare : prepareUpdate env policy id row with
    | error e =>
      have hresult : updateUiSettings S env policy id row values t = (.error e, t) := by
        rw [updateUiSettings, hprepare]
      rw [hresult]
      refine ⟨fun _ _ _ => rfl, ?_, ?_⟩
      · rintro view ⟨⟩
      · rintro view ⟨⟩
    | ok prepared =>
      obtain ⟨settings, quota⟩ := prepared
      rcases update_cases S t values hprepare with
        ⟨-, view, hresult⟩ | ⟨hnot, done, rest, e, hsplit, haccepted, -, hresult⟩
      · rw [hresult]
        refine ⟨?_, fun _ _ entry => kvGet_foldl_put_of_mem values.distinct,
          fun _ _ key => kvGet_foldl_put_of_notMem⟩
        rintro e ⟨⟩
      · rw [hresult]
        refine ⟨fun _ _ => kvGet_foldl_put_of_held (distinct_of_append hsplit) ?_, ?_, ?_⟩
        · intro entry hentry
          by_contra hchanged
          obtain ⟨before, after, rfl⟩ := List.append_of_mem hentry
          refine hnot (h settings quota hprepare before entry (after ++ rest) ?_ ?_ hchanged)
          · rw [hsplit, List.append_assoc, List.cons_append]
          · intro b x a hsame
            refine haccepted b x (a ++ after) ?_
            rw [List.append_cons, hsame, List.append_assoc, List.cons_append]
        · rintro view ⟨⟩
        · rintro view ⟨⟩

end

/-! ## Half an update -/

/-- A plugin with a text and a switch. -/
def examplePlugin : PluginRow where
  manifest := some {
    limits := ⟨"64MiB", 5000, 4, "4MiB", "2MiB"⟩
    settings := [⟨"region", "Region", "text", "", false, [], none⟩,
      ⟨"debug", "Debug", "boolean", "", false, [], none⟩] }

def examplePolicy : HostPolicy where
  maxMemory := 67108864
  maxWallTimeMs := 5000
  maxOutboundRequests := 4
  maxHttpBody := 4194304
  maxStorage := 10485760

/-- Nothing fails. -/
def exampleEnv : Env where
  get := none
  getAgain := none
  reads _ := none
  tx _ := healthy

/-- A region, and a text for the switch. -/
def exampleValues : SubmittedValues where
  entries := [("region", .string "abc"), ("debug", .string "on")]
  distinct := by decide

/-- The request is refused because of the switch, and the region has been written. -/
theorem region_stored_by_refused_update :
    ¬ ∀ (S : Sealing) (env : Env) (policy : HostPolicy) (id : String) (row : Option PluginRow)
      (values : SubmittedValues) (t : KvTable),
        AllOrNothing S values t (updateUiSettings S env policy id row values t) := by
  intro h
  have hkept := (h exampleSealing exampleEnv examplePolicy "regional" (some examplePlugin)
    exampleValues (Table.empty KvRow.key)).failed (.notBoolean "debug") (by rfl) "_config:region"
  have hstored : (kvGet exampleSealing (updateUiSettings exampleSealing exampleEnv examplePolicy
      "regional" (some examplePlugin) exampleValues (Table.empty KvRow.key)).2
      "_config:region").toOption = some (some [97, 98, 99]) := by decide +kernel
  rw [hkept] at hstored
  cases hstored

end Kinetix.Plugins.UiSettings
