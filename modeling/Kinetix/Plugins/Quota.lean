import Kinetix.Plugins.Storage

/-!
# The quota of a plugin's storage

Whatever order the transactions come in, the values of a plugin stay within its quota, and a
snapshot replaces exactly the keys under its prefix, as long as the `DELETE` of a replacement finds
every key under the prefix. It compares as many characters as the prefix has bytes, so for a prefix
with other than ASCII characters it does not.
-/

namespace Kinetix.Plugins.Storage
open Checks KeyedTable StateMachine Words

section
variable (S : Sealing)

/-- The bytes of a row's value. -/
def size (row : KvRow) : Nat :=
  match S.plaintext row with
  | .ok value => value.length
  | .error _ => 0

def lengths (entries : List (String × List UInt8)) : Nat := (entries.map (·.2.length)).sum

/-- What the storage would hold after the operation. -/
def projected (t : KvTable) : Action → Nat
  | .put key value _ => (t.deleteWhere (· == key)).total (size S) + value.length
  | .replacePrefix start entries _ =>
    (t.deleteWhere (Text.startsWith · start)).total (size S) + lengths entries
  | .delete key _ => (t.deleteWhere (· == key)).total (size S)

/-- One operation is exact: one that fails changes nothing, one that is refused is excused or would
exceed the quota, and a snapshot leaves its entries under its prefix and the other keys alone. -/
structure StepExact (quota : UInt64) (excused : Action → Prop) (t : KvTable) (a : Action) :
    Prop where
  unchanged : ∀ e, (exec S quota t a).1 = .error e → (exec S quota t a).2 = t
  refused : ∀ e, (exec S quota t a).1 = .error e → (∃ message, e = .database message) ∨
    excused a ∨ quota.toNat < projected S t a
  replaced : ∀ start entries env, a = .replacePrefix start entries env →
    (exec S quota t a).1 = .ok () →
    (∀ key, Text.startsWith key start = true →
      kvGet S (exec S quota t a).2 key = .ok (entries.lookup key)) ∧
    ∀ row, Text.startsWith row.key start = false →
      (row ∈ (exec S quota t a).2.rows ↔ row ∈ t.rows)

/-- In every state of the run the values are within the quota, and every operation is exact. -/
def Exact (quota : UInt64) (excused : Action → Prop) (as : List Action) : Prop :=
  ∀ pre post t, as = pre ++ post → (storage S quota).run pre = some t →
    t.total (size S) ≤ quota.toNat ∧
      ∀ a rest, post = a :: rest → StepExact S quota excused t a

end

/-- A snapshot that is refused whatever the storage holds. -/
def Action.Malformed : Action → Prop
  | .replacePrefix start entries _ =>
    start = "" ∨ (∃ e ∈ entries, Text.startsWith e.1 start = false) ∨
      ¬ (entries.map Prod.fst).Nodup
  | .put _ _ _ => False
  | .delete _ _ => False

/-- The `DELETE` of a replacement finds every key under the prefix that the snapshot does not
have. -/
def Covers (t : KvTable) : Action → Prop
  | .replacePrefix start entries _ => ∀ row ∈ t.rows, Text.startsWith row.key start = true →
      matchesPrefix start row.key = true ∨ row.key ∈ entries.map Prod.fst
  | .put _ _ _ => True
  | .delete _ _ => True

instance (t : KvTable) : (a : Action) → Decidable (Covers t a)
  | .replacePrefix start entries _ => inferInstanceAs (Decidable (∀ row ∈ t.rows,
      Text.startsWith row.key start = true →
        matchesPrefix start row.key = true ∨ row.key ∈ entries.map Prod.fst))
  | .put _ _ _ => .isTrue trivial
  | .delete _ _ => .isTrue trivial

/-! ## Prefixes -/

theorem startsWith_iff {s start : String} :
    Text.startsWith s start = true ↔ start.toList <+: s.toList := by
  rw [Text.startsWith, List.isPrefixOf_iff_prefix]

/-- The `DELETE` finds only keys under the prefix. -/
theorem startsWith_of_matchesPrefix {start key : String} (h : matchesPrefix start key = true) :
    Text.startsWith key start = true := by
  rw [matchesPrefix, beq_iff_eq] at h
  rw [startsWith_iff, ← h, sqlSubstr, String.toList_ofList]
  exact (List.take_prefix _ _).trans (List.takeWhile_prefix _)

/-- A prefix with as many bytes as characters, none of them a NUL: the `DELETE` finds every key
under it. -/
theorem matchesPrefix_of_startsWith {start key : String}
    (hbytes : start.utf8ByteSize = start.length) (hnul : Char.ofNat 0 ∉ start.toList)
    (h : Text.startsWith key start = true) : matchesPrefix start key = true := by
  obtain ⟨rest, hkey⟩ := startsWith_iff.mp h
  rw [matchesPrefix, beq_iff_eq, sqlSubstr, ← hkey, hbytes, List.takeWhile_append_of_pos,
    ← String.length_toList, List.take_left, String.ofList_toList]
  intro c hc
  exact decide_eq_true fun hc0 => hnul (hc0 ▸ hc)

/-! ## What is measured -/

section
variable {S : Sealing} {t t' : KvTable} {quota : UInt64} {env : TxEnv}

/-- The row holds a value. -/
def Sealed (S : Sealing) (row : KvRow) : Prop := ∃ value, S.plaintext row = .ok value

variable (key now : String) (nonce value : List UInt8)

@[simp] theorem plaintext_seal : S.plaintext ⟨key, S.seal nonce value, now⟩ = .ok value := by
  simp [Sealing.plaintext, Sealing.seal, S.decrypt_encrypt, S.decode_encode, okOr]

theorem sealed_seal :
    Sealed S ⟨key, S.seal nonce value, now⟩ := ⟨value, plaintext_seal key now nonce value⟩

@[simp] theorem size_seal : size S ⟨key, S.seal nonce value, now⟩ = value.length := by
  simp [size]

theorem checkedAdd_eq_some {a b n : Nat} : checkedAdd a b = some n ↔ a + b = n ∧ n ≤ u64Max := by
  rw [checkedAdd]
  split
  · simp only [Option.some.injEq]
    constructor
    · rintro rfl
      exact ⟨rfl, ‹_›⟩
    · exact And.left
  · refine iff_of_false (by simp) ?_
    rintro ⟨rfl, hn⟩
    exact absurd hn ‹_›

theorem checkedAdd_eq_none {a b : Nat} : checkedAdd a b = none ↔ u64Max < a + b := by
  rw [checkedAdd]
  split
  · exact iff_of_false (by simp) (Nat.not_lt_of_le ‹_›)
  · exact iff_of_true rfl (Nat.lt_of_not_le ‹_›)

/-- The rows of a table that are not passed over are measured, unless they do not fit 64 bits. -/
theorem used_spec (skip : String → Bool) {rows : List KvRow}
    (hs : ∀ row ∈ rows, skip row.key = false → Sealed S row) (acc : Nat) :
    (∀ n, used S skip rows acc = .ok n →
      n = acc + ((rows.filter fun row => !skip row.key).map (size S)).sum) ∧
    ∀ e, used S skip rows acc = .error e →
      u64Max < acc + ((rows.filter fun row => !skip row.key).map (size S)).sum := by
  induction rows generalizing acc with
  | nil =>
    refine ⟨fun n h => ?_, fun e h => ?_⟩
    · cases h
      rfl
    · cases h
  | cons row rows ih =>
    have ih := ih fun r hr => hs r (List.mem_cons_of_mem _ hr)
    rw [used]
    by_cases hskip : skip row.key = true
    · rw [if_pos hskip, List.filter_cons_of_neg (by simp [hskip])]
      exact ih acc
    · obtain ⟨value, hvalue⟩ := hs row List.mem_cons_self (Bool.eq_false_of_not_eq_true hskip)
      have hsize : size S row = value.length := by rw [size, hvalue]
      rw [if_neg hskip, List.filter_cons_of_pos (by simp [hskip]), List.map_cons, List.sum_cons,
        hvalue, hsize, ← Nat.add_assoc]
      refine ⟨fun n h => ?_, fun e h => ?_⟩
      · obtain ⟨decoded, hdecoded, h⟩ := bind_eq_ok.mp h
        cases hdecoded
        obtain ⟨acc', hacc, h⟩ := bind_eq_ok.mp h
        obtain ⟨rfl, -⟩ := checkedAdd_eq_some.mp (okOr_eq_ok.mp hacc)
        exact (ih _).1 n h
      · rcases bind_eq_error.mp h with h | ⟨decoded, hdecoded, h⟩
        · cases h
        · cases hdecoded
          rcases bind_eq_error.mp h with h | ⟨acc', hacc, h⟩
          · exact Nat.lt_add_right _ (checkedAdd_eq_none.mp (okOr_eq_error.mp h).1)
          · obtain ⟨rfl, -⟩ := checkedAdd_eq_some.mp (okOr_eq_ok.mp hacc)
            exact (ih _).2 e h

theorem addLengths_spec (entries : List (String × List UInt8)) (acc : Nat) :
    (∀ n, addLengths entries acc = .ok n → n = acc + lengths entries) ∧
    ∀ e, addLengths entries acc = .error e → u64Max < acc + lengths entries := by
  induction entries generalizing acc with
  | nil =>
    refine ⟨fun n h => ?_, fun e h => ?_⟩
    · cases h
      rfl
    · cases h
  | cons entry entries ih =>
    obtain ⟨key, value⟩ := entry
    rw [addLengths, lengths, List.map_cons, List.sum_cons, ← Nat.add_assoc, ← lengths]
    refine ⟨fun n h => ?_, fun e h => ?_⟩
    · obtain ⟨acc', hacc, h⟩ := bind_eq_ok.mp h
      obtain ⟨rfl, -⟩ := checkedAdd_eq_some.mp (okOr_eq_ok.mp hacc)
      exact (ih _).1 n h
    · rcases bind_eq_error.mp h with h | ⟨acc', hacc, h⟩
      · exact Nat.lt_add_right _ (checkedAdd_eq_none.mp (okOr_eq_error.mp h).1)
      · obtain ⟨rfl, -⟩ := checkedAdd_eq_some.mp (okOr_eq_ok.mp hacc)
        exact (ih _).2 e h

/-- What an operation does: it is done, fails in the database, or is refused. -/
inductive Outcome (t : KvTable) (done : KvTable → Prop) (refusal : Prop) :
    Except KvError Unit × KvTable → Prop where
  | done {t' : KvTable} (h : done t') : Outcome t done refusal (.ok (), t')
  | failed (message : String) : Outcome t done refusal (.error (.database message), t)
  | refused {e : KvError} (h : refusal) : Outcome t done refusal (.error e, t)

namespace Outcome
variable {done : KvTable → Prop} {refusal : Prop} {x : Except KvError Unit × KvTable} {e : KvError}

theorem unchanged (h : Outcome t done refusal x) (he : x.1 = .error e) : x.2 = t := by
  cases h with
  | done h => cases he
  | failed message | refused h => rfl

theorem of_error (h : Outcome t done refusal x) (he : x.1 = .error e) :
    (∃ message, e = .database message) ∨ refusal := by
  cases h with
  | done h => cases he
  | failed message =>
    cases he
    exact Or.inl ⟨message, rfl⟩
  | refused h => exact Or.inr h

theorem of_ok (h : Outcome t done refusal x) (hx : x.1 = .ok ()) : done x.2 := by
  cases h with
  | done h => exact h
  | failed message | refused h => cases hx

/-- What holds before the operation and after it is done holds after it. -/
theorem invariant {I : KvTable → Prop} (h : Outcome t done refusal x) (ht : I t)
    (hdone : ∀ t', done t' → I t') : I x.2 := by
  cases h with
  | done h => exact hdone _ h
  | failed message | refused h => exact ht

end Outcome

theorem transact_outcome {body : KvTable → Except KvError KvTable} {done : KvTable → Prop}
    {refusal : Prop} (hdone : ∀ t', body t = .ok t' → done t')
    (herror : ∀ e, body t = .error e → (∃ message, e = .database message) ∨ refusal) :
    Outcome t done refusal (transact env t body) := by
  rw [transact]
  split
  · cases hbody : body t with
    | ok t' =>
      simp only
      split
      · exact .done (hdone t' hbody)
      · exact .failed _
    | error e =>
      rcases herror e hbody with ⟨message, rfl⟩ | h
      · exact .failed message
      · exact .refused h
  · exact .failed _

theorem statement_eq_error {succeeds : Bool} {e : KvError}
    (h : env.statement succeeds = .error e) : ∃ message, e = .database message :=
  ⟨_, (refuseIf_eq_error.mp h).2.symm⟩

theorem quota_le (quota : UInt64) : quota.toNat ≤ u64Max :=
  Nat.le_of_lt_succ quota.toNat_lt

/-! ## Operations -/

variable {entries : List (String × List UInt8)} {start : String} {key : String}

theorem kvPutLimited_outcome {value : List UInt8} (hs : ∀ row ∈ t.rows, Sealed S row) : Outcome t
      (fun t' => t' = t.upsert ⟨key, S.seal (env.nonce 0) value, env.now⟩ ∧
        (t.deleteWhere (· == key)).total (size S) + value.length ≤ quota.toNat)
      (quota.toNat < (t.deleteWhere (· == key)).total (size S) + value.length)
      (kvPutLimited S quota t key value env) := by
  have hused := used_spec (· == key) (fun row hrow _ => hs row hrow) 0
  apply transact_outcome
  · intro t' h
    obtain ⟨-, -, h⟩ := bind_eq_ok.mp h
    obtain ⟨n, hn, h⟩ := bind_eq_ok.mp h
    obtain ⟨m, hm, h⟩ := bind_eq_ok.mp h
    obtain ⟨rfl, -⟩ := checkedAdd_eq_some.mp (okOr_eq_ok.mp hm)
    obtain ⟨_, hquota, h⟩ := bind_eq_ok.mp h
    obtain ⟨-, -, h⟩ := bind_eq_ok.mp h
    have hn := hused.1 n hn
    rw [Nat.zero_add] at hn
    refine ⟨(pure_eq_ok.mp h).symm, ?_⟩
    rw [refuseIf_eq_ok, hn] at hquota
    exact Nat.le_of_not_lt hquota
  · intro e h
    have hmax := quota_le quota
    rcases bind_eq_error.mp h with h | ⟨_, -, h⟩
    · exact Or.inl (statement_eq_error h)
    rcases bind_eq_error.mp h with h | ⟨n, hn, h⟩
    · have hlarge := hused.2 e h
      rw [Nat.zero_add] at hlarge
      exact Or.inr (Nat.lt_add_right _ (Nat.lt_of_le_of_lt hmax hlarge))
    have hn := hused.1 n hn
    rw [Nat.zero_add] at hn
    rcases bind_eq_error.mp h with h | ⟨m, hm, h⟩
    · have hlarge := checkedAdd_eq_none.mp (okOr_eq_error.mp h).1
      rw [hn] at hlarge
      exact Or.inr (Nat.lt_of_le_of_lt hmax hlarge)
    obtain ⟨rfl, -⟩ := checkedAdd_eq_some.mp (okOr_eq_ok.mp hm)
    rcases bind_eq_error.mp h with h | ⟨_, -, h⟩
    · have hover := (refuseIf_eq_error.mp h).1
      rw [hn] at hover
      exact Or.inr hover
    rcases bind_eq_error.mp h with h | ⟨_, -, h⟩
    · exact Or.inl (statement_eq_error h)
    · cases h

theorem insertAll_spec {rows : List KvRow} {k : Nat} :
    (∀ t', insertAll env k rows t = .ok t' → t' = t.upsertAll rows) ∧
      ∀ e, insertAll env k rows t = .error e → ∃ message, e = .database message := by
  induction rows generalizing k t with
  | nil =>
    refine ⟨fun t' h => ?_, fun e h => ?_⟩
    · cases h
      rfl
    · cases h
  | cons row rows ih =>
    refine ⟨fun t' h => ?_, fun e h => ?_⟩
    · obtain ⟨_, -, h⟩ := bind_eq_ok.mp h
      exact ih.1 t' h
    · rcases bind_eq_error.mp h with h | ⟨_, -, h⟩
      · exact statement_eq_error h
      · exact ih.2 e h

theorem kvReplacePrefixLimited_outcome (hs : ∀ row ∈ t.rows, Sealed S row) : Outcome t
      (fun t' => ¬ (Action.replacePrefix start entries env).Malformed ∧
        t' = (t.deleteWhere (matchesPrefix start)).upsertAll (sealEntries S env 0 entries) ∧
        (t.deleteWhere (Text.startsWith · start)).total (size S) + lengths entries ≤ quota.toNat)
      ((Action.replacePrefix start entries env).Malformed ∨
        quota.toNat < (t.deleteWhere (Text.startsWith · start)).total (size S) + lengths entries)
      (kvReplacePrefixLimited S quota t start entries env) := by
  have hused := used_spec (Text.startsWith · start) (fun row hrow _ => hs row hrow) 0
  rw [kvReplacePrefixLimited]
  split
  · exact .refused (Or.inl (Or.inl ‹_›))
  rename_i hempty
  split
  · rename_i houtside
    obtain ⟨entry, hentry, hstart⟩ := List.any_eq_true.mp houtside
    exact .refused (Or.inl (Or.inr (Or.inl ⟨entry, hentry, by simpa using hstart⟩)))
  rename_i hinside
  split
  · exact .refused (Or.inl (Or.inr (Or.inr ‹_›)))
  rename_i hnodup
  have hformed : ¬ (Action.replacePrefix start entries env).Malformed := by
    rintro (h | ⟨entry, hentry, hstart⟩ | h)
    · exact hempty h
    · exact hinside (List.any_eq_true.mpr ⟨entry, hentry, by simp [hstart]⟩)
    · exact hnodup h
  apply transact_outcome
  · intro t' h
    obtain ⟨_, -, h⟩ := bind_eq_ok.mp h
    obtain ⟨n, hn, h⟩ := bind_eq_ok.mp h
    obtain ⟨m, hm, h⟩ := bind_eq_ok.mp h
    obtain ⟨_, hquota, h⟩ := bind_eq_ok.mp h
    obtain ⟨_, -, h⟩ := bind_eq_ok.mp h
    have hn := hused.1 n hn
    rw [Nat.zero_add] at hn
    have hm := (addLengths_spec entries n).1 m hm
    rw [refuseIf_eq_ok, hm, hn] at hquota
    exact ⟨hformed, insertAll_spec.1 t' h, Nat.le_of_not_lt hquota⟩
  · intro e h
    have hmax := quota_le quota
    rcases bind_eq_error.mp h with h | ⟨_, -, h⟩
    · exact Or.inl (statement_eq_error h)
    rcases bind_eq_error.mp h with h | ⟨n, hn, h⟩
    · have hlarge := hused.2 e h
      rw [Nat.zero_add] at hlarge
      exact Or.inr (Or.inr (Nat.lt_add_right _ (Nat.lt_of_le_of_lt hmax hlarge)))
    have hn := hused.1 n hn
    rw [Nat.zero_add] at hn
    rcases bind_eq_error.mp h with h | ⟨m, hm, h⟩
    · have hlarge := (addLengths_spec entries n).2 e h
      rw [hn] at hlarge
      exact Or.inr (Or.inr (Nat.lt_of_le_of_lt hmax hlarge))
    have hm := (addLengths_spec entries n).1 m hm
    rcases bind_eq_error.mp h with h | ⟨_, -, h⟩
    · have hover := (refuseIf_eq_error.mp h).1
      rw [hm, hn] at hover
      exact Or.inr (Or.inr hover)
    rcases bind_eq_error.mp h with h | ⟨_, -, h⟩
    · exact Or.inl (statement_eq_error h)
    · exact Or.inl (insertAll_spec.2 e h)

theorem kvDelete_outcome :
    Outcome t (fun t' => t' = t.deleteWhere (· == key)) False (kvDelete t key env) := by
  rw [kvDelete]
  split
  · exact .done rfl
  · exact .failed _

/-! ## Snapshots -/

theorem sealEntries_keys (entries : List (String × List UInt8)) (k : Nat) :
    (sealEntries S env k entries).map KvRow.key = entries.map Prod.fst := by
  induction entries generalizing k with
  | nil => rfl
  | cons entry entries ih => exact congrArg (entry.1 :: ·) (ih (k + 1))

theorem sealEntries_sizes (entries : List (String × List UInt8)) (k : Nat) :
    ((sealEntries S env k entries).map (size S)).sum = lengths entries := by
  induction entries generalizing k with
  | nil => rfl
  | cons entry entries ih =>
    rw [sealEntries, List.map_cons, List.sum_cons, ih, size_seal, lengths, lengths,
      List.map_cons, List.sum_cons]

/-- The rows of a snapshot hold its values. -/
theorem plaintext_of_mem {k : Nat} {row : KvRow} (h : row ∈ sealEntries S env k entries) :
    ∃ value, (row.key, value) ∈ entries ∧ S.plaintext row = .ok value := by
  induction entries generalizing k with
  | nil => cases h
  | cons entry entries ih =>
    rcases List.mem_cons.mp h with rfl | h
    · exact ⟨entry.2, List.mem_cons_self, plaintext_seal _ _ _ _⟩
    · obtain ⟨value, hmem, hvalue⟩ := ih h
      exact ⟨value, List.mem_cons_of_mem entry hmem, hvalue⟩

theorem lookup_eq_some_of_mem {value : List UInt8} (hn : (entries.map Prod.fst).Nodup)
    (h : (key, value) ∈ entries) : entries.lookup key = some value := by
  induction entries with
  | nil => cases h
  | cons entry entries ih =>
    rw [List.map_cons, List.nodup_cons] at hn
    rcases List.mem_cons.mp h with rfl | h
    · exact List.lookup_cons_self
    · have hne : (key == entry.1) = false := by
        rw [beq_eq_false_iff_ne]
        rintro rfl
        exact hn.1 (List.mem_map.mpr ⟨(entry.1, value), h, rfl⟩)
      rw [List.lookup_cons, hne]
      exact ih hn.2 h

/-- What can be read after a replacement. -/
theorem kvGet_replaced {start key : String} (hn : (entries.map Prod.fst).Nodup)
    (hc : Covers t (.replacePrefix start entries env)) (hkey : Text.startsWith key start = true) :
    kvGet S ((t.deleteWhere (matchesPrefix start)).upsertAll (sealEntries S env 0 entries)) key =
      .ok (entries.lookup key) := by
  have hkeys : (sealEntries S env 0 entries).map KvRow.key = entries.map Prod.fst :=
    sealEntries_keys entries 0
  have hrows : ((sealEntries S env 0 entries).map KvRow.key).Nodup := by
    rwa [hkeys]
  by_cases hmem : key ∈ entries.map Prod.fst
  · rw [← hkeys] at hmem
    obtain ⟨row, hrow, rfl⟩ := List.mem_map.mp hmem
    obtain ⟨value, hentry, hvalue⟩ := plaintext_of_mem hrow
    have hfind := Table.find_eq_some.mpr ⟨(Table.mem_upsertAll
      (t := t.deleteWhere (matchesPrefix start)) hrows).mpr (Or.inl hrow), rfl⟩
    rw [kvGet, hfind, lookup_eq_some_of_mem hn hentry]
    exact congrArg (Except.map some) hvalue
  · have hlookup : entries.lookup key = none := by
      rw [List.lookup_eq_none_iff]
      intro entry hentry
      rw [bne_iff_ne]
      rintro rfl
      exact hmem (List.mem_map_of_mem hentry)
    have hfind : ((t.deleteWhere (matchesPrefix start)).upsertAll
        (sealEntries S env 0 entries)).find key = none := by
      rw [Table.find_eq_none]
      rintro row hrow rfl
      rw [Table.mem_upsertAll hrows] at hrow
      rcases hrow with hrow | ⟨hrow, -⟩
      · exact hmem (hkeys ▸ List.mem_map_of_mem hrow)
      · obtain ⟨hrow, hkept⟩ := Table.mem_deleteWhere.mp hrow
        rcases hc row hrow hkey with h | h
        · exact absurd (h.symm.trans hkept) (by decide)
        · exact hmem h
    rw [kvGet, hfind, hlookup]

/-- The keys of a snapshot that is not malformed are under its prefix, and no two are the same. -/
theorem inside_of_formed (hf : ¬ (Action.replacePrefix start entries env).Malformed) :
    (∀ e ∈ entries, Text.startsWith e.1 start = true) ∧ (entries.map Prod.fst).Nodup := by
  simp only [Action.Malformed, not_or, not_exists, not_and, not_not] at hf
  exact ⟨fun e he => eq_true_of_ne_false (hf.2.1 e he), hf.2.2⟩

theorem not_mem_of_outside {start key : String}
    (hf : ¬ (Action.replacePrefix start entries env).Malformed)
    (hkey : Text.startsWith key start = false) : key ∉ entries.map Prod.fst := by
  intro hmem
  obtain ⟨entry, hentry, rfl⟩ := List.mem_map.mp hmem
  exact absurd (hkey.symm.trans ((inside_of_formed hf).1 entry hentry)) (by decide)

/-- The rows outside the prefix are left alone. -/
theorem mem_replaced_of_outside {row : KvRow}
    (hf : ¬ (Action.replacePrefix start entries env).Malformed)
    (hrow : Text.startsWith row.key start = false) :
    row ∈ ((t.deleteWhere (matchesPrefix start)).upsertAll (sealEntries S env 0 entries)).rows ↔
      row ∈ t.rows := by
  have hnew := not_mem_of_outside hf hrow
  obtain ⟨-, hn⟩ := inside_of_formed hf
  have hrows : ((sealEntries S env 0 entries).map KvRow.key).Nodup := by
    rwa [sealEntries_keys]
  rw [Table.mem_upsertAll hrows, sealEntries_keys, Table.mem_deleteWhere]
  constructor
  · rintro (h | ⟨⟨h, -⟩, -⟩)
    · exact absurd ((sealEntries_keys entries 0) ▸ List.mem_map_of_mem h) hnew
    · exact h
  · refine fun h => Or.inr ⟨⟨h, ?_⟩, hnew⟩
    by_contra hmatch
    have hunder := startsWith_of_matchesPrefix (eq_true_of_ne_false hmatch)
    exact absurd (hrow.symm.trans hunder) (by decide)

/-- A replacement that finds the keys under its prefix leaves what was measured. -/
theorem total_replaced (hf : ¬ (Action.replacePrefix start entries env).Malformed)
    (hc : Covers t (.replacePrefix start entries env)) :
    ((t.deleteWhere (matchesPrefix start)).upsertAll (sealEntries S env 0 entries)).total (size S) =
      (t.deleteWhere (Text.startsWith · start)).total (size S) + lengths entries := by
  have hkeys : (sealEntries S env 0 entries).map KvRow.key = entries.map Prod.fst :=
    sealEntries_keys entries 0
  have hn : ((sealEntries S env 0 entries).map KvRow.key).Nodup := by
    rw [hkeys]
    exact (inside_of_formed hf).2
  -- what neither the `DELETE` nor an `INSERT` replaces is what is outside the prefix
  have hleft : ((t.deleteWhere (matchesPrefix start)).deleteWhere
      fun k => k ∈ (sealEntries S env 0 entries).map KvRow.key).rows =
      (t.deleteWhere (Text.startsWith · start)).rows := by
    rw [hkeys, Table.rows_deleteWhere, Table.rows_deleteWhere, Table.rows_deleteWhere,
      List.filter_filter]
    refine List.filter_congr fun row hrow => ?_
    by_cases hstart : Text.startsWith row.key start = true
    · rcases hc row hrow hstart with h | h
      · simp [hstart, h]
      · simp only [hstart, h]
        simp
    · have hnew := not_mem_of_outside hf (Bool.eq_false_of_not_eq_true hstart)
      have hmatch : matchesPrefix start row.key = false := by
        by_contra h
        exact hstart (startsWith_of_matchesPrefix (eq_true_of_ne_false h))
      simp [hstart, hnew, hmatch]
  rw [Table.total_upsertAll hn, sealEntries_sizes, Table.total, hleft, Table.total, Nat.add_comm]

/-! ## Runs -/

structure Inv (S : Sealing) (quota : UInt64) (t : KvTable) : Prop where
  sealed : ∀ row ∈ t.rows, Sealed S row
  within : t.total (size S) ≤ quota.toNat

theorem Inv.delete (h : Inv S quota t) (p : String → Bool) : Inv S quota (t.deleteWhere p) where
  sealed row hrow := h.sealed row (Table.mem_deleteWhere.mp hrow).1
  within := Nat.le_trans Table.total_deleteWhere_le h.within

theorem Inv.exec {a : Action} (h : Inv S quota t) (hc : Covers t a) :
    Inv S quota (exec S quota t a).2 := by
  cases a with
  | put key value env =>
    refine (kvPutLimited_outcome h.sealed).invariant h ?_
    rintro _ ⟨rfl, hfits⟩
    constructor
    · intro row hrow
      rcases Table.mem_upsert.mp hrow with rfl | ⟨hrow, -⟩
      · exact sealed_seal _ _ _ _
      · exact h.sealed row hrow
    · rw [Table.total_upsert, size_seal, Nat.add_comm]
      exact hfits
  | replacePrefix start entries env =>
    refine (kvReplacePrefixLimited_outcome h.sealed).invariant h ?_
    rintro _ ⟨hf, rfl, hfits⟩
    constructor
    · intro row hrow
      have hrows : ((sealEntries S env 0 entries).map KvRow.key).Nodup := by
        rw [sealEntries_keys]
        exact (inside_of_formed hf).2
      rcases (Table.mem_upsertAll hrows).mp hrow with hrow | ⟨hrow, -⟩
      · obtain ⟨value, -, hvalue⟩ := plaintext_of_mem hrow
        exact ⟨value, hvalue⟩
      · exact h.sealed row (Table.mem_deleteWhere.mp hrow).1
    · rw [total_replaced hf hc]
      exact hfits
  | delete key env =>
    refine kvDelete_outcome.invariant h ?_
    rintro _ rfl
    exact h.delete _

theorem Inv.stepExact {a : Action} (h : Inv S quota t) (hc : Covers t a) :
    StepExact S quota Action.Malformed t a := by
  cases a with
  | put key value env =>
    have ho : Outcome t _ _ (kvPutLimited S quota t key value env) :=
      kvPutLimited_outcome h.sealed
    exact ⟨fun _ => ho.unchanged, fun _ he => (ho.of_error he).imp_right Or.inr,
      fun _ _ _ ha => by cases ha⟩
  | replacePrefix start entries env =>
    have ho : Outcome t _ _ (kvReplacePrefixLimited S quota t start entries env) :=
      kvReplacePrefixLimited_outcome h.sealed
    refine ⟨fun _ => ho.unchanged, fun _ he => ho.of_error he, ?_⟩
    rintro _ _ _ ⟨⟩ hok
    obtain ⟨hf, heq, -⟩ := ho.of_ok hok
    rw [Storage.exec, heq]
    exact ⟨fun key => kvGet_replaced (inside_of_formed hf).2 hc,
      fun row => mem_replaced_of_outside hf⟩
  | delete key env =>
    have ho : Outcome t _ _ (kvDelete t key env) := kvDelete_outcome
    exact ⟨fun _ => ho.unchanged, fun _ he => (ho.of_error he).imp_right False.elim,
      fun _ _ _ ha => by cases ha⟩

/-- In every run whose replacements find the keys under their prefixes, the values stay within the
quota and every operation is exact; only a malformed snapshot is refused otherwise than by the
quota. -/
theorem storage_exact (S : Sealing) (quota : UInt64) (as : List Action)
    (hc : (storage S quota).Meets (fun _ => Covers) as) : Exact S quota Action.Malformed as := by
  have inv : ∀ as t, (storage S quota).Meets (fun _ => Covers) as →
      (storage S quota).run as = some t → Inv S quota t := by
    refine (storage S quota).run_induction_of_meets (I := fun _ => Inv S quota) ?_ ?_
    · exact ⟨fun row hrow => (by cases hrow), Nat.zero_le _⟩
    · intro as t a t' hinv hcovers hstep
      cases hstep
      exact hinv.exec hcovers
  rintro pre post t rfl hpre
  have hinv := inv pre t (hc.of_append _) hpre
  refine ⟨hinv.within, ?_⟩
  rintro a rest rfl
  exact hinv.stepExact (hc pre a rest t rfl hpre)

/-- Replacements under prefixes of ASCII keep what is held readable and within the quota. -/
theorem quota_kept_of_ascii {as : List Action} (h : (storage S quota).run as = some t)
    (hascii : ∀ start entries env, .replacePrefix start entries env ∈ as →
      start.utf8ByteSize = start.length ∧ Char.ofNat 0 ∉ start.toList) : Inv S quota t := by
  refine (storage S quota).runFrom_invariant (P := fun a => ∀ t, Covers t a) ?_ ?_
    ⟨fun _ hrow => (by cases hrow), Nat.zero_le _⟩ h
  · intro t a t' hcovers hinv hstep
    cases hstep
    exact hinv.exec (hcovers t)
  · intro a ha t
    cases a with
    | replacePrefix start entries env =>
      obtain ⟨hbytes, hnul⟩ := hascii start entries env ha
      exact fun row _ hrow => Or.inl (matchesPrefix_of_startsWith hbytes hnul hrow)
    | put | delete => trivial

end

/-- A text for bytes: the base64 text of `abc`, and for others one character a byte. -/
def exampleEncode (value : List UInt8) : String :=
  if value = [97, 98, 99] then "YWJj"
  else String.ofList (':' :: value.map fun b => Char.ofNat (256 + b.toNat))

def exampleDecode (text : String) : Option (List UInt8) :=
  if text = "YWJj" then some [97, 98, 99]
  else match text.toList with
    | ':' :: cs => some (cs.map fun c => UInt8.ofNat (c.toNat - 256))
    | _ => none

theorem toNat_exampleChar (b : UInt8) : (Char.ofNat (256 + b.toNat)).toNat = 256 + b.toNat := by
  have hb := b.toNat_lt
  have hvalid : (256 + b.toNat).isValidChar := Or.inl (by omega)
  rw [Char.ofNat, dif_pos hvalid]
  rfl

theorem exampleDecode_encode (value : List UInt8) :
    exampleDecode (Text.trim (exampleEncode value)) = some value := by
  by_cases h : value = [97, 98, 99]
  · subst h
    decide
  · have htext : Text.trim (exampleEncode value) = exampleEncode value := by
      apply Text.trim_eq_self
      rw [exampleEncode, if_neg h, String.toList_ofList]
      intro c hc
      rcases List.mem_cons.mp hc with rfl | hc
      · decide
      · obtain ⟨b, -, rfl⟩ := List.mem_map.mp hc
        have hb := b.toNat_lt
        simp only [Text.isWhitespace, toNat_exampleChar, Bool.or_eq_false_iff,
          Bool.and_eq_false_iff, decide_eq_false_iff_not, beq_eq_false_iff_ne]
        omega
    have hne : exampleEncode value ≠ "YWJj" := by
      intro he
      have hlist := congrArg String.toList he
      rw [exampleEncode, if_neg h, String.toList_ofList] at hlist
      exact absurd (List.cons.inj hlist).1 (by decide)
    rw [htext, exampleDecode, if_neg hne, exampleEncode, if_neg h, String.toList_ofList]
    have hbyte : (fun c => UInt8.ofNat (c.toNat - 256)) ∘
        (fun b : UInt8 => Char.ofNat (256 + b.toNat)) = id := by
      funext b
      rw [Function.comp_apply, toNat_exampleChar, Nat.add_sub_cancel_left, UInt8.ofNat_toNat, id]
    have hback : (value.map fun b => Char.ofNat (256 + b.toNat)).map
        (fun c => UInt8.ofNat (c.toNat - 256)) = value := by
      rw [List.map_map, hbyte, List.map_id]
    exact congrArg some hback

def exampleSealing : Sealing where
  encode := exampleEncode
  decode := exampleDecode
  encryptKv _ plaintext := "sealed." ++ plaintext
  decryptKv text :=
    if "sealed.".toList <+: text.toList then .ok (String.ofList (text.toList.drop 7))
    else .error "decryption failed (wrong master key?)"
  decode_encode := exampleDecode_encode
  decrypt_encrypt nonce plaintext := by
    have hdrop : ("sealed.".toList ++ plaintext.toList).drop 7 = plaintext.toList := rfl
    rw [String.toList_append, if_pos (List.prefix_append _ _), hdrop, String.ofList_toList]

/-- A transaction of which every statement succeeds. -/
def healthy : TxEnv where
  begins := true
  selects := true
  deletes := true
  inserts _ := true
  commits := true
  dbError := ""
  now := "1970-01-01T00:00:00+00:00"
  nonce _ := []

/-- A value, a snapshot beside it and a second snapshot in its place. -/
def exampleRefresh : List Action :=
  [.put "ordinary" [97, 98, 99] healthy,
    .replacePrefix "_cache:" [("_cache:a", [97, 98, 99])] healthy,
    .replacePrefix "_cache:" [("_cache:b", [97, 98, 99])] healthy]

/-- A snapshot under a prefix of one character and two bytes, after a value under it. -/
def exampleAccent : List Action :=
  [.put "é1" [97, 98, 99] healthy, .replacePrefix "é" [("é2", [97, 98, 99])] healthy]

/-- The second snapshot takes the place of the first, and six bytes are all that is held. -/
theorem storage_exact_refresh :
    ∃ t, (storage exampleSealing 6).run exampleRefresh = some t ∧
      t.rows.map KvRow.key = ["_cache:b", "ordinary"] ∧
      Exact exampleSealing 6 Action.Malformed exampleRefresh := by
  refine ⟨_, rfl, by decide, storage_exact _ _ _ ?_⟩
  apply Machine.Along.meets
  decide

theorem quota_kept_of_ascii_refresh : ∃ t, (storage exampleSealing 6).run exampleRefresh = some t ∧
    Inv exampleSealing 6 t := by
  have hs : (storage exampleSealing 6).run exampleRefresh = some _ := rfl
  refine ⟨_, hs, quota_kept_of_ascii hs ?_⟩
  rintro _ _ _ (_ | ⟨_, _ | ⟨_, _ | ⟨_, ⟨⟩⟩⟩⟩) <;> decide

/-- A replacement under an empty prefix is refused although nothing would be held. A replacement
under a prefix that is not ASCII leaves the old key, and more is held than the quota. -/
theorem replacement_not_exact :
    ¬ Exact exampleSealing 3 (fun _ => False) [.replacePrefix "" [] healthy] ∧
    ∃ t, (storage exampleSealing 3).run exampleAccent = some t ∧
      t.rows.map KvRow.key = ["é2", "é1"] ∧ t.total (size exampleSealing) = 6 ∧
      ¬ Exact exampleSealing 3 Action.Malformed exampleAccent := by
  constructor
  · intro h
    have hstep := (h [] [.replacePrefix "" [] healthy] _ rfl rfl).2 _ _ rfl
    rcases hstep.refused .emptyPrefix rfl with ⟨message, he⟩ | he | hfull
    · cases he
    · exact he
    · exact absurd hfull (by decide)
  · refine ⟨_, rfl, by decide, by decide, fun h => ?_⟩
    exact absurd (h exampleAccent [] _ (List.append_nil _).symm rfl).1 (by decide)

end Kinetix.Plugins.Storage
