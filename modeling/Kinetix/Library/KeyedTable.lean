import Mathlib.Algebra.Order.BigOperators.Group.List
import Mathlib.Data.List.Basic
import Mathlib.Data.List.Nodup
import Mathlib.Tactic

/-!
# Tables with a primary key

A table is a list of rows of which no two have the same key. Rows are deleted by their key, and
inserted with the row of the same key replaced. The order of the rows means nothing.

Entries may also be written into a list of rows by name. Writing one entry leaves a row of its name
that is written as the entry says, and the rows of all other names as they were; so does writing
entries of different names one after the other.

## Implementation notes

What it means that a row is written as an entry says is a parameter. A name may have several rows.
-/

namespace KeyedTable

universe u v
variable {κ : Type u} {ρ : Type v} {key : ρ → κ}

structure Table (key : ρ → κ) where
  rows : List ρ
  primaryKey : (rows.map key).Nodup

section Entries
variable {ε : Type*} [DecidableEq κ] (f : ε → κ) {keys : List κ}

/-- The entries of some different keys, key by key. -/
theorem flatMap_filter_perm (hkeys : keys.Nodup) (es : List ε) :
    (keys.flatMap fun k => es.filter fun e => f e = k).Perm (es.filter fun e => f e ∈ keys) := by
  induction keys with
  | nil => simp
  | cons k keys ih =>
    obtain ⟨hnew, htail⟩ := List.nodup_cons.mp hkeys
    have hsplit := List.filter_append_perm (fun e => f e = k) (es.filter fun e => f e ∈ k :: keys)
    have hown : (es.filter fun e => f e ∈ k :: keys).filter (fun e => f e = k) =
        es.filter fun e => f e = k := by
      rw [List.filter_filter]
      refine List.filter_congr fun e _ => ?_
      by_cases he : f e = k <;> simp [he]
    have hothers : (es.filter fun e => f e ∈ k :: keys).filter (fun e => !decide (f e = k)) =
        es.filter fun e => f e ∈ keys := by
      rw [List.filter_filter]
      refine List.filter_congr fun e _ => ?_
      by_cases he : f e = k
      · simp [he, hnew]
      · simp [he]
    rw [hown, hothers] at hsplit
    rw [List.flatMap_cons]
    exact (List.Perm.append_left _ (ih htail)).trans hsplit

/-- Entries of which each has one of some different keys are counted key by key. -/
theorem sum_countP_key (hkeys : keys.Nodup) {es : List ε} (h : ∀ e ∈ es, f e ∈ keys) :
    (keys.map fun k => es.countP fun e => f e = k).sum = es.length := by
  have hlength := (flatMap_filter_perm f hkeys es).length_eq
  rw [List.filter_eq_self.mpr fun e he => decide_eq_true (h e he), List.length_flatMap] at hlength
  rw [← hlength]
  simp only [List.countP_eq_length_filter]

end Entries

namespace Table

theorem nodup_filter {rows : List ρ} (h : (rows.map key).Nodup) (p : ρ → Bool) :
    ((rows.filter p).map key).Nodup :=
  h.sublist (List.filter_sublist.map key)

def empty (key : ρ → κ) : Table key where
  rows := []
  primaryKey := List.nodup_nil

/-- `DELETE` of the rows whose key meets a condition. -/
def deleteWhere (t : Table key) (p : κ → Bool) : Table key where
  rows := t.rows.filter fun r => !p (key r)
  primaryKey := nodup_filter t.primaryKey _

/-- Keep the rows that meet a condition. -/
def filterRows (t : Table key) (p : ρ → Bool) : Table key where
  rows := t.rows.filter p
  primaryKey := nodup_filter t.primaryKey p

/-- What a weight of the rows sums up to. -/
def total (t : Table key) (weight : ρ → ℕ) : ℕ := (t.rows.map weight).sum

section
variable [DecidableEq κ]

/-- `INSERT ... ON CONFLICT DO UPDATE`. -/
def upsert (t : Table key) (x : ρ) : Table key where
  rows := x :: t.rows.filter fun r => key r ≠ key x
  primaryKey := by
    rw [List.map_cons, List.nodup_cons]
    refine ⟨?_, nodup_filter t.primaryKey _⟩
    rw [List.mem_map]
    rintro ⟨r, hr, hk⟩
    exact of_decide_eq_true (List.mem_filter.mp hr).2 hk

def upsertAll (t : Table key) (xs : List ρ) : Table key := xs.foldl upsert t

/-- The table of rows that are inserted into an empty one. Two rows with one key are refused. -/
def ofRows (key : ρ → κ) (rows : List ρ) : Option (Table key) :=
  if h : (rows.map key).Nodup then some ⟨rows, h⟩ else none

def find (t : Table key) (k : κ) : Option ρ := t.rows.find? fun r => key r = k

/-- `INSERT ... ON CONFLICT DO NOTHING`. -/
def insertOrIgnore (t : Table key) (x : ρ) : Table key :=
  if (t.find (key x)).isSome then t else t.upsert x

variable {t : Table key} {x r : ρ} {xs : List ρ} {k : κ}

theorem rows_ofRows (h : ofRows key xs = some t) : t.rows = xs := by
  rw [ofRows] at h
  split at h
  · cases h
    rfl
  · cases h

theorem find_eq_some : t.find k = some r ↔ r ∈ t.rows ∧ key r = k := by
  have found : ∀ {r}, t.find k = some r → r ∈ t.rows ∧ key r = k := by
    intro r h
    exact ⟨List.mem_of_find?_eq_some h, by simpa using List.find?_some h⟩
  refine ⟨found, ?_⟩
  rintro ⟨hr, hk⟩
  cases hf : t.find k with
  | none => exact absurd hk (by simpa using List.find?_eq_none.mp hf r hr)
  | some r' =>
    obtain ⟨hr', hk'⟩ := found hf
    exact congrArg some (List.inj_on_of_nodup_map t.primaryKey hr' hr (hk'.trans hk.symm))

theorem find_eq_none : t.find k = none ↔ ∀ r ∈ t.rows, key r ≠ k := by
  simp [find, List.find?_eq_none]

theorem mem_upsert : r ∈ (t.upsert x).rows ↔ r = x ∨ r ∈ t.rows ∧ key r ≠ key x := by
  simp [upsert, List.mem_filter]

theorem find_upsert : (t.upsert x).find k = if key x = k then some x else t.find k := by
  by_cases hk : key x = k
  · rw [if_pos hk, find_eq_some]
    exact ⟨mem_upsert.mpr (.inl rfl), hk⟩
  · rw [if_neg hk]
    refine Option.ext fun r => ?_
    rw [find_eq_some, find_eq_some, mem_upsert]
    constructor
    · rintro ⟨rfl | ⟨hr, -⟩, hkey⟩
      · exact absurd hkey hk
      · exact ⟨hr, hkey⟩
    · rintro ⟨hr, rfl⟩
      exact ⟨.inr ⟨hr, Ne.symm hk⟩, rfl⟩

theorem find_filterRows {p : ρ → Bool} : (t.filterRows p).find k = (t.find k).filter p := by
  refine Option.ext fun r => ?_
  rw [find_eq_some, Option.filter_eq_some_iff, find_eq_some, filterRows, List.mem_filter]
  exact ⟨fun ⟨⟨hr, hp⟩, hk⟩ => ⟨⟨hr, hk⟩, hp⟩, fun ⟨⟨hr, hk⟩, hp⟩ => ⟨⟨hr, hp⟩, hk⟩⟩

/-- A row with a new key is one more. -/
theorem length_upsert_of_fresh (h : t.find (key x) = none) :
    (t.upsert x).rows.length = t.rows.length + 1 := by
  rw [upsert, List.length_cons, List.filter_eq_self.mpr]
  intro r hr
  exact decide_eq_true (find_eq_none.mp h r hr)

/-- A row with a key that is there takes the place of the old one. -/
theorem length_upsert_le_of_found (h : (t.find (key x)).isSome) :
    (t.upsert x).rows.length ≤ t.rows.length := by
  obtain ⟨r, hr⟩ := Option.isSome_iff_exists.mp h
  obtain ⟨hmem, hkey⟩ := find_eq_some.mp hr
  rw [upsert, List.length_cons]
  exact List.length_filter_lt_length_iff_exists.mpr ⟨r, hmem, by simp [hkey]⟩

theorem of_mem_insertOrIgnore (h : r ∈ (t.insertOrIgnore x).rows) : r = x ∨ r ∈ t.rows := by
  rw [insertOrIgnore] at h
  split at h
  · exact Or.inr h
  · exact (mem_upsert.mp h).imp id And.left

/-- Rows with different keys stand before what is left of the old ones. -/
theorem upsertAll_rows (h : (xs.map key).Nodup) :
    (t.upsertAll xs).rows = xs.reverse ++ t.rows.filter fun r => key r ∉ xs.map key := by
  induction xs generalizing t with
  | nil => simp [upsertAll]
  | cons x xs ih =>
    rw [List.map_cons, List.nodup_cons] at h
    have htail := ih (t := t.upsert x) h.2
    rw [upsertAll, List.foldl_cons]
    rw [upsertAll] at htail
    rw [htail, upsert, List.filter_cons_of_pos (by simpa using h.1), List.reverse_cons,
      List.append_assoc, List.filter_filter]
    congr 2
    refine List.filter_congr fun r _ => ?_
    by_cases hx : key r = key x <;> simp [hx, List.map_cons, List.mem_cons]

theorem mem_upsertAll (h : (xs.map key).Nodup) :
    r ∈ (t.upsertAll xs).rows ↔ r ∈ xs ∨ r ∈ t.rows ∧ key r ∉ xs.map key := by
  rw [upsertAll_rows h]
  simp [List.mem_filter]

theorem total_upsert (weight : ρ → ℕ) :
    (t.upsert x).total weight =
      weight x + (t.deleteWhere fun k => k = key x).total weight := by
  simp [total, upsert, deleteWhere]

/-- Rows with different keys are added to the weight of the rows whose keys they do not have. -/
theorem total_upsertAll (h : (xs.map key).Nodup) (weight : ρ → ℕ) :
    (t.upsertAll xs).total weight =
      (xs.map weight).sum + (t.deleteWhere fun k => k ∈ xs.map key).total weight := by
  rw [total, upsertAll_rows h, List.map_append, List.sum_append, List.map_reverse,
    List.sum_reverse, total, deleteWhere]
  simp only [decide_not]

end

variable {t : Table key} {r : ρ} {weight : ρ → ℕ} {p : κ → Bool}

theorem rows_deleteWhere : (t.deleteWhere p).rows = t.rows.filter fun r => !p (key r) := rfl

theorem mem_deleteWhere : r ∈ (t.deleteWhere p).rows ↔ r ∈ t.rows ∧ p (key r) = false := by
  simp [deleteWhere, List.mem_filter]

theorem find_deleteWhere [DecidableEq κ] {k : κ} :
    (t.deleteWhere p).find k = if p k then none else t.find k := by
  split
  next hp =>
    rw [find_eq_none]
    rintro r hr rfl
    rw [(mem_deleteWhere.mp hr).2] at hp
    cases hp
  next hp =>
    cases hk : t.find k with
    | none =>
      rw [find_eq_none]
      exact fun r hr => find_eq_none.mp hk r (mem_deleteWhere.mp hr).1
    | some r =>
      obtain ⟨hr, rfl⟩ := find_eq_some.mp hk
      exact find_eq_some.mpr ⟨mem_deleteWhere.mpr ⟨hr, Bool.eq_false_of_not_eq_true hp⟩, rfl⟩

theorem total_deleteWhere_le : (t.deleteWhere p).total weight ≤ t.total weight :=
  (List.filter_sublist.map weight).sum_le_sum fun _ _ => Nat.zero_le _

end Table
end KeyedTable

namespace Upserts

universe u v w
variable {κ : Type u} {ε : Type v} {ρ : Type w} [DecidableEq κ]

/-- The rows whose names are not among some. -/
def unnamed (name : ρ → κ) (names : List κ) (rows : List ρ) : List ρ :=
  rows.filter fun r => name r ∉ names

/-- What is left of a table and in it after entries were written. -/
structure Written (key : ε → κ) (name : ρ → κ) (W : ε → ρ → Prop) (es : List ε)
    (rows rows' : List ρ) : Prop where
  written : ∀ e ∈ es, ∃ r ∈ rows', name r = key e ∧ W e r
  others : unnamed name (es.map key) rows' = unnamed name (es.map key) rows

variable {key : ε → κ} {name : ρ → κ} {W : ε → ρ → Prop} {e : ε} {es : List ε}
  {rows rows' rows'' : List ρ} {names : List κ} {r : ρ}

theorem mem_unnamed : r ∈ unnamed name names rows ↔ r ∈ rows ∧ name r ∉ names := by
  simp [unnamed]

theorem unnamed_append {more : List κ} :
    unnamed name (names ++ more) rows = unnamed name names (unnamed name more rows) := by
  rw [unnamed, unnamed, unnamed, List.filter_filter]
  refine List.filter_congr fun r _ => ?_
  simp [not_or]

theorem unnamed_comm {more : List κ} :
    unnamed name names (unnamed name more rows) = unnamed name more (unnamed name names rows) :=
  List.filter_comm _ _ _

/-- Changing rows among the named ones leaves the others. -/
theorem unnamed_map {p : ρ → Prop} [DecidablePred p] {f : ρ → ρ}
    (hold : ∀ r ∈ rows, p r → name r ∈ names) (hnew : ∀ r ∈ rows, p r → name (f r) ∈ names) :
    unnamed name names (rows.map fun r => if p r then f r else r) = unnamed name names rows := by
  induction rows with
  | nil => rfl
  | cons r rows ih =>
    have hrest := ih (fun r hr => hold r (List.mem_cons_of_mem _ hr)) fun r hr =>
      hnew r (List.mem_cons_of_mem _ hr)
    rw [unnamed, unnamed] at hrest ⊢
    by_cases hp : p r
    · have hold := hold r List.mem_cons_self hp
      have hnew := hnew r List.mem_cons_self hp
      rw [List.map_cons, if_pos hp, List.filter_cons_of_neg (by simp [hnew]),
        List.filter_cons_of_neg (by simp [hold]), hrest]
    · rw [List.map_cons, if_neg hp, List.filter_cons, List.filter_cons, hrest]

/-- A row of another name is there after the entries were written if it was there before. -/
theorem Written.mem_iff (h : Written key name W es rows rows') (hr : name r ∉ es.map key) :
    r ∈ rows' ↔ r ∈ rows := by
  have hmem := congrArg (r ∈ ·) h.others
  simpa only [mem_unnamed, hr, not_false_eq_true, and_true, eq_iff_iff] using hmem

theorem Written.nil : Written key name W [] rows rows where
  written _ he := absurd he List.not_mem_nil
  others := rfl

theorem Written.cons (hstep : Written key name W [e] rows rows')
    (hrun : Written key name W es rows' rows'') (hnew : key e ∉ es.map key) :
    Written key name W (e :: es) rows rows'' where
  written := by
    intro e' he'
    rcases List.mem_cons.mp he' with rfl | he'
    · obtain ⟨r, hr, hname, hw⟩ := hstep.written e' List.mem_cons_self
      exact ⟨r, (hrun.mem_iff (hname ▸ hnew)).mpr hr, hname, hw⟩
    · exact hrun.written e' he'
  others := by
    have hsplit : ∀ table : List ρ, unnamed name ((e :: es).map key) table =
        unnamed name ([e].map key) (unnamed name (es.map key) table) := by
      intro table
      rw [← unnamed_append]
      rfl
    calc
      unnamed name ((e :: es).map key) rows''
          = unnamed name ([e].map key) (unnamed name (es.map key) rows') := by
            rw [hsplit, hrun.others]
      _ = unnamed name (es.map key) (unnamed name ([e].map key) rows) := by
            rw [unnamed_comm, hstep.others]
      _ = unnamed name ((e :: es).map key) rows := by rw [hsplit, unnamed_comm]

/-- An entry is written into a new row. -/
theorem Written.append (hname : name r = key e) (hw : W e r) :
    Written key name W [e] rows (rows ++ [r]) where
  written := by
    intro e' he'
    obtain rfl := List.mem_singleton.mp he'
    exact ⟨r, List.mem_append_right _ List.mem_cons_self, hname, hw⟩
  others := by
    rw [unnamed, List.filter_append, List.filter_singleton]
    simp [unnamed, hname]

/-- An entry is written into the rows of its name that satisfy a condition. -/
theorem Written.update {p : ρ → Prop} [DecidablePred p] {f : ρ → ρ} (hr : r ∈ rows) (hp : p r)
    (hname : ∀ r ∈ rows, p r → name r = key e) (hf : ∀ r ∈ rows, p r → name (f r) = key e)
    (hw : ∀ r ∈ rows, p r → W e (f r)) :
    Written key name W [e] rows (rows.map fun r => if p r then f r else r) where
  written := by
    intro e' he'
    obtain rfl := List.mem_singleton.mp he'
    refine ⟨f r, List.mem_map.mpr ⟨r, hr, if_pos hp⟩, hf r hr hp, hw r hr hp⟩
  others :=
    unnamed_map (fun r hr hp => List.mem_singleton.mpr (hname r hr hp))
      fun r hr hp => List.mem_singleton.mpr (hf r hr hp)

/-- Entries whose rows are the stored ones have them after another one was written. -/
theorem Written.agree {stored : List ρ} (h : Written key name W [e] rows rows')
    (hnew : key e ∉ es.map key)
    (hsame : ∀ e' ∈ e :: es, ∀ r, name r = key e' → (r ∈ rows ↔ r ∈ stored)) :
    ∀ e' ∈ es, ∀ r, name r = key e' → (r ∈ rows' ↔ r ∈ stored) := by
  intro e' he' r hr
  have hne : name r ∉ [e].map key := by
    rw [hr, List.map_singleton, List.mem_singleton]
    exact fun heq => hnew (heq ▸ List.mem_map_of_mem he')
  exact (h.mem_iff hne).trans (hsame e' (List.mem_cons_of_mem _ he') r hr)

/-! ## Rows with ids -/

section
variable {ι : Type w} {id : ρ → ι} {i : ι} {f : ρ → ρ}

/-- Ids stay what they are if the rows that are changed keep theirs. -/
theorem map_id_map (h : ∀ r ∈ rows, id (f r) = id r) : (rows.map f).map id = rows.map id := by
  rw [List.map_map]
  exact List.map_congr_left h

/-- A row of a new id goes in. -/
theorem nodup_snoc (h : (rows.map id).Nodup) (hnew : ∀ q ∈ rows, id q ≠ id r) :
    ((rows ++ [r]).map id).Nodup := by
  rw [List.map_append, List.map_singleton]
  refine h.append (List.nodup_singleton _) ?_
  rw [List.disjoint_singleton]
  intro hid
  obtain ⟨q, hq, hid⟩ := List.mem_map.mp hid
  exact hnew q hq hid

/-- An entry was written into the row of its name, or into a new row of a drawn id. -/
structure Upserted (key : ε → κ) (name : ρ → κ) (id : ρ → ι) (W : ε → ρ → Prop) (e : ε) (i : ι)
    (rows rows' : List ρ) : Prop where
  written : Written key name W [e] rows rows'
  nodup : (rows'.map id).Nodup
  names : ∀ r ∈ rows, ∃ r' ∈ rows', id r' = id r ∧ name r' = name r
  named : ∀ r ∈ rows', (∃ old ∈ rows, name old = name r) ∨ name r = key e
  drawn : ∀ r ∈ rows', (∃ old ∈ rows, id old = id r) ∨ id r = i

theorem Upserted.update [DecidableEq ι] (hnodup : (rows.map id).Nodup) (hr : r ∈ rows)
    (hname : name r = key e) (hid : id (f r) = id r) (hkeep : name (f r) = name r)
    (hw : W e (f r)) :
    Upserted key name id W e i rows (rows.map fun q => if id q = id r then f q else q) := by
  have huniq : ∀ q ∈ rows, id q = id r → q = r := fun q hq heq =>
    List.inj_on_of_nodup_map hnodup hq hr heq
  have hkept : ∀ q ∈ rows, id (if id q = id r then f q else q) = id q ∧
      name (if id q = id r then f q else q) = name q := by
    intro q hq
    split
    · rw [huniq q hq ‹_›]
      exact ⟨hid, hkeep⟩
    · exact ⟨rfl, rfl⟩
  exact {
    written := Written.update hr rfl (fun q hq heq => huniq q hq heq ▸ hname)
      (fun q hq heq => huniq q hq heq ▸ hkeep.trans hname) fun q hq heq => huniq q hq heq ▸ hw
    nodup := (map_id_map fun q hq => (hkept q hq).1).symm ▸ hnodup
    names := fun q hq => ⟨_, List.mem_map_of_mem hq, hkept q hq⟩
    named := by
      intro q hq
      obtain ⟨old, hold, rfl⟩ := List.mem_map.mp hq
      exact .inl ⟨old, hold, (hkept old hold).2.symm⟩
    drawn := by
      intro q hq
      obtain ⟨old, hold, rfl⟩ := List.mem_map.mp hq
      exact .inl ⟨old, hold, (hkept old hold).1.symm⟩ }

theorem Upserted.insert (hnodup : (rows.map id).Nodup) (hnew : ∀ q ∈ rows, id q ≠ id r)
    (hname : name r = key e) (hw : W e r) :
    Upserted key name id W e (id r) rows (rows ++ [r]) where
  written := Written.append hname hw
  nodup := nodup_snoc hnodup hnew
  names q hq := ⟨q, List.mem_append_left _ hq, rfl, rfl⟩
  named q hq := by
    rcases List.mem_append.mp hq with hq | hq
    · exact .inl ⟨q, hq, rfl⟩
    · exact .inr (List.mem_singleton.mp hq ▸ hname)
  drawn q hq := by
    rcases List.mem_append.mp hq with hq | hq
    · exact .inl ⟨q, hq, rfl⟩
    · exact .inr (congrArg id (List.mem_singleton.mp hq))

end

end Upserts
