import Kinetix.Foundation.Json
import Mathlib.Data.List.Nodup

/-!
# The fields of JSON objects

Objects have fields of different names. Inserting a field keeps that, and changes no other field.
-/

namespace Kinetix.Json
variable {fields : List (String × Value)} {name key : String} {value : Value}

/-- Induction over a value, where an array or an object has the property of each of its parts. -/
@[elab_as_elim] theorem Value.parts_induction {P : Value → Prop} (null : P .null)
    (bool : ∀ b, P (.bool b)) (number : ∀ n, P (.number n)) (string : ∀ s, P (.string s))
    (array : ∀ items, (∀ v ∈ items, P v) → P (.array items))
    (object : ∀ fields, (∀ field ∈ fields, P field.2) → P (.object fields)) (v : Value) : P v :=
  v.rec (motive_1 := P) (motive_2 := fun items => ∀ v ∈ items, P v)
    (motive_3 := fun fields => ∀ field ∈ fields, P field.2) (motive_4 := fun field => P field.2)
    null bool number string array object
    (fun _ hv => absurd hv List.not_mem_nil) (fun _ _ h hs => List.forall_mem_cons.mpr ⟨h, hs⟩)
    (fun _ hf => absurd hf List.not_mem_nil) (fun _ _ h hs => List.forall_mem_cons.mpr ⟨h, hs⟩)
    (fun _ _ h => h)

/-- The fields have different names. -/
def Distinct (fields : List (String × Value)) : Prop := (fields.map Prod.fst).Nodup

instance (fields : List (String × Value)) : Decidable (Distinct fields) :=
  inferInstanceAs (Decidable (List.Nodup _))

theorem names_insertField (name : String) (value : Value) (fields : List (String × Value)) :
    (insertField name value fields).map Prod.fst =
      if name ∈ fields.map Prod.fst then fields.map Prod.fst
      else fields.map Prod.fst ++ [name] := by
  induction fields with
  | nil => rfl
  | cons field fields ih =>
    rw [insertField]
    by_cases h : field.1 = name
    · simp [h]
    · rw [if_neg h, List.map_cons, ih]
      have hne : ¬ name = field.1 := Ne.symm h
      simp only [List.map_cons, List.mem_cons, hne, false_or]
      split <;> rfl

theorem Distinct.insertField (h : Distinct fields) (name : String) (value : Value) :
    Distinct (insertField name value fields) := by
  unfold Distinct at h ⊢
  rw [names_insertField]
  split
  next => exact h
  next hname =>
    rw [List.nodup_append]
    refine ⟨h, List.nodup_singleton name, fun a ha b hb => ?_⟩
    rw [List.mem_singleton.mp hb]
    exact fun heq => hname (heq ▸ ha)

variable {before after : List (String × Value)}

theorem Distinct.notMem (h : Distinct (before ++ (key, value) :: after)) :
    key ∉ before.map Prod.fst := by
  unfold Distinct at h
  rw [List.map_append, List.map_cons, List.nodup_append] at h
  exact fun hkey => h.2.2 key hkey key List.mem_cons_self rfl

/-- A field of the new fields is the inserted one or an old one. -/
theorem mem_insertField {field : String × Value} (h : field ∈ insertField name value fields) :
    field = (name, value) ∨ field ∈ fields := by
  induction fields with
  | nil => exact .inl (List.mem_singleton.mp h)
  | cons f fields ih =>
    rw [insertField] at h
    split at h
    · rcases List.mem_cons.mp h with rfl | h
      · exact .inl rfl
      · exact .inr (List.mem_cons_of_mem f h)
    · rcases List.mem_cons.mp h with rfl | h
      · exact .inr List.mem_cons_self
      · exact (ih h).imp_right (List.mem_cons_of_mem f)

/-- A new field comes last. -/
theorem insertField_of_notMem (h : name ∉ fields.map Prod.fst) :
    insertField name value fields = fields ++ [(name, value)] := by
  induction fields with
  | nil => rfl
  | cons field fields ih =>
    simp only [List.map_cons, List.mem_cons, not_or] at h
    rw [insertField, if_neg (Ne.symm h.1), ih h.2]
    rfl

theorem mem_of_lookup (h : fields.lookup name = some value) : (name, value) ∈ fields := by
  obtain ⟨before, after, rfl, -⟩ := List.lookup_eq_some_iff.mp h
  exact List.mem_append_right before List.mem_cons_self

theorem lookup_eq_none_of_notMem (h : name ∉ fields.map Prod.fst) : fields.lookup name = none := by
  rw [List.lookup_eq_none_iff]
  intro field hfield
  have hne : name ≠ field.1 := fun heq => h (heq ▸ List.mem_map_of_mem hfield)
  simpa using hne

/-! ## Removing and changing fields -/

theorem Distinct.lookup_eq_some_iff (h : Distinct fields) :
    fields.lookup key = some value ↔ (key, value) ∈ fields := by
  refine ⟨mem_of_lookup, fun hmem => ?_⟩
  obtain ⟨before, after, rfl⟩ := List.append_of_mem hmem
  refine List.lookup_eq_some_iff.mpr ⟨before, after, rfl, fun field hfield => ?_⟩
  have hne : key ≠ field.1 := fun heq => h.notMem (heq ▸ List.mem_map_of_mem hfield)
  simpa using hne

theorem Distinct.perm {others : List (String × Value)} (h : Distinct fields)
    (hperm : fields.Perm others) : Distinct others :=
  (hperm.map Prod.fst).nodup_iff.mp h

theorem findIdx?_first (h : name ∉ before.map Prod.fst) :
    (before ++ (name, value) :: after).findIdx? (·.1 == name) = some before.length := by
  have hnone : before.findIdx? (·.1 == name) = none := by
    rw [List.findIdx?_eq_none_iff]
    intro field hfield
    have hne : field.1 ≠ name := fun heq => h (heq ▸ List.mem_map_of_mem hfield)
    simpa using hne
  rw [List.findIdx?_append, hnone, List.findIdx?_cons]
  simp

/-- The field is taken out, up to the order. -/
theorem removeField_perm (h : name ∉ before.map Prod.fst) :
    (removeField name (before ++ (name, value) :: after)).Perm (before ++ after) := by
  rcases List.eq_nil_or_concat after with rfl | ⟨middle, last, rfl⟩
  · rw [removeField, findIdx?_first h, List.getLast?_concat]
    simp only [List.dropLast_concat, List.append_nil]
    rw [List.set_eq_of_length_le (Nat.le_refl _)]
  · have hassoc : before ++ (name, value) :: middle.concat last =
        (before ++ (name, value) :: middle) ++ [last] := by simp
    rw [removeField, findIdx?_first h, hassoc, List.getLast?_concat]
    simp only [List.dropLast_concat, List.set_append_right _ _ (Nat.le_refl _), Nat.sub_self,
      List.set_cons_zero, List.concat_eq_append]
    exact List.Perm.append_left before (List.perm_append_singleton last middle).symm

theorem removeField_of_notMem (h : name ∉ fields.map Prod.fst) :
    removeField name fields = fields := by
  have hnone : fields.findIdx? (·.1 == name) = none := by
    rw [List.findIdx?_eq_none_iff]
    intro field hfield
    have hne : field.1 ≠ name := fun heq => h (heq ▸ List.mem_map_of_mem hfield)
    simpa using hne
  rw [removeField, hnone]

/-- What is left of the fields, up to the order. -/
theorem Distinct.removeField_perm (h : Distinct fields) (name : String) :
    (removeField name fields).Perm (fields.filter (·.1 ≠ name)) := by
  by_cases hname : name ∈ fields.map Prod.fst
  · obtain ⟨⟨key, value⟩, hmem, rfl⟩ := List.mem_map.mp hname
    obtain ⟨before, after, rfl⟩ := List.append_of_mem hmem
    have hbefore := h.notMem
    have hafter : key ∉ after.map Prod.fst := by
      have hnodup := h
      rw [Distinct, List.map_append, List.map_cons, List.nodup_append] at hnodup
      exact (List.nodup_cons.mp hnodup.2.1).1
    refine (Json.removeField_perm hbefore).trans (List.Perm.of_eq ?_)
    have hkeep {side : List (String × Value)} (hside : key ∉ side.map Prod.fst) :
        side.filter (·.1 ≠ key) = side := by
      refine List.filter_eq_self.mpr fun field hfield => ?_
      have hne : field.1 ≠ key := fun heq => hside (heq ▸ List.mem_map_of_mem hfield)
      simpa using hne
    rw [List.filter_append, List.filter_cons_of_neg (by simp), hkeep hbefore, hkeep hafter]
  · rw [removeField_of_notMem hname]
    refine List.Perm.of_eq (List.filter_eq_self.mpr fun field hfield => ?_).symm
    have hne : field.1 ≠ name := fun heq => hname (heq ▸ List.mem_map_of_mem hfield)
    simpa using hne

theorem Distinct.removeField (h : Distinct fields) (name : String) :
    Distinct (removeField name fields) :=
  Distinct.perm (h.sublist (List.filter_sublist.map Prod.fst)) (h.removeField_perm name).symm

theorem Distinct.lookup_removeField (h : Distinct fields) (name key : String) :
    (Json.removeField name fields).lookup key = if key = name then none else fields.lookup key := by
  apply Option.ext
  intro value
  rw [(h.removeField name).lookup_eq_some_iff, (h.removeField_perm name).mem_iff, List.mem_filter]
  split
  next heq => simp [heq]
  next hne => simp [hne, h.lookup_eq_some_iff]

theorem lookup_mapField (name : String) (f : Value → Value) (fields : List (String × Value))
    (key : String) : (mapField name f fields).lookup key =
      if key = name then (fields.lookup key).map f else fields.lookup key := by
  induction fields with
  | nil => simp [mapField]
  | cons field fields ih =>
    rw [mapField, List.map_cons, ← mapField, List.lookup_cons, List.lookup_cons, ih]
    by_cases hname : field.1 = name
    · by_cases hkey : key = name
      · simp [hname, hkey]
      · have hne : (key == name) = false := by simpa using hkey
        simp [hname, hkey, hne]
    · by_cases hkey : key = field.1
      · simp [hname, hkey]
      · have hne : (key == field.1) = false := by simpa using hkey
        simp [hname, hne]

/-- Every object of the value has fields of different names. -/
inductive Value.Proper : Value → Prop
  | null : Proper .null
  | bool (b : Bool) : Proper (.bool b)
  | number (n : Number) : Proper (.number n)
  | string (s : String) : Proper (.string s)
  | array {items : List Value} (h : ∀ v ∈ items, Proper v) : Proper (.array items)
  | object {fields : List (String × Value)} (distinct : Distinct fields)
      (h : ∀ field ∈ fields, Proper field.2) : Proper (.object fields)

theorem Value.Proper.distinct (h : (Value.object fields).Proper) : Distinct fields := by
  cases h with
  | object distinct h => exact distinct

theorem Value.Proper.get {v w : Value} (h : v.Proper) (hw : v.get name = some w) : w.Proper := by
  cases h with
  | object distinct h => exact h _ (mem_of_lookup hw)
  | _ => cases hw

theorem Value.Proper.items {items : List Value} (h : (Value.array items).Proper) :
    ∀ v ∈ items, v.Proper := by
  cases h with
  | array h => exact h

end Kinetix.Json
