import Kinetix.Foundation.Text

/-!
# The policy columns of a virtual key

The restrictions of a key are stored as text. `create_key` and `update_key` of `admin.rs` write the
columns, and the accessors of `VirtualKeyRow` read them back.

## Implementation notes

A row has only the columns that restrict who may use the key and for what; its limits belong to the
admission ledger. `serde_json` on a list of strings is a parameter, and what its users rely on, that
a written list is read back, is stated where it is used.
-/

namespace Kinetix.VirtualKeys
open Text

/-- `serde_json` on a `Vec<String>`. -/
structure SerdeStrings where
  /-- `serde_json::to_string`. -/
  toString : List String → String
  /-- `serde_json::from_str`. -/
  fromStr : String → Option (List String)

/-- A written list is read back. -/
def SerdeStrings.ReadsBack (J : SerdeStrings) : Prop := ∀ l, J.fromStr (J.toString l) = some l

/-- `VirtualKeyRow`. -/
structure VirtualKeyRow where
  allowedModels : String
  allowedProviders : String
  expiresAt : Option String
  status : String
  allowedIps : String
  deriving DecidableEq

namespace VirtualKeyRow
variable (J : SerdeStrings) (k : VirtualKeyRow)

/-- `VirtualKeyRow::allowed_models`. -/
def models : List String := (J.fromStr k.allowedModels).getD ["*"]

/-- `VirtualKeyRow::allowed_providers`. -/
def providers : List String := (J.fromStr k.allowedProviders).getD []

/-- `VirtualKeyRow::allowed_ips`. -/
def ips : List String := (J.fromStr k.allowedIps).getD []

/-- Whether a requested model name (alias, route or model) is permitted. -/
def permitsModel (model : String) : Bool :=
  let allowed := k.models J
  if allowed.any (· == "*") then true
  else allowed.any fun m =>
    match stripSuffix m '*' with
    | some start => start.toList.isPrefixOf model.toList
    | none => m == model

end VirtualKeyRow

/-! ## Writing -/

/-- The body of `create_key`. -/
structure CreateKeyBody where
  allowedModels : List String := []
  allowedProviders : List String := []
  expiresAt : Option String := none
  allowedIps : List String := []

/-- The row that `create_key` inserts. -/
def createKey (J : SerdeStrings) (body : CreateKeyBody) : VirtualKeyRow where
  allowedModels := J.toString (if body.allowedModels = [] then ["*"] else body.allowedModels)
  allowedProviders := J.toString body.allowedProviders
  expiresAt := body.expiresAt
  status := "active"
  allowedIps := J.toString body.allowedIps

/-- `db::set_virtual_key_status`, which `update_key` calls with any status of the body. -/
def setVirtualKeyStatus (k : VirtualKeyRow) (status : String) : VirtualKeyRow := { k with status }

/-- The body of `update_key`. -/
structure UpdateKeyBody where
  allowedModels : Option (List String) := none
  allowedProviders : Option (List String) := none
  expiresAt : Option String := none
  allowedIps : Option (List String) := none

/-- The `UPDATE` of `update_key`: a column that the body leaves out is written as it was in the row
that the handler read before. -/
def updateKey (J : SerdeStrings) (k existing : VirtualKeyRow) (body : UpdateKeyBody) :
    VirtualKeyRow :=
  { k with
    allowedModels := (body.allowedModels.map J.toString).getD existing.allowedModels
    allowedProviders := (body.allowedProviders.map J.toString).getD existing.allowedProviders
    expiresAt := body.expiresAt.or existing.expiresAt
    allowedIps := (body.allowedIps.map J.toString).getD existing.allowedIps }

/-- The rows that `create_key` and `update_key` store, in whatever order their statements run. -/
inductive Stored (J : SerdeStrings) : VirtualKeyRow → Prop where
  | created (body : CreateKeyBody) : Stored J (createKey J body)
  | status {k : VirtualKeyRow} (status : String) (hk : Stored J k) :
      Stored J (setVirtualKeyStatus k status)
  | updated {k existing : VirtualKeyRow} (body : UpdateKeyBody) (hk : Stored J k)
      (hread : Stored J existing) : Stored J (updateKey J k existing body)

/-- The list columns of a row can be read. -/
structure VirtualKeyRow.ListsReadable (J : SerdeStrings) (k : VirtualKeyRow) : Prop where
  models : (J.fromStr k.allowedModels).isSome
  providers : (J.fromStr k.allowedProviders).isSome
  ips : (J.fromStr k.allowedIps).isSome

section
variable {J : SerdeStrings} {k : VirtualKeyRow}

theorem SerdeStrings.ReadsBack.isSome (hJ : J.ReadsBack) (l : List String) :
    (J.fromStr (J.toString l)).isSome := by
  rw [hJ l]
  rfl

/-- A column that an update writes or keeps can be read if the old one can. -/
theorem SerdeStrings.ReadsBack.isSome_getD (hJ : J.ReadsBack) {column : String}
    (h : (J.fromStr column).isSome) (l : Option (List String)) :
    (J.fromStr ((l.map J.toString).getD column)).isSome := by
  cases l with
  | none => exact h
  | some l => exact hJ.isSome l

/-- Both handlers write their lists as JSON. -/
theorem Stored.listsReadable (hJ : J.ReadsBack) (h : Stored J k) : k.ListsReadable J := by
  induction h with
  | created body => exact ⟨hJ.isSome _, hJ.isSome _, hJ.isSome _⟩
  | status s _ ih => exact ⟨ih.models, ih.providers, ih.ips⟩
  | updated body _ _ _ ihread =>
    constructor
    · exact hJ.isSome_getD ihread.models body.allowedModels
    · exact hJ.isSome_getD ihread.providers body.allowedProviders
    · exact hJ.isSome_getD ihread.ips body.allowedIps

end

/-! ## Patterns of models -/

/-- A pattern is the name of a model, or the beginning of one followed by a star. -/
def PatternAdmits (pattern model : String) : Prop :=
  pattern = model ∨ ∃ start rest, pattern.toList = start ++ ['*'] ∧ model.toList = start ++ rest

theorem permitsModel_iff {J : SerdeStrings} {k : VirtualKeyRow} {model : String} :
    k.permitsModel J model = true ↔ ∃ pattern ∈ k.models J, PatternAdmits pattern model := by
  simp only [VirtualKeyRow.permitsModel]
  split
  · rename_i hstar
    refine iff_of_true rfl ?_
    obtain ⟨pattern, hmem, heq⟩ := List.any_eq_true.mp hstar
    exact ⟨pattern, hmem, .inr ⟨[], model.toList, by simp [beq_iff_eq.mp heq], rfl⟩⟩
  · rw [List.any_eq_true]
    refine exists_congr fun pattern => and_congr_right fun _ => ?_
    cases hsuffix : stripSuffix pattern '*' with
    | some start =>
      rw [stripSuffix_eq_some] at hsuffix
      simp only [List.isPrefixOf_iff_prefix, PatternAdmits]
      constructor
      · rintro ⟨rest, hrest⟩
        exact .inr ⟨start.toList, rest, hsuffix, hrest.symm⟩
      · rintro (rfl | ⟨start', rest, hstart', hmodel⟩)
        · exact ⟨['*'], hsuffix.symm⟩
        · rw [hsuffix] at hstart'
          exact ⟨rest, by rw [List.append_cancel_right hstart', hmodel]⟩
    | none =>
      simp only [beq_iff_eq, PatternAdmits]
      refine ⟨.inl, fun h => h.elim id ?_⟩
      rintro ⟨start, rest, hstart, -⟩
      have hsome : stripSuffix pattern '*' = some (String.ofList start) := by
        rw [stripSuffix_eq_some, hstart, String.toList_ofList]
      rw [hsuffix] at hsome
      cases hsome

/-! ## A reader of written lists -/

/-- The characters of a string between its quotation marks. -/
def escaped (text : List Char) : List Char :=
  text.flatMap fun c => if c = '"' ∨ c = '\\' then ['\\', c] else [c]

/-- The items of a list, each after a comma. -/
def itemsText (l : List String) : List Char :=
  l.flatMap fun s => ',' :: '"' :: (escaped s.toList ++ ['"'])

/-- Where the reader of a list is: between two items, in a string, or after a backslash. -/
inductive Reading where
  | between
  | inside (text : List Char)
  | escape (text : List Char)

/-- Read the items and the closing bracket. -/
def readItems : Reading → List String → List Char → Option (List String)
  | .between, items, [']'] => some items
  | .between, items, ',' :: '"' :: rest => readItems (.inside []) items rest
  | .inside text, items, c :: rest =>
    if c = '"' then readItems .between (items ++ [String.ofList text]) rest
    else if c = '\\' then readItems (.escape text) items rest
    else readItems (.inside (text ++ [c])) items rest
  | .escape text, items, c :: rest => readItems (.inside (text ++ [c])) items rest
  | _, _, _ => none

theorem readItems_escaped (text start : List Char) (items : List String) (rest : List Char) :
    readItems (.inside start) items (escaped text ++ '"' :: rest) =
      readItems .between (items ++ [String.ofList (start ++ text)]) rest := by
  induction text generalizing start with
  | nil => simp [escaped, readItems]
  | cons c text ih =>
    have hcons : escaped (c :: text) =
        (if c = '"' ∨ c = '\\' then ['\\', c] else [c]) ++ escaped text := rfl
    rw [hcons]
    split
    · simp only [List.cons_append, List.nil_append, readItems, Char.reduceEq, if_false, if_true]
      rw [ih, List.append_assoc, List.singleton_append]
    · rename_i hplain
      obtain ⟨hquote, hslash⟩ := not_or.mp hplain
      simp only [List.cons_append, List.nil_append, readItems, if_neg hquote, if_neg hslash]
      rw [ih, List.append_assoc, List.singleton_append]

theorem readItems_itemsText (l items : List String) :
    readItems .between items (itemsText l ++ [']']) = some (items ++ l) := by
  induction l generalizing items with
  | nil => simp [itemsText, readItems]
  | cons s l ih =>
    have hcons : itemsText (s :: l) ++ [']'] =
        ',' :: '"' :: (escaped s.toList ++ '"' :: (itemsText l ++ [']'])) := by
      simp [itemsText]
    rw [hcons, readItems, readItems_escaped, ih, List.nil_append, String.ofList_toList,
      List.append_assoc, List.singleton_append]

/-- `serde_json` for strings without control characters. -/
def plainJson : SerdeStrings where
  toString l := String.ofList ('[' :: ((itemsText l).tail ++ [']']))
  fromStr text :=
    match text.toList with
    | ['[', ']'] => some []
    | '[' :: rest => readItems .between [] (',' :: rest)
    | _ => none

theorem plainJson_readsBack : plainJson.ReadsBack := by
  intro l
  cases l with
  | nil => rfl
  | cons s l =>
    have hitems : itemsText (s :: l) = ',' :: (itemsText (s :: l)).tail := rfl
    have hread := readItems_itemsText (s :: l) []
    rw [hitems, List.nil_append] at hread
    simp only [plainJson, String.toList_ofList]
    exact hread

example : plainJson.toString ["a\"b", "*"] = "[\"a\\\"b\",\"*\"]" := by decide

end Kinetix.VirtualKeys
