import Kinetix.Frontends.Anthropic.Decode
import Kinetix.Frontends.Content

/-!
# What an Anthropic request says

Which contents of a body that is accepted and translated are represented in the internal request.
-/

namespace Kinetix.Frontends.Anthropic
open Json Selection

/-- The entries of a system or a message content. -/
def entries : Option Value → List Content
  | none => []
  | some (.string s) => [.plain s]
  | some (.array blocks) => blocks.map .block
  | some v => [.other v]

def systemContents : Option Value → List Content
  | some .null => []
  | content => entries content

def contents : Value → List Content
  | .object fields => entries ((Value.object fields).get "content")
  | v => [.other v]

/-- The text is a system text that the content says. -/
def SystemSays : Content → String → Prop
  | .plain t, s => s = t
  | .block b, s => strField b "text" = some s
  | _, _ => False

def sourceOf (b : Value) : Value := (b.get "source").getD .null

def sourceType (b : Value) : String := (strField (sourceOf b) "type").getD ""

/-- The part says what the entry says. -/
def EntrySays (J : SerdeJson) (b : Value) : Part → Prop
  | .text t => kindOf b = "text" ∧ strField b "text" = some t
  | .image (.base64 mime data) =>
    kindOf b = "image" ∧ sourceType b = "base64" ∧
      (∃ given, FieldIs (sourceOf b) "media_type" given ∧ mime = given.getD "image/png") ∧
        ∃ given, FieldIs (sourceOf b) "data" given ∧ data = given.getD ""
  | .image (.url url) =>
    kindOf b = "image" ∧ sourceType b = "url" ∧ strField (sourceOf b) "url" = some url
  | .toolCall id name arguments _ =>
    kindOf b = "tool_use" ∧ FieldIs b "id" id ∧ strField b "name" = some name ∧
      arguments = inputText J (b.get "input")
  | .toolResult id _ content _ =>
    kindOf b = "tool_result" ∧ (∃ given, FieldIs b "tool_use_id" given ∧ id = given.getD "") ∧
      contentText (b.get "content") = some content
  | .thinking text _ =>
    kindOf b = "thinking" ∧ ∃ given, FieldIs b "thinking" given ∧ text = given.getD ""

def Says (J : SerdeJson) : Content → Part → Prop
  | .plain t, part => part = .text t
  | .block b, part => EntrySays J b part
  | _, _ => False

/-! ## Readable entries -/

def ReadableEntry (b : Value) : Prop :=
  if kindOf b = "text" then hasText b = true
  else if kindOf b = "image" then
    if sourceType b = "base64" then
      stringOrNothing ((sourceOf b).get "media_type") ∧ stringOrNothing ((sourceOf b).get "data")
    else (strField (sourceOf b) "url").isSome = true
  else if kindOf b = "tool_use" then
    stringOrNothing (b.get "id") ∧ (strField b "name").getD "" ≠ ""
  else if kindOf b = "tool_result" then
    stringOrNothing (b.get "tool_use_id") ∧ TextReadable (fun _ => true) (b.get "content")
  else stringOrNothing (b.get "thinking") = true

def ReadableMessage (m : Value) : Prop :=
  m.asObject.isSome ∧ ∀ b ∈ ((m.get "content").bind (·.asArray)).getD [], ReadableEntry b

def ReadableSystem : Option Value → Prop
  | none | some .null | some (.string _) => True
  | some (.array blocks) => ∀ b ∈ blocks, hasText b
  | some _ => False

theorem resultText_eq (content : Option Value) :
    resultText content = (keptText (fun _ => true) content).getD "" := by
  cases content with
  | none => rfl
  | some value =>
    cases value with
    | array blocks => simp [resultText, keptText]
    | _ => rfl

theorem strField_sourceOf (b : Value) (name : String) :
    strField (sourceOf b) name = (b.get "source").bind (strField · name) := by
  unfold sourceOf
  cases b.get "source" <;> rfl

section Entries
variable {J : SerdeJson} {b : Value}

theorem text_iff (h : kindOf b = "text") :
    (∃ part, decodeContentBlock J b = some part ∧ EntrySays J b part) ↔ hasText b := by
  simp only [decodeContentBlock, h, hasText]
  cases ht : strField b "text" with
  | none => simp
  | some t => simp [EntrySays, h, ht]

theorem image_iff (h : kindOf b = "image")
    (hsource : sourceType b = "base64" ∨ sourceType b = "url") :
    (∃ part, decodeContentBlock J b = some part ∧ EntrySays J b part) ↔ ReadableEntry b := by
  have hdecode : decodeContentBlock J b = decodeImage (b.get "source") := by
    simp only [decodeContentBlock, h]
  rw [hdecode]
  unfold decodeImage
  simp only [← strField_sourceOf]
  change (∃ part, (if sourceType b = "base64" then _
      else if sourceType b = "url" then _ else none) =
    some part ∧ _) ↔ _
  simp only [ReadableEntry, h, String.reduceEq, if_false, if_true]
  rcases hsource with hsource | hsource
  · simp [hsource, EntrySays, h, fieldIs_iff]
  · cases hurl : strField (sourceOf b) "url" with
    | none => simp [hsource]
    | some url => simp [hsource, EntrySays, h, hurl]

theorem toolUse_iff (h : kindOf b = "tool_use") :
    (∃ part, decodeContentBlock J b = some part ∧ EntrySays J b part) ↔ ReadableEntry b := by
  simp only [decodeContentBlock, h, decodeToolUse, ReadableEntry, String.reduceEq, if_false,
    if_true]
  cases hname : strField b "name" with
  | none => simp
  | some name =>
    by_cases hempty : name = ""
    · simp [hempty]
    · simp [hempty, EntrySays, h, hname, fieldIs_iff]

theorem toolResult_iff (h : kindOf b = "tool_result") :
    (∃ part, decodeContentBlock J b = some part ∧ EntrySays J b part) ↔ ReadableEntry b := by
  simp only [decodeContentBlock, h, decodeToolResult, ReadableEntry, String.reduceEq, if_false,
    if_true, resultText_eq, ← contentText_eq_keptText_iff]
  simp [EntrySays, h, fieldIs_iff]

theorem thinking_iff (h : kindOf b = "thinking") :
    (∃ part, decodeContentBlock J b = some part ∧ EntrySays J b part) ↔ ReadableEntry b := by
  simp only [decodeContentBlock, h, ReadableEntry, String.reduceEq, if_false]
  simp [EntrySays, h, fieldIs_iff]

/-- An entry that is not complained of is decoded to a part that says the same exactly if it is
readable. -/
theorem entry_iff {path : String} (h : inspectContentBlock path b = []) :
    (∃ part, decodeContentBlock J b = some part ∧ EntrySays J b part) ↔ ReadableEntry b := by
  unfold inspectContentBlock at h
  split at h
  next hkind => rw [text_iff hkind, ReadableEntry, if_pos hkind]
  next hkind => exact toolUse_iff hkind
  next hkind => exact thinking_iff hkind
  next hkind =>
    refine image_iff hkind ?_
    rw [sourceType, strField_sourceOf]
    by_contra hnot
    rw [if_neg hnot] at h
    cases h
  next hkind => exact toolResult_iff hkind
  · cases h

end Entries

section Messages
variable {J : SerdeJson}

theorem says_nameFilled {c : Content} {p q : Part} (hpq : NameFilled p q) :
    Says J c p ↔ Says J c q := by
  cases hpq with
  | same => exact Iff.rfl
  | filled id name content isError =>
    cases c with
    | plain t => exact iff_of_false nofun nofun
    | _ => exact Iff.rfl

theorem length_decodeContent_le (content : Option Value) :
    (decodeContent J content).length ≤ (entries content).length := by
  cases content with
  | none => exact Nat.le_refl 0
  | some value =>
    cases value with
    | string s => exact Nat.le_refl 1
    | array blocks =>
      rw [decodeContent, entries, List.length_map]
      exact List.length_filterMap_le _ _
    | _ => exact Nat.zero_le _

/-- A message that is not complained of says what its parts say exactly if it is readable. -/
theorem contents_iff {m : Value} {i : Nat} (h : inspectMessage i m = []) :
    (decodeContent J (m.get "content")).length ≤ (contents m).length ∧
      (List.Forall₂ (Says J) (contents m) (decodeContent J (m.get "content")) ↔
        ReadableMessage m) := by
  cases m with
  | object fields =>
    refine ⟨length_decodeContent_le _, ?_⟩
    have hinspect := (List.append_eq_nil_iff.mp h).2
    rw [ReadableMessage, contents]
    generalize (Value.object fields).get "content" = content at hinspect ⊢
    have hobject : (Value.object fields).asObject.isSome = true := rfl
    rw [and_iff_right hobject]
    cases content with
    | none => exact iff_of_true .nil fun b hb => (List.not_mem_nil hb).elim
    | some value =>
      cases value with
      | string s =>
        exact iff_of_true (.cons rfl .nil) fun b hb => (List.not_mem_nil hb).elim
      | array blocks =>
        change List.Forall₂ (Says J) (blocks.map .block) (blocks.filterMap _) ↔
          ∀ b ∈ blocks, ReadableEntry b
        rw [List.forall₂_map_left_iff, forall₂_filterMap_iff]
        refine forall₂_congr fun b hb => ?_
        obtain ⟨j, hj, rfl⟩ := List.getElem_of_mem hb
        have hblock : inspectContentBlock s!"messages[{i}].content[{j}]" blocks[j] = [] :=
          List.flatMap_eq_nil_iff.mp hinspect (blocks[j], j)
            (List.mem_zipIdx_iff_getElem?.mpr (by simp [hj]))
        exact entry_iff hblock
      | _ => cases hinspect
  | _ => exact ⟨Nat.zero_le _, iff_of_false (fun h => by cases h) (fun h => by cases h.1)⟩

theorem parts_eq (messages : List Value) :
    (decodeMessages J messages).flatMap (·.parts) =
      messages.flatMap fun m => decodeContent J (m.get "content") := by
  induction messages with
  | nil => rfl
  | cons m messages ih =>
    rw [List.flatMap_cons, ← ih, decodeMessages]
    by_cases hparts : decodeContent J (m.get "content") = []
    · rw [List.filterMap_cons_none (by simp [decodeMessage, hparts]), hparts]
      rfl
    · have hm : decodeMessage J m = some _ := if_neg hparts
      rw [List.filterMap_cons_some hm]
      rfl

end Messages

/-! ## System texts -/

/-- The entries of a system that is not complained of are found in order exactly if none is without
a text. -/
theorem systemContents_iff {system : Option Value} (h : inspectSystem system = []) :
    InOrder SystemSays (systemContents system) (decodeSystem system) ↔ ReadableSystem system := by
  have hlength : (decodeSystem system).length ≤ (systemContents system).length := by
    cases system with
    | none => exact Nat.le_refl 0
    | some value =>
      cases value with
      | string s => exact Nat.le_refl 1
      | array blocks =>
        rw [decodeSystem, systemContents, entries, List.length_map]
        · exact List.length_filterMap_le _ _
        · rintro ⟨⟩
      | _ => exact Nat.zero_le _
  rw [inOrder_iff_forall₂_of_length hlength]
  cases system with
  | none => exact iff_of_true .nil trivial
  | some value =>
    cases value with
    | null => exact iff_of_true .nil trivial
    | string s => exact iff_of_true (.cons rfl .nil) trivial
    | array blocks =>
      change List.Forall₂ SystemSays (blocks.map .block) (blocks.filterMap _) ↔
        ∀ b ∈ blocks, hasText b
      rw [List.forall₂_map_left_iff, forall₂_filterMap_iff]
      refine forall₂_congr fun b hb => ?_
      obtain ⟨i, hi, rfl⟩ := List.getElem_of_mem hb
      have htype : strField blocks[i] "type" = some "text" := by
        have hblock := List.flatMap_eq_nil_iff.mp h (blocks[i], i)
          (List.mem_zipIdx_iff_getElem?.mpr (by simp [hi]))
        have hkind : kindOf blocks[i] = "text" := by
          by_contra hnot
          simp [hnot] at hblock
        exact (Option.getD_eq_iff.mp hkind).resolve_right (by simp)
      rw [if_pos htype, hasText]
      cases ht : strField blocks[i] "text" with
      | none => simp
      | some t => simp [SystemSays, ht]
    | _ => exact iff_of_false (fun h => by cases h) id

/-- Every system text and every content of the body is represented, in order. -/
def Represented (J : SerdeJson) (body : Value) (req : InternalRequest) : Prop :=
  InOrder SystemSays (systemContents (body.get "system")) req.system ∧
    InOrder (Says J) ((bodyMessages body).flatMap contents) (req.messages.flatMap (·.parts))

/-- The body's system texts and messages are readable. -/
def Readable (body : Value) : Prop :=
  ReadableSystem (body.get "system") ∧ ∀ m ∈ bodyMessages body, ReadableMessage m

theorem represented_iff {J : SerdeJson} {body : Value} {req : InternalRequest}
    (hdecode : decodeRequest J body = .ok req) (h : translationUnsupported req.extra = none) :
    Represented J body req ↔ Readable body := by
  cases body with
  | object obj =>
    obtain ⟨messages, hmessages, hsystem, hresolved, hextra⟩ := decodeRequest_eq_ok hdecode
    have hbody : bodyMessages (.object obj) = messages := by
      rw [bodyMessages, Value.get, hmessages]
      rfl
    rw [hextra] at h
    have hissues := (List.append_eq_nil_iff.mp (issues_of_translatable h)).1
    simp only [nestedTranslationIssues, hmessages, Option.getD_some, List.append_eq_nil_iff]
      at hissues
    have hinspect : ∀ m ∈ messages, ∃ i, inspectMessage i m = [] := by
      intro m hm
      obtain ⟨i, hi, rfl⟩ := List.getElem_of_mem hm
      exact ⟨i, List.flatMap_eq_nil_iff.mp hissues.1.1.2 (messages[i], i)
        (List.mem_zipIdx_iff_getElem?.mpr (by simp [hi]))⟩
    rw [Represented, Readable, hbody, hsystem, hresolved]
    refine and_congr (systemContents_iff hissues.1.1.1) ?_
    have hfinal : List.Forall₂ NameFilled
        (messages.flatMap fun m => decodeContent J (m.get "content"))
        ((resolveToolResultNames (decodeMessages J messages)).1.flatMap (·.parts)) := by
      rw [← parts_eq]
      exact nameFilled_resolveFrom _ 0 _
    refine inOrder_contents_iff (fun _ => true) hfinal (fun _ _ _ => rfl)
      (fun _ _ _ => rfl) (fun c p q hpq => (says_nameFilled hpq).mp) ?_ ?_ ?_
    · intro m hm
      obtain ⟨i, hi⟩ := hinspect m hm
      rw [List.filter_true]
      exact (contents_iff (J := J) hi).1
    · intro m hm
      obtain ⟨i, hi⟩ := hinspect m hm
      rw [List.filter_true]
      exact (contents_iff hi).2.mpr
    · intro m hm hall
      obtain ⟨i, hi⟩ := hinspect m hm
      rw [List.filter_true] at hall
      refine (contents_iff hi).2.mp (hall.imp ?_)
      rintro c p ⟨q, hpq, hc⟩
      exact (says_nameFilled hpq).mpr hc
  | _ => cases hdecode

end Kinetix.Frontends.Anthropic
