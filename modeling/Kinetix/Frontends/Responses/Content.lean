import Kinetix.Frontends.Content
import Kinetix.Frontends.Responses.Decode

/-!
# What an OpenAI Responses request says

Which contents of a body that is accepted are represented in the internal request.
-/

namespace Kinetix.Frontends.Responses
open Json Selection

/-- An item that is a message. -/
def isMessage (item : Value) : Bool :=
  kindOf item ≠ "function_call" ∧ kindOf item ≠ "function_call_output"

def isSystem (item : Value) : Bool :=
  isMessage item ∧ (roleOf item = "system" ∨ roleOf item = "developer")

def isTool (item : Value) : Bool := roleOf item = "tool"

def inputItems (body : Value) : List Value := ((body.get "input").bind (·.asArray)).getD []

/-- The instructions and the contents of the system messages that have a text. -/
def systemContents (body : Value) : List (Option Value) :=
  (body.get "instructions" :: ((inputItems body).filter isSystem).map (·.get "content")).filter
    saysText

/-- What an item says that is no system message, and calls wherever they stand. -/
def itemContents : Value → List Content
  | .object fields =>
    let item := Value.object fields
    if isMessage item then
      (if isSystem item then [] else if isTool item then [.result item]
        else contentItems (item.get "content")) ++ callItems (item.get "tool_calls")
    else [.item item]
  | v => [.other v]

/-- What the input says. -/
def contents (body : Value) : List Content :=
  match body.get "input" with
  | some (.string text) => if text = "" then [] else [.plain text]
  | _ => (inputItems body).flatMap itemContents

/-- The id that the result of a tool names. -/
def resultId (item : Value) : Option Value := (item.get "tool_call_id").or (item.get "call_id")

/-- The part is the call or the output that the item is. -/
def ItemSays (J : SerdeJson) (item : Value) : Part → Prop
  | .toolCall id name arguments _ =>
    kindOf item = "function_call" ∧
      id = ((item.get "call_id").or (item.get "id")).bind (·.asStr) ∧ id.isSome ∧
        strField item "name" = some name ∧ arguments = argumentsText J (item.get "arguments")
  | .toolResult id _ content _ =>
    kindOf item = "function_call_output" ∧ strField item "call_id" = some id ∧
      content = outputText J (item.get "output")
  | _ => False

/-- The part says the same. -/
def Says (J : SerdeJson) : Content → Part → Prop
  | .plain t, part => part = .text t
  | .block b, part => BlockSays b part
  | .call call, part => CallSays J call part
  | .item item, part => ItemSays J item part
  | .result item, .toolResult id _ content _ =>
    (stringOrNothing (resultId item) ∧ id = ((resultId item).bind (·.asStr)).getD "") ∧
      contentText (item.get "content") = some content
  | _, _ => False

/-! ## Readable items -/

/-- `content_as_text` keeps the text of every entry. -/
def keeps (_ : Value) : Bool := true

def ReadableItem (item : Value) : Prop :=
  item.asObject.isSome ∧
    (isMessage item →
      if isSystem item then callItems (item.get "tool_calls") = []
      else if isTool item then
        stringOrNothing (resultId item) ∧ TextReadable keeps (item.get "content") ∧
          callItems (item.get "tool_calls") = []
      else if roleOf item = "assistant" then
        ContentReadable (item.get "content") ∧ CallsReadable (item.get "tool_calls")
      else ContentReadable (item.get "content") ∧ callItems (item.get "tool_calls") = [])

theorem contentAsText_eq (content : Option Value) :
    contentAsText content = keptText keeps content := by
  cases content with
  | none => rfl
  | some value =>
    cases value with
    | array blocks => simp [contentAsText, keptText, keeps]
    | _ => rfl

theorem says_readsEntries (J : SerdeJson) : ReadsEntries J (Says J) where
  plain _ _ := Iff.rfl
  block _ _ := Iff.rfl
  call _ _ := Iff.rfl
  other _ _ h := h

theorem says_nameFilled {J : SerdeJson} {c : Content} {p q : Part} (hpq : NameFilled p q) :
    Says J c p ↔ Says J c q := by
  cases hpq with
  | same => exact Iff.rfl
  | filled id name content isError =>
    cases c with
    | plain t => exact iff_of_false (fun h => by cases h) (fun h => by cases h)
    | _ => exact Iff.rfl

/-! ## The parts of an item -/

/-- The parts that an item is decoded to. -/
def parts (J : SerdeJson) (item : Value) : List Part :=
  match decodeInputItem J item with
  | .ok (some (.inr message)) => message.parts
  | _ => []

section Items
variable {J : SerdeJson} {item : Value}

/-- A call or an output that is accepted is represented. -/
theorem item_said (hitem : isMessage item = false) (hok : ∃ r, decodeInputItem J item = .ok r) :
    ∃ part, parts J item = [part] ∧ ItemSays J item part := by
  obtain ⟨r, hr⟩ := hok
  have hkind : kindOf item = "function_call" ∨ kindOf item = "function_call_output" := by
    simpa [isMessage, or_iff_not_imp_left] using hitem
  rcases hkind with hkind | hkind
  · have hdecode : decodeInputItem J item = (decodeFunctionCall J item).map (some ∘ .inr) := by
      rw [decodeInputItem, if_pos hkind]
    rw [parts, hdecode]
    rw [hdecode, decodeFunctionCall] at hr
    rw [decodeFunctionCall]
    split at hr
    · cases hr
    · cases hr
    next callId name hid hname =>
      obtain ⟨hid, -⟩ := Option.filter_eq_some_iff.mp hid
      obtain ⟨hname, -⟩ := Option.filter_eq_some_iff.mp hname
      exact ⟨_, rfl, hkind, hid.symm, rfl, hname, rfl⟩
  · have hne : kindOf item ≠ "function_call" := by simp [hkind]
    have hdecode : decodeInputItem J item =
        (decodeFunctionCallOutput J item).map (some ∘ .inr) := by
      rw [decodeInputItem, if_neg hne, if_pos hkind]
    rw [parts, hdecode]
    rw [hdecode, decodeFunctionCallOutput] at hr
    rw [decodeFunctionCallOutput]
    split at hr
    · cases hr
    next callId hid =>
      obtain ⟨hid, -⟩ := Option.filter_eq_some_iff.mp hid
      exact ⟨_, rfl, hkind, hid, rfl⟩

theorem decodeInputItem_of_isMessage (h : isMessage item) :
    decodeInputItem J item = .ok (decodeMessageItem J item) := by
  have hkind : kindOf item ≠ "function_call" ∧ kindOf item ≠ "function_call_output" := by
    simpa [isMessage] using h
  rw [decodeInputItem, if_neg hkind.1, if_neg hkind.2]

theorem parts_of_isSystem (h : isSystem item) : parts J item = [] := by
  have hrole : isMessage item ∧ (roleOf item = "system" ∨ roleOf item = "developer") := by
    simpa [isSystem] using h
  rw [parts, decodeInputItem_of_isMessage hrole.1, decodeMessageItem]
  simp only [if_pos hrole.2]
  cases nonEmpty (contentAsText (item.get "content")) <;> rfl

theorem parts_of_isTool (hmessage : isMessage item) (h : isTool item) :
    parts J item = [.toolResult (((resultId item).bind (·.asStr)).getD "") none
      ((keptText keeps (item.get "content")).getD "") false] := by
  have hrole : roleOf item = "tool" := by simpa [isTool] using h
  rw [parts, decodeInputItem_of_isMessage hmessage, decodeMessageItem, ← contentAsText_eq]
  simp [hrole, resultId]

theorem parts_of_assistant (hmessage : isMessage item) (h : roleOf item = "assistant") :
    parts J item = decodeContentParts (item.get "content") ++ decodeToolCalls J item := by
  rw [parts, decodeInputItem_of_isMessage hmessage, decodeMessageItem]
  simp [h]

theorem parts_of_user (hmessage : isMessage item) (h : roleOf item = "user") :
    parts J item = decodeContentParts (item.get "content") := by
  rw [parts, decodeInputItem_of_isMessage hmessage, decodeMessageItem]
  simp [h]

theorem role_of_inspectItem {i : Nat} (hmessage : isMessage item) (h : inspectItem i item = []) :
    isSystem item ∨ isTool item ∨ roleOf item = "assistant" ∨ roleOf item = "user" := by
  have hkind : kindOf item ≠ "function_call" ∧ kindOf item ≠ "function_call_output" := by
    simpa [isMessage] using hmessage
  rw [inspectItem] at h
  simp only [hkind.1, hkind.2, or_self, if_false] at h
  split at h
  · rw [List.append_eq_nil_iff] at h
    have hrole := h.1
    split at hrole
    next hmem =>
      simp only [List.mem_cons, List.not_mem_nil, or_false] at hmem
      simp only [isSystem, isTool, hmessage, true_and, decide_eq_true_eq]
      tauto
    · cases hrole
  · cases h

theorem inspectContent_of_inspectItem {i : Nat} (hmessage : isMessage item)
    (h : inspectItem i item = []) (hrole : roleOf item = "assistant" ∨ roleOf item = "user") :
    inspectContent s!"input[{i}].content" false (item.get "content") = [] := by
  have hkind : kindOf item ≠ "function_call" ∧ kindOf item ≠ "function_call_output" := by
    simpa [isMessage] using hmessage
  rw [inspectItem] at h
  simp only [hkind.1, hkind.2, or_self, if_false] at h
  split at h
  · rw [List.append_eq_nil_iff] at h
    rcases hrole with hrole | hrole
    · simpa [hrole] using h.2
    · simpa [hrole] using h.2
  · cases h

theorem result_iff : Says J (.result item)
    (.toolResult (((resultId item).bind (·.asStr)).getD "") none
      ((keptText keeps (item.get "content")).getD "") false) ↔
    stringOrNothing (resultId item) ∧ TextReadable keeps (item.get "content") := by
  simp [Says, contentText_eq_keptText_iff]

/-- An item that is accepted says what its parts say exactly if it is readable. -/
theorem itemContents_iff {i : Nat} (hok : ∃ r, decodeInputItem J item = .ok r)
    (h : inspectItem i item = []) :
    (parts J item).length ≤ (itemContents item).length ∧
      (List.Forall₂ (Says J) (itemContents item) (parts J item) ↔ ReadableItem item) := by
  cases item with
  | object fields =>
    generalize hitem : Value.object fields = item at h hok
    have hcontents : itemContents item = if isMessage item then
        (if isSystem item then [] else if isTool item then [.result item]
          else contentItems (item.get "content")) ++ callItems (item.get "tool_calls")
      else [.item item] := by
      rw [← hitem]
      rfl
    have hobject : item.asObject.isSome := by
      rw [← hitem]
      rfl
    rw [hcontents, ReadableItem]
    simp only [hobject, true_and]
    cases hmessage : isMessage item with
    | false =>
      obtain ⟨part, hparts, hsaid⟩ := item_said hmessage hok
      rw [hparts]
      exact ⟨Nat.le_refl 1, iff_of_true (.cons hsaid .nil) (by simp)⟩
    | true =>
      have hcalls := length_decodeToolCalls_le J item
      have hcontent := length_decodeContentParts_le (item.get "content")
      simp only [if_true, true_implies]
      rcases role_of_inspectItem hmessage h with hrole | hrole | hrole | hrole
      · rw [parts_of_isSystem hrole, if_pos hrole, if_pos hrole]
        exact ⟨Nat.zero_le _, (forall₂_append_left_iff (Nat.zero_le _)).trans
          (and_iff_right .nil)⟩
      · have hnot : isSystem item = false := by
          have htool : roleOf item = "tool" := by simpa [isTool] using hrole
          simp [isSystem, htool]
        rw [parts_of_isTool hmessage hrole, hnot]
        simp only [Bool.false_eq_true, if_false, if_pos hrole]
        refine ⟨by simp, (forall₂_append_left_iff ?_).trans ?_⟩
        · exact Nat.le_refl 1
        · rw [List.forall₂_cons, result_iff]
          simp [and_assoc]
      · rw [parts_of_assistant hmessage hrole]
        simp only [isSystem, isTool, hrole, String.reduceEq, or_self, and_false, decide_false,
          Bool.false_eq_true, if_false, if_true]
        have hinspect := inspectContent_of_inspectItem hmessage h (.inl hrole)
        rw [forall₂_append_iff hcontent hcalls,
          contentItems_iff (says_readsEntries J) hinspect, callItems_iff (says_readsEntries J),
          List.length_append, List.length_append]
        exact ⟨Nat.add_le_add hcontent hcalls, Iff.rfl⟩
      · rw [parts_of_user hmessage hrole]
        simp only [isSystem, isTool, hrole, String.reduceEq, or_self, and_false, decide_false,
          Bool.false_eq_true, if_false]
        have hinspect := inspectContent_of_inspectItem hmessage h (.inr hrole)
        rw [forall₂_append_left_iff hcontent, contentItems_iff (says_readsEntries J) hinspect,
          List.length_append]
        exact ⟨Nat.le_add_right_of_le hcontent, Iff.rfl⟩
  | _ =>
    refine ⟨Nat.zero_le _, iff_of_false (fun h => ?_) (fun h => ?_)⟩
    · cases h
    · cases h.1

end Items

/-! ## The body -/

section Bodies
variable {J : SerdeJson} {items : List Value} {results : List (Option (String ⊕ Message))}

theorem system_of_item {item : Value} {r : Option (String ⊕ Message)}
    (h : decodeInputItem J item = .ok r) :
    r.bind Sum.getLeft? =
      if isSystem item then systemText keeps (item.get "content") else none := by
  cases hmessage : isMessage item with
  | false =>
    have hsystem : isSystem item = false := by simp [isSystem, hmessage]
    rw [hsystem]
    unfold decodeInputItem decodeFunctionCall decodeFunctionCallOutput at h
    split at h
    · split at h
      · cases h
      · cases h
      · cases h
        rfl
    · split at h
      · split at h
        · cases h
        · cases h
          rfl
      next hcall houtput => simp [isMessage, hcall, houtput] at hmessage
  | true =>
    rw [decodeInputItem_of_isMessage hmessage] at h
    cases h
    unfold decodeMessageItem
    by_cases hrole : roleOf item = "system" ∨ roleOf item = "developer"
    · have hsystem : isSystem item := by simp [isSystem, hmessage, hrole]
      simp only [if_pos hrole, hsystem, if_true, systemText, nonEmpty, contentAsText_eq]
      cases (keptText keeps (item.get "content")).filter (· ≠ "") <;> rfl
    · have hsystem : isSystem item = false := by simp [isSystem, hmessage, hrole]
      simp only [if_neg hrole, hsystem, Bool.false_eq_true, if_false]
      split_ifs <;> rfl

theorem system_eq (h : List.Forall₂ (fun item r => decodeInputItem J item = .ok r) items results) :
    (results.filterMap id).filterMap Sum.getLeft? =
      ((items.filter isSystem).map (·.get "content")).filterMap (systemText keeps) := by
  rw [List.filterMap_filterMap, List.filterMap_map, List.filterMap_filter]
  induction h with
  | nil => rfl
  | @cons item r items results hitem _ ih =>
    have hfirst := system_of_item hitem
    rw [List.filterMap_cons, List.filterMap_cons, ih]
    simp only [id_eq, Function.comp_apply, hfirst]

theorem parts_eq (h : List.Forall₂ (fun item r => decodeInputItem J item = .ok r) items results) :
    ((results.filterMap id).filterMap Sum.getRight?).flatMap (·.parts) =
      items.flatMap (parts J) := by
  induction h with
  | nil => rfl
  | @cons item r items results hitem _ ih =>
    rw [List.flatMap_cons, ← ih, parts, hitem]
    cases r with
    | none => rfl
    | some decoded => cases decoded <;> rfl

end Bodies

/-- Every system text and every content of the body is represented, in order. -/
def Represented (J : SerdeJson) (body : Value) (req : InternalRequest) : Prop :=
  InOrder (fun content s => contentText content = some s) (systemContents body) req.system ∧
    InOrder (Says J) (contents body) (req.messages.flatMap (·.parts))

/-- Instructions that are not only white space. -/
def ReadableInstructions : Option Value → Prop
  | some (.string inst) => inst = "" ∨ Text.trim inst ≠ ""
  | _ => True

/-- The body's system texts are whole and its items readable. -/
def Readable (body : Value) : Prop :=
  ReadableInstructions (body.get "instructions") ∧
    (∀ item ∈ inputItems body, isSystem item → TextReadable keeps (item.get "content")) ∧
      ∀ item ∈ inputItems body, ReadableItem item

variable {obj : List (String × Value)}

theorem instructions_iff (h : nestedTranslationIssues obj = []) :
    (instructions obj).length ≤ ([obj.lookup "instructions"].filter saysText).length ∧
      (List.Forall₂ (fun content s => contentText content = some s)
        ([obj.lookup "instructions"].filter saysText) (instructions obj) ↔
          ReadableInstructions (obj.lookup "instructions")) := by
  have hstring : (obj.lookup "instructions").any (!·.isString) = false := by
    by_contra hnot
    rw [Bool.not_eq_false] at hnot
    rw [nestedTranslationIssues, if_pos hnot] at h
    cases h
  unfold instructions
  cases hlookup : obj.lookup "instructions" with
  | none => exact ⟨Nat.le_refl 0, iff_of_true .nil trivial⟩
  | some value =>
    cases value with
    | string inst =>
      simp only [Option.bind_some, Value.asStr, ReadableInstructions]
      by_cases hempty : inst = ""
      · subst hempty
        exact ⟨Nat.le_refl 0, iff_of_true .nil (.inl rfl)⟩
      · have hsaid : saysText (some (.string inst)) := by simp [saysText, contentText, hempty]
        rw [List.filter_cons_of_pos hsaid, List.filter_nil]
        by_cases hblank : Text.trim inst = ""
        · simp [hblank, hempty]
        · simp [hblank, hempty, contentText]
    | _ =>
      rw [hlookup] at hstring
      cases hstring

/-- The instructions and the system texts are represented exactly if nothing of them is left out. -/
theorem systemContents_iff (h : nestedTranslationIssues obj = []) :
    InOrder (fun content s => contentText content = some s) (systemContents (.object obj))
        (instructions obj ++ (((inputItems (.object obj)).filter isSystem).map
          (·.get "content")).filterMap (systemText keeps)) ↔
      ReadableInstructions (obj.lookup "instructions") ∧
        ∀ item ∈ inputItems (.object obj), isSystem item →
          TextReadable keeps (item.get "content") := by
  obtain ⟨hlength, hinstructions⟩ := instructions_iff h
  generalize hitems : inputItems (.object obj) = items
  have htexts : (((items.filter isSystem).map (·.get "content")).filterMap
      (systemText keeps)).length ≤ _ := length_systemTexts_le _
  have hsplit : systemContents (.object obj) = [obj.lookup "instructions"].filter saysText ++
      ((items.filter isSystem).map (·.get "content")).filter saysText := by
    rw [← List.filter_append, ← hitems]
    rfl
  rw [hsplit, inOrder_iff_forall₂_of_length, forall₂_append_iff hlength htexts, hinstructions,
    systemTexts_iff, List.forall_mem_map]
  · simp only [List.mem_filter, and_imp]
  · rw [List.length_append, List.length_append]
    exact Nat.add_le_add hlength htexts

/-- What the input is decoded to, and when its contents are represented. -/
theorem input_iff {J : SerdeJson} {decoded : List (String ⊕ Message)}
    (h : nestedTranslationIssues obj = [])
    (hinput : decodeInput J (obj.lookup "input") = .ok decoded) :
    decoded.filterMap Sum.getLeft? = (((inputItems (.object obj)).filter isSystem).map
        (·.get "content")).filterMap (systemText keeps) ∧
      (InOrder (Says J) (contents (.object obj))
          ((resolveToolResultNames (decoded.filterMap Sum.getRight?)).1.flatMap (·.parts)) ↔
        ∀ item ∈ inputItems (.object obj), ReadableItem item) := by
  have hget : (Value.object obj).get "input" = obj.lookup "input" := rfl
  rw [inputItems, contents, inputItems, hget]
  have hitems : inspectItems (obj.lookup "input") = [] := by
    rw [nestedTranslationIssues, List.append_eq_nil_iff, List.append_eq_nil_iff] at h
    exact h.1.2
  generalize obj.lookup "input" = input at hinput hitems
  cases input with
  | none =>
    cases hinput
    exact ⟨rfl, iff_of_true ⟨[], .slnil, .nil⟩ fun item hitem => (List.not_mem_nil hitem).elim⟩
  | some value =>
    cases value with
    | string text =>
      rw [decodeInput] at hinput
      cases hinput
      by_cases hempty : text = ""
      · simp only [if_pos hempty]
        exact ⟨rfl, iff_of_true ⟨[], .slnil, .nil⟩
          fun item hitem => (List.not_mem_nil hitem).elim⟩
      · simp only [if_neg hempty]
        exact ⟨rfl, iff_of_true ⟨[.text text], .refl _, .cons rfl .nil⟩
          fun item hitem => (List.not_mem_nil hitem).elim⟩
    | array items =>
      rw [decodeInput] at hinput
      cases hresults : items.mapM (decodeInputItem J) with
      | error error =>
        rw [hresults] at hinput
        cases hinput
      | ok results =>
        rw [hresults] at hinput
        cases hinput
        have hall := Fallible.mapM_eq_ok_iff.mp hresults
        refine ⟨system_eq hall, ?_⟩
        have hfinal : List.Forall₂ NameFilled (items.flatMap (parts J))
            ((resolveToolResultNames
              ((results.filterMap id).filterMap Sum.getRight?)).1.flatMap (·.parts)) := by
          rw [← parts_eq hall]
          exact nameFilled_resolveFrom _ 0 _
        have hitem : ∀ item ∈ items, (parts J item).length ≤ (itemContents item).length ∧
            (List.Forall₂ (Says J) (itemContents item) (parts J item) ↔
              ReadableItem item) := by
          intro item hitem
          obtain ⟨i, hi, rfl⟩ := List.getElem_of_mem hitem
          have hlength := hall.length_eq
          have hinspect : inspectItem i items[i] = [] :=
            List.flatMap_eq_nil_iff.mp hitems (items[i], i)
              (List.mem_zipIdx_iff_getElem?.mpr (by simp [hi]))
          exact itemContents_iff ⟨_, hall.get hi (by omega)⟩ hinspect
        refine inOrder_contents_iff (fun _ => true) hfinal (fun _ _ _ => rfl)
          (fun _ _ _ => rfl) (fun c p q hpq => (says_nameFilled hpq).mp) ?_ ?_ ?_
        · intro item hmem
          rw [List.filter_true]
          exact (hitem item hmem).1
        · intro item hmem
          rw [List.filter_true]
          exact (hitem item hmem).2.mpr
        · intro item hmem hsaid
          rw [List.filter_true] at hsaid
          refine (hitem item hmem).2.mp (hsaid.imp ?_)
          rintro c p ⟨q, hpq, hc⟩
          exact (says_nameFilled hpq).mpr hc
    | _ => cases hinput

theorem represented_iff {J : SerdeJson} {body : Value} {req : InternalRequest}
    (hdecode : decodeRequest J body = .ok req) : Represented J body req ↔ Readable body := by
  obtain ⟨obj, decoded, rfl, hissues, hinput, hsystem, hmessages⟩ := decodeRequest_eq_ok hdecode
  rw [Represented, Readable, hsystem, hmessages]
  obtain ⟨hlefts, hrights⟩ := input_iff hissues hinput
  rw [hrights, hlefts]
  exact (and_congr_left fun _ => systemContents_iff hissues).trans and_assoc

end Kinetix.Frontends.Responses
