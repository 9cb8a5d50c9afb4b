import Kinetix.Frontends.Request
import Kinetix.Library.Selection

/-!
# What a request body says

The contents of a body in any of the three formats, and which internal parts say the same.

## Implementation notes

A field that is absent or `null` says nothing. Where a field should be a string and is another
value, no part says the same.
-/

namespace Kinetix.Frontends
open Json Selection

/-- What a body says in one place. -/
inductive Content where
  /-- A content that is a string. -/
  | plain (text : String)
  /-- An entry of a content. -/
  | block (block : Value)
  /-- An entry of the calls of a message. -/
  | call (call : Value)
  /-- A message that is the result of a tool. -/
  | result (message : Value)
  /-- An item that is a call or the output of one. -/
  | item (item : Value)
  /-- A value that stands where none of these should. -/
  | other (value : Value)

/-- The messages of a body. -/
def bodyMessages (body : Value) : List Value := ((body.get "messages").bind (·.asArray)).getD []

/-! ## Fields -/

/-- The field is the string, or says nothing. -/
def FieldIs (v : Value) (name : String) (s : Option String) : Prop :=
  match v.get name with
  | none | some .null => s = none
  | some (.string t) => s = some t
  | some _ => False

def stringOrNothing : Option Value → Bool
  | none | some .null | some (.string _) => true
  | some _ => false

theorem fieldIs_iff {v : Value} {name : String} {s : Option String} :
    FieldIs v name s ↔ stringOrNothing (v.get name) ∧ s = strField v name := by
  unfold FieldIs strField
  cases v.get name with
  | none => simp [stringOrNothing]
  | some value => cases value <;> simp [stringOrNothing, Value.asStr]

/-! ## Texts -/

def blockText (b : Value) : String := (strField b "text").getD ""

def hasText (b : Value) : Bool := (strField b "text").isSome

/-- The text of a content that is a text; an entry without a text makes it none. -/
def contentText : Option Value → Option String
  | none | some .null => some ""
  | some (.string s) => some s
  | some (.array blocks) =>
    if blocks.all hasText then some (String.join (blocks.map blockText)) else none
  | some _ => none

/-- The text of the entries that are kept. -/
def keptText (keep : Value → Bool) : Option Value → Option String
  | some (.string s) => some s
  | some (.array blocks) =>
    some (String.join (blocks.filterMap fun p => if keep p then strField p "text" else none))
  | _ => none

/-- A content of which the kept entries are the whole text. -/
def TextReadable (keep : Value → Bool) : Option Value → Prop
  | none | some .null | some (.string _) => True
  | some (.array blocks) => ∀ b ∈ blocks, hasText b ∧ (keep b ∨ blockText b = "")
  | some _ => False

theorem toList_join_texts (blocks : List Value) :
    (String.join (blocks.map blockText)).toList = blocks.flatMap fun b => (blockText b).toList := by
  rw [String.toList_join, List.flatMap_map]

theorem toList_join_kept (keep : Value → Bool) (blocks : List Value) :
    (String.join (blocks.filterMap fun p => if keep p then strField p "text" else none)).toList =
      kept keep (fun b => (blockText b).toList) blocks := by
  rw [String.toList_join]
  induction blocks with
  | nil => rfl
  | cons b blocks ih =>
    rw [kept_cons, ← ih]
    by_cases hb : keep b
    · cases ht : strField b "text" with
      | none | some t => simp [hb, ht, blockText]
    · simp [hb]

/-- The kept text is the whole one exactly if the content is readable. -/
theorem contentText_eq_keptText_iff {keep : Value → Bool} {content : Option Value} :
    contentText content = some ((keptText keep content).getD "") ↔ TextReadable keep content := by
  cases content with
  | none => simp [contentText, keptText, TextReadable]
  | some value =>
    cases value with
    | array blocks =>
      simp only [contentText, keptText, TextReadable, Option.getD_some]
      have hsame : String.join (blocks.map blockText) = String.join (blocks.filterMap fun p =>
          if keep p then strField p "text" else none) ↔
            ∀ b ∈ blocks, keep b ∨ blockText b = "" := by
        rw [← String.toList_inj, toList_join_texts, toList_join_kept, eq_comm, kept_eq_iff]
        simp
      by_cases hall : blocks.all hasText
      · rw [if_pos hall, Option.some_inj, hsame]
        rw [List.all_eq_true] at hall
        exact ⟨fun h b hb => ⟨hall b hb, h b hb⟩, fun h b hb => (h b hb).2⟩
      · rw [if_neg hall]
        refine iff_of_false (by simp) fun h => hall ?_
        exact List.all_eq_true.mpr fun b hb => (h b hb).1
    | _ => simp [contentText, keptText, TextReadable]

/-! ## System texts -/

/-- The system text of a content, if there is one. -/
def systemText (keep : Value → Bool) (content : Option Value) : Option String :=
  (keptText keep content).filter (· ≠ "")

/-- A content says something unless its text is empty. -/
def saysText (content : Option Value) : Bool := contentText content ≠ some ""

section SystemTexts
variable {keep : Value → Bool} {content : Option Value}

theorem keptText_of_not_saysText (h : saysText content = false) :
    (keptText keep content).getD "" = "" := by
  have htext : contentText content = some "" := by simpa [saysText] using h
  cases content with
  | none => rfl
  | some value =>
    cases value with
    | string s => simpa [contentText, keptText] using htext
    | array blocks =>
      simp only [contentText] at htext
      split at htext
      · have hle : (kept keep (fun b => (blockText b).toList) blocks).length ≤ _ :=
          length_kept_le
        rw [← toList_join_texts, Option.some_inj.mp htext] at hle
        have hnil := List.eq_nil_of_length_eq_zero (Nat.le_zero.mp hle)
        rw [← toList_join_kept] at hnil
        exact String.toList_inj.mp hnil
      · cases htext
    | _ => rfl

theorem systemText_of_not_saysText (h : saysText content = false) :
    systemText keep content = none := by
  have hempty : (keptText keep content).getD "" = "" := keptText_of_not_saysText h
  unfold systemText
  cases htext : keptText keep content with
  | none => rfl
  | some t =>
    rw [htext] at hempty
    simp only [Option.getD_some] at hempty
    simp [hempty]

theorem textReadable_of_not_saysText (h : saysText content = false) :
    TextReadable keep content := by
  have htext : contentText content = some "" := by simpa [saysText] using h
  rw [← contentText_eq_keptText_iff, keptText_of_not_saysText h, htext]

theorem systemText_iff (h : saysText content) :
    (∃ s, systemText keep content = some s ∧ contentText content = some s) ↔
      TextReadable keep content := by
  have hsaid : contentText content ≠ some "" := by simpa [saysText] using h
  rw [← contentText_eq_keptText_iff]
  unfold systemText
  constructor
  · rintro ⟨s, hs, htext⟩
    obtain ⟨hkept, -⟩ := Option.filter_eq_some_iff.mp hs
    rw [htext, hkept]
    rfl
  · intro htext
    cases hkept : keptText keep content with
    | none =>
      rw [hkept] at htext
      exact (hsaid htext).elim
    | some s =>
      rw [hkept] at htext
      refine ⟨s, Option.filter_eq_some_iff.mpr ⟨rfl, ?_⟩, htext⟩
      simpa using fun hempty : s = "" => hsaid (hempty ▸ htext)

theorem filterMap_systemText (contents : List (Option Value)) :
    contents.filterMap (systemText keep) =
      (contents.filter saysText).filterMap (systemText keep) := by
  rw [List.filterMap_filter]
  refine List.filterMap_congr fun content _ => ?_
  cases h : saysText content with
  | true => rfl
  | false => exact systemText_of_not_saysText h

theorem length_systemTexts_le (contents : List (Option Value)) :
    (contents.filterMap (systemText keep)).length ≤ (contents.filter saysText).length := by
  rw [filterMap_systemText]
  exact List.length_filterMap_le _ _

/-- The texts of contents are represented by what is kept of them exactly if nothing is left out. -/
theorem systemTexts_iff {contents : List (Option Value)} :
    List.Forall₂ (fun content s => contentText content = some s) (contents.filter saysText)
        (contents.filterMap (systemText keep)) ↔
      ∀ content ∈ contents, TextReadable keep content := by
  rw [filterMap_systemText, forall₂_filterMap_iff]
  constructor
  · intro h content hcontent
    cases hsaid : saysText content with
    | true => exact (systemText_iff hsaid).mp (h content (List.mem_filter.mpr ⟨hcontent, hsaid⟩))
    | false => exact textReadable_of_not_saysText hsaid
  · intro h content hcontent
    obtain ⟨hmem, hsaid⟩ := List.mem_filter.mp hcontent
    exact (systemText_iff hsaid).mpr (h content hmem)

end SystemTexts

/-! ## Names of results -/

/-- The second part is the first one, or a result that has got the name of its call. -/
inductive NameFilled : Part → Part → Prop where
  | same (part : Part) : NameFilled part part
  | filled (id name content : String) (isError : Bool) :
      NameFilled (.toolResult id none content isError) (.toolResult id (some name) content isError)

theorem NameFilled.isThinking {p q : Part} (h : NameFilled p q) : p.isThinking = q.isThinking := by
  cases h <;> rfl

theorem nameFilled_resolvePart (names : String → Option String) (i : Nat) (part : Part) :
    NameFilled part (resolvePart names i part).1 := by
  cases part with
  | toolResult id name content isError =>
    cases name with
    | some name => exact .same _
    | none =>
      simp only [resolvePart]
      cases names id with
      | none => exact .same _
      | some name => exact .filled id name content isError
  | _ => exact .same _

theorem nameFilled_resolveFrom (names : String → Option String) (i : Nat)
    (messages : List Message) : List.Forall₂ NameFilled (messages.flatMap (·.parts))
      ((resolveFrom names i messages).1.flatMap (·.parts)) := by
  induction messages generalizing names i with
  | nil => exact .nil
  | cons m messages ih =>
    rw [List.flatMap_cons]
    refine List.rel_append ?_ (ih (recordCalls names m.parts) (i + 1))
    rw [List.map_map, List.forall₂_map_right_iff, List.forall₂_same]
    exact fun part _ => nameFilled_resolvePart _ i part

/-- The relation holds once the names are filled in. -/
def UpToName (R : Content → Part → Prop) (c : Content) (p : Part) : Prop :=
  ∃ q, NameFilled p q ∧ R c q

section Bodies
variable {R : Content → Part → Prop} {messages : List Value} {contents : Value → List Content}
  {parts : Value → List Part} {readable : Value → Prop} {final : List Part}

/-- The contents of the messages are found in order in the final parts exactly if every message is
readable, where a readable message is one whose own contents are found in its own parts. -/
theorem inOrder_contents_iff (keep : Part → Bool)
    (hfinal : List.Forall₂ NameFilled (messages.flatMap parts) final)
    (hkeep : ∀ c p, R c p → keep p)
    (hname : ∀ p q, NameFilled p q → keep p = keep q)
    (hfilled : ∀ c p q, NameFilled p q → R c p → R c q)
    (hle : ∀ m ∈ messages, ((parts m).filter keep).length ≤ (contents m).length)
    (hsaid : ∀ m ∈ messages, readable m → List.Forall₂ R (contents m) ((parts m).filter keep))
    (hreadable : ∀ m ∈ messages,
      List.Forall₂ (UpToName R) (contents m) ((parts m).filter keep) → readable m) :
    InOrder R (messages.flatMap contents) final ↔ ∀ m ∈ messages, readable m := by
  have hkept : List.Forall₂ NameFilled (messages.flatMap fun m => (parts m).filter keep)
      (final.filter keep) := by
    rw [← List.filter_flatMap]
    refine List.rel_filter (fun p q hpq => ?_) hfinal
    change keep p = true ↔ keep q = true
    rw [hname p q hpq]
  have hlength : (final.filter keep).length ≤ (messages.flatMap contents).length := by
    rw [← hkept.length_eq]
    exact length_flatMap_le hle
  rw [inOrder_iff_forall₂ keep hkeep hlength]
  constructor
  · intro h m hm
    have hdecoded : List.Forall₂ (UpToName R) (messages.flatMap contents)
        (messages.flatMap fun m => (parts m).filter keep) :=
      forall₂_trans (fun c q p hc hp => ⟨q, hp, hc⟩) h hkept.flip
    exact hreadable m hm (forall₂_of_flatMap hle hdecoded m hm)
  · intro h
    have hall := forall₂_flatMap fun m hm => hsaid m hm (h m hm)
    exact forall₂_trans (fun c p q hc hpq => hfilled c p q hpq hc) hall hkept

end Bodies

/-! ## Entries and calls of the OpenAI formats -/

def contentItems : Option Value → List Content
  | none | some .null => []
  | some (.string s) => if s = "" then [] else [.plain s]
  | some (.array blocks) => blocks.map .block
  | some v => [.other v]

def callItems : Option Value → List Content
  | none | some .null => []
  | some (.array calls) => calls.map .call
  | some v => [.other v]

/-- The image at a URL, which may be a data URL. -/
def IsImageAt (url : String) : ImageData → Prop
  | .url u => url = u
  | .base64 mime data =>
    url = "data:" ++ mime ++ ";base64," ++ data ∨ url = "data:" ++ mime ++ "," ++ data

/-- The part says what the entry says. -/
def BlockSays (b : Value) : Part → Prop
  | .text t => isTextKind (kindOf b) ∧ strField b "text" = some t
  | .image image => isImageKind (kindOf b) ∧ ∃ url, imageUrl b = some url ∧ IsImageAt url image
  | _ => False

def callName (call : Value) : Option String := (call.get "function").bind (strField · "name")

/-- The part is the call. -/
def CallSays (J : SerdeJson) (call : Value) : Part → Prop
  | .toolCall id name arguments _ =>
    FieldIs call "id" id ∧ callName call = some name ∧
      arguments = argumentsText J ((call.get "function").bind (·.get "arguments"))
  | _ => False

/-- A content without texts that are missing. -/
def ContentReadable : Option Value → Prop
  | none | some .null | some (.string _) => True
  | some (.array blocks) => ∀ b ∈ blocks, isTextKind (kindOf b) → hasText b
  | some _ => False

/-- Calls that have names, and ids that are strings if there are any. -/
def CallsReadable : Option Value → Prop
  | none | some .null => True
  | some (.array calls) => ∀ call ∈ calls,
      stringOrNothing (call.get "id") ∧ (callName call).getD "" ≠ ""
  | some _ => False

theorem takeWhile_append_drop {p : Char → Bool} {l : List Char}
    (h : (l.takeWhile p).length < l.length) :
    ∃ c, p c = false ∧ l = l.takeWhile p ++ c :: l.drop ((l.takeWhile p).length + 1) := by
  induction l with
  | nil => exact (Nat.lt_irrefl 0 h).elim
  | cons a l ih =>
    cases ha : p a with
    | false =>
      rw [List.takeWhile_cons_of_neg (by simp [ha])]
      exact ⟨a, ha, rfl⟩
    | true =>
      rw [List.takeWhile_cons_of_pos ha] at h ⊢
      obtain ⟨c, hc, hl⟩ := ih (by simpa using h)
      exact ⟨c, hc, congrArg (a :: ·) hl⟩

theorem stripPrefix_eq_some {s start rest : String} (h : Text.stripPrefix s start = some rest) :
    s = start ++ rest := by
  unfold Text.stripPrefix at h
  split at h
  next hstart =>
    obtain ⟨tail, htail⟩ := List.isPrefixOf_iff_prefix.mp hstart
    cases h
    rw [← htail, ← String.length_toList, List.drop_left, ← String.toList_inj, ← htail]
    simp
  · cases h

/-- What a data URL is split into. -/
theorem parseDataUrl_eq_some {url mime data : String} (h : parseDataUrl url = some (mime, data)) :
    IsImageAt url (.base64 mime data) := by
  simp only [parseDataUrl, Option.bind_eq_some_iff] at h
  obtain ⟨rest, hrest, h⟩ := h
  split at h
  next hlt =>
    obtain ⟨c, hc, hsplit⟩ := takeWhile_append_drop hlt
    obtain rfl : c = ',' := by simpa using hc
    have hurl : url = "data:" ++ String.ofList (rest.toList.takeWhile (· ≠ ',')) ++ "," ++
        String.ofList (rest.toList.drop ((rest.toList.takeWhile (· ≠ ',')).length + 1)) := by
      have hlist : rest = String.ofList (rest.toList.takeWhile (· ≠ ',') ++
          ',' :: rest.toList.drop ((rest.toList.takeWhile (· ≠ ',')).length + 1)) := by
        rw [← hsplit, String.ofList_toList]
      conv_lhs => rw [stripPrefix_eq_some hrest, hlist]
      rw [← String.toList_inj]
      simp
    generalize rest.toList.takeWhile (· ≠ ',') = part at h hurl
    cases h
    split
    next hsuffix =>
      obtain ⟨mime, hmime⟩ := List.isSuffixOf_iff_suffix.mp hsuffix
      left
      have htake : part.take (part.length - ";base64".toList.length) = mime := by
        rw [← hmime]
        simp
      have hpart : String.ofList part = String.ofList mime ++ ";base64" := by
        rw [← hmime, ← String.toList_inj]
        simp
      rw [htake, hurl, hpart, ← String.toList_inj]
      simp
    · exact .inr hurl
  · cases h

theorem decodeImageUrl_at (url : String) :
    ∃ image, decodeImageUrl url = .image image ∧ IsImageAt url image := by
  unfold decodeImageUrl
  cases h : parseDataUrl url with
  | none => exact ⟨.url url, rfl, rfl⟩
  | some parts => exact ⟨.base64 parts.1 parts.2, rfl, parseDataUrl_eq_some h⟩

/-- An entry that is not complained of is decoded to a part that says the same, unless it is a text
without a text. -/
theorem decodeBlock_iff {path : String} {b : Value} (h : inspectBlock path false b = []) :
    (∃ part, decodeBlock b = some part ∧ BlockSays b part) ↔
      (isTextKind (kindOf b) → hasText b) := by
  unfold decodeBlock
  by_cases htext : isTextKind (kindOf b)
  · rw [if_pos htext]
    cases ht : strField b "text" with
    | none => simp [htext, hasText, ht]
    | some t => simp [htext, hasText, ht, BlockSays]
  · rw [if_neg htext]
    refine iff_of_true ?_ fun hkind => (htext hkind).elim
    have himage : isImageKind (kindOf b) := by
      by_contra hnot
      simp [inspectBlock, htext, hnot] at h
    cases hurl : imageUrl b with
    | none => simp [inspectBlock, htext, himage, hurl] at h
    | some url =>
      obtain ⟨image, hdecoded, hat⟩ := decodeImageUrl_at url
      rw [if_pos himage, Option.map_some, hdecoded]
      exact ⟨_, rfl, himage, url, hurl, hat⟩

theorem decodeToolCall_iff {J : SerdeJson} {call : Value} :
    (∃ part, decodeToolCall J call = some part ∧ CallSays J call part) ↔
      stringOrNothing (call.get "id") ∧ (callName call).getD "" ≠ "" := by
  have hname : decodeToolCall J call = if (callName call).getD "" = "" then none
      else some (.toolCall (strField call "id") ((callName call).getD "")
        (argumentsText J ((call.get "function").bind (·.get "arguments"))) none) := rfl
  rw [hname]
  by_cases hempty : (callName call).getD "" = ""
  · simp [hempty]
  · rw [if_neg hempty]
    obtain ⟨name, hcall⟩ : ∃ name, callName call = some name := by
      cases hcall : callName call with
      | none => simp [hcall] at hempty
      | some name => exact ⟨name, rfl⟩
    have hne : name ≠ "" := by simpa [hcall] using hempty
    simp [CallSays, fieldIs_iff, hcall, hne]

/-- A relation that reads entries and calls as they are. -/
structure ReadsEntries (J : SerdeJson) (R : Content → Part → Prop) : Prop where
  plain : ∀ t part, R (.plain t) part ↔ part = .text t
  block : ∀ b part, R (.block b) part ↔ BlockSays b part
  call : ∀ call part, R (.call call) part ↔ CallSays J call part
  other : ∀ v part, ¬ R (.other v) part

section Entries
variable {J : SerdeJson} {R : Content → Part → Prop}

/-- What is not a result is not changed by names. -/
theorem ReadsEntries.upToName (h : ReadsEntries J R) : ReadsEntries J (UpToName R) where
  plain t part := by
    constructor
    · rintro ⟨q, hq, hR⟩
      obtain rfl := (h.plain t q).mp hR
      cases hq
      rfl
    · rintro rfl
      exact ⟨_, .same _, (h.plain t _).mpr rfl⟩
  block b part := by
    refine ⟨fun ⟨q, hq, hR⟩ => ?_, fun hb => ⟨_, .same _, (h.block b part).mpr hb⟩⟩
    have hb := (h.block b q).mp hR
    cases hq with
    | same => exact hb
    | filled => exact hb.elim
  call call part := by
    refine ⟨fun ⟨q, hq, hR⟩ => ?_, fun hc => ⟨_, .same _, (h.call call part).mpr hc⟩⟩
    have hc := (h.call call q).mp hR
    cases hq with
    | same => exact hc
    | filled => exact hc.elim
  other v part := fun ⟨q, _, hR⟩ => h.other v q hR

theorem length_decodeContentParts_le (content : Option Value) :
    (decodeContentParts content).length ≤ (contentItems content).length := by
  cases content with
  | none => exact Nat.le_refl 0
  | some value =>
    cases value with
    | string s =>
      by_cases hs : s = ""
      · simp [decodeContentParts, contentItems, hs]
      · simp [decodeContentParts, contentItems, hs]
    | array blocks =>
      rw [decodeContentParts, contentItems, List.length_map]
      exact List.length_filterMap_le _ _
    | _ => exact Nat.zero_le _

theorem length_decodeToolCalls_le (J : SerdeJson) (m : Value) :
    (decodeToolCalls J m).length ≤ (callItems (m.get "tool_calls")).length := by
  unfold decodeToolCalls
  cases m.get "tool_calls" with
  | none => exact Nat.le_refl 0
  | some value =>
    cases value with
    | array calls =>
      simp only [Option.bind_some, Value.asArray, callItems, List.length_map]
      exact List.length_filterMap_le _ _
    | _ => exact Nat.zero_le _

/-- The entries of a content that is not complained of are found in what it is decoded to exactly if
no text is missing. -/
theorem contentItems_iff (hR : ReadsEntries J R) {path : String} {content : Option Value}
    (h : inspectContent path false content = []) :
    List.Forall₂ R (contentItems content) (decodeContentParts content) ↔
      ContentReadable content := by
  cases content with
  | none => exact iff_of_true .nil trivial
  | some value =>
    cases value with
    | null => exact iff_of_true .nil trivial
    | string s =>
      refine iff_of_true ?_ trivial
      by_cases hs : s = ""
      · simp [decodeContentParts, contentItems, hs]
      · simp [decodeContentParts, contentItems, hs, hR.plain]
    | array blocks =>
      rw [contentItems, decodeContentParts, List.forall₂_map_left_iff, forall₂_filterMap_iff]
      refine forall₂_congr fun b hb => ?_
      obtain ⟨i, hi, rfl⟩ := List.getElem_of_mem hb
      have hinspect : inspectBlock s!"{path}[{i}]" false blocks[i] = [] := by
        simp only [inspectContent, List.flatten_eq_nil_iff, List.forall_mem_map] at h
        exact h (blocks[i], i) (List.mem_zipIdx_iff_getElem?.mpr (by simp [hi]))
      simp only [hR.block]
      exact decodeBlock_iff hinspect
    | bool b | number n | object fields =>
      refine iff_of_false (fun h => ?_) id
      cases h

theorem callItems_iff (hR : ReadsEntries J R) {m : Value} :
    List.Forall₂ R (callItems (m.get "tool_calls")) (decodeToolCalls J m) ↔
      CallsReadable (m.get "tool_calls") := by
  unfold decodeToolCalls
  cases m.get "tool_calls" with
  | none => exact iff_of_true .nil trivial
  | some value =>
    cases value with
    | null => exact iff_of_true .nil trivial
    | array calls =>
      simp only [callItems, Option.bind_some, Value.asArray]
      rw [List.forall₂_map_left_iff, forall₂_filterMap_iff]
      refine forall₂_congr fun call _ => ?_
      simp only [hR.call]
      exact decodeToolCall_iff
    | bool b | number n | string s | object fields =>
      refine iff_of_false (fun h => ?_) id
      cases h

end Entries

/-! ## Decoded parts are no thinking -/

theorem decodeBlock_not_isThinking {b : Value} {part : Part} (h : decodeBlock b = some part) :
    part.isThinking = false := by
  unfold decodeBlock at h
  split at h
  · obtain ⟨t, -, rfl⟩ := Option.map_eq_some_iff.mp h
    rfl
  · split at h
    · obtain ⟨url, -, rfl⟩ := Option.map_eq_some_iff.mp h
      obtain ⟨image, himage, -⟩ := decodeImageUrl_at url
      rw [himage]
      rfl
    · cases h

theorem filter_decodeContentParts (content : Option Value) :
    (decodeContentParts content).filter (!·.isThinking) = decodeContentParts content := by
  refine List.filter_eq_self.mpr fun part hpart => ?_
  cases content with
  | none => cases hpart
  | some value =>
    cases value with
    | string s =>
      simp only [decodeContentParts] at hpart
      split at hpart
      · cases hpart
      · rw [List.mem_singleton.mp hpart]
        rfl
    | array blocks =>
      obtain ⟨b, -, hb⟩ := List.mem_filterMap.mp hpart
      rw [decodeBlock_not_isThinking hb]
      rfl
    | _ => cases hpart

theorem filter_decodeToolCalls (J : SerdeJson) (m : Value) :
    (decodeToolCalls J m).filter (!·.isThinking) = decodeToolCalls J m := by
  refine List.filter_eq_self.mpr fun part hpart => ?_
  unfold decodeToolCalls at hpart
  split at hpart
  · obtain ⟨call, -, hcall⟩ := List.mem_filterMap.mp hpart
    unfold decodeToolCall at hcall
    dsimp only at hcall
    split at hcall
    · cases hcall
    · cases hcall
      rfl
  · cases hpart

end Kinetix.Frontends
