import Kinetix.Frontends.Responses.Encoder

/-!
# The protocol of a Responses stream

A client of a Responses stream keeps the items that were added, the deltas that each of them got
and the item that was reported when it was done; the terminal frame must show the same items. Which
event lists give frames that such a client takes is again said by a machine, which reads the events
only.
-/

namespace Kinetix.Frontends.Responses
open StateMachine

/-! ## What a client reads -/

def ContentPart.text : ContentPart → String
  | .outputText text => text
  | .refusal text => text

namespace Item

def id : Item → String
  | .message id _ _ => id
  | .functionCall callId _ _ _ => callId

/-- What the item is, without what it says. -/
def header : Item → Item
  | .message id _ _ => .message id "" []
  | .functionCall callId name _ _ => .functionCall callId name "" ""

/-- The item without its status. -/
def plain : Item → Item
  | .message id _ content => .message id "" content
  | .functionCall callId name arguments _ => .functionCall callId name arguments ""

/-- What the item says. -/
def text : Item → String
  | .message _ _ content => String.join (content.map (·.text))
  | .functionCall _ _ arguments _ => arguments

end Item

/-- An item as it was streamed. -/
structure Streamed where
  index : Nat
  /-- The item when it was added. -/
  item : Item
  deltas : String := ""
  /-- The item when it was done. -/
  done : Option Item := none

/-- A frame names an item that was added and is not done. -/
def Streamed.isOpen (s : Streamed) (index : Nat) (itemId : String) : Bool :=
  s.index = index && s.item.id = itemId && s.done.isNone

/-- A frame of an open item that passes a check changes the item. -/
def touch (index : Nat) (itemId : String) (check : Streamed → Bool) (f : Streamed → Streamed)
    (items : List Streamed) : Option (List Streamed) :=
  if items.any fun s => s.isOpen index itemId && check s then
    some (items.map fun s => if s.index = index then f s else s)
  else none

/-- A delta of an item. -/
def delta (index : Nat) (itemId text : String) : List Streamed → Option (List Streamed) :=
  touch index itemId (fun _ => true) fun s => { s with deltas := s.deltas ++ text }

/-- A frame reports the text of an item. -/
def report (index : Nat) (itemId text : String) : List Streamed → Option (List Streamed) :=
  touch index itemId (fun s => s.deltas = text) id

/-- An item is done. -/
def close (index : Nat) (item : Item) : List Streamed → Option (List Streamed) :=
  touch index item.id (fun s => s.deltas = item.text && s.item.header = item.header)
    fun s => { s with done := some item }

/-- No item has the index or the id. -/
def fresh (index : Nat) (item : Item) (items : List Streamed) : Bool :=
  items.all fun s => s.index ≠ index && s.item.id ≠ item.id

/-- All items are done, and the output shows each item in the place of its index. -/
def shows (items : List Streamed) (output : List Item) : Bool :=
  items.all (·.done.isSome) && items.length = output.length &&
    output.zipIdx.all fun (item, k) =>
      items.any fun s => s.index = k && s.done.map Item.plain = some item.plain

/-- How far a client is in a response. -/
inductive Reader where
  | initial
  | reading (items : List Streamed)
  | ended

def Reader.step : Reader → Body → Option Reader
  | .initial, .created _ => some (.reading [])
  | .initial, _ => none
  | .ended, _ => none
  | .reading _, .created _ => none
  | .reading items, .inProgress _ => some (.reading items)
  | .reading items, .outputItemAdded index item =>
    if fresh index item items then some (.reading (items ++ [{ index, item }])) else none
  | .reading items, .contentPartAdded index itemId _ =>
    (touch index itemId (fun _ => true) id items).map .reading
  | .reading items, .outputTextDelta index itemId text =>
    (delta index itemId text items).map .reading
  | .reading items, .refusalDelta index itemId text => (delta index itemId text items).map .reading
  | .reading items, .functionCallArgumentsDelta index itemId text =>
    (delta index itemId text items).map .reading
  | .reading items, .outputTextDone index itemId text =>
    (report index itemId text items).map .reading
  | .reading items, .refusalDone index itemId text => (report index itemId text items).map .reading
  | .reading items, .contentPartDone index itemId part =>
    (report index itemId part.text items).map .reading
  | .reading items, .functionCallArgumentsDone index itemId _ text =>
    (report index itemId text items).map .reading
  | .reading items, .outputItemDone index item => (close index item items).map .reading
  | .reading items, .completed response => if shows items response.output then some .ended else none
  | .reading items, .incomplete response =>
    if shows items response.output then some .ended else none
  | .reading _, .failed _ => some .ended

/-- The reading of the bodies. -/
def reader : Machine Reader Body where
  start := .initial
  step := Reader.step

/-- A client also counts the frames. -/
def client : Machine (Nat × Reader) Frame where
  start := (0, .initial)
  step := fun (n, r) f =>
    if f.sequenceNumber = n then (r.step f.body).map fun r => (n + 1, r) else none

def Reader.isEnded : Reader → Bool
  | .ended => true
  | .initial | .reading _ => false

/-- The frames are a whole response. -/
def WellFormed (out : List Frame) : Prop := (client.run out).any (·.2.isEnded)

instance (out : List Frame) : Decidable (WellFormed out) := inferInstanceAs (Decidable (_ = true))

/-! ## Events in order -/

/-- How far the events are in a response. -/
inductive Outline where
  | silent
  | created
  /-- A message whose item was added for text, or for a refusal. -/
  | message (isRefusal : Bool) (text refusal : String)
  /-- Calls have started, after a refusal or not; the ids of all items. -/
  | calls (refused : Bool) (ids : List String)
  | ended
  deriving DecidableEq

namespace Outline

def started : Outline → Outline
  | .silent => .created
  | o => o

/-- Text and refusals come before all calls. -/
def write (isRefusal : Bool) (t : String) : Outline → Option Outline
  | .created => some (if isRefusal then .message true "" t else .message false t "")
  | .message kind text refusal =>
    some (if isRefusal then .message kind text (refusal ++ t)
      else .message kind (text ++ t) refusal)
  | .silent | .calls _ _ | .ended => none

/-- The text that a message of a kind does not report. -/
def unreported (isRefusal : Bool) (text refusal : String) : String :=
  if isRefusal then text else refusal

/-- The text that a message of a kind reports. -/
def reported (isRefusal : Bool) (text refusal : String) : String :=
  if isRefusal then refusal else text

/-- A call comes after a message that says something and reports all of it. -/
def call (messageId callId : String) : Outline → Option Outline
  | .created => some (.calls false [callId])
  | .message isRefusal text refusal =>
    if unreported isRefusal text refusal = "" ∧ reported isRefusal text refusal ≠ "" ∧
        callId ≠ messageId then
      some (.calls isRefusal [messageId, callId])
    else none
  | .calls refused ids => if callId ∈ ids then none else some (.calls refused (ids ++ [callId]))
  | .silent | .ended => none

def hasTypedRefusal : Outline → Bool
  | .message _ _ refusal => refusal ≠ ""
  | .calls refused _ => refused
  | .silent | .created | .ended => false

/-- A response is complete when it has an item; an empty refusal is no item of it. -/
def complete : Outline → Option Outline
  | .message isRefusal text refusal =>
    if unreported isRefusal text refusal = "" ∧ (isRefusal → refusal ≠ "") then some .ended
    else none
  | .calls _ _ => some .ended
  | .silent | .created | .ended => none

def finish (reason : FinishReason) (o : Outline) : Option Outline :=
  if o = .ended then none
  else if (responsesStreamFailure reason o.hasTypedRefusal).isSome then some .ended
  else o.complete

/-- The id of a call in the frames. -/
def wireId (ctx : EncoderCtx) (index : Nat) (id : Option String) : String :=
  id.getD s!"call_{responseId ctx.requestId}_{index}"

def step (ctx : EncoderCtx) (o : Outline) : StreamEvent → Option Outline
  | .start _ => some o.started
  | .textDelta text => o.started.write false text
  | .refusalDelta text => o.started.write true text
  | .thinkingDelta _ _ => some o
  | .toolCallStart index id _ _ => o.started.call (textItemId ctx.requestId) (wireId ctx index id)
  | .toolCallArgsDelta _ _ => if o = .ended then none else some o
  | .usage _ => some o
  | .finish reason => o.finish reason

end Outline

def outlines (ctx : EncoderCtx) : Machine Outline StreamEvent where
  start := .silent
  step := Outline.step ctx

/-- The events make a response that is complete, or that the encoder reports as failed. -/
def InOrder (ctx : EncoderCtx) (events : List StreamEvent) : Prop :=
  ((outlines ctx).run events).any fun o => o = .ended || (o.finish .stop).isSome

instance (ctx : EncoderCtx) (events : List StreamEvent) : Decidable (InOrder ctx events) :=
  inferInstanceAs (Decidable (_ = true))

/-! ## Reading in steps -/

section Reading
variable {items : List Streamed} {s : Streamed} {check : Streamed → Bool} {f : Streamed → Streamed}

variable {index : Nat}

/-- A frame that names an item changes that item only. -/
theorem touch_middle {pre post : List Streamed} {itemId : String}
    (hnodup : ((pre ++ s :: post).map (·.index)).Nodup) (hopen : s.isOpen index itemId)
    (hcheck : check s) :
    touch index itemId check f (pre ++ s :: post) = some (pre ++ f s :: post) := by
  have hindex : s.index = index := by
    simp only [Streamed.isOpen, Bool.and_eq_true, decide_eq_true_eq] at hopen
    exact hopen.1.1
  have keep : ∀ l : List Streamed, (∀ t ∈ l, t.index ≠ index) →
      (l.map fun t => if t.index = index then f t else t) = l := by
    intro l hl
    conv_rhs => rw [← List.map_id l]
    exact List.map_congr_left fun t ht => if_neg (hl t ht)
  simp only [List.map_append, List.map_cons, List.nodup_append, List.nodup_cons,
    List.mem_map, List.mem_cons] at hnodup
  obtain ⟨-, ⟨hpost, -⟩, hpre⟩ := hnodup
  have hfound : ((pre ++ s :: post).any fun t => t.isOpen index itemId && check t) = true :=
    List.any_eq_true.mpr ⟨s, by simp, by simp [hopen, hcheck]⟩
  rw [touch, if_pos hfound]
  rw [List.map_append, List.map_cons, if_pos hindex,
    keep pre fun t ht h => hpre _ ⟨t, ht, rfl⟩ _ (Or.inl rfl) (h.trans hindex.symm),
    keep post fun t ht h => hpost ⟨t, ht, h.trans hindex.symm⟩]

theorem touch_single {itemId : String} (hopen : s.isOpen index itemId) :
    touch index itemId check f [s] = if check s then some [f s] else none := by
  split
  next h =>
      have hmiddle : touch index itemId check f ([] ++ s :: []) = some ([] ++ f s :: []) :=
        touch_middle (by simp) hopen h
      exact hmiddle
  next h => simp [touch, hopen, h]

theorem not_fresh {item : Item} (hs : s ∈ items) (h : s.index = index) :
    fresh index item items = false := by
  rw [fresh, List.all_eq_false]
  exact ⟨s, hs, by simp [h]⟩

theorem fresh_single {item : Item} :
    fresh index item [s] = true ↔ s.index ≠ index ∧ s.item.id ≠ item.id := by
  simp only [fresh, List.all_cons, List.all_nil, Bool.and_true, Bool.and_eq_true,
    decide_eq_true_eq]

/-- The next index is fresh if the id is. -/
theorem fresh_length (hindex : items.map (·.index) = List.range items.length) (item : Item) :
    fresh items.length item items = true ↔ item.id ∉ items.map (·.item.id) := by
  have hne : ∀ s ∈ items, s.index ≠ items.length := by
    intro s hs h
    have hmem := List.mem_map_of_mem (f := (·.index)) hs
    rw [hindex] at hmem
    exact absurd (List.mem_range.mp hmem) (by omega)
  simp only [fresh, List.all_eq_true, Bool.and_eq_true, decide_eq_true_eq, List.mem_map,
    not_exists, not_and]
  exact ⟨fun h s hs => (h s hs).2, fun h s hs => ⟨hne s hs, h s hs⟩⟩

/-- Items that are all done are shown by an output that has the same in the same places. -/
theorem shows_of_plain {output : List Item}
    (hindex : items.map (·.index) = List.range output.length)
    (hplain : items.map (fun s => s.done.map Item.plain) = output.map fun i => some i.plain) :
    shows items output = true := by
  have hlength : items.length = output.length := by simpa using congrArg List.length hindex
  have hget : ∀ k (hk : k < output.length),
      items[k].index = k ∧ items[k].done.map Item.plain = some output[k].plain := by
    intro k hk
    constructor
    · have h := congrArg (fun l => l[k]?) hindex
      simpa [hk, hlength] using h
    · have h := congrArg (fun l => l[k]?) hplain
      simpa [hk, hlength] using h
  simp only [shows, Bool.and_eq_true, List.all_eq_true, decide_eq_true_eq, List.any_eq_true]
  refine ⟨⟨?_, hlength⟩, ?_⟩
  · intro s hs
    obtain ⟨k, hk, rfl⟩ := List.getElem_of_mem hs
    have hdone := (hget k (hlength ▸ hk)).2
    cases h : items[k].done with
    | none =>
      rw [h] at hdone
      cases hdone
    | some _ => rfl
  · rintro ⟨item, k⟩ hmem
    obtain ⟨hk, hitem⟩ := List.mem_zipIdx' hmem
    refine ⟨items[k], List.getElem_mem _, ?_⟩
    obtain ⟨hi, hd⟩ := hget k hk
    simp [hi, hd, hitem]

end Reading

/-- A client reads numbered bodies as their reader does. -/
theorem client_frames (e : ResponsesEncoder) (r : Reader) (bodies : List Body) :
    client.runFrom (e.seq, r) (e.frames bodies).2 =
      (reader.runFrom r bodies).map fun r' => (e.seq + bodies.length, r') := by
  simp only [ResponsesEncoder.frames]
  generalize e.seq = n
  induction bodies generalizing n r with
  | nil => rfl
  | cons body bodies ih =>
    simp only [List.zipIdx_cons, List.map_cons, Machine.runFrom, client, reader]
    cases hstep : r.step body with
    | none => simp
    | some r' =>
      simp only [if_pos, Option.map_some]
      have hrest := ih r' (n + 1)
      rw [List.length_cons, Nat.add_comm bodies.length, ← Nat.add_assoc]
      exact hrest

/-! ## The encoder, the outline and the client -/

/-- The items of the calls as they are streamed. -/
def toolEntry (tool : ActiveTool) : Streamed where
  index := tool.outputIndex
  item := .functionCall tool.callId tool.name "" "in_progress"
  deltas := tool.arguments

/-- The item of a call that is done. -/
def toolDoneEntry (status : String) (tool : ActiveTool) : Streamed :=
  { toolEntry tool with done := some (.functionCall tool.callId tool.name tool.arguments status) }

/-- The message item as it is streamed. -/
def messageEntry (itemId deltas : String) : Streamed where
  index := 0
  item := .message itemId "in_progress" []
  deltas := deltas

/-- The message item that is done. -/
def messageDoneEntry (itemId status : String) (part : ContentPart) : Streamed :=
  { messageEntry itemId part.text with done := some (.message itemId status [part]) }

/-- The part of a message that reports its text. -/
def reportedPart (isRefusal : Bool) (text refusal : String) : ContentPart :=
  if isRefusal then .refusal refusal else .outputText text

/-- The items of a response in which calls have started. -/
def callItems (e : ResponsesEncoder) (message : Option ContentPart) : List Streamed :=
  (message.map (messageDoneEntry e.textItemId "completed")).toList ++ e.activeTools.map toolEntry

/-- The message item of a response in which calls have started, with all text. -/
def IsMessage (e : ResponsesEncoder) : Option ContentPart → Prop
  | none => e.accumulatedText = "" ∧ e.accumulatedRefusal = ""
  | some (.outputText text) =>
    text = e.accumulatedText ∧ e.accumulatedText ≠ "" ∧ e.accumulatedRefusal = ""
  | some (.refusal text) =>
    text = e.accumulatedRefusal ∧ e.accumulatedRefusal ≠ "" ∧ e.accumulatedText = ""

/-- Nothing was streamed but the response itself. -/
structure Blank (e : ResponsesEncoder) : Prop where
  activeTextItem : e.activeTextItem = false
  text : e.accumulatedText = ""
  refusal : e.accumulatedRefusal = ""
  tools : e.activeTools = []
  finishSent : e.finishSent = false

/-- The deltas of an item to which text and refusals went in some order. -/
structure IsMix (deltas text refusal : String) : Prop where
  ofText : refusal = "" → deltas = text
  ofRefusal : text = "" → deltas = refusal
  length : deltas.length = text.length + refusal.length

/-- The encoder is where the events are, and so is the client. -/
inductive Agrees (e : ResponsesEncoder) : Outline → Reader → Prop
  | silent (created : e.createdSent = false) (blank : Blank e) : Agrees e .silent .initial
  | created (created : e.createdSent = true) (blank : Blank e) : Agrees e .created (.reading [])
  | message {isRefusal : Bool} {text refusal deltas : String} (created : e.createdSent = true)
      (active : e.activeTextItem = true) (kind : e.messageIsRefusal = isRefusal)
      (accumulatedText : e.accumulatedText = text)
      (accumulatedRefusal : e.accumulatedRefusal = refusal) (tools : e.activeTools = [])
      (finishSent : e.finishSent = false) (mix : IsMix deltas text refusal) :
      Agrees e (.message isRefusal text refusal) (.reading [messageEntry e.textItemId deltas])
  | calls {message : Option ContentPart} {refused : Bool} {ids : List String}
      (created : e.createdSent = true) (active : e.activeTextItem = false)
      (tools : e.activeTools ≠ []) (finishSent : e.finishSent = false)
      (isMessage : IsMessage e message) (typed : e.hasTypedRefusal = refused)
      (index : (callItems e message).map (·.index) = List.range (callItems e message).length)
      (itemIds : (callItems e message).map (·.item.id) = ids) :
      Agrees e (.calls refused ids) (.reading (callItems e message))
  | ended (created : e.createdSent = true) (finishSent : e.finishSent = true) :
      Agrees e .ended .ended

/-- What the encoder does not change, and what the client counts. -/
structure Tracks (ctx : EncoderCtx) (pre : List StreamEvent) (e : ResponsesEncoder) (o : Outline)
    (r : Nat × Reader) : Prop where
  responseId : e.responseId = Responses.responseId ctx.requestId
  textItemId : e.textItemId = Responses.textItemId ctx.requestId
  seq : r.1 = e.seq
  known : startedCalls pre = e.activeTools.map (·.index)
  agrees : Agrees e o r.2

theorem tracks_initial (ctx : EncoderCtx) :
    Tracks ctx [] (encoder ctx).start (outlines ctx).start client.start where
  responseId := rfl
  textItemId := rfl
  seq := rfl
  known := rfl
  agrees := .silent rfl ⟨rfl, rfl, rfl, rfl, rfl⟩

section Mix
variable {deltas text refusal : String}

theorem IsMix.appendText (h : IsMix deltas text refusal) (t : String) :
    IsMix (deltas ++ t) (text ++ t) refusal where
  ofText hr := by rw [h.ofText hr]
  ofRefusal ht := by
    obtain ⟨rfl, rfl⟩ := String.append_eq_empty_iff.mp ht
    rw [h.ofRefusal rfl, String.append_empty]
  length := by
    rw [String.length_append, String.length_append, h.length]
    omega

theorem IsMix.appendRefusal (h : IsMix deltas text refusal) (t : String) :
    IsMix (deltas ++ t) text (refusal ++ t) where
  ofRefusal ht := by rw [h.ofRefusal ht]
  ofText hr := by
    obtain ⟨rfl, rfl⟩ := String.append_eq_empty_iff.mp hr
    rw [h.ofText rfl, String.append_empty]
  length := by
    rw [String.length_append, String.length_append, h.length]
    omega

/-- A message reports its deltas exactly if nothing of the other kind was said. -/
theorem IsMix.reported_iff (h : IsMix deltas text refusal) (isRefusal : Bool) :
    deltas = (reportedPart isRefusal text refusal).text ↔
      Outline.unreported isRefusal text refusal = "" := by
  have empty : ∀ {s : String}, s.length = 0 → s = "" := fun hs => String.length_eq_zero_iff.mp hs
  cases isRefusal with
  | false =>
    refine ⟨fun hd => empty ?_, h.ofText⟩
    have hl : deltas.length = text.length := congrArg String.length hd
    have hsum := h.length
    change refusal.length = 0
    omega
  | true =>
    refine ⟨fun hd => empty ?_, h.ofRefusal⟩
    have hl : deltas.length = refusal.length := congrArg String.length hd
    have hsum := h.length
    change text.length = 0
    omega

end Mix

section Steps
variable {e : ResponsesEncoder} {o : Outline} {r : Reader}

/-- `response.created` comes before everything else. -/
theorem Agrees.ensureCreated (h : Agrees e o r) : ∃ r',
    reader.runFrom r e.ensureCreated.2 = some r' ∧ Agrees e.ensureCreated.1 o.started r' := by
  by_cases ho : o = .silent
  · subst ho
    cases h with
    | silent created blank =>
      simp only [ResponsesEncoder.ensureCreated, created]
      exact ⟨.reading [], rfl, .created rfl { blank with }⟩
  · have hsent : e.ensureCreated = (e, []) ∧ o.started = o := by
      cases h with
      | silent => exact absurd rfl ho
      | created created | message created | calls created | ended created =>
        exact ⟨by simp [ResponsesEncoder.ensureCreated, created], rfl⟩
    rw [hsent.1, hsent.2]
    exact ⟨r, rfl, h⟩

/-- After the end nothing is read. -/
theorem ended_run {bodies : List Body} (h : bodies ≠ []) : reader.runFrom .ended bodies = none := by
  cases bodies with
  | nil => exact absurd rfl h
  | cons body bodies => rfl

variable {message : Option ContentPart}

/-- In a response with calls the index zero is used. -/
theorem callItems_zero (tools : e.activeTools ≠ [])
    (index : (callItems e message).map (·.index) = List.range (callItems e message).length) :
    ∃ s ∈ callItems e message, s.index = 0 := by
  have hlength : 0 < (callItems e message).length := by
    have := List.length_pos_iff.mpr tools
    simp only [callItems, List.length_append, List.length_map]
    omega
  have hmem : 0 ∈ (callItems e message).map (·.index) := by
    rw [index]
    exact List.mem_range.mpr hlength
  simpa using hmem

/-- Text of either kind that is said. -/
def push (e : ResponsesEncoder) (isRefusal : Bool) (t : String) : ResponsesEncoder :=
  if isRefusal then { e with accumulatedRefusal := e.accumulatedRefusal ++ t }
  else { e with accumulatedText := e.accumulatedText ++ t }

def textDelta (isRefusal : Bool) (itemId t : String) : Body :=
  if isRefusal then .refusalDelta 0 itemId t else .outputTextDelta 0 itemId t

theorem isOpen_messageEntry (itemId deltas : String) :
    (messageEntry itemId deltas).isOpen 0 itemId = true := by
  simp [Streamed.isOpen, messageEntry, Item.id]

/-- A delta of the open message. -/
theorem textDelta_step (isRefusal : Bool) (itemId deltas t : String) :
    reader.step (.reading [messageEntry itemId deltas]) (textDelta isRefusal itemId t) =
      some (.reading [messageEntry itemId (deltas ++ t)]) := by
  have hdelta : delta 0 itemId t [messageEntry itemId deltas] =
      some [messageEntry itemId (deltas ++ t)] := by
    rw [delta, touch_single (isOpen_messageEntry itemId deltas)]
    rfl
  have hstep : reader.step (.reading [messageEntry itemId deltas]) (textDelta isRefusal itemId t) =
      (delta 0 itemId t [messageEntry itemId deltas]).map .reading := by
    cases isRefusal <;> rfl
  rw [hstep, hdelta]
  rfl

theorem contentPartAdded_step (itemId deltas : String) (part : ContentPart) :
    reader.step (.reading [messageEntry itemId deltas]) (.contentPartAdded 0 itemId part) =
      some (.reading [messageEntry itemId deltas]) := by
  have htouch : touch 0 itemId (fun _ => true) id [messageEntry itemId deltas] =
      some [messageEntry itemId deltas] := by
    rw [touch_single (isOpen_messageEntry itemId deltas)]
    rfl
  exact congrArg (Option.map Reader.reading) htouch

theorem Agrees.write (h : Agrees e o r) (ho : o ≠ .silent) (isRefusal : Bool) (t : String) :
    Option.Rel (Agrees (push (e.ensureMessageItem isRefusal).1 isRefusal t)) (o.write isRefusal t)
      (reader.runFrom r ((e.ensureMessageItem isRefusal).2 ++
        [textDelta isRefusal e.textItemId t])) := by
  cases h with
  | silent => exact absurd rfl ho
  | created created blank =>
    obtain ⟨active, htext, hrefusal, tools, finishSent⟩ := blank
    have hitem : e.ensureMessageItem isRefusal =
        ({ e with activeTextItem := true, messageIsRefusal := isRefusal },
          [.outputItemAdded 0 (.message e.textItemId "in_progress" []),
            .contentPartAdded 0 e.textItemId (if isRefusal then .refusal "" else .outputText "")])
          := by
      simp [ResponsesEncoder.ensureMessageItem, active]
    have hrun : reader.runFrom (.reading []) ((e.ensureMessageItem isRefusal).2 ++
        [textDelta isRefusal e.textItemId t]) =
          some (.reading [messageEntry e.textItemId t]) := by
      have hadd : reader.step (.reading [])
          (.outputItemAdded 0 (.message e.textItemId "in_progress" [])) =
            some (.reading [messageEntry e.textItemId ""]) := rfl
      have hdelta := textDelta_step isRefusal e.textItemId "" t
      rw [String.empty_append] at hdelta
      rw [hitem, List.cons_append, reader.runFrom_cons_of_step hadd, List.cons_append,
        reader.runFrom_cons_of_step (contentPartAdded_step ..), List.nil_append,
        reader.runFrom_cons_of_step hdelta, Machine.runFrom_nil]
    rw [hrun, hitem]
    cases isRefusal with
    | false =>
      refine Option.Rel.some (.message created rfl rfl ?_ hrefusal tools finishSent
        ⟨fun _ => rfl, fun ht => ht, by simp⟩)
      simp [push, htext]
    | true =>
      refine Option.Rel.some (.message created rfl rfl htext ?_ tools finishSent
        ⟨fun ht => ht, fun _ => rfl, by simp⟩)
      simp [push, hrefusal]
  | message created active kind text refusal tools finishSent mix =>
    have hitem : e.ensureMessageItem isRefusal = (e, []) := by
      simp [ResponsesEncoder.ensureMessageItem, active]
    rw [hitem, List.nil_append, reader.runFrom_cons_of_step (textDelta_step ..),
      Machine.runFrom_nil]
    cases isRefusal with
    | false =>
      refine Option.Rel.some (.message created active kind ?_ refusal tools finishSent
        (mix.appendText t))
      simp [push, text]
    | true =>
      refine Option.Rel.some (.message created active kind text ?_ tools finishSent
        (mix.appendRefusal t))
      simp [push, refusal]
  | calls created active tools finishSent isMessage typed index itemIds =>
    obtain ⟨s, hs, hindex⟩ := callItems_zero tools index
    have hitem : (e.ensureMessageItem isRefusal).2 =
        [.outputItemAdded 0 (.message e.textItemId "in_progress" []),
          .contentPartAdded 0 e.textItemId
            (if isRefusal then .refusal "" else .outputText "")] := by
      simp [ResponsesEncoder.ensureMessageItem, active]
    rw [hitem, List.cons_append, Machine.runFrom]
    simp only [reader, Reader.step, not_fresh hs hindex]
    exact Option.Rel.none
  | ended created finishSent =>
    rw [ended_run (by simp)]
    exact Option.Rel.none

/-- A report of the text of a message. -/
def partDone (itemId : String) : ContentPart → Body
  | .outputText text => .outputTextDone 0 itemId text
  | .refusal text => .refusalDone 0 itemId text

variable {isRefusal : Bool} {text refusal : String}

theorem closeTextItem_of_active (active : e.activeTextItem = true)
    (kind : e.messageIsRefusal = isRefusal) (htext : e.accumulatedText = text)
    (hrefusal : e.accumulatedRefusal = refusal) (status : String) :
    e.closeTextItem status = ({ e with activeTextItem := false },
      [partDone e.textItemId (reportedPart isRefusal text refusal),
        .contentPartDone 0 e.textItemId (reportedPart isRefusal text refusal),
        .outputItemDone 0
          (.message e.textItemId status [reportedPart isRefusal text refusal])]) := by
  subst kind htext hrefusal
  simp only [ResponsesEncoder.closeTextItem, active, reportedPart]
  cases e.messageIsRefusal <;> rfl

theorem closeTextItem_of_inactive (active : e.activeTextItem = false) (status : String) :
    e.closeTextItem status = (e, []) := by
  simp [ResponsesEncoder.closeTextItem, active]

/-- A message is done if its reports show all of its deltas. -/
theorem messageDone_run (itemId deltas status : String) (part : ContentPart) :
    reader.runFrom (.reading [messageEntry itemId deltas]) [partDone itemId part,
        .contentPartDone 0 itemId part, .outputItemDone 0 (.message itemId status [part])] =
      if deltas = part.text then some (.reading [messageDoneEntry itemId status part])
      else none := by
  have hopen := isOpen_messageEntry itemId deltas
  have hdone : reader.step (.reading [messageEntry itemId deltas]) (partDone itemId part) =
      (report 0 itemId part.text [messageEntry itemId deltas]).map .reading := by
    cases part <;> rfl
  by_cases h : deltas = part.text
  · have hreport : report 0 itemId part.text [messageEntry itemId deltas] =
        some [messageEntry itemId deltas] := by
      rw [report, touch_single hopen, if_pos (by simp [messageEntry, h])]
      rfl
    have hpart : reader.step (.reading [messageEntry itemId deltas])
        (.contentPartDone 0 itemId part) = some (.reading [messageEntry itemId deltas]) :=
      congrArg (Option.map Reader.reading) hreport
    have hclose : close 0 (.message itemId status [part]) [messageEntry itemId deltas] =
        some [messageDoneEntry itemId status part] := by
      rw [close, Item.id, touch_single hopen,
        if_pos (by simp [messageEntry, Item.text, Item.header, String.join, h])]
      simp [messageDoneEntry, messageEntry, h]
    have hitem : reader.step (.reading [messageEntry itemId deltas])
        (.outputItemDone 0 (.message itemId status [part])) =
          some (.reading [messageDoneEntry itemId status part]) :=
      congrArg (Option.map Reader.reading) hclose
    rw [hreport] at hdone
    rw [reader.runFrom_cons_of_step hdone, reader.runFrom_cons_of_step hpart,
      reader.runFrom_cons_of_step hitem, if_pos h, Machine.runFrom_nil]
  · have hreport : report 0 itemId part.text [messageEntry itemId deltas] = none := by
      rw [report, touch_single hopen, if_neg (by simp [messageEntry, h])]
    rw [hreport] at hdone
    rw [Machine.runFrom, hdone, if_neg h]
    rfl

theorem outputItemAdded_run (items : List Streamed) (index : Nat) (item : Item) :
    reader.runFrom (.reading items) [.outputItemAdded index item] =
      if fresh index item items then
        some (.reading (items ++ [{ index := index, item := item }]))
      else none := by
  rw [Machine.runFrom_singleton]
  rfl

/-- The index of the next call is the number of the items. -/
theorem nextIndex_eq (h : IsMessage e message) :
    (if e.accumulatedText = "" ∧ e.accumulatedRefusal = "" then e.activeTools.length
      else 1 + e.activeTools.length) = (callItems e message).length := by
  match message with
  | none => simp [callItems, h.1, h.2]
  | some (.outputText _) => simp [callItems, h.2.1, Nat.add_comm]
  | some (.refusal _) => simp [callItems, h.2.1, Nat.add_comm]

theorem Agrees.call (h : Agrees e o r) (ho : o ≠ .silent) (index : Nat) (callId name : String) :
    Option.Rel (Agrees (e.startTool index callId name).1) (o.call e.textItemId callId)
      (reader.runFrom r (e.startTool index callId name).2) := by
  cases h with
  | silent => exact absurd rfl ho
  | created created blank =>
    obtain ⟨active, htext, hrefusal, tools, finishSent⟩ := blank
    have hstart : e.startTool index callId name =
        ({ e with activeTools := [⟨index, callId, name, "", 0⟩] },
          [.outputItemAdded 0 (.functionCall callId name "" "in_progress")]) := by
      simp [ResponsesEncoder.startTool, closeTextItem_of_inactive active, htext, hrefusal, tools]
    rw [hstart, outputItemAdded_run]
    have hnone : IsMessage { e with activeTools := [⟨index, callId, name, "", 0⟩] } none :=
      ⟨htext, hrefusal⟩
    refine Option.Rel.some (.calls (e := { e with activeTools := [⟨index, callId, name, "", 0⟩] })
      created active (by simp) finishSent hnone ?_ rfl rfl)
    simp [ResponsesEncoder.hasTypedRefusal, hrefusal]
  | @message isRefusal text refusal deltas created active kind htext hrefusal tools
    finishSent mix =>
    have hdone := messageDone_run e.textItemId deltas "completed"
      (reportedPart isRefusal text refusal)
    simp only [mix.reported_iff isRefusal] at hdone
    simp only [ResponsesEncoder.startTool, closeTextItem_of_active active kind htext hrefusal,
      tools, List.length_nil, List.nil_append]
    rw [Machine.runFrom_append, hdone]
    simp only [Outline.call]
    by_cases hun : Outline.unreported isRefusal text refusal = ""
    · rw [if_pos hun, Option.bind_some, outputItemAdded_run]
      by_cases hrep : Outline.reported isRefusal text refusal = ""
      · -- An empty message leaves its index to the call.
        have hempty : e.accumulatedText = "" ∧ e.accumulatedRefusal = "" := by
          rw [htext, hrefusal]
          cases isRefusal
          · exact ⟨hrep, hun⟩
          · exact ⟨hun, hrep⟩
        rw [if_pos hempty, if_neg (fun h => h.2.1 hrep),
          if_neg (by rw [fresh_single]; exact fun h => h.1 rfl)]
        exact Option.Rel.none
      · have hsaid : ¬ (e.accumulatedText = "" ∧ e.accumulatedRefusal = "") := by
          rw [htext, hrefusal]
          rintro ⟨rfl, rfl⟩
          cases isRefusal <;> exact hrep rfl
        rw [if_neg hsaid]
        have hfresh : fresh 1 (.functionCall callId name "" "in_progress") [messageDoneEntry
            e.textItemId "completed" (reportedPart isRefusal text refusal)] = true ↔
              e.textItemId ≠ callId :=
          fresh_single.trans ⟨fun h => h.2, fun h => ⟨Nat.zero_ne_one, h⟩⟩
        by_cases hid : callId = e.textItemId
        · rw [if_neg (fun h => h.2.2 hid), if_neg (fun h => hfresh.mp h hid.symm)]
          exact Option.Rel.none
        · rw [if_pos ⟨hun, hrep, hid⟩, if_pos (hfresh.mpr (Ne.symm hid))]
          refine Option.Rel.some (.calls
            (e := { e with
              activeTextItem := false
              activeTools := [⟨index, callId, name, "", 1 + 0⟩] })
            created rfl (by simp) finishSent
            (show IsMessage _ (some (reportedPart isRefusal text refusal)) from ?_) ?_ rfl rfl)
          · subst htext hrefusal
            cases isRefusal <;> exact ⟨rfl, hrep, hun⟩
          · subst htext hrefusal
            cases isRefusal
            · exact decide_eq_false (not_not.mpr hun)
            · exact decide_eq_true hrep
    · have hcall : ¬ (Outline.unreported isRefusal text refusal = "" ∧
          Outline.reported isRefusal text refusal ≠ "" ∧ callId ≠ e.textItemId) := fun h => hun h.1
      rw [if_neg hun, if_neg hcall]
      exact Option.Rel.none
  | @calls message refused ids created active tools finishSent isMessage typed hindex itemIds =>
    have hstart : e.startTool index callId name =
        ({ e with activeTools := e.activeTools ++
            [⟨index, callId, name, "", (callItems e message).length⟩] },
          [.outputItemAdded (callItems e message).length
            (.functionCall callId name "" "in_progress")]) := by
      simp only [ResponsesEncoder.startTool, closeTextItem_of_inactive active,
        nextIndex_eq isMessage, List.nil_append]
    have hfresh := fresh_length hindex (.functionCall callId name "" "in_progress")
    rw [itemIds] at hfresh
    rw [hstart, outputItemAdded_run]
    simp only [Outline.call]
    by_cases hid : callId ∈ ids
    · rw [if_pos hid, if_neg (fun h => hfresh.mp h hid)]
      exact Option.Rel.none
    · have hitems : callItems { e with activeTools := e.activeTools ++
            [⟨index, callId, name, "", (callItems e message).length⟩] } message =
          callItems e message ++ [{ index := (callItems e message).length
                                    item := .functionCall callId name "" "in_progress" }] := by
        simp [callItems, toolEntry]
      rw [if_neg hid, if_pos (hfresh.mpr hid), ← hitems]
      refine Option.Rel.some (.calls created active (by simp) finishSent isMessage typed ?_ ?_)
      · rw [hitems, List.map_append, hindex, List.length_append, List.length_singleton,
          List.range_succ]
        rfl
      · rw [hitems, List.map_append, itemIds]
        rfl
  | ended created finishSent =>
    rw [ended_run (by simp [ResponsesEncoder.startTool])]
    exact Option.Rel.none

/-- Pushing arguments changes the first call with the index. -/
theorem pushArgs_middle {tools : List ActiveTool} {tool : ActiveTool} {index : Nat}
    (h : tools.find? (·.index = index) = some tool) (args : String) :
    ∃ pre post, tools = pre ++ tool :: post ∧ pushArgs index args tools =
      pre ++ { tool with arguments := tool.arguments ++ args } :: post := by
  induction tools with
  | nil => cases h
  | cons t tools ih =>
    rw [List.find?_cons] at h
    by_cases ht : t.index = index
    · simp only [ht, decide_true] at h
      cases h
      exact ⟨[], tools, rfl, by simp [pushArgs, ht]⟩
    · simp only [ht, decide_false] at h
      obtain ⟨pre, post, htools, hpush⟩ := ih h
      refine ⟨t :: pre, post, by rw [htools]; rfl, ?_⟩
      rw [pushArgs, if_neg ht, hpush]
      rfl

theorem Agrees.args (h : Agrees e o r) {index : Nat}
    (known : ∃ tool ∈ e.activeTools, tool.index = index) (args : String) :
    Option.Rel (Agrees (e.pushToolArgs index args).1) (if o = .ended then none else some o)
      (reader.runFrom r (e.pushToolArgs index args).2) := by
  obtain ⟨tool, hfind⟩ : ∃ tool, e.activeTools.find? (·.index = index) = some tool := by
    obtain ⟨tool, hmem, hindex⟩ := known
    exact Option.isSome_iff_exists.mp (List.find?_isSome.mpr ⟨tool, hmem, by simp [hindex]⟩)
  have hpush : e.pushToolArgs index args =
      ({ e with activeTools := pushArgs index args e.activeTools },
        [.functionCallArgumentsDelta tool.outputIndex tool.callId args]) := by
    simp [ResponsesEncoder.pushToolArgs, hfind]
  have untold : e.activeTools ≠ [] := by
    intro ht
    rw [ht] at hfind
    cases hfind
  rw [hpush]
  cases h with
  | silent _ blank | created _ blank => exact absurd blank.tools untold
  | message _ _ _ _ _ tools => exact absurd tools untold
  | ended created finishSent => exact Option.Rel.none
  | @calls message refused ids created active tools finishSent isMessage typed hindex itemIds =>
    obtain ⟨pre, post, htools, hpushed⟩ := pushArgs_middle hfind args
    have hitems : callItems e message =
        ((message.map (messageDoneEntry e.textItemId "completed")).toList ++ pre.map toolEntry) ++
          toolEntry tool :: post.map toolEntry := by
      simp [callItems, htools]
    have hitems' : callItems { e with activeTools := pushArgs index args e.activeTools } message =
        ((message.map (messageDoneEntry e.textItemId "completed")).toList ++ pre.map toolEntry) ++
          { toolEntry tool with deltas := (toolEntry tool).deltas ++ args } ::
            post.map toolEntry := by
      simp [callItems, hpushed, toolEntry]
    have hdelta : delta tool.outputIndex tool.callId args (callItems e message) =
        some (callItems { e with activeTools := pushArgs index args e.activeTools } message) := by
      have hnodup : ((callItems e message).map (·.index)).Nodup := by
        rw [hindex]
        exact List.nodup_range
      rw [hitems] at hnodup ⊢
      rw [hitems', delta]
      exact touch_middle hnodup (by simp [Streamed.isOpen, toolEntry, Item.id]) rfl
    have hstep : reader.step (.reading (callItems e message))
        (.functionCallArgumentsDelta tool.outputIndex tool.callId args) = some (.reading
          (callItems { e with activeTools := pushArgs index args e.activeTools } message)) :=
      congrArg (Option.map Reader.reading) hdelta
    rw [Machine.runFrom_singleton, hstep, if_neg (by simp)]
    refine Option.Rel.some (.calls created active ?_ finishSent isMessage typed ?_ ?_)
    · simp [hpushed]
    · rw [hitems']
      rw [hitems] at hindex
      simpa using hindex
    · rw [hitems']
      rw [hitems] at itemIds
      simpa using itemIds

/-- All calls are done in their order. -/
theorem toolDone_run (status : String) (tools : List ActiveTool) (pre : List Streamed)
    (hnodup : ((pre ++ tools.map toolEntry).map (·.index)).Nodup) :
    reader.runFrom (.reading (pre ++ tools.map toolEntry))
        (tools.flatMap (ResponsesEncoder.toolDone status)) =
      some (.reading (pre ++ tools.map (toolDoneEntry status))) := by
  induction tools generalizing pre with
  | nil => rfl
  | cons tool tools ih =>
    rw [List.map_cons] at hnodup
    have hopen : (toolEntry tool).isOpen tool.outputIndex tool.callId = true := by
      simp [Streamed.isOpen, toolEntry, Item.id]
    have hreport : report tool.outputIndex tool.callId tool.arguments
        (pre ++ toolEntry tool :: tools.map toolEntry) =
          some (pre ++ toolEntry tool :: tools.map toolEntry) :=
      touch_middle hnodup hopen (by simp [toolEntry])
    have hargs : reader.step (.reading (pre ++ toolEntry tool :: tools.map toolEntry))
        (.functionCallArgumentsDone tool.outputIndex tool.callId tool.name tool.arguments) =
          some (.reading (pre ++ toolEntry tool :: tools.map toolEntry)) :=
      congrArg (Option.map Reader.reading) hreport
    have hclose : close tool.outputIndex
        (.functionCall tool.callId tool.name tool.arguments status)
        (pre ++ toolEntry tool :: tools.map toolEntry) =
          some (pre ++ toolDoneEntry status tool :: tools.map toolEntry) :=
      touch_middle hnodup hopen (by simp [toolEntry, Item.text, Item.header])
    have hdone : reader.step (.reading (pre ++ toolEntry tool :: tools.map toolEntry))
        (.outputItemDone tool.outputIndex
          (.functionCall tool.callId tool.name tool.arguments status)) =
            some (.reading (pre ++ toolDoneEntry status tool :: tools.map toolEntry)) :=
      congrArg (Option.map Reader.reading) hclose
    have hrest := ih (pre ++ [toolDoneEntry status tool])
      (by simpa [toolDoneEntry] using hnodup)
    rw [List.map_cons, List.flatMap_cons, ResponsesEncoder.toolDone, List.cons_append,
      reader.runFrom_cons_of_step hargs, List.cons_append, reader.runFrom_cons_of_step hdone,
      List.nil_append]
    simpa using hrest

theorem finish_of_failure {reason : FinishReason} {failure : ResponsesTerminalFailure}
    (h : responsesStreamFailure reason e.hasTypedRefusal = some failure) :
    ∃ response, e.finish reason = ({ e with finishSent := true, createdSent := true },
      e.ensureCreated.2 ++ [.failed response]) := by
  have htyped : ({ e with finishSent := true } : ResponsesEncoder).hasTypedRefusal =
      e.hasTypedRefusal := rfl
  simp only [ResponsesEncoder.finish, htyped, h]
  refine ⟨e.failedTerminal failure, ?_⟩
  simp only [ResponsesEncoder.ensureCreated]
  cases hc : e.createdSent
  · rfl
  · simp only [← hc]
    rfl

theorem closeTextItem_fst (e : ResponsesEncoder) (status : String) :
    (e.closeTextItem status).1 = { e with activeTextItem := false } := by
  cases h : e.activeTextItem with
  | false =>
    rw [closeTextItem_of_inactive h]
    simp only [← h]
  | true => rw [closeTextItem_of_active h rfl rfl rfl]

theorem finish_of_none {reason : FinishReason}
    (h : responsesStreamFailure reason e.hasTypedRefusal = none) :
    ∃ response : Response, response.output = e.finalOutput (responseStatus reason) ∧
      e.finish reason = ({ e with finishSent := true, activeTextItem := false },
        (e.closeTextItem (responseStatus reason)).2 ++
          e.activeTools.flatMap (ResponsesEncoder.toolDone (responseStatus reason)) ++
          [ResponsesEncoder.terminal reason response]) := by
  have htyped : ({ e with finishSent := true } : ResponsesEncoder).hasTypedRefusal =
      e.hasTypedRefusal := rfl
  have hclosed : (({ e with finishSent := true } : ResponsesEncoder).closeTextItem
      (responseStatus reason)).2 = (e.closeTextItem (responseStatus reason)).2 := by
    simp only [ResponsesEncoder.closeTextItem]
    split <;> rfl
  have hbuild :
      ∀ finishSent active, (({ e with finishSent := finishSent, activeTextItem := active } :
      ResponsesEncoder).buildResponseObject reason).output =
        e.finalOutput (responseStatus reason) := by
    intro finishSent active
    have htyped' : ({ e with finishSent := finishSent, activeTextItem := active } :
      ResponsesEncoder).hasTypedRefusal = e.hasTypedRefusal := rfl
    simp only [ResponsesEncoder.buildResponseObject, htyped', h]
    rfl
  simp only [ResponsesEncoder.finish, htyped, h, closeTextItem_fst, hclosed]
  exact ⟨_, hbuild true false, rfl⟩

theorem finish_cases (e : ResponsesEncoder) (reason : FinishReason) :
    (∃ response, e.finish reason = ({ e with finishSent := true, createdSent := true },
      e.ensureCreated.2 ++ [.failed response])) ∨
    ∃ response, e.finish reason = ({ e with finishSent := true, activeTextItem := false },
      (e.closeTextItem (responseStatus reason)).2 ++
        e.activeTools.flatMap (ResponsesEncoder.toolDone (responseStatus reason)) ++
        [ResponsesEncoder.terminal reason response]) := by
  cases hf : responsesStreamFailure reason e.hasTypedRefusal with
  | some failure => exact .inl (finish_of_failure hf)
  | none =>
    obtain ⟨response, -, heq⟩ := finish_of_none hf
    exact .inr ⟨response, heq⟩

theorem terminal_step (reason : FinishReason) (response : Response) (items : List Streamed) :
    reader.step (.reading items) (ResponsesEncoder.terminal reason response) =
      if shows items response.output then some .ended else none := by
  simp only [ResponsesEncoder.terminal]
  split <;> rfl

/-- The message item and the calls of a response that ends. -/
theorem finalOutput_eq (h : IsMessage e message) (tools : e.activeTools ≠ []) (status : String) :
    e.finalOutput status =
      (message.map fun part => Item.message e.textItemId status [part]).toList ++
        e.activeTools.map fun tool =>
          .functionCall tool.callId tool.name tool.arguments status := by
  match message with
  | none => simp [ResponsesEncoder.finalOutput, h.1, h.2, tools]
  | some (.outputText _) =>
    obtain ⟨rfl, htext, hrefusal⟩ := h
    simp [ResponsesEncoder.finalOutput, ResponsesEncoder.finalContent, htext, hrefusal]
  | some (.refusal _) =>
    obtain ⟨rfl, hrefusal, htext⟩ := h
    simp [ResponsesEncoder.finalOutput, ResponsesEncoder.finalContent, htext, hrefusal]

/-- A response without calls shows its message unless that is an empty refusal. -/
theorem shows_message (htext : e.accumulatedText = text) (hrefusal : e.accumulatedRefusal = refusal)
    (tools : e.activeTools = []) (status : String)
    (hun : Outline.unreported isRefusal text refusal = "") :
    shows [messageDoneEntry e.textItemId status (reportedPart isRefusal text refusal)]
        (e.finalOutput status) = decide (isRefusal = true → refusal ≠ "") := by
  cases isRefusal with
  | false =>
    obtain rfl : refusal = "" := hun
    simp [shows, ResponsesEncoder.finalOutput, ResponsesEncoder.finalContent, tools, htext,
      hrefusal, reportedPart, messageDoneEntry, messageEntry, Item.plain]
  | true =>
    obtain rfl : text = "" := hun
    by_cases hr : refusal = "" <;>
      simp [shows, ResponsesEncoder.finalOutput, ResponsesEncoder.finalContent, tools, htext,
        hrefusal, hr, reportedPart, messageDoneEntry, messageEntry, Item.plain]

/-- A response with calls shows all of its items. -/
theorem shows_calls (h : IsMessage e message) (tools : e.activeTools ≠ []) (status : String)
    (index : (callItems e message).map (·.index) = List.range (callItems e message).length) :
    shows ((message.map (messageDoneEntry e.textItemId "completed")).toList ++
      e.activeTools.map (toolDoneEntry status)) (e.finalOutput status) = true := by
  rw [finalOutput_eq h tools]
  apply shows_of_plain
  · have hdone : (e.activeTools.map (toolDoneEntry status)).map (·.index) =
        (e.activeTools.map toolEntry).map (·.index) := by
      simp [toolDoneEntry]
    rw [List.map_append, hdone, ← List.map_append]
    refine index.trans (congrArg List.range ?_)
    cases message <;> simp [callItems]
  · cases message <;> simp [messageDoneEntry, toolDoneEntry, Item.plain]

theorem Agrees.hasTypedRefusal (h : Agrees e o r) (ho : o ≠ .ended) :
    e.hasTypedRefusal = o.hasTypedRefusal := by
  cases h with
  | silent _ blank | created _ blank => simp [ResponsesEncoder.hasTypedRefusal, blank.refusal,
      Outline.hasTypedRefusal]
  | message _ _ _ _ hrefusal => simp [ResponsesEncoder.hasTypedRefusal, hrefusal,
      Outline.hasTypedRefusal]
  | calls _ _ _ _ _ typed => exact typed
  | ended => exact absurd rfl ho

/-- A response that fails ends wherever it is. -/
theorem Agrees.fail (h : Agrees e o r) (ho : o ≠ .ended) (response : Response) :
    reader.runFrom r (e.ensureCreated.2 ++ [.failed response]) = some .ended := by
  obtain ⟨r', hr', h'⟩ := h.ensureCreated
  rw [Machine.runFrom_append, hr', Option.bind_some, Machine.runFrom_singleton]
  generalize hs : o.started = o' at h'
  cases h' with
  | silent => cases o <;> cases hs
  | ended => cases o <;> first | exact absurd rfl ho | cases hs
  | created | message | calls => rfl

/-- A response that does not fail ends with what it has shown, if that is an item. -/
theorem Agrees.complete (h : Agrees e o r) {response : Response} (reason : FinishReason)
    (hout : response.output = e.finalOutput (responseStatus reason)) :
    reader.runFrom r ((e.closeTextItem (responseStatus reason)).2 ++
        e.activeTools.flatMap (ResponsesEncoder.toolDone (responseStatus reason)) ++
        [ResponsesEncoder.terminal reason response]) =
      o.complete.map fun _ => .ended := by
  cases h with
  | silent created blank =>
    rw [closeTextItem_of_inactive blank.activeTextItem, blank.tools]
    simp only [List.flatMap_nil, List.nil_append, Machine.runFrom_singleton,
      ResponsesEncoder.terminal]
    split <;> rfl
  | created created blank =>
    rw [closeTextItem_of_inactive blank.activeTextItem, blank.tools]
    simp only [List.flatMap_nil, List.nil_append, Machine.runFrom_singleton, terminal_step]
    rw [if_neg]
    · rfl
    · simp [shows, hout, ResponsesEncoder.finalOutput, blank.tools]
  | @message isRefusal text refusal deltas created active kind htext hrefusal tools
    finishSent mix =>
    have hdone := messageDone_run e.textItemId deltas (responseStatus reason)
      (reportedPart isRefusal text refusal)
    simp only [mix.reported_iff isRefusal] at hdone
    rw [closeTextItem_of_active active kind htext hrefusal, tools, List.flatMap_nil,
      List.append_nil, Machine.runFrom_append, hdone]
    simp only [Outline.complete]
    by_cases hun : Outline.unreported isRefusal text refusal = ""
    · rw [if_pos hun, Option.bind_some, Machine.runFrom_singleton, terminal_step, hout,
        shows_message htext hrefusal tools _ hun]
      by_cases hr : isRefusal = true → refusal ≠ ""
      · rw [if_pos (decide_eq_true hr), if_pos ⟨hun, hr⟩]
        rfl
      · rw [if_neg (by simpa using hr), if_neg (fun h => hr h.2)]
        rfl
    · rw [if_neg hun, if_neg (fun h => hun h.1)]
      rfl
  | @calls message refused ids created active tools finishSent isMessage typed hindex itemIds =>
    have hnodup : ((callItems e message).map (·.index)).Nodup := by
      rw [hindex]
      exact List.nodup_range
    rw [closeTextItem_of_inactive active, List.nil_append, Machine.runFrom_append, callItems,
      toolDone_run _ _ _ hnodup, Option.bind_some, Machine.runFrom_singleton, terminal_step,
      hout, if_pos (shows_calls isMessage tools _ hindex)]
    rfl
  | ended created finishSent =>
    rw [ended_run (by simp)]
    rfl

/-- A response is complete only after it was created. -/
theorem Agrees.of_complete (h : Agrees e o r) {o' : Outline} (ho : o.complete = some o') :
    o' = .ended ∧ e.createdSent = true := by
  cases h with
  | silent | created | ended => cases ho
  | message created =>
    simp only [Outline.complete] at ho
    split at ho
    · cases ho
      exact ⟨rfl, created⟩
    · cases ho
  | calls created =>
    cases ho
    exact ⟨rfl, created⟩

theorem Agrees.finish (h : Agrees e o r) (reason : FinishReason) :
    Option.Rel (Agrees (e.finish reason).1) (o.finish reason)
      (reader.runFrom r (e.finish reason).2) := by
  by_cases ho : o = .ended
  · subst ho
    cases h
    rw [ended_run]
    · exact Option.Rel.none
    · rcases finish_cases e reason with ⟨response, heq⟩ | ⟨response, heq⟩ <;> simp [heq]
  · have htyped := h.hasTypedRefusal ho
    rw [Outline.finish, if_neg ho, ← htyped]
    cases hf : responsesStreamFailure reason e.hasTypedRefusal with
    | some failure =>
      obtain ⟨response, heq⟩ := finish_of_failure hf
      rw [heq, h.fail ho]
      exact Option.Rel.some (.ended rfl rfl)
    | none =>
      obtain ⟨response, hout, heq⟩ := finish_of_none hf
      rw [heq, h.complete reason hout]
      simp only [Option.isSome_none, Bool.false_eq_true, if_false]
      cases hc : o.complete with
      | none => exact Option.Rel.none
      | some o' =>
        obtain ⟨rfl, created⟩ := h.of_complete hc
        exact Option.Rel.some (.ended created rfl)

end Steps

/-! ## Whole responses -/

section Whole
variable {ctx : EncoderCtx} {pre : List StreamEvent} {e : ResponsesEncoder} {o : Outline}
  {r : Nat × Reader}

theorem started_ne_silent (o : Outline) : o.started ≠ .silent := by
  cases o <;> simp [Outline.started]

/-- What the encoder does not change while it answers. -/
structure Keeps (e e' : ResponsesEncoder) : Prop where
  responseId : e'.responseId = e.responseId
  textItemId : e'.textItemId = e.textItemId
  seq : e'.seq = e.seq

theorem Keeps.trans {e e' e'' : ResponsesEncoder} (h : Keeps e e') (h' : Keeps e' e'') :
    Keeps e e'' :=
  ⟨h'.responseId.trans h.responseId, h'.textItemId.trans h.textItemId, h'.seq.trans h.seq⟩

theorem keeps_ensureCreated (e : ResponsesEncoder) : Keeps e e.ensureCreated.1 := by
  simp only [ResponsesEncoder.ensureCreated]
  split <;> exact ⟨rfl, rfl, rfl⟩

theorem keeps_ensureMessageItem (e : ResponsesEncoder) (isRefusal : Bool) :
    Keeps e (e.ensureMessageItem isRefusal).1 := by
  simp only [ResponsesEncoder.ensureMessageItem]
  split <;> exact ⟨rfl, rfl, rfl⟩

theorem keeps_startTool (e : ResponsesEncoder) (index : Nat) (callId name : String) :
    Keeps e (e.startTool index callId name).1 := by
  simp only [ResponsesEncoder.startTool, closeTextItem_fst]
  exact ⟨rfl, rfl, rfl⟩

theorem keeps_pushToolArgs (e : ResponsesEncoder) (index : Nat) (args : String) :
    Keeps e (e.pushToolArgs index args).1 := by
  simp only [ResponsesEncoder.pushToolArgs]
  split <;> exact ⟨rfl, rfl, rfl⟩

theorem keeps_finish (e : ResponsesEncoder) (reason : FinishReason) :
    Keeps e (e.finish reason).1 := by
  rcases finish_cases e reason with ⟨response, heq⟩ | ⟨response, heq⟩ <;> rw [heq] <;>
    exact ⟨rfl, rfl, rfl⟩

/-- Text of either kind after the response was created. -/
theorem answer_write (e : ResponsesEncoder) (isRefusal : Bool) (t : String) :
    e.answer (if isRefusal then .refusalDelta t else .textDelta t) =
      (push (e.ensureCreated.1.ensureMessageItem isRefusal).1 isRefusal t,
        e.ensureCreated.2 ++ ((e.ensureCreated.1.ensureMessageItem isRefusal).2 ++
          [textDelta isRefusal e.ensureCreated.1.textItemId t])) := by
  have hid := (keeps_ensureMessageItem e.ensureCreated.1 isRefusal).textItemId
  rw [← List.append_assoc, ← hid]
  cases isRefusal <;> rfl

theorem keeps_answer (e : ResponsesEncoder) (a : StreamEvent) : Keeps e (e.answer a).1 := by
  have write : ∀ (isRefusal : Bool) t, Keeps e (e.answer
      (if isRefusal then .refusalDelta t else .textDelta t)).1 := by
    intro isRefusal t
    rw [answer_write]
    refine ((keeps_ensureCreated e).trans (keeps_ensureMessageItem _ isRefusal)).trans ?_
    cases isRefusal <;> exact ⟨rfl, rfl, rfl⟩
  cases a with
  | start _ => exact keeps_ensureCreated e
  | textDelta text => exact write false text
  | refusalDelta text => exact write true text
  | thinkingDelta _ _ | usage _ => exact ⟨rfl, rfl, rfl⟩
  | toolCallStart index id name _ => exact (keeps_ensureCreated e).trans (keeps_startTool ..)
  | toolCallArgsDelta index args => exact (keeps_ensureCreated e).trans (keeps_pushToolArgs ..)
  | finish reason => exact keeps_finish e reason

/-- The number of the next frame and the usage do not matter to where the response is. -/
theorem Agrees.congr {r : Reader} (h : Agrees e o r) (seq : Nat) (usage : Option TokenUsage) :
    Agrees { e with seq := seq, usage := usage } o r := by
  cases h with
  | silent created blank => exact .silent created { blank with }
  | created created blank => exact .created created { blank with }
  | message created active kind htext hrefusal tools finishSent mix =>
    exact .message created active kind htext hrefusal tools finishSent mix
  | @calls message _ _ created active tools finishSent isMessage typed index itemIds =>
    have hmessage : IsMessage { e with seq := seq, usage := usage } message := isMessage
    exact .calls created active tools finishSent hmessage typed index itemIds
  | ended created finishSent => exact .ended created finishSent

theorem Agrees.answer {r : Reader} (h : Agrees e o r) (a : StreamEvent)
    (hid : e.responseId = Responses.responseId ctx.requestId)
    (hitem : e.textItemId = Responses.textItemId ctx.requestId)
    (known : ∀ index args, a = .toolCallArgsDelta index args →
      ∃ tool ∈ e.activeTools, tool.index = index) :
    Option.Rel (Agrees (e.answer a).1) (o.step ctx a) (reader.runFrom r (e.answer a).2) := by
  obtain ⟨r', hr', h'⟩ := h.ensureCreated
  have hkeeps := keeps_ensureCreated e
  have write : ∀ (isRefusal : Bool) t, Option.Rel
      (Agrees (e.answer (if isRefusal then .refusalDelta t else .textDelta t)).1)
      (o.started.write isRefusal t)
      (reader.runFrom r (e.answer (if isRefusal then .refusalDelta t else .textDelta t)).2) := by
    intro isRefusal t
    rw [answer_write, Machine.runFrom_append, hr', Option.bind_some]
    exact h'.write (started_ne_silent o) isRefusal t
  cases a with
  | start _ => exact hr' ▸ Option.Rel.some h'
  | textDelta text => exact write false text
  | refusalDelta text => exact write true text
  | thinkingDelta _ _ => exact Option.Rel.some h
  | usage u => exact Option.Rel.some (h.congr e.seq (some u))
  | finish reason => exact h.finish reason
  | toolCallStart index id name _ =>
    have hcall : e.ensureCreated.1.callId index id = Outline.wireId ctx index id := by
      rw [ResponsesEncoder.callId, hkeeps.responseId, hid]
      rfl
    have hstart := h'.call (started_ne_silent o) index (Outline.wireId ctx index id) name
    rw [hkeeps.textItemId, hitem] at hstart
    simp only [ResponsesEncoder.answer, hcall]
    rw [Machine.runFrom_append, hr', Option.bind_some]
    exact hstart
  | toolCallArgsDelta index args =>
    obtain ⟨tool, hmem, hindex⟩ := known index args rfl
    have htools : e.ensureCreated.1.activeTools = e.activeTools := by
      simp only [ResponsesEncoder.ensureCreated]
      split <;> rfl
    have hsame : o.started = o := by
      cases h with
      | silent _ blank =>
        rw [blank.tools] at hmem
        cases hmem
      | created | message | calls | ended => rfl
    have hargs := h'.args ⟨tool, htools ▸ hmem, hindex⟩ args
    rw [hsame] at hargs
    simp only [ResponsesEncoder.answer]
    rw [Machine.runFrom_append, hr', Option.bind_some]
    exact hargs

theorem pushArgs_index (index : Nat) (args : String) (tools : List ActiveTool) :
    (pushArgs index args tools).map (·.index) = tools.map (·.index) := by
  induction tools with
  | nil => rfl
  | cons tool tools ih =>
    rw [pushArgs]
    split
    · rfl
    · rw [List.map_cons, ih, List.map_cons]

/-- The encoder knows the calls that have started. -/
theorem answer_index (e : ResponsesEncoder) (a : StreamEvent) :
    (e.answer a).1.activeTools.map (·.index) =
      e.activeTools.map (·.index) ++ a.startedCall.toList := by
  have created : e.ensureCreated.1.activeTools = e.activeTools := by
    simp only [ResponsesEncoder.ensureCreated]
    split <;> rfl
  have write : ∀ (isRefusal : Bool) t, (e.answer
      (if isRefusal then .refusalDelta t else .textDelta t)).1.activeTools = e.activeTools := by
    intro isRefusal t
    rw [answer_write, ← created]
    simp only [push, ResponsesEncoder.ensureMessageItem]
    split <;> split <;> rfl
  cases a with
  | start _ => simp [ResponsesEncoder.answer, created, StreamEvent.startedCall]
  | textDelta text => simpa [StreamEvent.startedCall] using congrArg _ (write false text)
  | refusalDelta text => simpa [StreamEvent.startedCall] using congrArg _ (write true text)
  | thinkingDelta _ _ | usage _ => simp [ResponsesEncoder.answer, StreamEvent.startedCall]
  | toolCallStart index id name _ =>
    simp [ResponsesEncoder.answer, ResponsesEncoder.startTool, closeTextItem_fst, created,
      StreamEvent.startedCall]
  | toolCallArgsDelta index args =>
    simp only [ResponsesEncoder.answer, ResponsesEncoder.pushToolArgs, created,
      StreamEvent.startedCall, Option.toList_none, List.append_nil]
    split
    · exact pushArgs_index index args e.activeTools
    · rw [created]
  | finish reason =>
    cases hf : responsesStreamFailure reason e.hasTypedRefusal with
    | some failure =>
      obtain ⟨response, heq⟩ := finish_of_failure hf
      simp [ResponsesEncoder.answer, heq, StreamEvent.startedCall]
    | none =>
      obtain ⟨response, -, heq⟩ := finish_of_none hf
      simp [ResponsesEncoder.answer, heq, StreamEvent.startedCall]

/-- An event is in order exactly if the client takes its frames. -/
theorem Tracks.encode (h : Tracks ctx pre e o r) (a : StreamEvent) (hc : ArgsAfterStart pre a) :
    Option.Rel (Tracks ctx (pre ++ [a]) (e.encode a).1) (o.step ctx a)
      (client.runFrom r (e.encode a).2) := by
  obtain ⟨n, r⟩ := r
  have hseq : n = e.seq := h.seq
  have hkeeps := keeps_answer e a
  have hrel : Option.Rel (Agrees (e.answer a).1) (o.step ctx a)
      (reader.runFrom r (e.answer a).2) := by
    refine h.agrees.answer a h.responseId h.textItemId ?_
    rintro index args rfl
    have hmem : index ∈ e.activeTools.map (·.index) := h.known ▸ hc
    simpa using hmem
  have hknown : startedCalls (pre ++ [a]) = (e.answer a).1.activeTools.map (·.index) := by
    rw [startedCalls_snoc, answer_index, h.known]
  simp only [ResponsesEncoder.encode]
  rw [hseq, ← hkeeps.seq, client_frames]
  generalize reader.runFrom r (e.answer a).2 = x at hrel ⊢
  generalize o.step ctx a = y at hrel ⊢
  cases hrel with
  | none => exact Option.Rel.none
  | some hr =>
    exact Option.Rel.some ⟨hkeeps.responseId.trans h.responseId,
      hkeeps.textItemId.trans h.textItemId, rfl, hknown, hr.congr _ _⟩

/-- A finish that is in order ends the response. -/
theorem finish_eq_ended {o o' : Outline} {reason : FinishReason}
    (h : o.finish reason = some o') : o' = .ended := by
  simp only [Outline.finish] at h
  split at h
  · cases h
  · split at h
    · cases h
      rfl
    · cases o with
      | message isRefusal text refusal =>
        simp only [Outline.complete] at h
        split at h <;> cases h
        rfl
      | calls refused ids =>
        cases h
        rfl
      | silent | created | ended => cases h

/-- At the end of the stream the response ends, if it did not. -/
theorem Tracks.finalize (h : Tracks ctx pre e o r) :
    (client.runFrom r e.finalize.2).any (·.2.isEnded) =
      (o = .ended || (o.finish .stop).isSome) := by
  obtain ⟨n, r⟩ := r
  have hagrees : Agrees e o r := h.agrees
  by_cases ho : o = .ended
  · subst ho
    cases hagrees with
    | ended created finishSent => simp [ResponsesEncoder.finalize, finishSent, Reader.isEnded]
  · have hsent : e.finishSent = false := by
      cases hagrees with
      | silent _ blank | created _ blank => exact blank.finishSent
      | message _ _ _ _ _ _ finishSent | calls _ _ _ finishSent => exact finishSent
      | ended => exact absurd rfl ho
    have hrel : Option.Rel _ (o.finish .stop) _ := h.encode (.finish .stop) trivial
    simp only [ResponsesEncoder.finalize, hsent, Bool.false_eq_true, if_false, ho, decide_false,
      Bool.false_or]
    generalize client.runFrom (n, r) (e.encode (.finish .stop)).2 = x at hrel ⊢
    cases hf : o.finish .stop with
    | none =>
      rw [hf] at hrel
      cases hrel
      rfl
    | some o' =>
      rw [hf, finish_eq_ended hf] at hrel
      cases hrel with
      | some h' =>
        obtain ⟨-, -, -, -, hended⟩ := h'
        generalize hr : Prod.snd _ = r' at hended
        cases hended
        simp [hr, Reader.isEnded]

end Whole

/-- The encoder, the outline and the client agree on every stream. -/
theorem frames_track (ctx : EncoderCtx) (events : List StreamEvent) (h : CallsStarted events) :
    Option.Rel (Tracks ctx events ((encoder ctx).feed (encoder ctx).start events).1)
      ((outlines ctx).run events) (client.run ((encoder ctx).feed (encoder ctx).start events).2) :=
  (encoder ctx).feed_rel (C := ArgsAfterStart) (R := Tracks ctx) (tracks_initial ctx)
    (fun _ _ _ _ a hc hr => hr.encode a hc) events h

/-- The frames of a stream are a whole response exactly if its events are in order. -/
theorem wellFormed_iff_inOrder (ctx : EncoderCtx) (events : List StreamEvent)
    (h : CallsStarted events) : WellFormed (frames ctx events) ↔ InOrder ctx events := by
  have hrel := frames_track ctx events h
  simp only [WellFormed, InOrder, frames]
  rw [Machine.run_append]
  generalize (outlines ctx).run events = o at hrel ⊢
  generalize client.run ((encoder ctx).feed (encoder ctx).start events).2 = r at hrel ⊢
  cases hrel with
  | none => simp
  | some hr =>
    rw [Option.bind_some, hr.finalize]
    simp

/-- Text, a call with its arguments and an incomplete end. -/
theorem wellFormed_iff_inOrder_call :
    let events : List StreamEvent := [.start none, .textDelta "look", .textDelta " it up",
      .toolCallStart 0 (some "call_1") "search" none, .toolCallArgsDelta 0 "{}", .finish .length]
    InOrder ⟨"model", "req", 0, {}⟩ events ∧
      WellFormed (frames ⟨"model", "req", 0, {}⟩ events) :=
  ⟨by decide, (wellFormed_iff_inOrder _ _ (by decide)).mpr (by decide)⟩

/-- The message item is added again for text after a call. -/
theorem message_added_twice :
    ¬ ∀ (ctx : EncoderCtx) (events : List StreamEvent), CallsDistinct events →
      CallsStarted events → WellFormed (frames ctx events) := by
  intro h
  have hwell := h ⟨"model", "req", 0, {}⟩ [.textDelta "a",
    .toolCallStart 0 (some "call_1") "search" none, .textDelta "b", .finish .stop] (by decide)
    (by decide)
  exact absurd hwell (by decide)

end Kinetix.Frontends.Responses
