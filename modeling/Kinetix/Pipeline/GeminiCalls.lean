import Kinetix.Adapters.Gemini
import Kinetix.Pipeline.ToolCalls

/-!
# The calls of a Gemini answer

The events of a Gemini stream pass through `ToolStreamState::normalize`. What is sent is compared
with the parts and finishes of the stream: the ids and indexes of its calls, their signatures, and
how its turn ends.

## Implementation notes

A part carries only a signature if it has no text and no call.
-/

namespace Kinetix.Pipeline
open Adapters.Gemini Frontends Json StateMachine

/-! ## What a stream says -/

/-- The id under which a client sees a call, after the calls before it. -/
def clientId (requestId : String) (seen : List String) (id : Option String) : String :=
  match id.filter (· ≠ "") with
  | some id => id
  | none => generatedAt requestId seen.length

/-- The ids that were seen, after a call. -/
def seenWith (requestId : String) (seen : List String) (id : Option String) : List String :=
  match id.filter (· ≠ "") with
  | some id => if id ∈ seen then seen else seen ++ [id]
  | none => seen ++ [generatedAt requestId seen.length]

structure GeminiCall where
  id : String
  name : String
  args : String
  /-- The signature that belongs to it. -/
  expected : Option String
  /-- The signature with which it is sent. -/
  carried : Option String

/-- What is remembered of the tokens before. -/
structure Hearing where
  /-- The signature of the part before, if it carries nothing else. -/
  direct : Option String := none
  /-- The signature that waits for a call. -/
  heard : Option String := none
  seen : List String := []

/-- The signature that waits after a part without a call: a part without text is only heard if it is
a thought with a signature. -/
def hear (p : Value) (heard : Option String) : Option String :=
  if partText p = "" then
    if isThought p ∧ (partSignature p).isSome then partSignature p else heard
  else none

section Listening
variable (J : SerdeJson) (requestId : String)

def geminiCall (h : Hearing) (p fc : Value) : GeminiCall where
  id := clientId requestId h.seen (strField fc "id")
  name := (strField fc "name").getD "tool"
  args := J.toString ((fc.get "args").getD (.object []))
  expected := (partSignature p).or h.direct
  carried := (partSignature p).or (if partText p = "" then h.heard else none)

def Hearing.step (h : Hearing) : Token → Hearing × List GeminiCall
  | .finish _ => ({ h with heard := none }, [])
  | .part p =>
    match p.get "functionCall" with
    | some fc =>
      ({ seen := seenWith requestId h.seen (strField fc "id") }, [geminiCall J requestId h p fc])
    | none =>
      ({ h with
          direct := if partText p = "" then partSignature p else none
          heard := hear p h.heard }, [])

def geminiListener : Transducer Hearing Token GeminiCall where
  start := {}
  step := Hearing.step J requestId

/-- The calls of a stream. -/
def geminiCalls (chunks : List Value) : List GeminiCall :=
  ((geminiListener J requestId).feed {} (streamTokens chunks)).2

/-- What is sent for a stream. -/
def geminiSent (chunks : List Value) : List StreamEvent :=
  ((ToolStreamState.new requestId).normalize (streamEvents J chunks)).2

end Listening

/-! ## What is sent -/

def isTool : StreamEvent → Bool
  | .toolCallStart _ _ _ _ | .toolCallArgsDelta _ _ => true
  | _ => false

def toolEvents (events : List StreamEvent) : List StreamEvent := events.filter isTool

/-- The events of a call at an index. -/
def sentCall (index : Nat) (c : GeminiCall) : List StreamEvent :=
  [.toolCallStart index (some c.id) c.name c.carried, .toolCallArgsDelta index c.args]

/-- The events of calls, each at its index. -/
def sentCalls (indexes : List Nat) (calls : List GeminiCall) : List StreamEvent :=
  (indexes.zip calls).flatMap fun p => sentCall p.1 p.2

/-- The normalization knows what was heard. -/
structure Hears (requestId : String) (s : ToolStreamState) (h : Hearing) : Prop where
  requestId : s.requestId = plainId requestId
  pending : s.pendingSignature = h.heard
  next : s.nextIndex = h.seen.length % indexBound
  ids : ∀ id, (s.ids id).isSome ↔ id ∈ h.seen
  nonempty : "" ∉ h.seen

/-- What is sent on the way from one state to another are the events of the calls, and these have
consecutive indexes as long as their ids are new. -/
structure Sends (requestId : String) (h h' : Hearing) (s' : ToolStreamState)
    (out : List StreamEvent)
    (calls : List GeminiCall) : Prop where
  hears : Hears requestId s' h'
  tools : ∃ indexes : List Nat, indexes.length = calls.length ∧
    toolEvents out = sentCalls indexes calls ∧
      ((h.seen ++ calls.map (·.id)).Nodup → h'.seen = h.seen ++ calls.map (·.id) ∧
        indexes = (List.range' h.seen.length calls.length).map (· % indexBound))

section Steps
variable {J : SerdeJson} {requestId : String} {s : ToolStreamState} {h : Hearing}

theorem Sends.nothing {h' : Hearing} {s' : ToolStreamState} (hs : Hears requestId s' h')
    (hseen : h'.seen = h.seen) {out : List StreamEvent} (hout : toolEvents out = []) :
    Sends requestId h h' s' out [] where
  hears := hs
  tools := ⟨[], rfl, hout, fun _ => ⟨by rw [hseen, List.map_nil, List.append_nil], rfl⟩⟩

theorem Sends.append {h' h'' : Hearing} {s' s'' : ToolStreamState} {out out' : List StreamEvent}
    {calls calls' : List GeminiCall} (hfirst : Sends requestId h h' s' out calls)
    (hsecond : Sends requestId h' h'' s'' out' calls') :
    Sends requestId h h'' s'' (out ++ out') (calls ++ calls') := by
  obtain ⟨indexes, hlength, htools, hnumbers⟩ := hfirst.tools
  obtain ⟨indexes', hlength', htools', hnumbers'⟩ := hsecond.tools
  refine ⟨hsecond.hears, indexes ++ indexes', ?_, ?_, fun hnodup => ?_⟩
  · rw [List.length_append, List.length_append, hlength, hlength']
  · rw [toolEvents, List.filter_append, ← toolEvents, ← toolEvents, htools, htools', sentCalls,
      sentCalls, sentCalls, List.zip_append hlength, List.flatMap_append]
  · rw [List.map_append, ← List.append_assoc] at hnodup
    obtain ⟨hseen, hindexes⟩ := hnumbers hnodup.of_append_left
    rw [← hseen] at hnodup
    obtain ⟨hseen', hindexes'⟩ := hnumbers' hnodup
    refine ⟨by rw [hseen', hseen, List.map_append, List.append_assoc], ?_⟩
    rw [hindexes, hindexes', hseen, ← List.map_append, List.length_append, List.length_append,
      List.length_map]
    rw [List.range'_append_1]

/-- Events that are no calls pass as they are. -/
theorem normalize_deltaEvents (s : ToolStreamState) (p : Value) :
    s.normalize (deltaEvents p) =
      ({ s with pendingSignature := hear p s.pendingSignature }, deltaEvents p) := by
  unfold deltaEvents hear
  by_cases htext : partText p = ""
  · cases hthought : isThought p with
    | false => simp [htext, ToolStreamState.normalize]
    | true =>
      cases hsignature : partSignature p with
      | none => simp [htext, ToolStreamState.normalize]
      | some g => simp [htext, ToolStreamState.normalize, ToolStreamState.normalizeEvent]
  · cases hthought : isThought p with
    | false | true => simp [htext, ToolStreamState.normalize, ToolStreamState.normalizeEvent]

theorem toolEvents_deltaEvents (p : Value) : toolEvents (deltaEvents p) = [] := by
  unfold deltaEvents
  split
  · rfl
  · split <;> rfl

theorem Hears.ids_eq_none (hs : Hears requestId s h) {id : String} (hid : id ∉ h.seen) :
    s.ids id = none := by
  rw [← Option.not_isSome_iff_eq_none, hs.ids]
  exact hid

/-- A call with an id that was seen before keeps its index, and one with a new id gets the next. -/
theorem Hears.startTool_named (hs : Hears requestId s h) (index : Nat) {id : String} (hne : id ≠ "")
    (name : String) (own : Option String) :
    Hears requestId (s.startTool index (some id) name own).1
        { seen := if id ∈ h.seen then h.seen else h.seen ++ [id] } ∧
      (id ∉ h.seen → s.canonicalIndex (some id) = h.seen.length % indexBound) := by
  obtain ⟨hids, -⟩ := s.startTool_named index name own hne
  have hsome (other : String) : ((s.startTool index (some id) name own).1.ids other).isSome ↔
      other = id ∨ other ∈ h.seen := by
    rw [hids, Function.update_apply]
    by_cases hother : other = id
    · rw [if_pos hother]
      exact iff_of_true (by simp) (.inl hother)
    · rw [if_neg hother, hs.ids, or_iff_right hother]
  by_cases hmem : id ∈ h.seen
  · have hknown : (s.ids id).isSome := (hs.ids id).mpr hmem
    refine ⟨⟨hs.requestId, rfl, ?_, fun other => ?_, ?_⟩, fun hnot => absurd hmem hnot⟩
    · simp [ToolStreamState.startTool, hknown, hmem, hs.next]
    · rw [hsome, if_pos hmem, or_iff_right_of_imp (fun heq => heq ▸ hmem)]
    · rw [if_pos hmem]
      exact hs.nonempty
  · have hnone := hs.ids_eq_none hmem
    refine ⟨⟨hs.requestId, rfl, ?_, fun other => ?_, ?_⟩, fun _ => ?_⟩
    · simp [ToolStreamState.startTool, hnone, hmem, hs.next]
    · rw [hsome, if_neg hmem, List.mem_append, List.mem_singleton, or_comm]
    · rw [if_neg hmem, List.mem_append, List.mem_singleton, not_or]
      exact ⟨hs.nonempty, hne.symm⟩
    · rw [ToolStreamState.canonicalIndex, Option.bind_some, hnone]
      exact hs.next

/-- A call without an id gets one that is made up, and the next index. -/
theorem Hears.startTool_unnamed (hs : Hears requestId s h) (index : Nat) {id : Option String}
    (hid : id.filter (· ≠ "") = none) (name : String) (own : Option String) :
    s.canonicalIndex id = h.seen.length % indexBound ∧
    (s.startTool index id name own).2 = .toolCallStart (s.canonicalIndex id)
      (some (generatedAt requestId h.seen.length)) name (own.or s.pendingSignature) ∧
    Hears requestId (s.startTool index id name own).1
      { seen := h.seen ++ [generatedAt requestId h.seen.length] } := by
  have hunknown : id.bind s.ids = none := by
    cases id with
    | none => rfl
    | some call =>
      have hempty : call = "" := by simpa using hid
      exact hs.ids_eq_none (hempty ▸ hs.nonempty)
  have hindex : s.canonicalIndex id = s.nextIndex := by
    rw [ToolStreamState.canonicalIndex, hunknown]
    rfl
  have hgenerated : s.generatedId s.nextIndex = generatedAt requestId h.seen.length := by
    rw [ToolStreamState.generatedId, generatedAt, hs.requestId, hs.next]
  refine ⟨hindex.trans hs.next, ?_, hs.requestId, rfl, ?_, fun other => ?_, ?_⟩
  · simp only [ToolStreamState.startTool, hid, hindex, hgenerated]
  · simp [ToolStreamState.startTool, hunknown, hs.next]
  · simp only [ToolStreamState.startTool, hid, hindex, hgenerated, Function.update_apply]
    by_cases hother : other = generatedAt requestId h.seen.length
    · simp [hother]
    · simp [hother, hs.ids]
  · rw [List.mem_append, List.mem_singleton, not_or]
    exact ⟨hs.nonempty, (generatedAt_ne_empty _ _).symm⟩

/-- What opening a call does, in the terms of what was heard. -/
theorem Hears.startTool (hs : Hears requestId s h) (index : Nat) (id : Option String)
    (name : String)
    (own : Option String) :
    (s.startTool index id name own).2 =
      .toolCallStart (s.canonicalIndex id) (some (clientId requestId h.seen id)) name
        (own.or h.heard) ∧
    Hears requestId (s.startTool index id name own).1
      { seen := seenWith requestId h.seen id } ∧
    (clientId requestId h.seen id ∉ h.seen → s.canonicalIndex id = h.seen.length % indexBound ∧
      seenWith requestId h.seen id = h.seen ++ [clientId requestId h.seen id]) := by
  rw [← hs.pending]
  cases hid : id.filter (· ≠ "") with
  | none =>
    obtain ⟨hindex, hsent, hhears⟩ := hs.startTool_unnamed index hid name own
    simp only [clientId, seenWith, hid]
    exact ⟨hsent, hhears, fun _ => ⟨hindex, trivial⟩⟩
  | some call =>
    obtain ⟨rfl, hne⟩ := Option.filter_eq_some_iff.mp hid
    have hne : call ≠ "" := of_decide_eq_true hne
    obtain ⟨hhears, hindex⟩ := hs.startTool_named index hne name own
    simp only [clientId, seenWith, hid]
    exact ⟨(s.startTool_named index name own hne).2, hhears,
      fun hnew => ⟨hindex hnew, if_neg hnew⟩⟩

/-- What a part says or thinks is heard, and nothing is sent for it but itself. -/
theorem Hears.deltaEvents (hs : Hears requestId s h) (p : Value) (direct : Option String) :
    Sends requestId h { h with direct := direct, heard := hear p h.heard }
      (s.normalize (deltaEvents p)).1 (s.normalize (deltaEvents p)).2 [] := by
  rw [normalize_deltaEvents]
  have hheard : Hears requestId { s with pendingSignature := hear p s.pendingSignature }
      { h with direct := direct, heard := hear p h.heard } :=
    ⟨hs.requestId, congrArg (hear p) hs.pending, hs.next, hs.ids, hs.nonempty⟩
  exact Sends.nothing (h := h) hheard rfl (toolEvents_deltaEvents p)

theorem or_hear (p : Value) (heard : Option String) :
    (partSignature p).or (hear p heard) =
      (partSignature p).or (if partText p = "" then heard else none) := by
  unfold hear
  cases partSignature p with
  | none => simp
  | some g => rfl

/-- A call is sent as one, with its arguments. -/
theorem Hears.callEvents (hs : Hears requestId s h) (J : SerdeJson) (index : Nat) (p fc : Value) :
    Sends requestId h { seen := seenWith requestId h.seen (strField fc "id") }
      (s.normalize (callEvents J index p fc)).1 (s.normalize (callEvents J index p fc)).2
      [{ geminiCall J requestId h p fc with carried := (partSignature p).or h.heard }] := by
  obtain ⟨hsent, hhears, hnew⟩ := hs.startTool index (strField fc "id")
    ((strField fc "name").getD "tool") (partSignature p)
  have hout : (s.normalize (Adapters.Gemini.callEvents J index p fc)).2 =
      [(s.startTool index (strField fc "id") ((strField fc "name").getD "tool")
        (partSignature p)).2,
        .toolCallArgsDelta (((s.startTool index (strField fc "id")
          ((strField fc "name").getD "tool") (partSignature p)).1.upstreamIndexes index).getD index)
          (J.toString ((fc.get "args").getD (.object [])))] := rfl
  have hupstream : (s.startTool index (strField fc "id") ((strField fc "name").getD "tool")
      (partSignature p)).1.upstreamIndexes index = some (s.canonicalIndex (strField fc "id")) :=
    Function.update_self ..
  refine ⟨hhears, [s.canonicalIndex (strField fc "id")], rfl, ?_, fun hnodup => ?_⟩
  · rw [hout, hsent, hupstream]
    rfl
  · rw [List.map_singleton, List.nodup_append] at hnodup
    have hnotMem : clientId requestId h.seen (strField fc "id") ∉ h.seen := fun hmem =>
      hnodup.2.2 _ hmem _ (List.mem_singleton_self _) rfl
    obtain ⟨hindex, hseen⟩ := hnew hnotMem
    exact ⟨hseen, by rw [hindex]; rfl⟩

/-- The events of parts send their calls. -/
theorem Hears.partsEvents (hs : Hears requestId s h) (J : SerdeJson) (index : Nat)
    (parts : List Value) :
    let fed := (geminiListener J requestId).feed h (parts.map .part)
    Sends requestId h fed.1 (s.normalize (partsEvents J index parts)).1
      (s.normalize (partsEvents J index parts)).2 fed.2 := by
  induction parts generalizing s h index with
  | nil => exact .nothing hs rfl rfl
  | cons p parts ih =>
    rw [List.map_cons, Transducer.feed_cons, Adapters.Gemini.partsEvents,
      ToolStreamState.normalize_append]
    have hdelta := hs.deltaEvents p
    cases hcall : p.get "functionCall" with
    | none =>
      have hstep : (geminiListener J requestId).step h (.part p) =
          ({ h with
              direct := if partText p = "" then partSignature p else none
              heard := hear p h.heard }, []) := by
        simp only [geminiListener, Hearing.step, hcall]
      rw [hstep]
      exact (hdelta _).append (ih (hdelta _).hears index)
    | some fc =>
      have hstep : (geminiListener J requestId).step h (.part p) =
          ({ seen := seenWith requestId h.seen (strField fc "id") },
            [geminiCall J requestId h p fc]) := by
        simp only [geminiListener, Hearing.step, hcall]
      have hsent := (hdelta h.direct).hears.callEvents J index p fc
      rw [or_hear] at hsent
      rw [hstep, ToolStreamState.normalize_append]
      exact (hdelta h.direct).append (hsent.append (ih hsent.hears (index + 1)))

/-- The finishes of a chunk are heard, and nothing else of its end is. -/
theorem Hears.finishes (hs : Hears requestId s h) (J : SerdeJson) (reasons : List String) :
    let fed := (geminiListener J requestId).feed h (reasons.map .finish)
    let events := reasons.map fun reason => StreamEvent.finish (mapFinish reason)
    Sends requestId h fed.1 (s.normalize events).1 (s.normalize events).2 fed.2 := by
  induction reasons generalizing s h with
  | nil => exact .nothing hs rfl rfl
  | cons reason reasons ih =>
    have hfinish : Hears requestId (s.normalizeEvent (.finish (mapFinish reason))).1
        { h with heard := none } := ⟨hs.requestId, rfl, hs.next, hs.ids, hs.nonempty⟩
    have hsent : Sends requestId h { h with heard := none }
        (s.normalizeEvent (.finish (mapFinish reason))).1 [.finish (mapFinish reason)] [] :=
      Sends.nothing (h := h) hfinish rfl rfl
    exact hsent.append (ih hfinish)

theorem Hears.usageEvents (hs : Hears requestId s h) (v : Value) :
    Sends requestId h h (s.normalize (usageEvents v)).1 (s.normalize (usageEvents v)).2 [] := by
  unfold Adapters.Gemini.usageEvents
  cases v.get "usageMetadata" with
  | none | some usage => exact .nothing hs rfl rfl

theorem Hears.stream (hs : Hears requestId s h) (J : SerdeJson) (chunks : List Value) :
    let fed := (geminiListener J requestId).feed h (streamTokens chunks)
    Sends requestId h fed.1 (s.normalize (streamEvents J chunks)).1
      (s.normalize (streamEvents J chunks)).2 fed.2 := by
  induction chunks generalizing s h with
  | nil => exact .nothing hs rfl rfl
  | cons v chunks ih =>
    have hparts := hs.partsEvents J 0 (chunkParts v)
    have husage := hparts.hears.usageEvents v
    have hfinishes := husage.hears.finishes J (chunkFinishes v)
    have hchunk := (hparts.append husage).append hfinishes
    have hrest := hchunk.append (ih hchunk.hears)
    rw [List.append_nil] at hrest
    simp only [streamTokens, streamEvents, List.flatMap_cons, chunkTokens, eventsFromGemini,
      Transducer.feed_append, ToolStreamState.normalize_append]
    exact hrest

end Steps

variable (J : SerdeJson) (requestId : String) (chunks : List Value)

/-- For each call of a stream one is sent, in their order, and nothing else is. -/
theorem gemini_sends :
    ∃ indexes : List Nat, indexes.length = (geminiCalls J requestId chunks).length ∧
      toolEvents (geminiSent J requestId chunks) =
        sentCalls indexes (geminiCalls J requestId chunks) ∧
      (((geminiCalls J requestId chunks).map (·.id)).Nodup → indexes =
        (List.range' 0 (geminiCalls J requestId chunks).length).map (· % indexBound)) := by
  have hstart : Hears requestId (ToolStreamState.new requestId) {} :=
    ⟨rfl, rfl, rfl, fun id => by simp [ToolStreamState.new], List.not_mem_nil⟩
  obtain ⟨indexes, hlength, htools, hnumbers⟩ := (hstart.stream J chunks).tools
  exact ⟨indexes, hlength, htools, fun hnodup => (hnumbers hnodup).2⟩

/-! ## Distinct calls -/

/-- An event of a call without its signature. -/
def bare : StreamEvent → StreamEvent
  | .toolCallStart index id name _ => .toolCallStart index id name none
  | event => event

/-- The events of a call at an index and with an id, without its signature. -/
def labelled (label : Nat × String) (c : GeminiCall) : List StreamEvent :=
  [.toolCallStart label.1 (some label.2) c.name none, .toolCallArgsDelta label.1 c.args]

/-- Each call of a stream is sent as one with its own index and id and its own arguments,
in order. -/
def CallsDistinct (J : SerdeJson) (requestId : String) (chunks : List Value) : Prop :=
  ∃ labels : List (Nat × String), labels.length = (geminiCalls J requestId chunks).length ∧
    (labels.map Prod.fst).Nodup ∧ (labels.map Prod.snd).Nodup ∧
    (toolEvents (geminiSent J requestId chunks)).map bare =
      (labels.zip (geminiCalls J requestId chunks)).flatMap fun p => labelled p.1 p.2

theorem bare_sentCalls {indexes : List Nat} {calls : List GeminiCall}
    (hlength : indexes.length = calls.length) : (sentCalls indexes calls).map bare =
      ((indexes.zip (calls.map (·.id))).zip calls).flatMap fun p => labelled p.1 p.2 := by
  induction calls generalizing indexes with
  | nil =>
    obtain rfl := List.length_eq_zero_iff.mp hlength
    rfl
  | cons c calls ih =>
    obtain ⟨index, indexes, rfl⟩ := List.exists_cons_of_length_eq_add_one hlength
    have hrest := ih (Nat.succ.inj hlength)
    rw [sentCalls, List.zip_cons_cons, List.flatMap_cons, List.map_append, ← sentCalls, hrest]
    rfl

/-- The events of calls tell their indexes and ids. -/
theorem labelled_inj {calls : List GeminiCall} {labels labels' : List (Nat × String)}
    (hlength : labels.length = calls.length) (hlength' : labels'.length = calls.length)
    (h : ((labels.zip calls).flatMap fun p => labelled p.1 p.2) =
      (labels'.zip calls).flatMap fun p => labelled p.1 p.2) : labels = labels' := by
  induction calls generalizing labels labels' with
  | nil => rw [List.length_eq_zero_iff.mp hlength, List.length_eq_zero_iff.mp hlength']
  | cons c calls ih =>
    obtain ⟨label, labels, rfl⟩ := List.exists_cons_of_length_eq_add_one hlength
    obtain ⟨label', labels', rfl⟩ := List.exists_cons_of_length_eq_add_one hlength'
    simp only [List.zip_cons_cons, List.flatMap_cons] at h
    obtain ⟨hhead, hrest⟩ := List.append_inj h rfl
    obtain ⟨hstart, -⟩ := List.cons.inj hhead
    obtain ⟨hindex, hid, -⟩ := StreamEvent.toolCallStart.inj hstart
    rw [ih (Nat.succ.inj hlength) (Nat.succ.inj hlength') hrest,
      Prod.ext hindex (Option.some.inj hid)]

theorem range'_mod_nodup_iff (n : Nat) :
    ((List.range' 0 n).map (· % indexBound)).Nodup ↔ n ≤ indexBound := by
  constructor
  · intro h
    have hsub : ((List.range' 0 n).map (· % indexBound)).toFinset ⊆ Finset.range indexBound := by
      intro i hi
      obtain ⟨j, -, rfl⟩ := List.mem_map.mp (List.mem_toFinset.mp hi)
      exact Finset.mem_range.mpr (Nat.mod_lt _ (by decide))
    have hcard := Finset.card_le_card hsub
    rwa [List.toFinset_card_of_nodup h, List.length_map, List.length_range', Finset.card_range]
      at hcard
  · intro h
    have hsame : (List.range' 0 n).map (· % indexBound) = List.range' 0 n := by
      refine (List.map_congr_left fun i hi => ?_).trans (List.map_id _)
      rw [List.mem_range'_1] at hi
      exact Nat.mod_eq_of_lt (by omega)
    rw [hsame]
    exact List.nodup_range'

theorem callsDistinct_iff :
    CallsDistinct J requestId chunks ↔ ((geminiCalls J requestId chunks).map (·.id)).Nodup ∧
      (geminiCalls J requestId chunks).length ≤ indexBound := by
  obtain ⟨indexes, hlength, htools, hnumbers⟩ := gemini_sends J requestId chunks
  have hlabels : (indexes.zip ((geminiCalls J requestId chunks).map (·.id))).length =
      (geminiCalls J requestId chunks).length := by
    rw [List.length_zip, List.length_map, hlength, Nat.min_self]
  have hle : indexes.length ≤ ((geminiCalls J requestId chunks).map (·.id)).length := by
    rw [List.length_map, hlength]
  have hge : ((geminiCalls J requestId chunks).map (·.id)).length ≤ indexes.length := by
    rw [List.length_map, hlength]
  constructor
  · rintro ⟨labels, hlen, hfst, hsnd, hevents⟩
    rw [htools, bare_sentCalls hlength] at hevents
    obtain rfl := labelled_inj hlabels hlen hevents
    rw [List.map_snd_zip hge] at hsnd
    rw [List.map_fst_zip hle, hnumbers hsnd, range'_mod_nodup_iff] at hfst
    exact ⟨hsnd, hfst⟩
  · rintro ⟨hnodup, hbound⟩
    refine ⟨_, hlabels, ?_, ?_, ?_⟩
    · rw [List.map_fst_zip hle, hnumbers hnodup, range'_mod_nodup_iff]
      exact hbound
    · rwa [List.map_snd_zip hge]
    · rw [htools, bare_sentCalls hlength]

/-! ## How the turn ends -/

def finishOf : StreamEvent → Option FinishReason
  | .finish reason => some reason
  | _ => none

/-- The finish that a client is told. -/
def lastFinish (events : List StreamEvent) : Option FinishReason :=
  (events.filterMap finishOf).getLast?

/-- The clients of both formats are told that the turn ended in calls. -/
def ToldTools (events : List StreamEvent) : Prop :=
  ∃ reason, lastFinish events = some reason ∧
    Frontends.OpenAi.openaiFinishStr reason = "tool_calls" ∧
    Frontends.Anthropic.AnthropicEncoder.stopReason (some reason) = "tool_use"

/-- The last finish of a stream is `STOP`. -/
def EndsWithStop (chunks : List Value) : Prop :=
  (chunks.flatMap chunkFinishes).getLast? = some "STOP"

theorem finishOf_normalizeEvent (s : ToolStreamState) (e : StreamEvent) :
    finishOf (s.normalizeEvent e).2 = finishOf e := by
  cases e with
  | start _ | textDelta _ | refusalDelta _ | thinkingDelta _ _ | toolCallStart _ _ _ _
  | toolCallArgsDelta _ _ | usage _ | finish _ => rfl

theorem finishOf_normalize (s : ToolStreamState) (events : List StreamEvent) :
    (s.normalize events).2.filterMap finishOf = events.filterMap finishOf := by
  induction events generalizing s with
  | nil => rfl
  | cons e events ih =>
    rw [ToolStreamState.normalize, List.filterMap_cons, List.filterMap_cons,
      finishOf_normalizeEvent, ih]

theorem finishOf_deltaEvents (p : Value) : (deltaEvents p).filterMap finishOf = [] := by
  unfold deltaEvents
  split
  · rfl
  · split <;> rfl

/-- Parts do not end a turn. -/
theorem finishOf_partsEvents (index : Nat) (parts : List Value) :
    (partsEvents J index parts).filterMap finishOf = [] := by
  induction parts generalizing index with
  | nil => rfl
  | cons p parts ih =>
    rw [Adapters.Gemini.partsEvents, List.filterMap_append, finishOf_deltaEvents, List.nil_append]
    cases p.get "functionCall" with
    | none => exact ih index
    | some fc => exact ih (index + 1)

theorem finishOf_usageEvents (v : Value) : (usageEvents v).filterMap finishOf = [] := by
  unfold usageEvents
  cases v.get "usageMetadata" with
  | none | some usage => rfl

/-- A stream ends its turn with the finishes of its chunks. -/
theorem finishOf_streamEvents :
    (streamEvents J chunks).filterMap finishOf = (chunks.flatMap chunkFinishes).map mapFinish := by
  induction chunks with
  | nil => rfl
  | cons v chunks ih =>
    have hfinishes (reasons : List String) :
        (reasons.map fun reason => StreamEvent.finish (mapFinish reason)).filterMap finishOf =
          reasons.map mapFinish := by
      rw [List.filterMap_map]
      exact congrFun List.filterMap_eq_map reasons
    rw [streamEvents, List.flatMap_cons, List.filterMap_append, ← streamEvents, ih,
      eventsFromGemini, List.filterMap_append, List.filterMap_append, finishOf_partsEvents,
      finishOf_usageEvents, hfinishes, List.flatMap_cons, List.map_append]
    rfl

theorem lastFinish_geminiSent : lastFinish (geminiSent J requestId chunks) =
      (chunks.flatMap chunkFinishes).getLast?.map mapFinish := by
  rw [lastFinish, geminiSent, finishOf_normalize, finishOf_streamEvents, List.getLast?_map]

/-- A turn that ends with `STOP` is an ordinary one, whatever it called. -/
theorem EndsWithStop.not_toldTools {chunks : List Value} (h : EndsWithStop chunks) (J : SerdeJson)
    (requestId : String) : ¬ToldTools (geminiSent J requestId chunks) := by
  rintro ⟨reason, hlast, htold, -⟩
  rw [lastFinish_geminiSent, h] at hlast
  obtain rfl : FinishReason.stop = reason := Option.some.inj hlast
  exact absurd htold (by decide)

/-- The calls of a Gemini stream stay distinct, and a client is told of them at the end, if and only
if no id is used for two of them, there are no more than indexes, and a stream with calls does not
end with `STOP`. -/
theorem gemini_calls_distinct_and_told_iff (J : SerdeJson) (requestId : String)
    (chunks : List Value) :
    (CallsDistinct J requestId chunks ∧
      (geminiCalls J requestId chunks ≠ [] → EndsWithStop chunks →
        ToldTools (geminiSent J requestId chunks))) ↔
      ((geminiCalls J requestId chunks).map (·.id)).Nodup ∧
        (geminiCalls J requestId chunks).length ≤ indexBound ∧
        (geminiCalls J requestId chunks ≠ [] → ¬EndsWithStop chunks) := by
  have htold : (EndsWithStop chunks → ToldTools (geminiSent J requestId chunks)) ↔
      ¬EndsWithStop chunks :=
    ⟨fun h hstop => hstop.not_toldTools J requestId (h hstop), fun h hstop => absurd hstop h⟩
  rw [callsDistinct_iff, htold, and_assoc]

/-- A chunk that calls a tool and stops. -/
def stoppedCall : Value :=
  .object [("candidates", .array [.object
    [("content", .object [("parts", .array
      [.object [("functionCall", .object [("name", .string "read")])]])]),
     ("finishReason", .string "STOP")]])]

/-- The client of a stopped call is not told of it at the end. -/
theorem stopped_call_not_told :
    ¬∀ (J : SerdeJson) (requestId : String) (chunks : List Value),
      CallsDistinct J requestId chunks ∧
        (geminiCalls J requestId chunks ≠ [] → EndsWithStop chunks →
          ToldTools (geminiSent J requestId chunks)) := by
  intro h
  have hcalls : geminiCalls .ofEmptyObject "r" [stoppedCall] ≠ [] := by decide
  have hstop : EndsWithStop [stoppedCall] := rfl
  exact hstop.not_toldTools _ _ ((h .ofEmptyObject "r" [stoppedCall]).2 hcalls hstop)

end Kinetix.Pipeline
