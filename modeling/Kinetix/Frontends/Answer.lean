import Kinetix.Frontends.Events

/-!
# What an answer says

The text, the thinking, the calls, the finish and the usage of the events of an answer. Events that
are about different calls can be put after each other.
-/

namespace Kinetix.Frontends
open Json

attribute [ext] TokenUsage

theorem TokenUsage.empty_merge (u : TokenUsage) : TokenUsage.merge {} u = u := by
  apply TokenUsage.ext <;> exact Option.or_none

/-! ## Collecting -/

def thinkingStep (s : String) : StreamEvent → String
  | .thinkingDelta text _ => s ++ text
  | _ => s

/-- The text of all thinking deltas. -/
def thinkingOf (events : List StreamEvent) : String := events.foldl thinkingStep ""

def finishStep (finish : Option FinishReason) : StreamEvent → Option FinishReason
  | .finish reason => some reason
  | _ => finish

/-- The last finish. -/
def finishOf (events : List StreamEvent) : Option FinishReason := events.foldl finishStep none

/-- A call with its id, its name and its arguments. -/
structure SaidCall where
  id : Option String
  name : String
  args : String
  deriving DecidableEq

/-- The index, the id and the name of the call that an event starts. -/
def StreamEvent.startedAs : StreamEvent → Option (Nat × Option String × String)
  | .toolCallStart index id name _ => some (index, id, name)
  | _ => none

/-- The calls in the order in which they start, each with all arguments for its index. -/
def saidCalls (events : List StreamEvent) : List SaidCall :=
  (events.filterMap (·.startedAs)).map fun started =>
    ⟨started.2.1, started.2.2, argsOf started.1 events⟩

structure Answer where
  text : String
  refusal : String
  thinking : String
  calls : List SaidCall
  finish : Option FinishReason
  usage : TokenUsage

/-- What the events of an answer say. -/
def answerOf (events : List StreamEvent) : Answer where
  text := textOf events
  refusal := refusalOf events
  thinking := thinkingOf events
  calls := saidCalls events
  finish := finishOf events
  usage := mergedUsage events

/-! ## Texts -/

theorem foldl_text {f : String → StreamEvent → String} (h : ∀ s a, f s a = s ++ f "" a) (s : String)
    (events : List StreamEvent) : events.foldl f s = s ++ events.foldl f "" := by
  induction events generalizing s with
  | nil => exact String.append_empty.symm
  | cons a events ih =>
    rw [List.foldl_cons, List.foldl_cons, ih, ih (f "" a), h s a, String.append_assoc]

variable (events more : List StreamEvent) (s : String) (a : StreamEvent)

theorem textStep_eq : textStep s a = s ++ textStep "" a := by
  cases a <;> simp [textStep]

theorem refusalStep_eq : refusalStep s a = s ++ refusalStep "" a := by
  cases a <;> simp [refusalStep]

theorem thinkingStep_eq : thinkingStep s a = s ++ thinkingStep "" a := by
  cases a <;> simp [thinkingStep]

theorem argsStep_eq (index : Nat) (s : String) (a : StreamEvent) :
    argsStep index s a = s ++ argsStep index "" a := by
  cases a with
  | toolCallArgsDelta i args =>
    rw [argsStep, argsStep]
    split <;> simp
  | _ => simp [argsStep]

theorem textOf_append : textOf (events ++ more) = textOf events ++ textOf more := by
  rw [textOf, List.foldl_append, foldl_text textStep_eq]
  rfl

theorem refusalOf_append : refusalOf (events ++ more) = refusalOf events ++ refusalOf more := by
  rw [refusalOf, List.foldl_append, foldl_text refusalStep_eq]
  rfl

theorem thinkingOf_append : thinkingOf (events ++ more) = thinkingOf events ++ thinkingOf more := by
  rw [thinkingOf, List.foldl_append, foldl_text thinkingStep_eq]
  rfl

theorem argsOf_append (index : Nat) (events more : List StreamEvent) :
    argsOf index (events ++ more) = argsOf index events ++ argsOf index more := by
  rw [argsOf, List.foldl_append, foldl_text (argsStep_eq index)]
  rfl

/-! ## Calls with different indexes -/

/-- The index of the call that an event is about. -/
def StreamEvent.callIndex : StreamEvent → Option Nat
  | .toolCallStart index _ _ _ => some index
  | .toolCallArgsDelta index _ => some index
  | _ => none

/-- The events are about calls with indexes from `first` up to `last`. -/
def CallsWithin (first last : Nat) (events : List StreamEvent) : Prop :=
  ∀ event ∈ events, ∀ index ∈ event.callIndex, first ≤ index ∧ index < last

theorem CallsWithin.append {first mid last : Nat} {events more : List StreamEvent}
    (h : CallsWithin first mid events) (hmore : CallsWithin mid last more) (hle : first ≤ mid)
    (hle' : mid ≤ last) : CallsWithin first last (events ++ more) := by
  intro event hevent index hindex
  rcases List.mem_append.mp hevent with hevent | hevent
  · obtain ⟨hfirst, hlast⟩ := h event hevent index hindex
    exact ⟨hfirst, hlast.trans_le hle'⟩
  · obtain ⟨hfirst, hlast⟩ := hmore event hevent index hindex
    exact ⟨hle.trans hfirst, hlast⟩

theorem argsOf_eq_empty {index : Nat} {events : List StreamEvent}
    (h : ∀ event ∈ events, index ∉ event.callIndex) : argsOf index events = "" := by
  unfold argsOf
  induction events with
  | nil => rfl
  | cons a events ih =>
    obtain ⟨ha, hrest⟩ := List.forall_mem_cons.mp h
    have hstep : argsStep index "" a = "" := by
      cases a with
      | toolCallArgsDelta i args =>
        rw [argsStep, if_neg]
        exact fun heq => ha (congrArg some heq)
      | _ => rfl
    rw [List.foldl_cons, hstep]
    exact ih hrest

/-- Calls of different indexes keep their arguments to themselves. -/
theorem saidCalls_append {first mid last : Nat} {events more : List StreamEvent}
    (h : CallsWithin first mid events) (hmore : CallsWithin mid last more) :
    saidCalls (events ++ more) = saidCalls events ++ saidCalls more := by
  unfold saidCalls
  rw [List.filterMap_append, List.map_append]
  have hstarted {events : List StreamEvent} {started : Nat × Option String × String}
      (hmem : started ∈ events.filterMap (·.startedAs)) :
      ∃ event ∈ events, started.1 ∈ event.callIndex := by
    obtain ⟨event, hevent, hstart⟩ := List.mem_filterMap.mp hmem
    refine ⟨event, hevent, ?_⟩
    cases event with
    | toolCallStart index id name signature =>
      cases hstart
      rfl
    | _ => cases hstart
  congr 1
  · refine List.map_congr_left fun started hmem => ?_
    obtain ⟨event, hevent, hindex⟩ := hstarted hmem
    have hnone : argsOf started.1 more = "" := argsOf_eq_empty fun other hother hother' =>
      absurd (hmore other hother _ hother').1 (Nat.not_le.mpr (h event hevent _ hindex).2)
    rw [argsOf_append, hnone, String.append_empty]
  · refine List.map_congr_left fun started hmem => ?_
    obtain ⟨event, hevent, hindex⟩ := hstarted hmem
    have hnone : argsOf started.1 events = "" := argsOf_eq_empty fun other hother hother' =>
      absurd (hmore event hevent _ hindex).1 (Nat.not_le.mpr (h other hother _ hother').2)
    rw [argsOf_append, hnone, String.empty_append]

/-! ## What a part of an answer says -/

/-- The events have no finish and no usage. -/
def Quiet (events : List StreamEvent) : Prop :=
  ∀ event ∈ events, event.isFinish = false ∧ ∀ u, event ≠ .usage u

theorem finishOf_snoc (events : List StreamEvent) (a : StreamEvent) :
    finishOf (events ++ [a]) = finishStep (finishOf events) a := foldl_snoc ..

theorem finishOf_append : finishOf (events ++ more) = (finishOf more).or (finishOf events) := by
  induction more using List.reverseRecOn with
  | nil => rw [List.append_nil, finishOf, finishOf, List.foldl_nil, Option.none_or]
  | append_singleton more a ih =>
    rw [← List.append_assoc, finishOf_snoc, ih, finishOf_snoc]
    cases a <;> rfl

theorem Quiet.finishOf {events : List StreamEvent} (h : Quiet events) : finishOf events = none := by
  induction events using List.reverseRecOn with
  | nil => rfl
  | append_singleton events a ih =>
    obtain ⟨hevents, ha⟩ := List.forall_mem_append.mp h
    rw [finishOf_snoc, ih hevents]
    cases a with
    | finish reason => cases (ha _ List.mem_cons_self).1
    | _ => rfl

theorem Quiet.mergedUsage {events : List StreamEvent} (h : Quiet events) (more : List StreamEvent) :
    mergedUsage (events ++ more) = mergedUsage more := by
  have hquiet : events.foldl usageStep {} = {} := by
    induction events using List.reverseRecOn with
    | nil => rfl
    | append_singleton events a ih =>
      obtain ⟨hevents, ha⟩ := List.forall_mem_append.mp h
      rw [foldl_snoc, ih hevents]
      cases a with
      | usage u => exact absurd rfl ((ha _ List.mem_cons_self).2 u)
      | _ => rfl
  rw [Frontends.mergedUsage, List.foldl_append, hquiet, Frontends.mergedUsage]

/-- Events that say a text, a refusal, a thinking and calls, with indexes from `first` up
to `last`. -/
structure Says (text refusal thinking : String) (calls : List SaidCall) (first last : Nat)
    (events : List StreamEvent) : Prop where
  text : textOf events = text
  refusal : refusalOf events = refusal
  thinking : thinkingOf events = thinking
  calls : saidCalls events = calls
  within : CallsWithin first last events
  ordered : first ≤ last

/-- Events that say this and nothing else. -/
structure SaysOnly (text refusal thinking : String) (calls : List SaidCall) (first last : Nat)
    (events : List StreamEvent) : Prop
    extends Says text refusal thinking calls first last events where
  quiet : Quiet events

section
variable {text refusal thinking text' refusal' thinking' : String} {calls calls' : List SaidCall}
  {first mid last : Nat} {events more : List StreamEvent}

theorem Says.append (h : Says text refusal thinking calls first mid events)
    (hmore : Says text' refusal' thinking' calls' mid last more) :
    Says (text ++ text') (refusal ++ refusal') (thinking ++ thinking') (calls ++ calls') first last
      (events ++ more) where
  text := by rw [textOf_append, h.text, hmore.text]
  refusal := by rw [refusalOf_append, h.refusal, hmore.refusal]
  thinking := by rw [thinkingOf_append, h.thinking, hmore.thinking]
  calls := by rw [saidCalls_append h.within hmore.within, h.calls, hmore.calls]
  within := h.within.append hmore.within h.ordered hmore.ordered
  ordered := h.ordered.trans hmore.ordered

theorem SaysOnly.append (h : SaysOnly text refusal thinking calls first mid events)
    (hmore : SaysOnly text' refusal' thinking' calls' mid last more) :
    SaysOnly (text ++ text') (refusal ++ refusal') (thinking ++ thinking')
      (calls ++ calls') first last
      (events ++ more) where
  toSays := h.toSays.append hmore.toSays
  quiet := List.forall_mem_append.mpr ⟨h.quiet, hmore.quiet⟩

theorem SaysOnly.nil (first : Nat) : SaysOnly "" "" "" [] first first [] where
  text := rfl
  refusal := rfl
  thinking := rfl
  calls := rfl
  within _ hevent := absurd hevent List.not_mem_nil
  ordered := Nat.le_refl first
  quiet _ hevent := absurd hevent List.not_mem_nil

theorem SaysOnly.widen (h : SaysOnly text refusal thinking calls first mid events)
    (hle : mid ≤ last) : SaysOnly text refusal thinking calls first last events where
  text := h.text
  refusal := h.refusal
  thinking := h.thinking
  calls := h.calls
  within event hevent index hindex :=
    ⟨(h.within event hevent index hindex).1, (h.within event hevent index hindex).2.trans_le hle⟩
  ordered := h.ordered.trans hle
  quiet := h.quiet

/-- Finishes and usage say nothing. -/
theorem says_nothing (first : Nat)
    (h : ∀ event ∈ events, event.isFinish = true ∨ ∃ u, event = .usage u) :
    Says "" "" "" [] first first events := by
  induction events with
  | nil => exact (SaysOnly.nil first).toSays
  | cons event events ih =>
    obtain ⟨hevent, hrest⟩ := List.forall_mem_cons.mp h
    have hhead : Says "" "" "" [] first first [event] := by
      have hcall : event.callIndex = none := by
        rcases hevent with hevent | ⟨u, rfl⟩
        · cases event with
          | finish reason => rfl
          | _ => cases hevent
        · rfl
      constructor
      case within =>
        intro other hother index hindex
        rw [List.mem_singleton.mp hother, hcall] at hindex
        cases hindex
      case ordered => exact Nat.le_refl first
      all_goals
        rcases hevent with hevent | ⟨u, rfl⟩
        · cases event with
          | finish reason => rfl
          | _ => cases hevent
        · rfl
    exact hhead.append (ih hrest)

end

/-! ## Pieces -/

variable (first : Nat)

/-- Events of which each has one piece of a text, and none is about a call. -/
theorem says_of_pieces {f : String → StreamEvent} {text refusal thinking : String}
    {pieces : List String} (htext : textOf (pieces.map f) = text)
    (hrefusal : refusalOf (pieces.map f) = refusal)
    (hthinking : thinkingOf (pieces.map f) = thinking)
    (hcall : ∀ piece, (f piece).callIndex = none)
    (hquiet : ∀ piece, (f piece).isFinish = false ∧ ∀ u, f piece ≠ .usage u) :
    SaysOnly text refusal thinking [] first first (pieces.map f) where
  text := htext
  refusal := hrefusal
  thinking := hthinking
  calls := by
    have hnone : (pieces.map f).filterMap (·.startedAs) = [] := by
      rw [List.filterMap_eq_nil_iff]
      intro event hevent
      obtain ⟨piece, -, rfl⟩ := List.mem_map.mp hevent
      have hindex := hcall piece
      cases hf : f piece with
      | toolCallStart index id name signature =>
        rw [hf] at hindex
        cases hindex
      | _ => rfl
    rw [saidCalls, hnone]
    rfl
  within event hevent index hindex := by
    obtain ⟨piece, -, rfl⟩ := List.mem_map.mp hevent
    rw [hcall] at hindex
    cases hindex
  ordered := Nat.le_refl first
  quiet event hevent := by
    obtain ⟨piece, -, rfl⟩ := List.mem_map.mp hevent
    exact hquiet piece

/-- Steps that look at no event leave a text empty. -/
theorem foldl_map_eq_empty {f : String → StreamEvent} {step : String → StreamEvent → String}
    (h : ∀ piece, step "" (f piece) = "") (pieces : List String) :
    (pieces.map f).foldl step "" = "" := by
  induction pieces with
  | nil => rfl
  | cons piece pieces ih => rw [List.map_cons, List.foldl_cons, h, ih]

theorem says_text (pieces : List String) :
    SaysOnly (String.join pieces) "" "" [] first first (pieces.map .textDelta) :=
  says_of_pieces first (List.foldl_map ..) (foldl_map_eq_empty (fun _ => rfl) pieces)
    (foldl_map_eq_empty (fun _ => rfl) pieces) (fun _ => rfl)
    (fun _ => ⟨rfl, fun _ h => by cases h⟩)

theorem says_thinking (signature : Option String) (pieces : List String) :
    SaysOnly "" "" (String.join pieces) [] first first (pieces.map (.thinkingDelta · signature)) :=
  says_of_pieces first (foldl_map_eq_empty (fun _ => rfl) pieces)
    (foldl_map_eq_empty (fun _ => rfl) pieces) (List.foldl_map ..) (fun _ => rfl)
    (fun _ => ⟨rfl, fun _ h => by cases h⟩)

theorem says_signatures (signatures : List String) :
    SaysOnly "" "" "" [] first first (signatures.map fun s => .thinkingDelta "" (some s)) :=
  says_of_pieces first (foldl_map_eq_empty (fun _ => rfl) signatures)
    (foldl_map_eq_empty (fun _ => rfl) signatures) (foldl_map_eq_empty (fun _ => rfl) signatures)
    (fun _ => rfl) (fun _ => ⟨rfl, fun _ h => by cases h⟩)

/-- A call with its arguments in pieces. -/
theorem says_call (index : Nat) (id : Option String) (name : String) (signature : Option String)
    (pieces : List String) :
    SaysOnly "" "" "" [⟨id, name, String.join pieces⟩] index (index + 1)
      (.toolCallStart index id name signature :: pieces.map (.toolCallArgsDelta index)) where
  text := foldl_map_eq_empty (fun _ => rfl) pieces
  refusal := foldl_map_eq_empty (fun _ => rfl) pieces
  thinking := foldl_map_eq_empty (fun _ => rfl) pieces
  calls := by
    have hargs : argsOf index (.toolCallStart index id name signature ::
        pieces.map (.toolCallArgsDelta index)) = String.join pieces := by
      unfold argsOf String.join
      rw [List.foldl_cons, List.foldl_map]
      simp only [argsStep, if_true]
    have hnone : (pieces.map (StreamEvent.toolCallArgsDelta index)).filterMap (·.startedAs) =
        [] := by
      rw [List.filterMap_eq_nil_iff]
      intro event hevent
      obtain ⟨piece, -, rfl⟩ := List.mem_map.mp hevent
      rfl
    have hstarted : (StreamEvent.toolCallStart index id name signature ::
        pieces.map (.toolCallArgsDelta index)).filterMap (·.startedAs) = [(index, id, name)] := by
      rw [List.filterMap_cons, hnone]
      rfl
    rw [saidCalls, hstarted, List.map_singleton, hargs]
  within event hevent i hi := by
    have hindex : event.callIndex = some index := by
      rcases List.mem_cons.mp hevent with rfl | hevent
      · rfl
      · obtain ⟨piece, -, rfl⟩ := List.mem_map.mp hevent
        rfl
    rw [hindex] at hi
    cases hi
    exact ⟨Nat.le_refl index, Nat.lt_succ_self index⟩
  ordered := Nat.le_succ index
  quiet event hevent := by
    rcases List.mem_cons.mp hevent with rfl | hevent
    · exact ⟨rfl, fun _ h => by cases h⟩
    · obtain ⟨piece, -, rfl⟩ := List.mem_map.mp hevent
      exact ⟨rfl, fun _ h => by cases h⟩

/-! ## Answers that say the same -/

/-- The JSON of the arguments of a call: no text is an empty object. -/
def argumentsOf (J : SerdeJson) (args : String) : Option Value :=
  J.fromStr (if args = "" then "{}" else args)

/-- The calls have the same id, name and arguments. -/
def SameCall (J : SerdeJson) (a b : SaidCall) : Prop :=
  a.id = b.id ∧ a.name = b.name ∧ argumentsOf J a.args = argumentsOf J b.args

structure Alike (J : SerdeJson) (a b : Answer) : Prop where
  text : a.text = b.text
  refusal : a.refusal = b.refusal
  thinking : a.thinking = b.thinking
  calls : List.Forall₂ (SameCall J) a.calls b.calls
  finish : a.finish = b.finish
  usage : a.usage = b.usage

/-! ## Events that are cut differently -/

/-- The events of some data one after another, unless one of them is a failure. -/
def decodeAll {α ε : Type} (decode : α → Except ε (List StreamEvent)) :
    List α → Except ε (List StreamEvent)
  | [] => .ok []
  | data :: datas => do
    let events ← decode data
    let rest ← decodeAll decode datas
    pure (events ++ rest)

section
variable {α ε : Type} {decode : α → Except ε (List StreamEvent)} {datas others : List α}
  {events more : List StreamEvent}

theorem decodeAll_cons {data : α} (h : decode data = .ok events)
    (hdatas : decodeAll decode datas = .ok more) :
    decodeAll decode (data :: datas) = .ok (events ++ more) := by
  rw [decodeAll, h, hdatas]
  rfl

theorem decodeAll_append (h : decodeAll decode datas = .ok events)
    (hothers : decodeAll decode others = .ok more) :
    decodeAll decode (datas ++ others) = .ok (events ++ more) := by
  induction datas generalizing events with
  | nil =>
    cases h
    exact hothers
  | cons data datas ih =>
    simp only [decodeAll, bind, Except.bind] at h
    split at h
    · exact nomatch h
    · next found hfound =>
        split at h
        · exact nomatch h
        · next rest hrest =>
            cases h
            rw [List.append_assoc, List.cons_append]
            exact decodeAll_cons hfound (ih hrest)

/-- Data without events may be left out. -/
theorem decodeAll_filter (tells : α → Bool)
    (h : ∀ data, tells data = false → decode data = .ok []) :
    decodeAll decode (datas.filter tells) = decodeAll decode datas := by
  induction datas with
  | nil => rfl
  | cons data datas ih =>
    cases htells : tells data with
    | true => rw [List.filter_cons_of_pos htells, decodeAll, decodeAll, ih]
    | false =>
      rw [List.filter_cons_of_neg (by simp [htells]), ih, decodeAll, h data htells]
      cases decodeAll decode datas <;> rfl

/-- Data that are decoded as what they are read as. -/
theorem decodeAll_read {β : Type} {decodeRead : β → Except ε (List StreamEvent)}
    {reads : α → β → Prop} (h : ∀ data v, reads data v → decode data = decodeRead v)
    {values : List β} (hreads : List.Forall₂ reads datas values) :
    decodeAll decode datas = decodeAll decodeRead values := by
  induction hreads with
  | nil => rfl
  | cons head tail ih => rw [decodeAll, decodeAll, h _ _ head, ih]

end

/-- A fold makes the same of two lists of events, wherever it starts. -/
def FoldsAlike {β : Type} (step : β → StreamEvent → β) (events others : List StreamEvent) : Prop :=
  ∀ b, events.foldl step b = others.foldl step b

theorem FoldsAlike.append {β : Type} {step : β → StreamEvent → β}
    {events others more mores : List StreamEvent} (h : FoldsAlike step events others)
    (hmore : FoldsAlike step more mores) : FoldsAlike step (events ++ more) (others ++ mores) := by
  intro b
  rw [List.foldl_append, List.foldl_append, h b, hmore]

/-- The events say the same words, arguments, finish and usage; which calls start is left open. -/
structure SameWords (events others : List StreamEvent) : Prop where
  text : FoldsAlike textStep events others
  refusal : FoldsAlike refusalStep events others
  thinking : FoldsAlike thinkingStep events others
  args : ∀ index, FoldsAlike (argsStep index) events others
  finish : FoldsAlike finishStep events others
  usage : FoldsAlike usageStep events others

theorem SameWords.refl (events : List StreamEvent) : SameWords events events :=
  ⟨fun _ => rfl, fun _ => rfl, fun _ => rfl, fun _ _ => rfl, fun _ => rfl, fun _ => rfl⟩

theorem SameWords.append {events others more mores : List StreamEvent} (h : SameWords events others)
    (hmore : SameWords more mores) : SameWords (events ++ more) (others ++ mores) where
  text := h.text.append hmore.text
  refusal := h.refusal.append hmore.refusal
  thinking := h.thinking.append hmore.thinking
  args index := (h.args index).append (hmore.args index)
  finish := h.finish.append hmore.finish
  usage := h.usage.append hmore.usage

/-- A start of a call says no words. -/
theorem SameWords.start {events others : List StreamEvent} (h : SameWords events others)
    (index : Nat) (id : Option String) (name : String) (signature : Option String) :
    SameWords events (.toolCallStart index id name signature :: others) :=
  ⟨h.text, h.refusal, h.thinking, h.args, h.finish, h.usage⟩

/-- One event for each piece of a text that is not empty. -/
def deltas (f : String → StreamEvent) (pieces : List String) : List StreamEvent :=
  (pieces.filter (· ≠ "")).map f

section
variable {f : String → StreamEvent}

theorem foldl_deltas {step : String → StreamEvent → String}
    (h : ∀ s piece, step s (f piece) = s ++ piece) (s : String) (pieces : List String) :
      (deltas f pieces).foldl step s = s ++ String.join pieces := by
  rw [deltas, List.foldl_map]
  simp only [h]
  induction pieces generalizing s with
  | nil => exact String.append_empty.symm
  | cons piece pieces ih =>
    have hjoin : String.join (piece :: pieces) = piece ++ String.join pieces := by
      rw [← List.singleton_append, String.join_append]
      exact congrArg (· ++ String.join pieces) String.empty_append
    by_cases hpiece : piece = ""
    · rw [List.filter_cons_of_neg (by simp [hpiece]), ih, hjoin, hpiece, String.empty_append]
    · rw [List.filter_cons_of_pos (by simp [hpiece]), List.foldl_cons, ih, hjoin,
        String.append_assoc]

theorem foldl_deltas_of_skip {β : Type} {step : β → StreamEvent → β}
    (h : ∀ b piece, step b (f piece) = b) (b : β) (pieces : List String) :
    (deltas f pieces).foldl step b = b := by
  rw [deltas, List.foldl_map]
  simp only [h]
  induction pieces.filter (· ≠ "") with
  | nil => rfl
  | cons piece pieces ih => exact ih

/-- The text of the pieces, added in pieces or at once. -/
theorem foldsAlike_deltas {step : String → StreamEvent → String}
    (h : ∀ s piece, step s (f piece) = s ++ piece) (pieces : List String) :
    FoldsAlike step (deltas f pieces) (deltas f [String.join pieces]) := by
  intro s
  rw [foldl_deltas h, foldl_deltas h]
  exact congrArg (s ++ ·) String.empty_append.symm

theorem foldsAlike_of_skip {β : Type} {step : β → StreamEvent → β}
    (h : ∀ b piece, step b (f piece) = b) (pieces others : List String) :
    FoldsAlike step (deltas f pieces) (deltas f others) := by
  intro b
  rw [foldl_deltas_of_skip h, foldl_deltas_of_skip h]

end

variable (pieces : List String)

theorem sameWords_text :
    SameWords (deltas .textDelta pieces) (deltas .textDelta [String.join pieces]) where
  text := foldsAlike_deltas (fun _ _ => rfl) pieces
  refusal := foldsAlike_of_skip (fun _ _ => rfl) pieces _
  thinking := foldsAlike_of_skip (fun _ _ => rfl) pieces _
  args _ := foldsAlike_of_skip (fun _ _ => rfl) pieces _
  finish := foldsAlike_of_skip (fun _ _ => rfl) pieces _
  usage := foldsAlike_of_skip (fun _ _ => rfl) pieces _

theorem sameWords_refusal :
    SameWords (deltas .refusalDelta pieces) (deltas .refusalDelta [String.join pieces]) where
  text := foldsAlike_of_skip (fun _ _ => rfl) pieces _
  refusal := foldsAlike_deltas (fun _ _ => rfl) pieces
  thinking := foldsAlike_of_skip (fun _ _ => rfl) pieces _
  args _ := foldsAlike_of_skip (fun _ _ => rfl) pieces _
  finish := foldsAlike_of_skip (fun _ _ => rfl) pieces _
  usage := foldsAlike_of_skip (fun _ _ => rfl) pieces _

theorem sameWords_thinking : SameWords (deltas (.thinkingDelta · none) pieces)
      (deltas (.thinkingDelta · none) [String.join pieces]) where
  text := foldsAlike_of_skip (fun _ _ => rfl) pieces _
  refusal := foldsAlike_of_skip (fun _ _ => rfl) pieces _
  thinking := foldsAlike_deltas (fun _ _ => rfl) pieces
  args _ := foldsAlike_of_skip (fun _ _ => rfl) pieces _
  finish := foldsAlike_of_skip (fun _ _ => rfl) pieces _
  usage := foldsAlike_of_skip (fun _ _ => rfl) pieces _

theorem sameWords_args (index : Nat) (pieces : List String) :
    SameWords (deltas (.toolCallArgsDelta index) pieces)
      (deltas (.toolCallArgsDelta index) [String.join pieces]) where
  text := foldsAlike_of_skip (fun _ _ => rfl) pieces _
  refusal := foldsAlike_of_skip (fun _ _ => rfl) pieces _
  thinking := foldsAlike_of_skip (fun _ _ => rfl) pieces _
  args i := by
    by_cases h : index = i
    · exact foldsAlike_deltas (fun _ _ => if_pos h) pieces
    · exact foldsAlike_of_skip (fun _ _ => if_neg h) pieces _
  finish := foldsAlike_of_skip (fun _ _ => rfl) pieces _
  usage := foldsAlike_of_skip (fun _ _ => rfl) pieces _

/-- Events with the same words say the same exactly if they say the same calls. -/
theorem SameWords.answerOf_eq_iff {events others : List StreamEvent} (h : SameWords events others) :
    answerOf events = answerOf others ↔ saidCalls events = saidCalls others := by
  have htext : textOf events = textOf others := h.text ""
  have hrefusal : refusalOf events = refusalOf others := h.refusal ""
  have hthinking : thinkingOf events = thinkingOf others := h.thinking ""
  have hfinish : finishOf events = finishOf others := h.finish none
  have husage : mergedUsage events = mergedUsage others := h.usage {}
  simp only [answerOf, Answer.mk.injEq, htext, hrefusal, hthinking, hfinish, husage, true_and,
    and_true]

end Kinetix.Frontends
