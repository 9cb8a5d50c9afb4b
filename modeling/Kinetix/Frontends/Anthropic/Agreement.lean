import Kinetix.Frontends.Anthropic.Assembly

/-!
# Streamed and aggregated Anthropic answers

A streamed and an aggregated answer are the same, up to merging adjacent blocks of text and of
thinking, exactly if all text and thinking comes before the calls and each call reads the same from
the arguments that name it and from those that arrive while it is the latest.

## Implementation notes

Two contents with the same merged form have the same profile: the number of calls, how often text
comes directly after a call, and a weight that counts for every run of thinking the calls before it.
An answer with text or thinking after a call has different profiles when it is streamed and when it
is aggregated.
-/

namespace Kinetix.Frontends.Anthropic
open Json StateMachine

/-! ## Merging -/

def Content.kind : Content → BlockKind
  | .text _ => .text
  | .thinking _ _ => .thinking
  | .toolUse _ _ _ => .toolUse

/-- Put a block after the latest one, or into it. -/
def join : Content → List Content → List Content
  | .text t, .text earlier :: rest => .text (earlier ++ t) :: rest
  | .thinking t s, .thinking earlier signed :: rest =>
    .thinking (earlier ++ t) (signed ++ s) :: rest
  | c, rest => c :: rest

/-- Merge adjacent blocks; the latest comes first. -/
def mergeLatest (content : List Content) : List Content :=
  content.foldl (fun rest c => join c rest) []

/-- Merge adjacent blocks. -/
def merged (content : List Content) : List Content := (mergeLatest content).reverse

/-- A client that assembles the stream has the content and the stop reason of the aggregation. -/
def Agrees (J : SerdeJson) (ctx : EncoderCtx) (events : List StreamEvent) (usage : TokenUsage) :
    Prop :=
  (∃ content, (assembled ctx events).content J = content.map some ∧
    merged content = merged (aggregate J ctx.modelName ctx.requestId events usage).content) ∧
  (assembled ctx events).stopReason =
    some (aggregate J ctx.modelName ctx.requestId events usage).stopReason

/-! ## Calls -/

/-- A call with the arguments that name it and those that arrive while it is the latest. -/
structure Call where
  index : Nat
  id : String
  name : String
  own : String := ""
  turn : String := ""

/-- Arguments that name the call. -/
def Call.addOwn (index : Nat) (args : String) (call : Call) : Call :=
  if call.index = index then { call with own := call.own ++ args } else call

def Call.addTurn (args : String) (call : Call) : Call := { call with turn := call.turn ++ args }

def Call.step (requestId : String) (calls : List Call) : StreamEvent → List Call
  | .toolCallStart index id name _ => { index, id := toolId requestId index id, name } :: calls
  | .toolCallArgsDelta index args =>
    match calls.map (addOwn index args) with
    | latest :: rest => latest.addTurn args :: rest
    | [] => []
  | _ => calls

/-- The calls of a stream, the latest first. -/
def calls (requestId : String) (events : List StreamEvent) : List Call :=
  events.foldl (Call.step requestId) []

theorem calls_snoc (requestId : String) (events : List StreamEvent) (a : StreamEvent) :
    calls requestId (events ++ [a]) = Call.step requestId (calls requestId events) a := by
  rw [calls, List.foldl_append]
  rfl

/-- Each call reads the same from its own arguments as from those that came in its turn. -/
def CallsRead (J : SerdeJson) (requestId : String) (events : List StreamEvent) : Prop :=
  ∀ call ∈ calls requestId events, clientInput J call.own = some (toolInput J call.turn)

/-! ## Merged contents -/

theorem mergeLatest_snoc (content : List Content) (c : Content) :
    mergeLatest (content ++ [c]) = join c (mergeLatest content) := by
  rw [mergeLatest, List.foldl_append]
  rfl

/-- No block can be merged into the one before it. -/
def IsMerged : List Content → Prop
  | [] => True
  | c :: rest => join c rest = c :: rest ∧ IsMerged rest

theorem isMerged_join (c : Content) {rest : List Content} (h : IsMerged rest) :
    IsMerged (join c rest) := by
  match c, rest with
  | .text t, .text earlier :: rest =>
    refine ⟨?_, h.2⟩
    match rest, h.1 with
    | [], _ | .thinking _ _ :: _, _ | .toolUse _ _ _ :: _, _ => rfl
    | .text _ :: _, heq => simp [join] at heq
  | .thinking t s, .thinking earlier signed :: rest =>
    refine ⟨?_, h.2⟩
    match rest, h.1 with
    | [], _ | .text _ :: _, _ | .toolUse _ _ _ :: _, _ => rfl
    | .thinking _ _ :: _, heq => simp [join] at heq
  | .text _, [] | .thinking _ _, [] | .toolUse _ _ _, [] => exact ⟨rfl, h⟩
  | .text _, .thinking _ _ :: _ | .text _, .toolUse _ _ _ :: _ => exact ⟨rfl, h⟩
  | .thinking _ _, .text _ :: _ | .thinking _ _, .toolUse _ _ _ :: _ => exact ⟨rfl, h⟩
  | .toolUse _ _ _, _ :: _ => exact ⟨rfl, h⟩

theorem isMerged_mergeLatest (content : List Content) : IsMerged (mergeLatest content) := by
  induction content using List.reverseRecOn with
  | nil => trivial
  | append_singleton content c ih =>
    rw [mergeLatest_snoc]
    exact isMerged_join c ih

/-- Merging a merged content changes nothing. -/
theorem mergeLatest_reverse {latest : List Content} (h : IsMerged latest) :
    mergeLatest latest.reverse = latest := by
  induction latest with
  | nil => rfl
  | cons c rest ih => rw [List.reverse_cons, mergeLatest_snoc, ih h.2, h.1]

/-- Calls are not merged. -/
theorem mergeLatest_tools (content : List Content) {tools : List Content}
    (h : ∀ c ∈ tools, c.kind = .toolUse) :
    mergeLatest (content ++ tools.reverse) = tools ++ mergeLatest content := by
  induction tools with
  | nil => simp
  | cons c tools ih =>
    have hc := h c List.mem_cons_self
    rw [List.reverse_cons, ← List.append_assoc, mergeLatest_snoc,
      ih fun d hd => h d (List.mem_cons_of_mem c hd)]
    cases c with
    | toolUse id name input => rfl
    | text _ | thinking _ _ => cases hc

/-! ## Profiles -/

/-- A summary of the kinds of blocks that merging does not change. -/
structure Profile where
  latest : Option BlockKind := none
  tools : Nat := 0
  /-- For every run of thinking the number of calls before it. -/
  weight : Nat := 0
  /-- How often text comes directly after a call. -/
  textAfterTool : Nat := 0

def Profile.push (p : Profile) (kind : BlockKind) : Profile where
  latest := some kind
  tools := p.tools + if kind = .toolUse then 1 else 0
  weight := p.weight + if kind = .thinking ∧ p.latest ≠ some .thinking then p.tools else 0
  textAfterTool :=
    p.textAfterTool + if kind = .text ∧ p.latest = some .toolUse then 1 else 0

/-- The profile of blocks of which the latest comes first. -/
def profile (kinds : List BlockKind) : Profile := kinds.foldr (fun kind p => p.push kind) {}

/-- A block that is not a call may be said in two. -/
theorem push_push (p : Profile) (kind : BlockKind) (h : kind ≠ .toolUse) :
    (p.push kind).push kind = p.push kind := by
  cases kind with
  | text | thinking => simp [Profile.push]
  | toolUse => exact absurd rfl h

theorem profile_join (c : Content) (rest : List Content) :
    profile ((join c rest).map (·.kind)) = (profile (rest.map (·.kind))).push c.kind := by
  match c, rest with
  | .text _, .text _ :: rest =>
    exact (push_push (profile (rest.map (·.kind))) .text (by decide)).symm
  | .thinking _ _, .thinking _ _ :: rest =>
    exact (push_push (profile (rest.map (·.kind))) .thinking (by decide)).symm
  | .text _, [] | .thinking _ _, [] | .toolUse _ _ _, [] => rfl
  | .text _, .thinking _ _ :: _ | .text _, .toolUse _ _ _ :: _ => rfl
  | .thinking _ _, .text _ :: _ | .thinking _ _, .toolUse _ _ _ :: _ => rfl
  | .toolUse _ _ _, _ :: _ => rfl

theorem profile_mergeLatest (content : List Content) :
    profile ((mergeLatest content).map (·.kind)) = profile (content.reverse.map (·.kind)) := by
  induction content using List.reverseRecOn with
  | nil => rfl
  | append_singleton content c ih =>
    rw [mergeLatest_snoc, profile_join, ih, List.reverse_append, List.reverse_singleton]
    rfl

/-! ## Content before the calls -/

/-- The block of a call in a stream. -/
def Call.shown (call : Call) : Shown := .tool call.index call.id call.name call.own

/-- The block of a call in an aggregation. -/
def Call.collected (J : SerdeJson) (call : Call) : Content :=
  .toolUse call.id call.name (toolInput J call.turn)

/-- The call as the aggregation remembers it. -/
def Call.current (call : Call) : CurTool := ⟨call.index, call.id, call.name, call.turn⟩

/-- Blocks without calls have the content of a list. -/
structure Base (J : SerdeJson) (base : List Shown) (content : List Content) : Prop where
  content : base.map (·.content J) = content.map some
  noCall : ∀ s ∈ base, s.call = none

theorem Base.addText {J : SerdeJson} {base : List Shown} {content : List Content}
    (h : Base J base content) (t : String) :
    Base J (Shown.addText t base) (join (.text t) content) := by
  obtain ⟨hcontent, hcall⟩ := h
  match base, content with
  | [], [] => exact ⟨rfl, by simp [Shown.addText, Shown.call]⟩
  | .text earlier :: base, c :: content =>
    obtain ⟨hc, hrest⟩ := List.cons.inj hcontent
    cases hc
    exact ⟨congrArg (List.cons (some (Content.text (earlier ++ t)))) hrest, by
      simpa [Shown.addText, Shown.call] using hcall⟩
  | .thinking earlier signed :: base, c :: content =>
    obtain ⟨hc, -⟩ := List.cons.inj hcontent
    cases hc
    exact ⟨congrArg (List.cons (some (Content.text t))) hcontent, by
      simpa [Shown.addText, Shown.call] using hcall⟩
  | .tool _ _ _ _ :: _, _ => exact absurd (hcall _ List.mem_cons_self) (by simp [Shown.call])

theorem Base.addThinking {J : SerdeJson} {base : List Shown} {content : List Content}
    (h : Base J base content) (t signature : String) :
    Base J (Shown.addThinking t signature base) (join (.thinking t signature) content) := by
  obtain ⟨hcontent, hcall⟩ := h
  match base, content with
  | [], [] => exact ⟨rfl, by simp [Shown.addThinking, Shown.call]⟩
  | .text earlier :: base, c :: content =>
    obtain ⟨hc, -⟩ := List.cons.inj hcontent
    cases hc
    exact ⟨congrArg (List.cons (some (Content.thinking t signature))) hcontent, by
      simpa [Shown.addThinking, Shown.call] using hcall⟩
  | .thinking earlier signed :: base, c :: content =>
    obtain ⟨hc, hrest⟩ := List.cons.inj hcontent
    cases hc
    exact ⟨congrArg
      (List.cons (some (Content.thinking (earlier ++ t) (signed ++ signature)))) hrest, by
      simpa [Shown.addThinking, Shown.call] using hcall⟩
  | .tool _ _ _ _ :: _, _ => exact absurd (hcall _ List.mem_cons_self) (by simp [Shown.call])

/-- Both answers are the same content before the calls. -/
structure Parts (J : SerdeJson) (calls : List Call) (shown : List Shown) (g : Aggregate)
    (base : List Shown) (early : List Content) : Prop where
  shown_eq : shown = calls.map (·.shown) ++ base
  base_eq : Base J base (mergeLatest early)
  curTool : g.curTool = calls.head?.map (·.current)
  blocks : g.blocks = early ++ (calls.tail.map (·.collected J)).reverse

/-- The events so far, folded by the aggregation. -/
def aggregated (J : SerdeJson) (requestId : String) (events : List StreamEvent) : Aggregate :=
  events.foldl (Aggregate.step J requestId) {}

theorem aggregated_snoc (J : SerdeJson) (requestId : String) (events : List StreamEvent)
    (a : StreamEvent) : aggregated J requestId (events ++ [a]) =
      (aggregated J requestId events).step J requestId a := by
  rw [aggregated, List.foldl_append]
  rfl

section Parts
variable {J : SerdeJson} {calls : List Call} {shown : List Shown} {g : Aggregate}
  {base : List Shown} {early : List Content}

theorem Parts.pushTool_blocks (h : Parts J calls shown g base early) :
    (g.pushTool J).blocks = early ++ (calls.map (·.collected J)).reverse ∧
      (g.pushTool J).curTool = none := by
  obtain ⟨-, -, hcur, hblocks⟩ := h
  cases calls with
  | nil =>
    have hnone : g.curTool = none := hcur
    simpa [Aggregate.pushTool, hnone] using hblocks
  | cons call calls =>
    have hsome : g.curTool = some call.current := hcur
    simp only [Aggregate.pushTool, hsome, hblocks]
    simp [Call.collected, Call.current]

/-- Text and thinking before all calls go to both answers. -/
theorem Parts.content (h : Parts J [] shown g base early) {c : Content} {base' : List Shown}
    {g' : Aggregate} (hbase : Base J base' (join c (mergeLatest early)))
    (hcur : g'.curTool = none) (hblocks : g'.blocks = g.blocks ++ [c]) :
    Parts J [] base' g' base' (early ++ [c]) where
  shown_eq := rfl
  base_eq := by rwa [mergeLatest_snoc]
  curTool := hcur
  blocks := by simpa [h.blocks] using hblocks

theorem Parts.start (h : Parts J calls shown g base early) (call : Call) (hown : call.own = "")
    (hturn : call.turn = "") :
    Parts J (call :: calls) (.tool call.index call.id call.name "" :: shown)
      { g.pushTool J with curTool := some ⟨call.index, call.id, call.name, ""⟩ } base early where
  shown_eq := by rw [h.shown_eq, List.map_cons, Call.shown, hown]; rfl
  base_eq := h.base_eq
  curTool := by rw [← hturn]; rfl
  blocks := h.pushTool_blocks.1

theorem addArgs_noCall {s : Shown} (h : s.call = none) (index : Nat) (args : String) :
    Shown.addArgs index args s = s := by
  cases s with
  | text _ | thinking _ _ => rfl
  | tool _ _ _ _ => cases h

theorem addArgs_shown (call : Call) (index : Nat) (args : String) :
    Shown.addArgs index args call.shown = (call.addOwn index args).shown := by
  simp only [Call.shown, Shown.addArgs, Call.addOwn]
  split <;> rfl

/-- The arguments of a call change what both answers keep for it. -/
theorem Parts.args (h : Parts J calls shown g base early) (requestId : String) (index : Nat)
    (args : String) :
    Parts J (Call.step requestId calls (.toolCallArgsDelta index args))
      (shown.map (Shown.addArgs index args))
      { g with curTool := g.curTool.map fun tool => { tool with args := tool.args ++ args } }
      base early := by
  have hshown : shown.map (Shown.addArgs index args) =
      (calls.map (Call.addOwn index args)).map (·.shown) ++ base := by
    have hbase : base.map (Shown.addArgs index args) = base := by
      conv_rhs => rw [← List.map_id base]
      exact List.map_congr_left fun s hs => addArgs_noCall (h.base_eq.noCall s hs) index args
    rw [h.shown_eq, List.map_append, hbase, List.map_map, List.map_map]
    congr 1
    exact List.map_congr_left fun call _ => addArgs_shown call index args
  have hcollected : ∀ call : Call, (call.addOwn index args).collected J = call.collected J := by
    intro call
    simp only [Call.addOwn]
    split <;> rfl
  have hcurrent : ∀ call : Call, (call.addOwn index args).current = call.current := by
    intro call
    simp only [Call.addOwn]
    split <;> rfl
  cases calls with
  | nil =>
    refine ⟨hshown, h.base_eq, ?_, h.blocks⟩
    have hnone : g.curTool = none := h.curTool
    simp [hnone, Call.step]
  | cons call calls =>
    refine ⟨hshown, h.base_eq, ?_, ?_⟩
    · have hsome : g.curTool = some call.current := h.curTool
      have hcur := hcurrent call
      simp only [Call.step, List.map_cons, List.head?_cons, Option.map_some, hsome, ← hcur]
      rfl
    · simpa [Call.step, Function.comp_def, hcollected] using h.blocks

end Parts

theorem calls_index (requestId : String) (events : List StreamEvent) :
    (calls requestId events).map (·.index) = (startedCalls events).reverse := by
  have hown : ∀ index args (calls : List Call),
      (calls.map (Call.addOwn index args)).map (·.index) = calls.map (·.index) := by
    intro index args calls
    rw [List.map_map]
    refine List.map_congr_left fun call _ => ?_
    simp only [Function.comp_apply, Call.addOwn]
    split <;> rfl
  induction events using List.reverseRecOn with
  | nil => rfl
  | append_singleton events a ih =>
    rw [calls_snoc, startedCalls_snoc]
    cases a with
    | toolCallStart index id name _ => simpa [Call.step, StreamEvent.startedCall] using ih
    | toolCallArgsDelta index args =>
      rw [← hown index args] at ih
      simp only [Call.step, StreamEvent.startedCall, Option.toList_none, List.append_nil]
      cases hc : (calls requestId events).map (Call.addOwn index args) with
      | nil => simpa [hc] using ih
      | cons latest rest => simpa [hc, Call.addTurn] using ih
    | start _ | textDelta _ | refusalDelta _ | thinkingDelta _ _ | usage _ | finish _ =>
      simpa [Call.step, StreamEvent.startedCall] using ih

/-- If all content comes before the calls, both answers are that content and the calls. -/
theorem exists_parts (J : SerdeJson) (requestId : String) {events : List StreamEvent}
    (h : ContentBeforeCalls events) : ∃ base early, Parts J (calls requestId events)
      (streamed requestId events) (aggregated J requestId events) base early := by
  induction events using List.reverseRecOn with
  | nil => exact ⟨[], [], rfl, ⟨rfl, by simp⟩, rfl, rfl⟩
  | append_singleton events a ih =>
    obtain ⟨hpre, hcontent⟩ := each_snoc.mp h
    obtain ⟨base, early, hparts⟩ := ih hpre
    have hnone : a.isContent = true → calls requestId events = [] := by
      intro ha
      have hindex := calls_index requestId events
      rw [hcontent ha] at hindex
      exact List.map_eq_nil_iff.mp hindex
    rw [calls_snoc, streamed_snoc, aggregated_snoc]
    have hpush : a.isContent = true → (aggregated J requestId events).pushTool J =
        aggregated J requestId events := by
      intro ha
      have hcur := hparts.curTool
      rw [hnone ha] at hcur
      have hcur' : (aggregated J requestId events).curTool = none := hcur
      simp only [Aggregate.pushTool, hcur']
    have text : ∀ t, a.isContent = true → ∃ base early, Parts J (calls requestId events)
        (Shown.addText t (streamed requestId events))
        ((aggregated J requestId events).pushText J t) base early := by
      intro t ha
      have hcalls := hnone ha
      rw [hcalls] at hparts ⊢
      rw [show streamed requestId events = base from hparts.shown_eq]
      refine ⟨_, _, hparts.content (c := .text t) (hparts.base_eq.addText t) ?_ ?_⟩
      · simpa [Aggregate.pushText, hpush ha] using hparts.curTool
      · simp [Aggregate.pushText, hpush ha]
    cases a with
    | textDelta t | refusalDelta t => exact text t rfl
    | thinkingDelta t signature =>
      have hcalls := hnone rfl
      simp only [Call.step, Shown.step]
      rw [hcalls] at hparts ⊢
      rw [show streamed requestId events = base from hparts.shown_eq]
      exact ⟨_, _, hparts.content (c := .thinking t (signature.getD ""))
        (hparts.base_eq.addThinking t _) hparts.curTool rfl⟩
    | toolCallStart index id name _ =>
      exact ⟨base, early, hparts.start
        { index, id := toolId requestId index id, name } rfl rfl⟩
    | toolCallArgsDelta index args => exact ⟨base, early, hparts.args requestId index args⟩
    | start _ | usage _ => exact ⟨base, early, hparts⟩
    | finish _ =>
      exact ⟨base, early, hparts.shown_eq, hparts.base_eq, hparts.curTool, hparts.blocks⟩

/-! ## Content after a call -/

def Shown.kind : Shown → BlockKind
  | .text _ => .text
  | .thinking _ _ => .thinking
  | .tool _ _ _ _ => .toolUse

/-- How far the aggregation is behind the stream when calls have started. -/
structure Behind (events : List StreamEvent) (p q : Profile) : Prop where
  tools : p.tools = q.tools + 1
  latest : p.latest = some .toolUse ∨ p.latest = some .thinking ∧ q.latest = some .thinking
  weight : (ContentBeforeCalls events ∧ p.latest = some .toolUse ∧ q.weight ≤ p.weight) ∨
    q.weight < p.weight

/-- The profiles of the stream and of the aggregation after some events. The aggregation holds back
the latest call until text or another call comes, so thinking overtakes it. -/
inductive Lag (events : List StreamEvent) (p q : Profile) : Bool → Prop
  | before (content : ContentBeforeCalls events) (calls : startedCalls events = [])
      (latest : p.latest ≠ some .toolUse) (tools : p.tools = 0 ∧ q.tools = 0)
      (weight : p.weight = 0 ∧ q.weight = 0) : Lag events p q false
  | behind (behind : Behind events p q) : Lag events p q true
  | parted {pending : Bool} (text : 0 < q.textAfterTool) : Lag events p q pending

/-- What the aggregation holds back. -/
def Profile.flush (q : Profile) (pending : Bool) : Profile :=
  if pending then q.push .toolUse else q

section Lag
variable {events : List StreamEvent} {a : StreamEvent} {p q : Profile} {pending : Bool}

/-- Text is not shown by the stream after a call, and flushes the call of the aggregation. -/
theorem Lag.text (h : Lag events p q pending) (ha : a.startedCall = none) :
    Lag (events ++ [a]) (if p.latest = some .toolUse then p else p.push .text)
      ((q.flush pending).push .text) false := by
  cases h with
  | before content calls latest tools weight =>
    refine .before (each_snoc.mpr ⟨content, fun _ => calls⟩) (by simp [calls, ha]) ?_ ?_ ?_
    · simp [latest, Profile.push]
    · simp [latest, Profile.push, Profile.flush, tools]
    · simp [latest, Profile.push, Profile.flush, weight]
  | behind behind =>
    apply Lag.parted
    simp [Profile.flush, Profile.push]
  | parted text =>
    apply Lag.parted
    have hle : q.textAfterTool ≤ (q.flush pending).textAfterTool := by
      cases pending <;> simp [Profile.flush, Profile.push]
    simp only [Profile.push]
    omega

/-- Thinking comes after the latest call in the stream and before it in the aggregation. -/
theorem Lag.thinking (h : Lag events p q pending) (ha : a.startedCall = none) :
    Lag (events ++ [a]) (p.push .thinking) (q.push .thinking) pending := by
  cases h with
  | before content calls latest tools weight =>
    refine .before (each_snoc.mpr ⟨content, fun _ => calls⟩) (by simp [calls, ha]) ?_ ?_ ?_
    · simp [Profile.push]
    · simp [Profile.push, tools]
    · simp [Profile.push, tools, weight]
  | behind behind =>
    obtain ⟨tools, latest, weight⟩ := behind
    refine .behind ⟨by simpa [Profile.push] using tools, .inr ⟨rfl, rfl⟩, .inr ?_⟩
    simp only [Profile.push]
    rcases latest with hp | ⟨hp, hq⟩
    · rcases weight with ⟨-, -, hw⟩ | hw <;> simp [hp] <;> split <;> omega
    · rcases weight with ⟨-, ht, -⟩ | hw
      · rw [hp] at ht
        cases ht
      · simpa [hp, hq] using hw
  | parted text =>
    apply Lag.parted
    simpa [Profile.push] using text

/-- A call flushes the call before it. -/
theorem Lag.call (h : Lag events p q pending) (ha : a.isContent = false) :
    Lag (events ++ [a]) (p.push .toolUse) (q.flush pending) true := by
  have content : ContentBeforeCalls events → ContentBeforeCalls (events ++ [a]) :=
    fun hc => each_snoc.mpr ⟨hc, fun h => by simp [ha] at h⟩
  cases h with
  | before hcontent calls latest tools weight =>
    refine .behind ⟨?_, .inl rfl, .inl ⟨content hcontent, rfl, ?_⟩⟩
    · simp [Profile.push, Profile.flush, tools]
    · simp [Profile.flush, weight]
  | behind behind =>
    obtain ⟨tools, latest, weight⟩ := behind
    refine .behind ⟨?_, .inl rfl, ?_⟩
    · simp [Profile.push, Profile.flush, tools]
    · rcases weight with ⟨hc, -, hw⟩ | hw
      · exact .inl ⟨content hc, rfl, by simpa [Profile.push, Profile.flush] using hw⟩
      · exact .inr (by simpa [Profile.push, Profile.flush] using hw)
  | parted text =>
    apply Lag.parted
    cases pending <;> simpa [Profile.flush, Profile.push] using text

/-- Other events change no profile. -/
theorem Lag.quiet (h : Lag events p q pending) (ha : a.isContent = false)
    (hs : a.startedCall = none) : Lag (events ++ [a]) p q pending := by
  have content : ContentBeforeCalls events → ContentBeforeCalls (events ++ [a]) :=
    fun hc => each_snoc.mpr ⟨hc, fun h => by simp [ha] at h⟩
  cases h with
  | before hcontent calls latest tools weight =>
    exact .before (content hcontent) (by simp [calls, hs]) latest tools weight
  | behind behind =>
    exact .behind ⟨behind.tools, behind.latest,
      behind.weight.imp_left fun hw => ⟨content hw.1, hw.2⟩⟩
  | parted text => exact .parted text

/-- If the profiles are the same in the end, then all content came before the calls. -/
theorem Lag.content (h : Lag events p q pending) (hp : p.textAfterTool = 0)
    (heq : p = q.flush pending) : ContentBeforeCalls events := by
  cases h with
  | before content => exact content
  | behind behind =>
    rcases behind.weight with hw | hw
    · exact hw.1
    · have hweight : p.weight = q.weight := by rw [heq]; simp [Profile.flush, Profile.push]
      omega
  | parted text =>
    have hle : q.textAfterTool ≤ p.textAfterTool := by
      rw [heq]
      cases pending <;> simp [Profile.flush, Profile.push]
    omega

end Lag

/-- The profile of what a stream shows. -/
def streamedProfile (shown : List Shown) : Profile := profile (shown.map (·.kind))

/-- The profile of what an aggregation has collected. -/
def collectedProfile (blocks : List Content) : Profile := profile (blocks.reverse.map (·.kind))

theorem streamedProfile_addText (t : String) (shown : List Shown) :
    streamedProfile (Shown.addText t shown) =
      if (streamedProfile shown).latest = some .toolUse then streamedProfile shown
      else (streamedProfile shown).push .text := by
  match shown with
  | [] => rfl
  | .text earlier :: rest => exact (push_push (streamedProfile rest) .text (by decide)).symm
  | .thinking _ _ :: _ => rfl
  | .tool _ _ _ _ :: _ => rfl

theorem streamedProfile_addThinking (t signature : String) (shown : List Shown) :
    streamedProfile (Shown.addThinking t signature shown) =
      (streamedProfile shown).push .thinking := by
  match shown with
  | [] => rfl
  | .text _ :: _ => rfl
  | .thinking _ _ :: rest =>
    exact (push_push (streamedProfile rest) .thinking (by decide)).symm
  | .tool _ _ _ _ :: _ => rfl

theorem streamedProfile_addArgs (index : Nat) (args : String) (shown : List Shown) :
    streamedProfile (shown.map (Shown.addArgs index args)) = streamedProfile shown := by
  rw [streamedProfile, List.map_map]
  congr 1
  refine List.map_congr_left fun s _ => ?_
  cases s with
  | text _ | thinking _ _ => rfl
  | tool i id name earlier =>
    simp only [Function.comp_apply, Shown.addArgs]
    split <;> rfl

theorem collectedProfile_snoc (blocks : List Content) (c : Content) :
    collectedProfile (blocks ++ [c]) = (collectedProfile blocks).push c.kind := by
  rw [collectedProfile, List.reverse_append]
  rfl

theorem pushTool_profile (J : SerdeJson) (g : Aggregate) :
    collectedProfile (g.pushTool J).blocks = (collectedProfile g.blocks).flush g.curTool.isSome ∧
      (g.pushTool J).curTool = none := by
  cases hc : g.curTool with
  | none => simp [Aggregate.pushTool, hc, Profile.flush]
  | some tool =>
    simp only [Aggregate.pushTool, hc, collectedProfile_snoc]
    exact ⟨rfl, trivial⟩

/-- Text in a stream never comes directly after a call. -/
theorem streamedProfile_textAfterTool (requestId : String) (events : List StreamEvent) :
    (streamedProfile (streamed requestId events)).textAfterTool = 0 := by
  induction events using List.reverseRecOn with
  | nil => rfl
  | append_singleton events a ih =>
    rw [streamed_snoc]
    have text : ∀ t, (streamedProfile
        (Shown.addText t (streamed requestId events))).textAfterTool = 0 := by
      intro t
      rw [streamedProfile_addText]
      split
      · exact ih
      next h => simp [Profile.push, h, ih]
    cases a with
    | textDelta t | refusalDelta t => exact text t
    | thinkingDelta t signature =>
      simp only [Shown.step, streamedProfile_addThinking]
      simpa [Profile.push] using ih
    | toolCallStart index id name _ =>
      change ((streamedProfile (streamed requestId events)).push .toolUse).textAfterTool = 0
      simpa [Profile.push] using ih
    | toolCallArgsDelta index args =>
      simp only [Shown.step, streamedProfile_addArgs]
      exact ih
    | start _ | usage _ | finish _ => exact ih

theorem lag (J : SerdeJson) (requestId : String) (events : List StreamEvent) :
    Lag events (streamedProfile (streamed requestId events))
      (collectedProfile (aggregated J requestId events).blocks)
      (aggregated J requestId events).curTool.isSome := by
  induction events using List.reverseRecOn with
  | nil => exact .before (fun i => i.elim0) rfl nofun ⟨rfl, rfl⟩ ⟨rfl, rfl⟩
  | append_singleton events a ih =>
    rw [streamed_snoc, aggregated_snoc]
    obtain ⟨hflush, hnone⟩ := pushTool_profile J (aggregated J requestId events)
    have text : ∀ t, a.startedCall = none → Lag (events ++ [a])
        (streamedProfile (Shown.addText t (streamed requestId events)))
        (collectedProfile ((aggregated J requestId events).pushText J t).blocks)
        ((aggregated J requestId events).pushText J t).curTool.isSome := by
      intro t ha
      simp only [Aggregate.pushText, streamedProfile_addText, collectedProfile_snoc, hflush,
        hnone]
      exact ih.text ha
    cases a with
    | textDelta t | refusalDelta t => exact text t rfl
    | thinkingDelta t signature =>
      simp only [Shown.step, Aggregate.step, streamedProfile_addThinking,
        collectedProfile_snoc]
      exact ih.thinking rfl
    | toolCallStart index id name _ =>
      simp only [Shown.step, Aggregate.step, hflush]
      exact ih.call rfl
    | toolCallArgsDelta index args =>
      simp only [Shown.step, Aggregate.step, streamedProfile_addArgs, Option.isSome_map]
      exact ih.quiet rfl rfl
    | start _ | usage _ | finish _ => exact ih.quiet rfl rfl

/-! ## Whole answers -/

theorem aggregate_content (J : SerdeJson) (ctx : EncoderCtx) (events : List StreamEvent)
    (usage : TokenUsage) :
    (aggregate J ctx.modelName ctx.requestId events usage).content =
      ((aggregated J ctx.requestId events).pushTool J).blocks := rfl

variable {J : SerdeJson}

/-- The kinds of blocks that a client reads. -/
theorem kinds_of_content {shown : List Shown} {content : List Content}
    (h : shown.map (·.content J) = content.map some) :
    content.map (·.kind) = shown.map (·.kind) := by
  induction shown generalizing content with
  | nil =>
    rw [List.map_eq_nil_iff.mp h.symm]
    rfl
  | cons s shown ih =>
    cases content with
    | nil => cases h
    | cons c content =>
      obtain ⟨hc, hrest⟩ := List.cons.inj h
      rw [List.map_cons, List.map_cons, ih hrest]
      congr 1
      cases s with
      | text t | thinking t signature => cases hc; rfl
      | tool index id name args =>
        obtain ⟨input, -, rfl⟩ := Option.map_eq_some_iff.mp hc
        rfl

/-- Answers with the same content have all content before the calls. -/
theorem contentBeforeCalls_of_merged {requestId : String} {events : List StreamEvent}
    {content : List Content}
    (hcontent : ((streamed requestId events).map (·.content J)).reverse = content.map some)
    (hmerged : merged content =
      merged ((aggregated J requestId events).pushTool J).blocks) : ContentBeforeCalls events := by
  have hkinds : content.reverse.map (·.kind) = (streamed requestId events).map (·.kind) := by
    apply kinds_of_content (J := J)
    rw [← List.reverse_inj, hcontent, List.map_reverse, List.reverse_reverse]
  have hprofile : streamedProfile (streamed requestId events) =
      collectedProfile ((aggregated J requestId events).pushTool J).blocks := by
    rw [streamedProfile, ← hkinds, ← profile_mergeLatest, List.reverse_injective hmerged,
      profile_mergeLatest]
    rfl
  rw [(pushTool_profile J _).1] at hprofile
  exact (lag J requestId events).content (streamedProfile_textAfterTool requestId events) hprofile

theorem collected_kind {calls : List Call} :
    ∀ c ∈ calls.map (·.collected J), c.kind = .toolUse := by
  intro c hc
  obtain ⟨call, -, rfl⟩ := List.mem_map.mp hc
  rfl

/-- What a client reads for a call. -/
def Call.read (J : SerdeJson) (call : Call) : Option Content :=
  (clientInput J call.own).map (.toolUse call.id call.name)

theorem read_eq_collected {call : Call} : call.read J = some (call.collected J) ↔
      clientInput J call.own = some (toolInput J call.turn) := by
  simp only [Call.read, Call.collected, Option.map_eq_some_iff]
  constructor
  · rintro ⟨input, hinput, heq⟩
    cases heq
    exact hinput
  · intro h
    exact ⟨_, h, rfl⟩

/-- With all content before the calls the answers have the same content exactly if the calls read
the same. -/
theorem Parts.merged_iff {calls : List Call} {shown : List Shown} {g : Aggregate}
    {base : List Shown} {early : List Content} (h : Parts J calls shown g base early) :
    (∃ content, (shown.map (·.content J)).reverse = content.map some ∧
      merged content = merged (g.pushTool J).blocks) ↔
    ∀ call ∈ calls, clientInput J call.own = some (toolInput J call.turn) := by
  have hshown : shown.map (·.content J) =
      calls.map (·.read J) ++ (mergeLatest early).map some := by
    rw [h.shown_eq, List.map_append, h.base_eq.content, List.map_map]
    rfl
  have hblocks : mergeLatest (g.pushTool J).blocks =
      calls.map (·.collected J) ++ mergeLatest early := by
    rw [h.pushTool_blocks.1, mergeLatest_tools early collected_kind]
  have hmerge : ∀ {tools : List Content}, (∀ c ∈ tools, c.kind = .toolUse) →
      mergeLatest ((mergeLatest early).reverse ++ tools.reverse) =
        tools ++ mergeLatest early := by
    intro tools htools
    rw [mergeLatest_tools _ htools, mergeLatest_reverse (isMerged_mergeLatest early)]
  rw [hshown]
  constructor
  · rintro ⟨content, hcontent, hmerged⟩
    have hlatest : content.reverse.map some =
        calls.map (·.read J) ++ (mergeLatest early).map some := by
      rw [List.map_reverse, ← hcontent, List.reverse_reverse]
    obtain ⟨tools, rest, hsplit, htools, hrest⟩ := List.map_eq_append_iff.mp hlatest
    have hrest' : rest = mergeLatest early :=
      List.map_injective_iff.mpr (Option.some_injective _) hrest
    have hkinds : ∀ c ∈ tools, c.kind = .toolUse := by
      intro c hc
      have hmem := List.mem_map_of_mem (f := some) hc
      rw [htools] at hmem
      obtain ⟨call, -, hread⟩ := List.mem_map.mp hmem
      obtain ⟨input, -, rfl⟩ := Option.map_eq_some_iff.mp hread
      rfl
    have heq := List.reverse_injective hmerged
    rw [← List.reverse_reverse content, hsplit, hrest', List.reverse_append, hmerge hkinds,
      hblocks] at heq
    have hsame := List.append_cancel_right heq
    rw [hsame, List.map_map] at htools
    intro call hcall
    exact read_eq_collected.mp (List.map_inj_left.mp htools call hcall).symm
  · intro hread
    refine ⟨(mergeLatest early).reverse ++ (calls.map (·.collected J)).reverse, ?_, ?_⟩
    · have hcalls : calls.map (·.read J) = (calls.map (·.collected J)).map some := by
        rw [List.map_map]
        exact List.map_congr_left fun call hcall => read_eq_collected.mpr (hread call hcall)
      rw [hcalls, List.reverse_append, List.map_append, List.map_reverse, List.map_reverse]
    · rw [merged, merged, hmerge collected_kind, hblocks]

/-- Both answers have the stop reason of the finish. -/
theorem stopReason_agrees (J : SerdeJson) (ctx : EncoderCtx) {events : List StreamEvent}
    {pre : List StreamEvent} {reason : FinishReason} (h : events = pre ++ [.finish reason])
    (usage : TokenUsage) : (assembled ctx events).stopReason =
      some (aggregate J ctx.modelName ctx.requestId events usage).stopReason := by
  have hassembled : (assembled ctx events).stopReason =
      some (AnthropicEncoder.stopReason (some reason)) := by
    simp only [assembled, frames]
    rw [readAll_append, finalize_read _ _ (stopReasonSent_feed ctx events), h,
      (encoder ctx).feed_snoc]
    rfl
  have hfinish : ∀ g : Aggregate, (g.pushTool J).finish = g.finish := by
    intro g
    simp only [Aggregate.pushTool]
    split <;> rfl
  have haggregated : (aggregated J ctx.requestId events).finish = reason := by
    rw [h, aggregated_snoc]
    rfl
  rw [aggregated] at haggregated
  rw [hassembled]
  simp only [aggregate]
  rw [hfinish, haggregated]
  cases reason <;> rfl

/-- The streamed and the aggregated answer agree exactly if all content comes before the calls and
each call reads the same in both. -/
theorem agrees_iff (J : SerdeJson) (ctx : EncoderCtx) (events : List StreamEvent)
    (usage : TokenUsage) (h : Normalized events) :
    Agrees J ctx events usage ↔
      ContentBeforeCalls events ∧ CallsRead J ctx.requestId events := by
  obtain ⟨pre, reason, hfinish, -⟩ := h.finish
  have hstop := stopReason_agrees J ctx hfinish usage
  simp only [Agrees, hstop, and_true, assembled_content J ctx h.callsStarted h.nodup,
    aggregate_content]
  constructor
  · rintro ⟨content, hcontent, hmerged⟩
    have hbefore := contentBeforeCalls_of_merged hcontent hmerged
    obtain ⟨base, early, hparts⟩ := exists_parts J ctx.requestId hbefore
    exact ⟨hbefore, hparts.merged_iff.mp ⟨content, hcontent, hmerged⟩⟩
  · rintro ⟨hbefore, hread⟩
    obtain ⟨base, early, hparts⟩ := exists_parts J ctx.requestId hbefore
    exact hparts.merged_iff.mpr hread

/-- Thinking, text and a call. -/
theorem agrees_iff_call :
    Agrees .ofEmptyObject ⟨"model", "req", 0, {}⟩ [.thinkingDelta "look" (some "sig"),
      .textDelta "looking", .textDelta " it up", .toolCallStart 0 (some "call_1") "search" none,
      .toolCallArgsDelta 0 "\x7b", .toolCallArgsDelta 0 "\x7d", .finish .toolCalls] {} := by
  refine (agrees_iff _ _ _ {} ⟨by decide, by decide, by decide, ?_⟩).mpr ⟨by decide, ?_⟩
  · exact ⟨_, .toolCalls, (List.dropLast_append_getLast (by simp)).symm, by simp⟩
  · simp [CallsRead, calls, Call.step, Call.addOwn, Call.addTurn, clientInput, toolInput,
      SerdeJson.ofEmptyObject]

/-- Thinking after a call comes before it in the aggregation. -/
theorem thinking_overtakes_call :
    ¬ ∀ (J : SerdeJson) (ctx : EncoderCtx) (events : List StreamEvent) (usage : TokenUsage),
      Normalized events → Agrees J ctx events usage := by
  intro h
  have hnormalized : Normalized [.toolCallStart 0 (some "call_1") "search" none,
      .toolCallArgsDelta 0 "{}", .thinkingDelta "hm" none, .finish .toolCalls] :=
    ⟨by decide, by decide, by decide, _, .toolCalls,
      (List.dropLast_append_getLast (by simp)).symm, by simp⟩
  obtain ⟨⟨content, hcontent, hmerged⟩, -⟩ :=
    h .ofEmptyObject ⟨"model", "req", 0, {}⟩ _ {} hnormalized
  rw [assembled_content _ _ hnormalized.callsStarted hnormalized.nodup] at hcontent
  exact absurd (contentBeforeCalls_of_merged hcontent hmerged) (by decide)

end Kinetix.Frontends.Anthropic
