import Kinetix.Foundation.Json
import Kinetix.Library.Transducer

/-!
# Stream events

The provider-neutral events of a response, from which every frontend writes its answer, and what
the encoders and the aggregation have in common.
-/

namespace Kinetix.Frontends
open Json StateMachine

/-- Token counts; a count that was not reported is missing. -/
structure TokenUsage where
  input : Option Nat := none
  output : Option Nat := none
  cached : Option Nat := none
  cacheWrite : Option Nat := none
  thinking : Option Nat := none
  deriving DecidableEq

/-- A later record replaces the counts that it has. -/
def TokenUsage.merge (u other : TokenUsage) : TokenUsage where
  input := other.input.or u.input
  output := other.output.or u.output
  cached := other.cached.or u.cached
  cacheWrite := other.cacheWrite.or u.cacheWrite
  thinking := other.thinking.or u.thinking

/-- `FinishReason`. -/
inductive FinishReason where
  | stop
  | length
  | toolCalls
  | contentFilter
  | other (reason : String)
  deriving DecidableEq

/-- `StreamEvent`. -/
inductive StreamEvent where
  | start (upstreamRequestId : Option String)
  | thinkingDelta (text : String) (signature : Option String)
  | textDelta (text : String)
  | refusalDelta (text : String)
  | toolCallStart (index : Nat) (id : Option String) (name : String) (signature : Option String)
  | toolCallArgsDelta (index : Nat) (args : String)
  | usage (u : TokenUsage)
  | finish (reason : FinishReason)
  deriving DecidableEq

/-- The fields that a Responses object repeats from its request. -/
structure ResponsesResponseFields where
  parallelToolCalls : Bool := true
  toolChoice : Value := .string "auto"
  tools : List Value := []

/-- `EncoderCtx`. -/
structure EncoderCtx where
  modelName : String
  requestId : String
  created : Int
  responses : ResponsesResponseFields := {}

/-- The request id without `-` and `_`. -/
def plainId (requestId : String) : String :=
  String.ofList (requestId.toList.filter fun c => c ≠ '-' ∧ c ≠ '_')

/-- A call as the aggregations and a client collect it. -/
structure ToolCall where
  index : Nat
  id : String
  name : String
  args : String

/-- Append to the arguments of the first call with the index. -/
def appendArgs (index : Nat) (args : String) : List ToolCall → List ToolCall
  | [] => []
  | call :: calls =>
    if call.index = index then { call with args := call.args ++ args } :: calls
    else call :: appendArgs index args calls

/-- The index of the call that an event starts. -/
def StreamEvent.startedCall : StreamEvent → Option Nat
  | .toolCallStart index _ _ _ => some index
  | _ => none

/-- The indexes of the calls that have started. -/
def startedCalls (events : List StreamEvent) : List Nat := events.filterMap (·.startedCall)

/-- The id of the call that an event starts, if that has one. -/
def StreamEvent.startedId : StreamEvent → Option (Option String)
  | .toolCallStart _ id _ _ => some id
  | _ => none

/-- The calls of a stream have different indexes and different ids. -/
def CallsDistinct (events : List StreamEvent) : Prop :=
  (startedCalls events).Nodup ∧ (events.filterMap (·.startedId)).Nodup

instance (events : List StreamEvent) : Decidable (CallsDistinct events) :=
  inferInstanceAs (Decidable (_ ∧ _))

@[simp] theorem startedCalls_snoc (events : List StreamEvent) (a : StreamEvent) :
    startedCalls (events ++ [a]) = startedCalls events ++ a.startedCall.toList := by
  cases h : a.startedCall <;> simp [startedCalls, h]

/-- An argument delta comes after the start of its call. -/
def ArgsAfterStart (pre : List StreamEvent) : StreamEvent → Prop
  | .toolCallArgsDelta index _ => index ∈ startedCalls pre
  | _ => True

instance (pre : List StreamEvent) : (a : StreamEvent) → Decidable (ArgsAfterStart pre a)
  | .toolCallArgsDelta index _ => inferInstanceAs (Decidable (index ∈ startedCalls pre))
  | .start _ | .thinkingDelta _ _ | .textDelta _ | .refusalDelta _ | .toolCallStart _ _ _ _
  | .usage _ | .finish _ => isTrue trivial

/-- Every argument delta of a stream comes after the start of its call. -/
def CallsStarted (events : List StreamEvent) : Prop := Each ArgsAfterStart events

instance (events : List StreamEvent) : Decidable (CallsStarted events) :=
  inferInstanceAs (Decidable (Each ArgsAfterStart events))

/-- Text, refusals and thinking. -/
def StreamEvent.isContent : StreamEvent → Bool
  | .textDelta _ | .refusalDelta _ | .thinkingDelta _ _ => true
  | .start _ | .toolCallStart _ _ _ _ | .toolCallArgsDelta _ _ | .usage _ | .finish _ => false

/-- Text and thinking come before all calls. -/
def ContentBeforeCalls (events : List StreamEvent) : Prop :=
  Each (fun pre a => a.isContent = true → startedCalls pre = []) events

instance (events : List StreamEvent) : Decidable (ContentBeforeCalls events) :=
  inferInstanceAs
    (Decidable (Each (fun pre a => a.isContent = true → startedCalls pre = []) events))

/-- A stream as the pipeline hands it to a frontend: calls with different indexes and with ids,
arguments after the start of their call, and one finish, at the end. -/
structure Normalized (events : List StreamEvent) : Prop where
  callsStarted : CallsStarted events
  nodup : (startedCalls events).Nodup
  ids : ∀ id ∈ events.filterMap (·.startedId), id.isSome
  finish : ∃ pre reason, events = pre ++ [.finish reason] ∧ ∀ reason', .finish reason' ∉ pre

/-- Whether an event is a finish. -/
def StreamEvent.isFinish : StreamEvent → Bool
  | .finish _ => true
  | _ => false

/-! ## What a stream says -/

def textStep (s : String) : StreamEvent → String
  | .textDelta text => s ++ text
  | _ => s

/-- The text of all text deltas. -/
def textOf (events : List StreamEvent) : String := events.foldl textStep ""

def refusalStep (s : String) : StreamEvent → String
  | .refusalDelta text => s ++ text
  | _ => s

/-- The text of all refusal deltas. -/
def refusalOf (events : List StreamEvent) : String := events.foldl refusalStep ""

def argsStep (index : Nat) (s : String) : StreamEvent → String
  | .toolCallArgsDelta i args => if i = index then s ++ args else s
  | _ => s

/-- The text of all argument deltas of a call. -/
def argsOf (index : Nat) (events : List StreamEvent) : String := events.foldl (argsStep index) ""

/-- Collect the calls; a call without an id gets a default one. -/
def callsStep (defaultId : Nat → String) (calls : List ToolCall) : StreamEvent → List ToolCall
  | .toolCallStart index id name _ => calls ++ [⟨index, id.getD (defaultId index), name, ""⟩]
  | .toolCallArgsDelta index args => appendArgs index args calls
  | _ => calls

def callsOf (defaultId : Nat → String) (events : List StreamEvent) : List ToolCall :=
  events.foldl (callsStep defaultId) []

def usageStep (u : TokenUsage) : StreamEvent → TokenUsage
  | .usage other => u.merge other
  | _ => u

/-- The usage of all records of a stream. -/
def mergedUsage (events : List StreamEvent) : TokenUsage := events.foldl usageStep {}

/-- A fold over one more event takes one more step. -/
theorem foldl_snoc {α β : Type} (f : β → α → β) (b : β) (as : List α) (a : α) :
    (as ++ [a]).foldl f b = f (as.foldl f b) a := by
  rw [List.foldl_append]
  rfl

/-- A flag that a step keeps or sets is set after the steps of which one sets it. -/
theorem foldl_flag {α β : Type} {f : β → α → β} (flag : β → Bool) {sets : α → Bool}
    (h : ∀ b a, flag (f b a) = (flag b || sets a)) (b : β) (as : List α) :
    flag (as.foldl f b) = (flag b || as.any sets) := by
  induction as generalizing b with
  | nil => simp
  | cons a as ih => rw [List.foldl_cons, ih, h, List.any_cons, Bool.or_assoc]

theorem appendArgs_map {calls : List ToolCall} (h : (calls.map (·.index)).Nodup) (index : Nat)
    (args : String) : (appendArgs index args calls).map (fun call => (call.index, call.args)) =
      calls.map fun call =>
        (call.index, if call.index = index then call.args ++ args else call.args) := by
  induction calls with
  | nil => rfl
  | cons call calls ih =>
    rw [List.map_cons, List.nodup_cons] at h
    rw [appendArgs]
    split
    next hi =>
      rw [List.map_cons, List.map_cons, if_pos hi]
      congr 1
      refine List.map_congr_left fun other hmem => ?_
      rw [if_neg]
      rintro rfl
      exact h.1 (hi ▸ List.mem_map_of_mem hmem)
    next hi => rw [List.map_cons, List.map_cons, if_neg hi, ih h.2]

variable {events : List StreamEvent}

theorem argsOf_of_not_started (h : CallsStarted events) {index : Nat}
    (hindex : index ∉ startedCalls events) : argsOf index events = "" := by
  induction events using List.reverseRecOn with
  | nil => rfl
  | append_singleton events a ih =>
    obtain ⟨hpre, ha⟩ := each_snoc.mp h
    rw [startedCalls_snoc, List.mem_append, not_or] at hindex
    rw [argsOf, foldl_snoc, ← argsOf, ih hpre hindex.1]
    cases a with
    | toolCallArgsDelta i args =>
      rw [argsStep, if_neg]
      rintro rfl
      exact hindex.1 ha
    | start _ | textDelta _ | refusalDelta _ | thinkingDelta _ _ | toolCallStart _ _ _ _
    | usage _ | finish _ => rfl

/-- Each call is collected with its arguments. -/
theorem callsOf_args (h : CallsStarted events) (hnodup : (startedCalls events).Nodup)
    (defaultId : Nat → String) :
    (callsOf defaultId events).map (fun call => (call.index, call.args)) =
      (startedCalls events).map fun index => (index, argsOf index events) := by
  induction events using List.reverseRecOn with
  | nil => rfl
  | append_singleton events a ih =>
    obtain ⟨hpre, ha⟩ := each_snoc.mp h
    rw [startedCalls_snoc, List.nodup_append] at hnodup
    have hmap := ih hpre hnodup.1
    have hsame : ∀ index, (∀ args, a ≠ .toolCallArgsDelta index args) →
        argsOf index (events ++ [a]) = argsOf index events := by
      intro index hne
      rw [argsOf, foldl_snoc, ← argsOf]
      cases a with
      | toolCallArgsDelta i args =>
        rw [argsStep, if_neg]
        rintro rfl
        exact hne args rfl
      | start _ | textDelta _ | refusalDelta _ | thinkingDelta _ _ | toolCallStart _ _ _ _
      | usage _ | finish _ => rfl
    rw [callsOf, foldl_snoc, ← callsOf, startedCalls_snoc]
    cases a with
    | toolCallStart index id name signature =>
      have hnew : index ∉ startedCalls events := fun hmem =>
        hnodup.2.2 index hmem index (List.mem_singleton_self index) rfl
      have hargs := argsOf_of_not_started hpre hnew
      rw [← hsame index (by simp)] at hargs
      simp only [callsStep, StreamEvent.startedCall, Option.toList_some, List.map_append,
        List.map_cons, List.map_nil, hmap, hargs]
      congr 1
      exact List.map_congr_left fun i _ => by rw [hsame i (by simp)]
    | toolCallArgsDelta index args =>
      have hindexes : (callsOf defaultId events).map (·.index) = startedCalls events := by
        have hfst := congrArg (List.map Prod.fst) hmap
        simpa [List.map_map, Function.comp_def] using hfst
      simp only [callsStep, StreamEvent.startedCall, Option.toList_none, List.append_nil]
      rw [appendArgs_map (hindexes ▸ hnodup.1)]
      have hpush := congrArg (List.map fun p : Nat × String =>
        (p.1, if p.1 = index then p.2 ++ args else p.2)) hmap
      rw [List.map_map, List.map_map] at hpush
      refine hpush.trans (List.map_congr_left fun i _ => ?_)
      simp only [Function.comp_apply]
      rw [argsOf, argsOf, foldl_snoc, argsStep]
      by_cases hi : i = index
      · simp [hi]
      · simp [hi, Ne.symm hi]
    | start _ | textDelta _ | refusalDelta _ | thinkingDelta _ _ | usage _ | finish _ =>
      simp only [callsStep, StreamEvent.startedCall, Option.toList_none, List.append_nil, hmap]
      exact List.map_congr_left fun i _ => by rw [hsame i (by simp)]

/-- Every call has argument text. -/
def ArgsGiven (events : List StreamEvent) : Prop :=
  ∀ index ∈ startedCalls events, argsOf index events ≠ ""

instance (events : List StreamEvent) : Decidable (ArgsGiven events) :=
  inferInstanceAs (Decidable (∀ index ∈ startedCalls events, argsOf index events ≠ ""))

theorem argsGiven_iff (h : CallsStarted events) (hnodup : (startedCalls events).Nodup)
    (defaultId : Nat → String) :
    ArgsGiven events ↔ ∀ call ∈ callsOf defaultId events, call.args ≠ "" := by
  have hmap := callsOf_args h hnodup defaultId
  have hleft : ArgsGiven events ↔
      ∀ p ∈ (startedCalls events).map fun index => (index, argsOf index events), p.2 ≠ "" := by
    simp [ArgsGiven]
  rw [hleft, ← hmap]
  simp

end Kinetix.Frontends
