import Mathlib.Data.Int.Order.Basic
import Kinetix.Library.Machine

/-!
# The circuit of a plugin

The row of `plugin_runtime_state`, the statements on it, and invocations of the plugin as tasks that
execute them one at a time.

## Implementation notes

Times are instants in nanoseconds. The code stores them as texts and reads back the instant; only
SQLite's `julianday` may round them. An invocation carries whether it claimed the probe and how
often the circuit had been opened when it was let in. The code has neither; no step reads them.
-/

namespace Kinetix.Plugins.Circuit

/-- The circuit of a plugin. -/
inductive CircuitState where
  | closed
  | opened
  | halfOpen
  deriving DecidableEq

/-- `PluginFault`. -/
inductive PluginFault where
  | trap (message : String)
  | timeout
  | permissionDenied (message : String)
  | invalidResult (message : String)
  | pluginError (code message : String) (retryable : Bool) (retryAfter : Option Nat)
  | cancelled
  | internal (message : String)

def PluginFault.code : PluginFault → String
  | .trap _ => "plugin_internal"
  | .timeout => "timeout"
  | .permissionDenied _ => "permission_denied"
  | .invalidResult _ => "protocol_error"
  | .pluginError code _ _ _ => code
  | .cancelled => "cancelled"
  | .internal _ => "plugin_internal"

/-- `counts_against_circuit`. -/
def PluginFault.countsAgainstCircuit : PluginFault → Bool
  | .trap _ => true
  | .timeout => true
  | .permissionDenied _ => true
  | .invalidResult _ => true
  | .pluginError _ _ _ _ => false
  | .cancelled => false
  | .internal _ => true

def circuitFaultThreshold : Int := 5
def circuitOpenSecs : Int := 60

/-- `chrono::Utc::now() + Duration::seconds(CIRCUIT_OPEN_SECS)`. -/
def openUntil (now : Int) : Int := now + circuitOpenSecs * 1000000000

/-- A row of `plugin_runtime_state`. A plugin is installed with the default row. -/
structure RuntimeState where
  circuitState : CircuitState := .closed
  consecutiveFailures : Int := 0
  circuitOpenUntil : Option Int := none
  lastErrorCode : Option String := none
  lastErrorAt : Option Int := none

namespace RuntimeState

/-- `circuit_ready`. -/
def circuitReady (row : RuntimeState) (now : Int) : Bool :=
  match row.circuitState with
  | .closed => true
  | .halfOpen => false
  | .opened =>
    match row.circuitOpenUntil with
    | none => false
    | some deadline => deadline ≤ now

/-- The `UPDATE` of `claim_circuit_probe`, if it affects the row. -/
def claim (julianday : Int → Int) (row : RuntimeState) (now : Int) : Option RuntimeState :=
  match row.circuitState, row.circuitOpenUntil with
  | .opened, some deadline =>
    if julianday deadline ≤ julianday now then
      some { row with circuitState := .halfOpen, circuitOpenUntil := none }
    else none
  | _, _ => none

/-- The first statement of `record_plugin_failure`. -/
def bumpFailures (row : RuntimeState) (code : String) (now : Int) : RuntimeState :=
  { row with
    consecutiveFailures := row.consecutiveFailures + 1
    lastErrorCode := some code
    lastErrorAt := some now }

/-- The last statement of `record_plugin_failure`, and the `UPDATE` of `reopen_plugin_circuit`. -/
def openCircuit (row : RuntimeState) (deadline : Int) : RuntimeState :=
  { row with circuitState := .opened, circuitOpenUntil := some deadline }

/-- `clear_plugin_failures`. -/
def clearFailures (row : RuntimeState) : RuntimeState :=
  { row with consecutiveFailures := 0, circuitState := .closed, circuitOpenUntil := none }

end RuntimeState

/-- An invocation that was let in. -/
structure Call where
  /-- It is settled by `settle_cancellable`. -/
  cancellable : Bool
  /-- It claimed the probe. -/
  probe : Bool
  /-- How often the circuit had been opened when it was let in. -/
  openings : Nat

/-- Where an invocation waits. -/
inductive Stage where
  /-- Before the `SELECT` of `circuit_ready`. -/
  | ready (cancellable : Bool)
  /-- Before the `UPDATE` of `claim_circuit_probe`: the component is instantiated. -/
  | claim (cancellable : Bool)
  /-- Before the `SELECT` of `claim_circuit_probe`. -/
  | claimRead (cancellable : Bool)
  /-- The plugin is called. -/
  | running (call : Call)
  /-- Before `clear_plugin_failures`. -/
  | clear (call : Call)
  /-- Before `reopen_plugin_circuit`. -/
  | reopen (call : Call)
  /-- Before the first statement of `record_plugin_failure`. -/
  | bump (call : Call) (code : String)
  /-- Before the `SELECT` of `record_plugin_failure`. -/
  | count (call : Call)
  /-- Before the last statement of `record_plugin_failure`. -/
  | trip (call : Call)
  | ended

/-- What an invocation meets outside. -/
structure Env where
  now : Int
  /-- The statement succeeds. -/
  dbOk : Bool
  /-- The fault of the call, if it is not `Ok`. -/
  fault : Option PluginFault
  /-- `guard.is_cancelled()`. -/
  cancelled : Bool

/-- The row, and how often it was opened. -/
structure Shared where
  row : RuntimeState
  openings : Nat

def Shared.openCircuit (s : Shared) (now : Int) : Shared where
  row := s.row.openCircuit (openUntil now)
  openings := s.openings + 1

/-- `settle` and `settle_cancellable`, with `record_success` and `record_fault`. -/
def settle (call : Call) (env : Env) : Stage :=
  match env.fault with
  | none => .clear call
  | some fault =>
    if call.cancellable && env.cancelled then .reopen call
    else if fault.countsAgainstCircuit then .bump call fault.code
    else .clear call

/-- One statement of an invocation, or its call. The errors of the statements that settle it are
ignored. -/
def Stage.advance (julianday : Int → Int) (env : Env) (s : Shared) :
    Stage → Option (Shared × Stage)
  | .ready cancellable =>
    some (s, if env.dbOk && s.row.circuitReady env.now then .claim cancellable else .ended)
  | .claim cancellable =>
    if env.dbOk then
      match s.row.claim julianday env.now with
      | some row => some ({ s with row }, .running ⟨cancellable, true, s.openings⟩)
      | none => some (s, .claimRead cancellable)
    else some (s, .ended)
  | .claimRead cancellable =>
    some (s, if env.dbOk && s.row.circuitState = .closed then
        .running ⟨cancellable, false, s.openings⟩
      else .ended)
  | .running call => some (s, settle call env)
  | .clear _ =>
    some (if env.dbOk then { s with row := s.row.clearFailures } else s, .ended)
  | .reopen _ =>
    some (if env.dbOk && s.row.circuitState = .halfOpen then s.openCircuit env.now else s, .ended)
  | .bump call code =>
    if env.dbOk then some ({ s with row := s.row.bumpFailures code env.now }, .count call)
    else some (s, .ended)
  | .count call =>
    some (s, if env.dbOk && circuitFaultThreshold ≤ s.row.consecutiveFailures then .trip call
      else .ended)
  | .trip _ => some (if env.dbOk then s.openCircuit env.now else s, .ended)
  | .ended => none

/-- The capabilities of a plugin: all but one go through the circuit before they are called. -/
inductive Invocation where
  | gated (cancellable : Bool)
  /-- `account_model_discover`: `prepare_model_source` does not look at the circuit. -/
  | accountModelDiscover

def Invocation.first (openings : Nat) : Invocation → Stage
  | .gated cancellable => .ready cancellable
  | .accountModelDiscover => .running ⟨false, false, openings⟩

structure State where
  shared : Shared
  tasks : List Stage

inductive Action where
  | start (invocation : Invocation)
  | advance (i : Nat) (env : Env)
  /-- The future of an invocation is dropped where it waits. -/
  | drop (i : Nat)
  /-- The process ends and starts again. -/
  | restart

/-- An await of an invocation, or the start of one. -/
def State.step (julianday : Int → Int) (s : State) : Action → Option State
  | .start invocation =>
    some { s with tasks := s.tasks ++ [invocation.first s.shared.openings] }
  | .advance i env => do
    let stage ← s.tasks[i]?
    let (shared, next) ← stage.advance julianday env s.shared
    pure ⟨shared, s.tasks.set i next⟩
  | .drop i => some { s with tasks := s.tasks.set i .ended }
  | .restart => some { s with tasks := [] }

/-- A plugin from its installation. -/
def circuit (julianday : Int → Int) : StateMachine.Machine State Action where
  start := ⟨⟨{}, 0⟩, []⟩
  step := State.step julianday

end Kinetix.Plugins.Circuit
