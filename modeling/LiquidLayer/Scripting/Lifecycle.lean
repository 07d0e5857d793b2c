/-
  The lifecycle system (LuaLifecycleSystem.hpp, LuaLifecycleSystem.cpp), with `run`,
  `execute_lifecycle` and `snapshot` of its runner (LuaBehaviorRunner.cpp).

  The run of a Lua program is a parameter: for an execution context, a `Machine` says how the
  program ends, in a failure or with a bundle of proposals, cancellations and watches. As in a
  scope capture, what a binding calls in the host is a function.

  The diagnostics of a result and its intent ids are left out, and of the script evidence only
  the room for it counts. `journal` is not in the sources: it has what was handed to the runs so
  far and how they ended, newest first.
-/
import LiquidLayer.Scripting.Capabilities
import LiquidLayer.Scripting.Manifest

namespace LiquidLayer

open Prog

variable {C : Type}

/-! ## Equality of values -/

mutual

/-- `operator==`: doubles are compared as numbers. -/
def LuaValue.same : LuaValue → LuaValue → Bool
  | .boolean a, .boolean b => decide (a = b)
  | .integer a, .integer b => decide (a = b)
  | .number a, .number b => !isNan a && !isNan b && decide (doublePlace a = doublePlace b)
  | .string a, .string b => decide (a = b)
  | .array a, .array b => sameItems a b
  | .table a, .table b => sameEntries a b
  | _, _ => false

def LuaValue.sameItems : List LuaValue → List LuaValue → Bool
  | [], [] => true
  | a :: as, b :: bs => LuaValue.same a b && sameItems as bs
  | _, _ => false

def LuaValue.sameEntries : List (Bytes × LuaValue) → List (Bytes × LuaValue) → Bool
  | [], [] => true
  | (k, a) :: as, (l, b) :: bs => decide (k = l) && LuaValue.same a b && sameEntries as bs
  | _, _ => false

end

/-! ## Runs of a runner -/

structure Watch where
  type : Bytes
  name : Bytes
deriving DecidableEq

structure ComponentChange where
  watch : Watch
  before : LuaValue
  after : LuaValue

structure ExecutionCapability where
  description : CapabilityDescription
  snapshot : Option LuaValue

structure ExecutionContext (C : Type) where
  world : World C
  owner : BehaviorId
  now : UInt64
  frame : UInt64
  delta : UInt64
  start : Bool
  changes : List ComponentChange
  source : Bytes
  capabilities : List ExecutionCapability
  bufferedValueBytes : Nat

/-- What a Lua program leaves in its context. -/
structure Bundle (C : Type) where
  pending : List (World.PendingIntent C)
  pendingCancellations : List IntentId
  watches : List Watch

/-- `lua_error_result`. -/
structure ScriptFailure where
  status : LuaExecutionStatus
  failed : status ≠ .success

abbrev Machine (C : Type) := ExecutionContext C → Except ScriptFailure (Bundle C)

structure LuaExecutionResult where
  status : LuaExecutionStatus
  watches : List Watch
deriving DecidableEq

namespace LuaExecutionResult

def succeeded (result : LuaExecutionResult) : Bool := decide (result.status = .success)

/-- `failure_result`. -/
def failure (status : LuaExecutionStatus) : LuaExecutionResult := ⟨status, []⟩

end LuaExecutionResult

/-- `ScriptExecutionEvidence` of a world. -/
structure ScriptEvidence where
  enabled : Bool
  executions : Nat

def maximumBufferedScriptExecutions : Nat := 4096

/-- `Binding::snapshot`. -/
def Binding.snapshot (binding : Binding C) (w : World C) (owner : BehaviorId) (name : Bytes) :
    Except Failure LuaValue := do
  match ← w.readComponent binding.type owner name with
  | none => .error (.runtimeError "component snapshot is unavailable")
  | some component => binding.encode component

/-- A runner with its bindings; `register_binding` refuses a script name that is taken. -/
structure RunnerConfig (C : Type) where
  bindings : List (Binding C)
  distinct : (bindings.map Binding.scriptName).Nodup
  limits : LuaExecutionLimits
  maxSourceBytes : UInt64
  sizeofLuaValue : UInt64

/-! ## The state of a system -/

/-- The script that was selected: the fixed-name path leaves its slot empty. -/
structure ScriptKey where
  slotName : Bytes
  slot : ComponentSlotId
  revision : UInt32
  source : Bytes
deriving DecidableEq

structure BehaviorState where
  script : ScriptKey
  started : Bool
  lastSuccessfulTime : UInt64
  watches : List Watch
  snapshots : OrdMap (Bytes ×ₗ Bytes) LuaValue
  lastResult : LuaExecutionResult

def BehaviorState.initial (script : ScriptKey) : BehaviorState where
  script := script
  started := false
  lastSuccessfulTime := 0
  watches := []
  snapshots := .empty
  lastResult := ⟨.success, []⟩

/-- A run of one behavior: the world before and after it, what was handed to it, and its
    result or the exception that took the place of one. -/
structure Turn (C : Type) where
  behavior : BehaviorId
  script : ScriptKey
  before : World C
  changes : List ComponentChange
  after : World C
  result : Except Failure LuaExecutionResult

inductive JournalEntry (C : Type) where
  | forgotten (behavior : BehaviorId)
  | turn (turn : Turn C)

structure LifecycleState (C : Type) where
  world : World C
  runner : LuaBehaviorRunner
  evidence : ScriptEvidence
  states : OrdMap BehaviorId BehaviorState
  journal : List (JournalEntry C)

abbrev LifecycleM (C : Type) := EStateM Failure (LifecycleState C)

namespace LifecycleState

def onRunner {α : Type} : EStateM Failure LuaBehaviorRunner α → LifecycleM C α :=
  zoom LifecycleState.runner fun r s => { s with runner := r }

def onWorld {α : Type} : WorldM C α → LifecycleM C α :=
  zoom LifecycleState.world fun w s => { s with world := w }

def setState (behavior : BehaviorId) (state : BehaviorState) : LifecycleM C Unit :=
  modify fun s => { s with states := s.states.insert behavior state }

def record (entry : JournalEntry C) : LifecycleM C Unit :=
  modify fun s => { s with journal := entry :: s.journal }

/-- Run, and hand out the exception. -/
def caught {α : Type} (m : LifecycleM C α) : LifecycleM C (Except Failure α) :=
  tryCatch (do return .ok (← m)) fun e => return .error e

/-- The capabilities of a behavior in the world of the run. -/
def capabilitiesFor (owner : BehaviorId) : LifecycleM C (List CapabilityDescription) := do
  let w := (← get).world
  onRunner (LuaBehaviorRunner.capabilitiesFor w owner)

/-- `record_script_execution`. -/
def recordScriptExecution : LifecycleM C Unit := do
  let evidence := (← get).evidence
  if evidence.enabled then
    if evidence.executions ≥ maximumBufferedScriptExecutions then
      throw (.lengthError "script execution evidence capacity exceeded")
    modify fun s => { s with
      evidence := { evidence with executions := evidence.executions + 1 } }

end LifecycleState

open LifecycleState

namespace RunnerConfig

variable (config : RunnerConfig C)

/-- The capability is the watched component, to be read. -/
def offers (watch : Watch) (capability : CapabilityDescription) : Bool :=
  (config.bindings[capability.binding]?).any (fun b => decide (b.scriptName = watch.type)) &&
    decide (capability.name = watch.name) && capability.readable

def snapshot (owner : BehaviorId) (watch : Watch) : LifecycleM C (Option LuaValue) := do
  let w := (← get).world
  if !w.behaviors.exist owner then return none
  match config.bindings.find? fun b => decide (b.scriptName = watch.type) with
  | none => return none
  | some binding =>
      let capabilities ← capabilitiesFor owner
      if capabilities.any (config.offers watch) then
        let value ← lift (binding.snapshot w owner watch.name)
        return some value
      else return none

/-- The snapshot of one capability, charged against the limits and checked against its schema. -/
def captureCapability (w : World C) (owner : BehaviorId) (description : CapabilityDescription)
    (bufferedValueBytes : Nat) : Except Failure (ExecutionCapability × Nat) :=
  if !description.readable then .ok (⟨description, none⟩, bufferedValueBytes)
  else
    match config.bindings[description.binding]? with
    | none => .error atFailure
    | some binding => do
        let value ← binding.snapshot w owner description.name
        match measureLuaValue config.sizeofLuaValue config.limits value 0
            ⟨0, bufferedValueBytes⟩ with
        | .error e => .error ⟨.runtimeError, e.diagnostic⟩
        | .ok charged =>
            match binding.metadata.bind fun m => (validateLuaValue m.readSchema value).error with
            | some e => .error ⟨.runtimeError, utf8 "read schema: " ++ e.diagnostic⟩
            | none => return (⟨description, some value⟩, charged.bufferedBytes)

def captureCapabilities (w : World C) (owner : BehaviorId) :
    List CapabilityDescription → Nat → Except Failure (List ExecutionCapability × Nat)
  | [], bufferedValueBytes => .ok ([], bufferedValueBytes)
  | description :: rest, bufferedValueBytes => do
      let (capability, bufferedValueBytes) ←
        config.captureCapability w owner description bufferedValueBytes
      let (capabilities, bufferedValueBytes) ← captureCapabilities w owner rest bufferedValueBytes
      return (capability :: capabilities, bufferedValueBytes)

variable (machine : Machine C) (frame now : UInt64)

/-- `Impl::run` of a lifecycle. -/
def run (owner : BehaviorId) (delta : UInt64) (start : Bool) (changes : List ComponentChange)
    (source : Bytes) : LifecycleM C LuaExecutionResult := do
  let w := (← get).world
  if !w.behaviors.exist owner then return .failure .invalidBehavior
  else if now > maxLuaInteger then return .failure .hostError
  else if frame > maxLuaInteger ∨ delta > maxLuaInteger then return .failure .hostError
  else if source.length > config.maxSourceBytes.toNat then return .failure .sourceLimitExceeded
  else if source.contains 0 then return .failure .syntaxError
  else
    match ← caught (do
      let descriptions ← capabilitiesFor owner
      lift (config.captureCapabilities w owner descriptions 0)) with
    | .error _ => return .failure .hostError
    | .ok (capabilities, bufferedValueBytes) =>
        let context : ExecutionContext C :=
          ⟨w, owner, now, frame, delta, start, changes, source, capabilities, bufferedValueBytes⟩
        match machine context with
        | .error failure => return .failure failure.status
        | .ok bundle =>
            if ← onWorld (World.commitBundle owner bundle.pendingCancellations bundle.pending) then
              return ⟨.success, bundle.watches⟩
            else return .failure .commitFailed

def executeLifecycle (owner : BehaviorId) (delta : UInt64) (start : Bool)
    (changes : List ComponentChange) (source : Bytes) : LifecycleM C LuaExecutionResult := do
  let result ← tryCatch (config.run machine frame now owner delta start changes source)
    fun _ => return .failure .hostError
  recordScriptExecution
  return result

end RunnerConfig

/-! ## The system -/

structure LuaBehaviorScript where
  source : Bytes
  revision : UInt32
deriving DecidableEq

/-- A `LuaLifecycleSystem`: without a name it selects the single readable script. `script` is a
    component of the script type as what it is. -/
structure LuaLifecycleSystem (C : Type) where
  runner : RunnerConfig C
  scriptType : ComponentType
  scriptName : Option Bytes
  script : C → LuaBehaviorScript

def Watch.key (watch : Watch) : Bytes ×ₗ Bytes := toLex (watch.type, watch.name)

namespace LuaLifecycleSystem

variable (system : LuaLifecycleSystem C)

/-- The script component of that name, if it is there and can be read. -/
def readScript (w : World C) (behavior : BehaviorId) (name : Bytes) : Option LuaBehaviorScript :=
  match w.readComponent system.scriptType behavior name with
  | .error _ => none
  | .ok component => component.map system.script

def selectSingleReadable (w : World C) (behavior : BehaviorId) : Option ScriptKey :=
  match w.getComponents system.scriptType behavior with
  | .error _ => none
  | .ok components =>
      match components.entries.filter fun entry =>
          w.components.canReadNamed system.scriptType behavior entry.1 with
      | [(name, slot)] => (system.readScript w behavior name).map fun script =>
          ⟨name, slot, script.revision, script.source⟩
      | _ => none

/-- The script a run selects. -/
def select (w : World C) (behavior : BehaviorId) : Option ScriptKey :=
  match system.scriptName with
  | some name => (system.readScript w behavior name).map fun script =>
      ⟨[], invalidComponentSlotId, script.revision, script.source⟩
  | none => system.selectSingleReadable w behavior

/-- A run that selects no script: the fixed-name path erases the state, the other one keeps a
    new state for the failure. -/
def unselected (behavior : BehaviorId) : LifecycleM C Unit := do
  record (.forgotten behavior)
  match system.scriptName with
  | some _ => modify fun s => { s with states := s.states.erase behavior }
  | none => setState behavior { BehaviorState.initial ⟨[], invalidComponentSlotId, 0, []⟩ with
      lastResult := .failure .hostError }

/-- The state of a behavior, which begins anew with every script. -/
def stateFor (states : OrdMap BehaviorId BehaviorState) (behavior : BehaviorId)
    (script : ScriptKey) : BehaviorState :=
  match states.find? behavior with
  | none => .initial script
  | some state => if state.script = script then state else .initial script

/-- The change of one watch: both values are there, and they differ. -/
def changeOf (snapshots : OrdMap (Bytes ×ₗ Bytes) LuaValue) (watch : Watch)
    (current : Option LuaValue) : List ComponentChange :=
  match current, snapshots.find? watch.key with
  | some current, some previous =>
      if previous.same current then [] else [⟨watch, previous, current⟩]
  | _, _ => []

def changesOf (behavior : BehaviorId) (snapshots : OrdMap (Bytes ×ₗ Bytes) LuaValue) :
    List Watch → LifecycleM C (List ComponentChange)
  | [] => return []
  | watch :: rest => do
      let current ← system.runner.snapshot behavior watch
      let later ← changesOf behavior snapshots rest
      return changeOf snapshots watch current ++ later

def addWatch (watches : List Watch) (watch : Watch) : List Watch :=
  if watch ∈ watches then watches else watches ++ [watch]

def takeSnapshot (state : BehaviorState) (watch : Watch) (current : Option LuaValue) :
    BehaviorState :=
  match current with
  | none => state
  | some value => { state with snapshots := state.snapshots.emplace watch.key value }

/-- The snapshots after a successful run, one watch after the other. -/
def takeSnapshots (behavior : BehaviorId) : BehaviorState → List Watch → LifecycleM C Unit
  | _, [] => return ()
  | state, watch :: rest => do
      let state := takeSnapshot state watch (← system.runner.snapshot behavior watch)
      setState behavior state
      takeSnapshots behavior state rest

/-- What becomes of the state when a run has ended with a result. -/
def conclude (now : UInt64) (behavior : BehaviorId) (state : BehaviorState)
    (result : LuaExecutionResult) : LifecycleM C Unit := do
  let state := { state with lastResult := result }
  setState behavior state
  if result.succeeded then
    let watches := result.watches.foldl addWatch state.watches
    let state := { state with
      started := true
      lastSuccessfulTime := now
      watches := watches
      snapshots := .empty }
    setState behavior state
    system.takeSnapshots behavior state watches

variable (machine : Machine C) (frame now : UInt64)

/-- The body of `run` for one behavior. -/
def turn (behavior : BehaviorId) : LifecycleM C Unit := do
  let s ← get
  match system.select s.world behavior with
  | none => system.unselected behavior
  | some script => do
      let state := stateFor s.states behavior script
      setState behavior state
      let changes ← system.changesOf behavior state.snapshots state.watches
      let before := (← get).world
      let delta := if state.started then now - state.lastSuccessfulTime else 0
      let result ← caught (system.runner.executeLifecycle machine frame now behavior delta
        (!state.started) changes script.source)
      let after := (← get).world
      record (.turn { behavior, script, before, changes, after, result })
      match result with
      | .error e => throw e
      | .ok result => system.conclude now behavior state result

def run (behaviors : List BehaviorId) : LifecycleM C Unit :=
  forM behaviors (system.turn machine frame now)

end LuaLifecycleSystem

/-! ## Processes with a system -/

/-- A process and a lifecycle system in it. -/
structure Lifecycle (C : Type) where
  process : Process C
  evidence : ScriptEvidence
  states : OrdMap BehaviorId BehaviorState
  journal : List (JournalEntry C)

namespace Lifecycle

def initial (system : LuaLifecycleSystem C) : Lifecycle C where
  process := .initial (system.runner.bindings.map Binding.type)
  evidence := ⟨false, 0⟩
  states := .empty
  journal := []

def onBehaviorRemoved (l : Lifecycle C) (behavior : BehaviorId) : Lifecycle C :=
  { l with
    states := l.states.erase behavior
    journal := .forgotten behavior :: l.journal }

/-- What a run works on. -/
def enter (l : Lifecycle C) (v : World C) : LifecycleState C :=
  ⟨v, l.process.runner, l.evidence, l.states, l.journal⟩

def leave (l : Lifecycle C) (s : LifecycleState C) : Lifecycle C where
  process := { l.process with runner := s.runner }
  evidence := s.evidence
  states := s.states
  journal := s.journal

/-- Between the runs of the system anything may happen in the process. The world a run leaves
    behind is one of those that the running of systems leads to, and is not put back here. -/
inductive Step (system : LuaLifecycleSystem C) : Lifecycle C → Lifecycle C → Prop
  | process (l : Lifecycle C) (p : Process C) (hp : Process.Step l.process p) :
      Step system l { l with process := p }
  | evidence (l : Lifecycle C) (evidence : ScriptEvidence) :
      Step system l { l with evidence := evidence }
  | removed (l : Lifecycle C) (behavior : BehaviorId) :
      Step system l (l.onBehaviorRemoved behavior)
  | run (l : Lifecycle C) (id : UInt64) (w v : World C) (machine : Machine C)
      (frame now : UInt64) (behaviors : List BehaviorId)
      (hw : l.process.worlds.find? id = some w) (hv : World.Amid w v) :
      Step system l (l.leave (after (system.run machine frame now behaviors) (l.enter v)))

abbrev Run (system : LuaLifecycleSystem C) (l : Lifecycle C) : Prop :=
  Relation.ReflTransGen (Step system) (initial system) l

end Lifecycle

end LiquidLayer
