/-
  Frames (Runtime.cpp): expire, run the systems of the three phases, expire again, select; with
  effects, feedback comes first and commands and evidence last.

  A frame that throws leaves a faulted runtime, its log with where it stopped, and, with
  effects, a `FrameFailed` record if that can be written.

  `Op` is what the host can do with a runtime between frames, and frames. Calls that a system,
  an adapter or a codec makes from inside a frame are none of these.
-/
import LiquidLayer.Runtime.Bindings
import LiquidLayer.Runtime.Evidence

namespace LiquidLayer

open Prog

namespace World

variable {C : Type}

/-- `failingSystem`, while the system runs. -/
def systemText (record : SystemRecord) : Bytes :=
  record.stableName ++ utf8 "@" ++ decimal record.version.toNat

/-- How far the loop of `SystemRegistry::run_systems` comes: the systems it completes, and the
    one it names as failing when it ends. -/
def progressLoop (systems : OrdMap Nat SystemRecord) (run : Nat → HostCode C)
    (phase : SystemPhase) : List Nat → Nat → Bytes → Nat × Bytes
  | [], completed, _ => (completed, [])
  | type :: rest, completed, failing =>
      match systems.find? type with
      | none => (completed, failing)
      | some record =>
          if record.phase ≠ phase then progressLoop systems run phase rest completed failing
          else
            match (run type).throws with
            | some _ => (completed, systemText record)
            | none => progressLoop systems run phase rest (completed + 1) (systemText record)

def progress (w : World C) (run : Nat → HostCode C) (phase : SystemPhase) (failing : Bytes) :
    Nat × Bytes :=
  if w.systemsRunning ∨ w.systems.dispatchDepth > 0 then (0, failing)
  else progressLoop w.systems.systems run phase w.systems.registrationOrder 0 failing

end World

namespace Runtime

variable {C : Type}

/-! ## The phases of a frame -/

def validateResolutions (w : World C) :
    List (ComponentTypeId × OrdMap Bytes ComponentSlotId) → Except Failure Unit
  | [] => .ok ()
  | (type, components) :: rest =>
      if !w.resolutionRequestIsCurrent type components then
        .error (.invalidArgument "intent resolution request contains a stale component target")
      else validateResolutions w rest

def validateFrameStart (r : Runtime C) (now : UInt64) (resolutions : Resolutions) :
    Except Failure Unit :=
  if r.currentFrame = maxU64 then .error (.overflowError "frame number exhausted")
  else if r.faultedState then
    .error (.logicError "runtime is faulted after an incomplete frame")
  else if r.frameInProgress then
    .error (.logicError "runtime frame execution is not reentrant")
  else if r.currentFrame > 0 ∧ now < r.latestFrameLog.now then
    .error (.invalidArgument "runtime time cannot move backwards")
  else validateResolutions r.world resolutions.entries

def modifyLocals (f : FrameLocals → FrameLocals) : RuntimeM C Unit :=
  modify fun r => { r with locals := f r.locals }

def modifyLog (f : FrameLog → FrameLog) : RuntimeM C Unit :=
  modifyLocals fun l => { l with log := f l.log }

def beginPhase (phase : String) : RuntimeM C Unit :=
  modifyLog fun log => { log with phases := log.phases ++ [phase] }

def expireIntents (now : UInt64) : RuntimeM C Unit := do
  let expired ← onWorld (World.onIntents (IntentRegistry.destroyExpired now))
  modifyLog fun log => { log with expiredIntents := log.expiredIntents + expired }

/-- One of the three phases of systems. What `run_systems` tells through its out-parameters
    reaches the log whether it returns or throws. -/
def runPhase (host : FrameHost C) (phase : SystemPhase) (name : String) : RuntimeM C Unit := do
  beginPhase name
  forM (host.scripts phase) recordScriptExecution
  let r ← get
  let (completed, failing) :=
    r.world.progress (host.systems phase) phase r.locals.log.failureSystem
  modifyLog fun log => { log with
    systemsRun := log.systemsRun + completed
    failureSystem := failing }
  onWorld (World.runSystems (host.systems phase) phase)

def resolveType (entry : ComponentTypeId × OrdMap Bytes ComponentSlotId) : RuntimeM C Unit := do
  let selected ← demand ((← get).world.resolveIntents entry.1 entry.2)
  modifyLog fun log => { log with
    selectedIntents := log.selectedIntents + selected.size
    intentSelections := log.intentSelections.emplace entry.1 selected }

def resolvePhase (now : UInt64) (resolutions : Resolutions) : RuntimeM C Unit := do
  beginPhase "resolve_intents"
  expireIntents now
  let targets ← demand (← get).world.resolutionTargets
  let resolvedTargets := targets.mergeAll resolutions
  modifyLog fun log => { log with resolutionRequests := resolvedTargets.size }
  forM resolvedTargets.entries resolveType

def phases (host : FrameHost C) (now : UInt64) (resolutions : Resolutions) :
    RuntimeM C Unit := do
  beginPhase "begin_frame"
  beginPhase "expire_intents"
  expireIntents now
  runPhase host .input "run_input_systems"
  runPhase host .behavior "run_behavior_systems"
  runPhase host .decision "run_decision_systems"
  resolvePhase now resolutions
  beginPhase "end_frame"
  modifyLog fun log => { log with completed := true }

/-- The text a `catch` clause finds. -/
def messageOf (e : Failure) (unknown : String) : Bytes :=
  if e.type = .foreign then utf8 unknown else e.what

def executeFramePhases (host : FrameHost C) (now : UInt64) (resolutions : Resolutions) :
    RuntimeM C FrameLog := do
  let r ← get
  modifyLog fun _ => { FrameLog.initial with frame := r.currentFrame, now }
  tryCatch (phases host now resolutions) fun e => do
    modifyLog fun log => { log with
      failurePhase := utf8 (log.phases.getLast?.getD "begin_frame")
      failureMessage := messageOf e "unknown exception" }
    modify fun r => { r with latestFrameLog := r.locals.log }
    throw e
  return (← get).locals.log

/-! ## A frame without effects -/

def setInProgress (inProgress : Bool) : RuntimeM C Unit :=
  modify fun r => { r with frameInProgress := inProgress }

/-- `run_frame(IntentTime, resolutions)`. -/
def runFrame (host : FrameHost C) (now : UInt64) (resolutions : Resolutions) :
    RuntimeM C FrameLog := do
  demand ((← get).validateFrameStart now resolutions)
  setInProgress true
  tryCatch (do
    let log ← executeFramePhases host now resolutions
    modify fun r => { r with latestFrameLog := log }) fun e => do
      setInProgress false
      modify fun r => { r with faultedState := true }
      throw e
  setInProgress false
  modify fun r => { r with currentFrame := r.currentFrame + 1 }
  return (← get).latestFrameLog

/-! ## A frame with effects -/

def startedFields (frame now : UInt64) : List (String × Value) :=
  [("frame", .unsignedInteger frame), ("now", .unsignedInteger now)]

def selectionFields (session : SessionId) (type : ComponentTypeId) (name : Bytes)
    (id : IntentId) : List (String × Value) :=
  [("key", .string (componentText type name)),
    ("value", .unsignedInteger session),
    ("type", World.natural type),
    ("name", .string name)] ++ intentIdFields session id

def failedFields (frame now : UInt64) (log : FrameLog) : List (String × Value) :=
  startedFields frame now ++
    [("phase", .string log.failurePhase),
      ("message", .string log.failureMessage),
      ("system", .string log.failureSystem),
      ("expired_intents", World.natural log.expiredIntents),
      ("selected_intents", World.natural log.selectedIntents),
      ("systems_run", World.natural log.systemsRun)]

def recordSelection (selection : ComponentTypeId × Bytes × IntentId) : Effects Unit := do
  Effects.record .resolutionSelected
    (selectionFields (← get).session selection.1 selection.2.1 selection.2.2)

def issueEffect (host : FrameHost C) (now : UInt64) (effect : ResolvedEffect) :
    RuntimeM C Unit := do
  match ← onEffects (Effects.issue effect now (host.capabilities effect) (host.issued effect)) with
  | none => return ()
  | some command => modifyLocals fun l => { l with commands := l.commands ++ [command] }

/-- `result.reports`. -/
def acceptedReports : RuntimeM C (List EffectReport) :=
  askEffects RuntimeEffectsState.acceptedReports

/-- The `try` block of `run_frame(FrameInput)`. -/
def frameBody (host : FrameHost C) (input : FrameInput) : RuntimeM C Unit := do
  let r ← get
  onEffects (Effects.record .frameStarted (startedFields r.currentFrame input.now))
  onEffects Effects.processFeedback
  retireDeadEffectBindings
  projectAuthoritativeReports (← acceptedReports)
  projectAuthoritativeObservations (← askEffects RuntimeEffectsState.acceptedObservations)
  let log ← executeFramePhases host input.now input.resolutions
  modifyLocals fun l => { l with frame := log }
  let resolvedEffects := (← applySelections log.intentSelections) ++ input.resolvedEffects
  onEffects do Effects.check ((← get).validateEffects resolvedEffects)
  onEffects (forM (selected log.intentSelections) recordSelection)
  forM resolvedEffects (issueEffect host input.now)
  onEffects (Effects.retryDue input.now host.retried)
  projectAuthoritativeReports (← acceptedReports)
  modifyLocals fun l => { l with worldEvidenceAttempted := true }
  recordWorldEvidence
  onEffects Effects.pruneTerminalHistory
  onEffects (Effects.record .frameCompleted (startedFields log.frame input.now))
  onEffects Effects.flush

/-- `publish_frame_failure`. -/
def publishFrameFailure (frame : FrameLog) (frameNumber now : UInt64) (failure : Failure) :
    RuntimeM C FrameLog := do
  let frame := { frame with completed := false }
  let frame :=
    if frame.failurePhase.isEmpty then
      { frame with
        frame := frameNumber
        now := now
        failurePhase := utf8 "effects_and_persistence"
        failureMessage := messageOf failure "unknown failure" }
    else frame
  modify fun r => { r with latestFrameLog := frame }
  return frame

/-- The evidence of a frame that failed, as far as it can be written. -/
def recordFrameFailure (frameNumber now : UInt64) (log : FrameLog) : RuntimeM C Unit :=
  tryCatch (do
    if !(← get).locals.worldEvidenceAttempted then recordWorldEvidence
    onEffects (Effects.record .frameFailed (failedFields frameNumber now log))
    onEffects Effects.flush) fun _ => return ()

/-- The `catch` clause of `run_frame(FrameInput)`. -/
def frameFailed (frameNumber now : UInt64) (failure : Failure) : RuntimeM C Unit := do
  modify fun r => { r with faultedState := true }
  let r ← get
  let frame :=
    if !r.locals.frame.completed && !r.latestFrameLog.completed &&
        r.latestFrameLog.frame == frameNumber then r.latestFrameLog
    else r.locals.frame
  let log ← publishFrameFailure frame frameNumber now failure
  recordFrameFailure frameNumber now log
  setInProgress false
  throw failure

/-- `FrameResult result;`, whose reports and observations the effects collect. -/
def beginResult : RuntimeM C Unit := do
  onEffects (modify fun s => { s with acceptedReports := [], acceptedObservations := [] })
  modifyLocals fun _ => FrameLocals.initial

/-- `run_frame(FrameInput)`. -/
def runFrameInput (host : FrameHost C) (input : FrameInput) : RuntimeM C FrameResult := do
  if (← get).effectsState.isNone then throw (.logicError "runtime effects were not configured")
  demand ((← get).validateFrameStart input.now input.resolutions)
  onEffects do Effects.check ((← get).validateEffects input.resolvedEffects)
  setInProgress true
  beginResult
  let frameBeingRun := (← get).currentFrame
  tryCatch (frameBody host input) (frameFailed frameBeingRun input.now)
  let locals := (← get).locals
  modify fun r => { r with latestFrameLog := locals.frame }
  setInProgress false
  modify fun r => { r with currentFrame := r.currentFrame + 1 }
  return ⟨locals.frame, locals.commands, ← acceptedReports,
    ← askEffects RuntimeEffectsState.acceptedObservations⟩

def checkpoint : RuntimeM C RecordId := do
  let r ← get
  if r.effectsState.isNone then throw (.logicError "runtime effects were not configured")
  if r.frameInProgress then
    throw (.logicError "runtime checkpoint is unavailable during a frame")
  recordWorldEvidence
  onEffects Effects.checkpoint

/-! ## Operations -/

/-- A world's operations that are open to the host. -/
def hosted : World.Op C → Bool
  | .replaceComponentValue .. => false
  | .destroyExpiredIntents .. => false
  | .runSystems .. => false
  | .clearIntentLifecycleRecords => false
  | _ => true

inductive Op (C : Type) where
  | onWorld (op : World.Op C) (opens : hosted op = true)
  | runScript (script : ScriptExecutionEvidence)
  | registerEffectCodec (type : ComponentType) (adapterRoute : AdapterRoute)
      (encode : Option (Bytes → C → Except Failure (Option ResolvedEffect)))
      (decodeObserved : Option (Value → Except Failure C))
  | registerAdapter (adapter : Option Adapter) (route : AdapterRoute)
      (capabilities : Except Failure AdapterCapabilities)
  | send (message : Feedback)
  | reconcileIndeterminate (route : AdapterRoute) (target : EffectTarget) (observed : Value)
  | configureComponent (type : ComponentType) (name : Bytes) (control : ComponentControl)
  | bindEffectComponent (type : ComponentType) (name : Bytes) (target : EffectTarget)
  | runFrame (host : FrameHost C) (now : UInt64) (resolutions : Resolutions)
  | runFrameInput (host : FrameHost C) (input : FrameInput)
  | checkpoint

def Op.program : Op C → RuntimeM C Unit
  | .onWorld op _ => Runtime.onWorld op.program
  | .runScript script => recordScriptExecution script
  | .registerEffectCodec type adapterRoute encode decodeObserved =>
      Runtime.registerEffectCodec type adapterRoute encode decodeObserved
  | .registerAdapter adapter route capabilities =>
      onEffects (Effects.registerAdapter adapter route capabilities)
  | .send message => onEffects (Effects.Op.send message).program
  | .reconcileIndeterminate route target observed =>
      onEffects (Effects.reconcileIndeterminate route target observed)
  | .configureComponent type name control => Runtime.configureComponent type name control
  | .bindEffectComponent type name target => Runtime.bindEffectComponent type name target
  | .runFrame host now resolutions => do let _ ← Runtime.runFrame host now resolutions
  | .runFrameInput host input => do let _ ← Runtime.runFrameInput host input
  | .checkpoint => do let _ ← Runtime.checkpoint

/-- The runtime an operation leaves, whether it returns or throws. -/
def Op.step (op : Op C) (r : Runtime C) : Runtime C := after op.program r

/-- What the constructors return. -/
inductive Started : Runtime C → Prop where
  | plain (instanceId initialFrame : UInt64) : Started (initial instanceId initialFrame)
  | configured (instanceId : UInt64) {options : Effects.RuntimeOptions} {store : EventStore}
      {s : RuntimeEffectsState} (constructed :
        Effects.construct options (Effects.initial options store) = .ok () s) :
      Started (configured instanceId s)

/-- The states of a runtime. -/
def Run (r : Runtime C) : Prop :=
  ∃ r₀, Started r₀ ∧ Reaches Op.step (fun _ _ => True) r₀ r

/-! ## A lamp

Two components of one type, of which the first is bound to the lamp, and one intent for it. -/

def lampOps : List (Op Unit) :=
  [.registerAdapter (some 0) Effects.lampRoute (.ok {}),
    .onWorld (.registerComponent 0 [67] 1 (some fun _ => .ok .null) (some fun _ => .ok ())) rfl,
    .onWorld (.addComponent World.unitType [108] ()) rfl,
    .onWorld (.addComponent World.unitType [109] ()) rfl,
    .registerEffectCodec World.unitType Effects.lampRoute
      (some fun _ _ => .ok (some ⟨Effects.lampRoute, Effects.lampTarget, .boolean true⟩))
      (some fun _ => .ok ()),
    .bindEffectComponent World.unitType [108] Effects.lampTarget,
    .bindEffectComponent World.unitType [109] Effects.lampTarget,
    .onWorld (.createBehavior World.silent) rfl,
    .onWorld (.grantComponentAccess World.silent World.unitType World.firstBehavior [108]
      .readWrite) rfl,
    .onWorld (.call (.createIntent World.firstBehavior World.unitType ⟨7, 0, 1⟩
      ⟨.persistent, 0⟩ () .high [])) rfl]

def lampStart : Runtime Unit := configured 7 Effects.lampStart

def lamp : Runtime Unit := lampOps.foldl (fun r op => op.step r) lampStart

theorem lamp_run : Run lamp :=
  ⟨lampStart, .configured 7 Effects.construct_lamp, .along .start lampOps fun _ _ _ => trivial⟩

/-- Nothing runs, and adapters accept what they are asked. -/
def idle : FrameHost Unit where
  systems _ _ := ⟨[], none⟩
  scripts _ := []
  capabilities _ := .ok {}
  issued _ := ⟨[], .ok ⟨.accepted, none, []⟩⟩
  retried _ := ⟨[], .ok ⟨.accepted, none, []⟩⟩

end Runtime

end LiquidLayer
