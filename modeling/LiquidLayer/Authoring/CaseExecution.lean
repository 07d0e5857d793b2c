/-
  One evaluation case, and the loop over the cases of a suite (`CaseExecution` and
  `run_evaluation` of Evaluation.cpp).

  The isolated runtime, its runner and adapters and the callbacks of the case are the host's
  code: `CaseHost` has a call for each thing the case asks of them, over whatever the host
  prepares (`P`). A call may throw, and reaches the case's event store only through the store's
  own calls.

  * `CaseExecution.execute`: prepare, compare the manifests, then one frame after the other.
  * `runEvaluation`: the cases share one budget, and none runs after one that did not pass.
-/
import LiquidLayer.Authoring.BoundedStore
import LiquidLayer.Runtime.Bindings

namespace LiquidLayer

open Prog AuthoringSession

namespace Evaluation

/-! ## Suites -/

/-- A case; `A` is what describes an adapter's behavior. Of the callbacks it is known whether
    they are set. -/
structure EvaluationCase (A : Type) where
  name : Bytes
  inputs : Value
  frameTimes : List IntentTime
  feedbackTiming : FeedbackTiming
  adapters : List A
  hasPrepare : Bool
  hasInput : Bool
  hasExpect : Bool

structure EvaluationSuite (A : Type) where
  id : EvaluationFixtureId
  cases : List (EvaluationCase A)

/-- What an admitted evaluation runs against. -/
structure EvaluationRun (A : Type) where
  suite : EvaluationSuite A
  source : Bytes
  grants : List LuaScopeGrant
  scope : AuthoredManifest
  limits : AuthoringLimits

/-- The runtime options of a case: session 1, this timing, and the case's store. -/
structure EvaluationPreparation (A : Type) where
  source : Bytes
  grants : List LuaScopeGrant
  inputs : Value
  adapters : List A
  feedbackTiming : FeedbackTiming

structure EvaluationEffectAddress where
  scriptTypeName : Bytes
  componentName : Bytes
  route : AdapterRoute
  target : EffectTarget

/-- `LuaExecutionResult`, as far as an evaluation reads it. -/
structure LifecycleResult where
  status : LuaExecutionStatus
  diagnostic : Bytes
  createdIntents : List IntentId
  cancelledIntents : List IntentId

structure EvaluationFrameContext where
  frameIndex : Nat
  now : IntentTime
  inputs : Value
  frame : Option FrameResult := none
  lifecycle : Option LifecycleResult := none
  frameRecords : List EventRecord := []

structure EvaluationAssertion where
  passed : Bool
  diagnostic : Bytes

/-- The host's side of a case: its callbacks, and the runtime, runner and adapters it prepares. -/
structure CaseHost (A P : Type) where
  /-- The default-constructed `PreparedEvaluation`. -/
  unprepared : P
  /-- There is a runtime and a runner. -/
  present : P → Bool
  frame : P → UInt64
  faulted : P → Bool
  grantedEffects : P → List EvaluationEffectAddress
  /-- For each adapter, that it is not null. -/
  adapters : P → List Bool
  prepare : EvaluationPreparation A → HostCall Unit P
  capabilityManifest : IntentTime → HostCall P (Except LuaManifestError AuthoredManifest)
  input : EvaluationFrameContext → HostCall P Unit
  deliverThrough : Nat → IntentTime → HostCall P Unit
  runFrame : IntentTime → HostCall P FrameResult
  lastResult : HostCall P (Option LifecycleResult)
  intentsOwned : HostCall P (List IntentId)
  expect : EvaluationFrameContext → HostCall P EvaluationAssertion
  snapshot : Bytes → Bytes → HostCall P (Option LuaValue)

/-! ## Comparing manifests -/

/-- `==` of two finite doubles. -/
def sameDouble (left right : UInt64) : Bool := !doubleLess left right && !doubleLess right left

def sameBound : Option UInt64 → Option UInt64 → Bool
  | none, none => true
  | some left, some right => sameDouble left right
  | _, _ => false

mutual

def sameSchema : LuaValueSchema → LuaValueSchema → Bool
  | .boolean description _, .boolean description' _ => description == description'
  | .integer minimum maximum description _, .integer minimum' maximum' description' _ =>
      description == description' && minimum == minimum' && maximum == maximum'
  | .number minimum maximum description _, .number minimum' maximum' description' _ =>
      description == description' && sameBound minimum minimum' && sameBound maximum maximum'
  | .string minimumBytes maximumBytes enumeration description _,
      .string minimumBytes' maximumBytes' enumeration' description' _ =>
      description == description' && minimumBytes == minimumBytes' &&
        maximumBytes == maximumBytes' && enumeration == enumeration'
  | .array item minimumItems maximumItems description _,
      .array item' minimumItems' maximumItems' description' _ =>
      description == description' && minimumItems == minimumItems' &&
        maximumItems == maximumItems' && sameSchema item item'
  | .object fields description _, .object fields' description' _ =>
      description == description' && sameFields fields fields'
  | _, _ => false

def sameFields : List LuaSchemaField → List LuaSchemaField → Bool
  | [], [] => true
  | .mk name schema required :: rest, .mk name' schema' required' :: rest' =>
      name == name' && required == required' && sameSchema schema schema' &&
        sameFields rest rest'
  | _, _ => false

end

def sameOptionalSchema : Option LuaValueSchema → Option LuaValueSchema → Bool
  | none, none => true
  | some left, some right => sameSchema left right
  | _, _ => false

def sortedCapabilities (manifest : AuthoredManifest) : List LuaManifestCapability :=
  manifest.capabilities.insertionSort fun left right => capabilityKey left ≤ capabilityKey right

/-- `capability_mismatch`: how the isolated capability differs from the scope's. -/
def capabilityMismatch (scope isolated : LuaManifestCapability) : Option Bytes :=
  let target := utf8 "capability " ++ scope.scriptTypeName ++ utf8 "." ++ scope.componentName
  if isolated.scriptTypeName ≠ scope.scriptTypeName ∨
      isolated.componentName ≠ scope.componentName then
    some (target ++ utf8 " is not granted in the isolated world")
  else if isolated.mode ≠ scope.mode then some (target ++ utf8 " has a different access mode")
  else if isolated.accessExpression ≠ scope.accessExpression ∨
      isolated.description ≠ scope.description then
    some (target ++ utf8 " has different binding metadata")
  else if !sameOptionalSchema isolated.readSchema scope.readSchema ||
      !sameOptionalSchema isolated.writeSchema scope.writeSchema then
    some (target ++ utf8 " has a different component schema")
  else none

/-- `manifest_mismatch`. -/
def manifestMismatch (scope isolated : AuthoredManifest) : Option Bytes :=
  if scope.capture.limits ≠ isolated.capture.limits ∨ scope.runLimits ≠ isolated.runLimits then
    some (utf8 "isolated authoring limits differ from the captured scope")
  else
    let expected := sortedCapabilities scope
    let actual := sortedCapabilities isolated
    if expected.length ≠ actual.length then
      some (utf8 "isolated world grants " ++ decimal actual.length ++
        utf8 " capabilities; the captured scope has " ++ decimal expected.length)
    else (expected.zip actual).findSome? fun pair => capabilityMismatch pair.1 pair.2

/-! ## Values and statuses -/

theorem isfinite_zero : isfinite 0 = true := by decide

theorem zero_ne_negativeZero : (0 : UInt64) ≠ negativeZero := by decide

/-- The constructor `Value(double)`. -/
def doubleValue (bits : UInt64) : Except Failure Value :=
  if hzero : bits = negativeZero then
    .ok (.double ⟨0, isfinite_zero, zero_ne_negativeZero⟩)
  else if hfinite : isfinite bits = true then .ok (.double ⟨bits, hfinite, hzero⟩)
  else .error (.invalidArgument "value double must be finite")

/-- A constructor of `Value` that checks what it is given. -/
def checkedValue (value : Value) : Except Failure Value := do
  value.validate
  return value

mutual

/-- `to_value`. -/
def toValue : LuaValue → Except Failure Value
  | .boolean value => .ok (.boolean value)
  | .integer value => .ok (.signedInteger value)
  | .number bits => doubleValue bits
  | .string text => checkedValue (.string text)
  | .array items => do checkedValue (.array (← toItems items))
  | .table entries => do checkedValue (.object (← toFields entries))

def toItems : List LuaValue → Except Failure (List Value)
  | [] => .ok []
  | item :: rest => do
      let first ← toValue item
      return first :: (← toItems rest)

def toFields : List (Bytes × LuaValue) → Except Failure (List (Bytes × Value))
  | [] => .ok []
  | (key, item) :: rest => do
      let first ← toValue item
      return (key, first) :: (← toFields rest)

end

/-- `lifecycle_case_status`, whose table is in the order of the statuses. -/
def lifecycleCaseStatus : LuaExecutionStatus → EvaluationCaseStatus
  | .success => .passed
  | .invalidBehavior => .failed
  | .sourceLimitExceeded => .limitExceeded
  | .syntaxError => .failed
  | .runtimeError => .failed
  | .instructionLimitExceeded => .limitExceeded
  | .memoryLimitExceeded => .limitExceeded
  | .intentLimitExceeded => .limitExceeded
  | .invalidProposal => .failed
  | .commitFailed => .failed
  | .hostError => .hostError

/-- `record_status`. -/
def recordStatus : EvaluationCaseStatus → EvaluationStatus
  | .passed => .passed
  | .failed => .failed
  | .limitExceeded => .limitExceeded
  | .hostError => .hostError
  | .notRun => .hostError

/-- `bounded_diagnostic`. -/
def boundedDiagnostic (message : Bytes) : Bytes :=
  let message := if message.isEmpty then utf8 "evaluation case failed" else message
  if message.length ≤ authoringMaxDiagnosticBytes then message
  else message.take (cutBack message (authoringMaxDiagnosticBytes - ellipsis.length)) ++ ellipsis

/-- One of the candidate's intents is selected. -/
def selectedAny (frame : FrameLog) (candidateIntents : List IntentId) : Bool :=
  (Runtime.selected frame.intentSelections).any fun entry => candidateIntents.contains entry.2.2

/-! ## One case -/

structure CaseExecution (P : Type) where
  prepared : P
  store : BoundedEvaluationStore
  result : EvaluationCaseResult
  recordsSeen : Nat := 0
  lastFrame : Option FrameResult := none
  lastLifecycle : Option LifecycleResult := none
  frameRecords : List EventRecord := []
  grantedEffects : OrdMap TargetKey ComponentAccessMode := .empty

abbrev CaseM (P α : Type) := EStateM Failure (CaseExecution P) α

def fixtureMismatch : Bytes := utf8 "fixture mismatch: "
def budgetExhausted : Bytes := utf8 "evaluation event-store budget exhausted"

namespace CaseExecution

variable {A P : Type}

/-- A call to the host. -/
def onHost {α : Type} (call : HostCall P α) : CaseM P α :=
  zoom (fun s => (s.prepared, s.store)) (fun t s => { s with prepared := t.1, store := t.2 })
    call.run

/-- Only the first stop counts, and an exhausted budget is always the reason. -/
def stop (status : EvaluationCaseStatus) (diagnostic : Bytes) : CaseM P Bool := do
  let s ← get
  if s.result.status ≠ .passed then return false
  else if s.store.budget.exhausted then
    set { s with result := { s.result with
      status := .limitExceeded
      diagnostic := boundedDiagnostic budgetExhausted } }
    return false
  else
    set { s with result := { s.result with
      status := status
      diagnostic := boundedDiagnostic diagnostic } }
    return false

/-- A step whose exceptions are host errors. -/
def guarded (what : String) (step : CaseM P Bool) : CaseM P Bool :=
  tryCatch step fun e =>
    if e.type = .foreign then
      stop .hostError (utf8 what ++ utf8 " failed with an unknown exception")
    else stop .hostError (utf8 what ++ utf8 " failed: " ++ e.what)

section Steps

variable (host : CaseHost A P) (run : EvaluationRun A) (testCase : EvaluationCase A)

def prepare : CaseM P Bool := do
  let prepared ← zoom (fun s : CaseExecution P => ((), s.store))
    (fun t s => { s with store := t.2 })
    (host.prepare ⟨run.source, run.grants, testCase.inputs, testCase.adapters,
      testCase.feedbackTiming⟩).run
  modify fun s => { s with prepared }
  if !host.present prepared then
    stop .hostError (utf8 "case factory returned no runtime or runner")
  else
    modify fun s => { s with recordsSeen := s.store.store.records.length }
    return true

def checkManifest : CaseM P Bool := do
  match ← onHost (host.capabilityManifest (testCase.frameTimes.headD 0)) with
  | .error error => stop .hostError (fixtureMismatch ++ error.diagnostic)
  | .ok isolated =>
      match manifestMismatch run.scope isolated with
      | some mismatch => stop .hostError (fixtureMismatch ++ mismatch)
      | none => return true

/-- The loop of `check_granted_effects`. -/
def checkAddresses : List EvaluationEffectAddress → List (Bytes × Bytes) → CaseM P Bool
  | [], _ => return true
  | address :: rest, declared => do
      let component := (address.scriptTypeName, address.componentName)
      let repeated (what : String) : CaseM P Bool :=
        stop .hostError (fixtureMismatch ++ utf8 "effect address for " ++
          address.scriptTypeName ++ utf8 "." ++ address.componentName ++ utf8 what)
      match run.grants.find? fun grant =>
          (grant.scriptTypeName, grant.componentName) == component with
      | none =>
          stop .hostError (fixtureMismatch ++ utf8 "effect address for an ungranted component")
      | some grant =>
          if component ∈ declared then repeated " repeats its component"
          else
            let key := targetKey address.route address.target
            if (← get).grantedEffects.contains key then repeated " repeats another target"
            else
              modify fun s => { s with
                grantedEffects := s.grantedEffects.insert key grant.mode }
              checkAddresses rest (component :: declared)

def checkGrantedEffects : CaseM P Bool := do
  checkAddresses run (host.grantedEffects (← get).prepared) []

/-- The frame is still the one it was, and so is the world. -/
def unchangedFrame (before : UInt64) (what : String) : CaseM P Bool := do
  let prepared := (← get).prepared
  if host.present prepared && host.frame prepared == before then return true
  else stop .hostError (utf8 what ++ utf8 " changed the evaluation frame or world")

def applyInput (context : EvaluationFrameContext) : CaseM P Bool := do
  if !testCase.hasInput then return true
  else
    let before := host.frame (← get).prepared
    onHost (host.input context)
    unchangedFrame host before "input action"

/-- The loop of `deliver` over the adapters from the one at `index` on. -/
def deliverAll (now : IntentTime) : Nat → List Bool → CaseM P Bool
  | _, [] => return true
  | index, adapter :: rest => do
      if !adapter then stop .hostError (utf8 "case factory returned a null adapter")
      else
        onHost (host.deliverThrough index now)
        deliverAll now (index + 1) rest

def deliver (now : IntentTime) : CaseM P Bool := do
  deliverAll host now 0 (host.adapters (← get).prepared)

/-- The summary of a frame goes to the result. -/
def pushFrame (summary : EvaluationFrameSummary) : CaseM P PUnit :=
  modify fun s => { s with result := { s.result with
    frames := s.result.frames ++ [summary]
    framesRun := (s.result.frames ++ [summary]).length } }

def advance (now : IntentTime) : CaseM P Bool :=
  tryCatch
    (do
      let frame ← onHost (host.runFrame now)
      modify fun s => { s with lastFrame := some frame }
      return true)
    fun e => do
      pushFrame { now }
      stop .hostError (utf8 "evaluation frame failed: " ++
        if e.type = .foreign then utf8 "unknown exception" else e.what)

/-- `lifecycle_result`. -/
def lifecycleResult : CaseM P (Option LifecycleResult) :=
  tryCatch (onHost host.lastResult) fun e => if e.type = .foreign then throw e else return none

def collectRecords : CaseM P PUnit :=
  modify fun s => { s with
    frameRecords := s.store.store.records.drop (min s.recordsSeen s.store.store.records.length)
    recordsSeen := s.store.store.records.length }

/-- `granted_mode`. -/
def grantedMode (granted : OrdMap TargetKey ComponentAccessMode) (route : AdapterRoute)
    (target : EffectTarget) : Option ComponentAccessMode :=
  granted.find? (targetKey route target)

def summarize (frame : FrameResult) (now : IntentTime) : CaseM P EvaluationFrameSummary := do
  let live ← onHost host.intentsOwned
  let s ← get
  return {
    now
    frameCompleted := frame.frame.completed
    lifecycleStatus := s.lastLifecycle.map LifecycleResult.status
    createdIntents := (s.lastLifecycle.map fun l => l.createdIntents.length).getD 0
    cancelledIntents := (s.lastLifecycle.map fun l => l.cancelledIntents.length).getD 0
    liveCandidateIntents := live.length
    candidateSelected := selectedAny frame.frame live
    commandsIssued := frame.commands.countP fun command =>
      (grantedMode s.grantedEffects command.effect.adapterRoute command.effect.target).isSome
    reportStatuses := (frame.reports.filter fun report =>
      (grantedMode s.grantedEffects report.adapterRoute report.target).isSome).map
        EffectReport.status
    observations := frame.observations.countP fun observation =>
      (grantedMode s.grantedEffects observation.adapterRoute observation.target).any fun mode =>
        decide (mode ≠ .write) }

def checkFrame (frame : FrameResult) (index : Nat) : CaseM P Bool := do
  let place := utf8 "frame " ++ decimal index ++ utf8 ": "
  let s ← get
  if s.store.budget.exhausted then stop .limitExceeded budgetExhausted
  else if !frame.frame.completed || host.faulted s.prepared then
    stop .hostError (place ++ utf8 "frame did not complete: " ++ frame.frame.failureMessage)
  else
    match s.lastLifecycle with
    | none => stop .hostError (place ++ utf8 "no lifecycle result for the candidate")
    | some lifecycle =>
        if lifecycleCaseStatus lifecycle.status ≠ .passed then
          stop (lifecycleCaseStatus lifecycle.status)
            (place ++ utf8 "lifecycle failed: " ++ lifecycle.diagnostic)
        else return true

/-- `advance` has set `lastFrame`. -/
def observe (context : EvaluationFrameContext) : CaseM P Bool := do
  match (← get).lastFrame with
  | none => return false
  | some frame =>
      modify fun s => { s with lastLifecycle := none }
      let lifecycle ← lifecycleResult host
      modify fun s => { s with lastLifecycle := lifecycle }
      collectRecords
      pushFrame (← summarize host frame context.now)
      checkFrame host frame context.frameIndex

/-- The last summary says whether the assertion passed. -/
def noteAssertion (passed : Bool) : CaseM P PUnit :=
  modify fun s => { s with result := { s.result with
    frames := s.result.frames.modify (s.result.frames.length - 1)
      fun summary => { summary with assertionPassed := passed } } }

def expect (context : EvaluationFrameContext) : CaseM P Bool := do
  let before := host.frame (← get).prepared
  let assertion ← onHost (host.expect context)
  if ← unchangedFrame host before "expectation" then
    noteAssertion assertion.passed
    if !assertion.passed then
      stop .failed (utf8 "assertion failed at frame " ++ decimal context.frameIndex ++
        utf8 ": " ++ assertion.diagnostic)
    else return true
  else return false

/-- What `observe` has put into the context. -/
def observedContext (context : EvaluationFrameContext) : CaseM P EvaluationFrameContext := do
  let s ← get
  return { context with
    frame := s.lastFrame
    lifecycle := s.lastLifecycle
    frameRecords := s.frameRecords }

def runFrameAt (index : Nat) (now : IntentTime) : CaseM P Bool := do
  let context : EvaluationFrameContext := { frameIndex := index, now, inputs := testCase.inputs }
  if ← guarded "input action" (applyInput host testCase context) then
    if ← guarded "adapter delivery" (deliver host now) then
      if ← advance host now then
        if ← guarded "frame evidence" (observe host context) then
          guarded "expectation" (do expect host (← observedContext context))
        else return false
      else return false
    else return false
  else return false

/-- `run_frames` from the frame at `index` on. -/
def runFrames : Nat → List IntentTime → CaseM P Bool
  | _, [] => return true
  | index, now :: rest => do
      if ← runFrameAt host testCase index now then runFrames (index + 1) rest else return false

/-- A write-only target never exposes a value. -/
def targetSummary (grant : LuaScopeGrant) : CaseM P EvaluationTargetSummary := do
  if grant.mode = .write then
    return ⟨grant.scriptTypeName, grant.componentName, grant.mode, none⟩
  else
    match ← onHost (host.snapshot grant.scriptTypeName grant.componentName) with
    | none =>
        throw ⟨.runtimeError, utf8 "readable target " ++ grant.scriptTypeName ++ utf8 "." ++
          grant.componentName ++ utf8 " is unavailable"⟩
    | some value =>
        match toValue value with
        | .error e => throw e
        | .ok value =>
            return ⟨grant.scriptTypeName, grant.componentName, grant.mode, some value⟩

def captureTargets : List LuaScopeGrant → CaseM P Bool
  | [] => return true
  | grant :: rest => do
      let target ← targetSummary host grant
      modify fun s => { s with result := { s.result with
        finalState := s.result.finalState ++ [target] } }
      captureTargets rest

def captureFinalState : CaseM P PUnit := do
  let captured ← guarded "final state" (captureTargets host run.grants)
  if !captured then
    modify fun s => { s with result := { s.result with finalState := [] } }

def execute : CaseM P PUnit := do
  if ← guarded "case factory" (prepare host run testCase) then
    if ← guarded "isolated manifest" (checkManifest host run testCase) then
      if ← guarded "granted effects" (checkGrantedEffects host run) then
        let _ ← runFrames host testCase 0 testCase.frameTimes
        if host.present (← get).prepared then captureFinalState host run

end Steps

end CaseExecution

/-! ## All cases -/

structure EvaluationOutcome where
  status : EvaluationStatus := .hostError
  cases : List EvaluationCaseResult := []
  trace : List EvaluationTraceEntry := []
  storeBytes : Nat := 0

section Cases

variable {A P : Type}

/-- The constructor of `CaseExecution`: a fresh store on the shared budget. -/
def CaseExecution.start (host : CaseHost A P) (testCase : EvaluationCase A)
    (budget : EvaluationRunBudget) : CaseExecution P where
  prepared := host.unprepared
  store := {
    store := {
      metadata := {
        session := 1
        engineVersion := utf8 "0.1.0"
        feedbackTiming := testCase.feedbackTiming }
      maximumRecords := EventLimits.maxRecordsRead }
    budget }
  result := {
    name := testCase.name
    status := .passed
    framesScheduled := testCase.frameTimes.length }

def notRun (testCase : EvaluationCase A) : EvaluationCaseResult where
  name := testCase.name
  status := .notRun
  framesScheduled := testCase.frameTimes.length

/-- The loop of `run_evaluation` from the case at `index` on; `hosts` has the host of each case. -/
def runCases (hosts : Nat → CaseHost A P) (run : EvaluationRun A) :
    Nat → List (EvaluationCase A) → EvaluationRunBudget → EvaluationOutcome →
      EvaluationOutcome × EvaluationRunBudget
  | _, [], budget, outcome => (outcome, budget)
  | index, testCase :: rest, budget, outcome =>
      if outcome.status ≠ .passed then
        runCases hosts run (index + 1) rest budget
          { outcome with cases := outcome.cases ++ [notRun testCase] }
      else
        let execution := after (CaseExecution.execute (hosts index) run testCase)
          (CaseExecution.start (hosts index) testCase budget)
        runCases hosts run (index + 1) rest execution.store.budget
          { outcome with
            status := recordStatus execution.result.status
            cases := outcome.cases ++ [execution.result]
            trace := appendTrace index execution.store.store.records outcome.trace }

/-- `run_evaluation`. -/
def runEvaluation (hosts : Nat → CaseHost A P) (run : EvaluationRun A) : EvaluationOutcome :=
  let (outcome, budget) := runCases hosts run 0 run.suite.cases
    { maxRecords := run.limits.maxEvaluationRecords
      maxBytes := run.limits.maxEvaluationRecordBytes }
    { status := .passed }
  { outcome with storeBytes := budget.bytes }

end Cases

end Evaluation

end LiquidLayer
