/-
  `RuntimeEffectsState` (RuntimeInternals.hpp, RuntimeEffectsState.cpp,
  RuntimeEffectsFeedback.cpp): the state machine of effect commands.

  Operations are programs over the state that may throw half-way and keep the writes made so
  far (`Effects`). A `CommandState&` of the sources is the id of the entry it refers to.

  What the adapters do is an input: a `DispatchAnswer` is one call's outcome together with the
  feedback the adapter sends while the call runs. No operation dispatches a command twice, so
  an operation takes its answers by command id.

  Three fields are not members in the sources: `acceptedReports` and `acceptedObservations`
  stand for the `accepted` out-parameters of a frame, and `calls` lists the dispatch calls the
  adapters have seen.
-/
import LiquidLayer.Lib.Prog
import LiquidLayer.Events.Replay
import LiquidLayer.Events.Store

namespace LiquidLayer

/-! ## Status names -/

def statusName : CommandStatus → String
  | .pending => "pending"
  | .applied => "applied"
  | .rejected => "rejected"
  | .failed => "failed"
  | .timedOut => "timed-out"
  | .superseded => "superseded"
  | .indeterminate => "indeterminate"

def parseStatus (value : Bytes) : Except Failure CommandStatus :=
  if value = utf8 "pending" then .ok .pending
  else if value = utf8 "applied" then .ok .applied
  else if value = utf8 "rejected" then .ok .rejected
  else if value = utf8 "failed" then .ok .failed
  else if value = utf8 "timed-out" then .ok .timedOut
  else if value = utf8 "superseded" then .ok .superseded
  else if value = utf8 "indeterminate" then .ok .indeterminate
  else .error (.eventStoreError "recorded command status is invalid")

@[simp] theorem parseStatus_statusName (status : CommandStatus) :
    parseStatus (utf8 (statusName status)) = .ok status := by
  cases status <;> simp [parseStatus, statusName, utf8_inj]

/-! ## The feedback channel -/

structure FeedbackChannel where
  reports : List EffectReport
  observations : List ExternalObservation
  capacity : Nat

inductive Feedback where
  | report (report : EffectReport)
  | observation (observation : ExternalObservation)
deriving DecidableEq

/-- `FeedbackSender::try_send`. A message that fails validation throws back at its sender, one
    that finds the channel full is answered `Full`; neither is queued. -/
def FeedbackChannel.trySend (channel : FeedbackChannel) (message : Feedback) : FeedbackChannel :=
  if channel.reports.length + channel.observations.length ≥ channel.capacity then channel
  else
    match message with
    | .report report =>
        match validateEffectReport report with
        | .ok () => { channel with reports := channel.reports ++ [report] }
        | .error _ => channel
    | .observation observation =>
        match validateExternalObservation observation with
        | .ok () => { channel with observations := channel.observations ++ [observation] }
        | .error _ => channel

/-! ## The state -/

/-- Names one adapter object. -/
abbrev Adapter := Nat

/-- One call of `EffectAdapter::dispatch`, as the adapter answers it. -/
structure DispatchAnswer where
  sends : List Feedback
  outcome : Except Failure DispatchResult

/-- One call of `EffectAdapter::dispatch`, as the adapter sees it. -/
structure DispatchCall where
  command : EffectCommand
  attempt : Nat
  now : UInt64
  /-- The log on the medium when the call is made. -/
  log : List EventRecord

structure CommandState where
  command : EffectCommand
  adapter : Option Adapter
  capabilities : AdapterCapabilities
  status : CommandStatus
  retryIndex : Nat
  terminalReport : Option EffectReport

def CommandState.key (state : CommandState) : TargetKey := state.command.effect.key

structure RuntimeEffectsState where
  session : SessionId
  timing : FeedbackTiming
  retry : RetryPolicy
  feedback : FeedbackChannel
  store : EventStore
  adapters : OrdMap Bytes Adapter
  commands : OrdMap UInt64 CommandState
  latestByTarget : OrdMap TargetKey UInt64
  authoritativeByTarget : OrdMap TargetKey UInt64
  observed : OrdMap TargetKey Value
  observedRevisions : OrdMap TargetKey StateRevision
  terminalOrder : List UInt64
  deferredSynchronousReports : List EffectReport
  maximumRetainedCommands : Nat
  maximumDeferredReports : Nat
  nextCommand : UInt64
  acceptedReports : List EffectReport
  acceptedObservations : List ExternalObservation
  calls : List DispatchCall

abbrev Effects := EStateM Failure RuntimeEffectsState

namespace Effects

/-- A check that throws without touching the state. -/
def check {α : Type} (result : Except Failure α) : Effects α :=
  match result with
  | .ok a => pure a
  | .error e => throw e

/-- `commands.at(id)`. -/
def commandAt (id : UInt64) : Effects CommandState := do
  match (← get).commands.find? id with
  | some state => pure state
  | none => throw (.outOfRange "map::at")

/-! ## Writing the log -/

/-- A batch given to the store; a refusal throws. -/
def appendBatch (events : List EventData) (durability : Durability) : Effects Unit := do
  let s ← get
  let answer := s.store.appendBatch events durability
  set { s with store := answer.2 }
  if answer.1 then pure () else throw (.eventStoreError "event store refused the append")

def append (type : EventType) (payload : Value) (durability : Durability := .buffered) :
    Effects Unit :=
  appendBatch [{ type, payload }] durability

def flush : Effects Unit := do
  let s ← get
  let answer := s.store.flush
  set { s with store := answer.2 }
  if answer.1 then pure () else throw (.eventStoreError "event store refused the flush")

/-- The fields of a `CommandStatusChanged` record. -/
def statusFields (id : UInt64) (status : CommandStatus) (reason : Bytes) :
    List (String × Value) :=
  [("key", .string (commandText id)),
    ("value", .string (utf8 (statusName status))),
    ("command_id", .unsignedInteger id),
    ("status", .string (utf8 (statusName status))),
    ("reason", .string reason)]

def attemptFields (id : UInt64) (attempt : Nat) (now : UInt64) : List (String × Value) :=
  [("command_id", .unsignedInteger id),
    ("attempt", .unsignedInteger (UInt64.ofNat attempt)),
    ("now", .unsignedInteger now)]

def issuedFields (command : EffectCommand) : List (String × Value) :=
  [("key", .string (commandText command.commandId)),
    ("value", .string (utf8 "pending")),
    ("command_id", .unsignedInteger command.commandId),
    ("route", .string command.effect.adapterRoute.value),
    ("target", .string command.effect.target.value),
    ("desired", command.effect.desiredValue),
    ("issued_at", .unsignedInteger command.issuedAtMs)]

def reportFields (report : EffectReport) (disposition : String) : List (String × Value) :=
  [("command_id", .unsignedInteger report.commandId),
    ("session", .unsignedInteger report.sessionId),
    ("route", .string report.adapterRoute.value),
    ("target", .string report.target.value),
    ("status", .string (utf8 (statusName report.status))),
    ("disposition", .string (utf8 disposition))]

def observedText (route : AdapterRoute) (target : EffectTarget) : Bytes :=
  route.value ++ utf8 ":" ++ target.value

/-- The fields of an `ObservedStateChanged` record with a command behind it. -/
def committedFields (route : AdapterRoute) (target : EffectTarget) (observedValue : Value)
    (revision : StateRevision) (commandId : UInt64) : List (String × Value) :=
  [("key", .string (observedText route target)),
    ("value", observedValue),
    ("command_id", .unsignedInteger commandId),
    ("route", .string route.value),
    ("target", .string target.value),
    ("state_revision", .unsignedInteger revision),
    ("observed", observedValue)]

def observationFields (observation : ExternalObservation) (disposition : String) :
    List (String × Value) :=
  [("session", .unsignedInteger observation.sessionId),
    ("route", .string observation.adapterRoute.value),
    ("target", .string observation.target.value),
    ("state_revision", .unsignedInteger observation.stateRevision),
    ("observed_at", .unsignedInteger observation.observedAtMs),
    ("observed", observation.observedValue),
    ("disposition", .string (utf8 disposition))]

/-- The fields of an `ObservedStateChanged` record from outside. -/
def externalFields (observation : ExternalObservation) : List (String × Value) :=
  [("key", .string (observedText observation.adapterRoute observation.target)),
    ("value", observation.observedValue),
    ("route", .string observation.adapterRoute.value),
    ("target", .string observation.target.value),
    ("state_revision", .unsignedInteger observation.stateRevision),
    ("observed", observation.observedValue),
    ("source", .string (utf8 "external"))]

/-- `append(type, event_payload(fields))`. -/
def record (type : EventType) (fields : List (String × Value)) : Effects Unit := do
  append type (← check (eventPayload fields))

/-! ## Status changes -/

/-- The writes of `set_status` on the entry `state` under `id`. -/
def withStatus (id : UInt64) (state : CommandState) (status : CommandStatus)
    (s : RuntimeEffectsState) : RuntimeEffectsState :=
  let becameTerminal := active state.status && !active status
  { s with
    commands := s.commands.insert id { state with status }
    terminalOrder := if becameTerminal then s.terminalOrder ++ [id] else s.terminalOrder }

def setStatus (id : UInt64) (status : CommandStatus) : Effects Unit := do
  let state ← commandAt id
  modify (withStatus id state status)

def transition (id : UInt64) (status : CommandStatus) (reason : Bytes) : Effects Unit := do
  record .commandStatusChanged (statusFields id status reason)
  setStatus id status

def recordStatus (id : UInt64) (reason : Bytes) : Effects Unit := do
  let state ← commandAt id
  record .commandStatusChanged (statusFields id state.status reason)

def recordReport (report : EffectReport) (disposition : String) : Effects Unit :=
  record .reportReceived (reportFields report disposition)

/-! ## History -/

/-- One turn of the loop in `prune_terminal_history`, once `id` is off the front. -/
def pruneOne (id : UInt64) (s : RuntimeEffectsState) : RuntimeEffectsState :=
  match s.commands.find? id with
  | none => s
  | some state =>
      if active state.status then s
      else
        { s with
          latestByTarget :=
            if s.latestByTarget.find? state.key = some id then s.latestByTarget.erase state.key
            else s.latestByTarget
          commands := s.commands.erase id }

def pruneLoop (targetSize : Nat) : List UInt64 → RuntimeEffectsState → RuntimeEffectsState
  | [], s => { s with terminalOrder := [] }
  | id :: rest, s =>
      if s.commands.size > targetSize then pruneLoop targetSize rest (pruneOne id s)
      else { s with terminalOrder := id :: rest }

def pruneTerminalHistory (reserveCommandSlot : Bool := false) : Effects Unit := do
  let s ← get
  let targetSize := s.maximumRetainedCommands - reserveCommandSlot.toNat
  modify fun s => pruneLoop targetSize s.terminalOrder s
  if (← get).commands.size > targetSize then
    throw (.eventStoreError "active command capacity exceeded")

/-! ## Feedback -/

/-- A new observed value and its revision. -/
def withObserved (key : TargetKey) (observedValue : Value) (revision : StateRevision)
    (s : RuntimeEffectsState) : RuntimeEffectsState :=
  { s with
    observed := s.observed.insert key observedValue
    observedRevisions := s.observedRevisions.insert key revision }

def withAuthority (key : TargetKey) (commandId : UInt64) (s : RuntimeEffectsState) :
    RuntimeEffectsState :=
  { s with authoritativeByTarget := s.authoritativeByTarget.insert key commandId }

def commitAuthoritative (route : AdapterRoute) (target : EffectTarget) (observedValue : Value)
    (revision : StateRevision) (commandId : UInt64) : Effects Unit := do
  record .observedStateChanged (committedFields route target observedValue revision commandId)
  let key := targetKey route target
  modify fun s => withAuthority key commandId (withObserved key observedValue revision s)

/-- The end of `apply_report`, for an accepted report of an applied command. -/
def commitReport (report : EffectReport) (observedValue : Value) : Effects Unit := do
  let s ← get
  match s.observedRevisions.find? report.key with
  | none =>
      commitAuthoritative report.adapterRoute report.target observedValue
        report.stateRevision report.commandId
  | some revision =>
      if revision > report.stateRevision then pure ()
      else if revision = report.stateRevision then
        if s.observed.find? report.key = some observedValue then pure ()
        else recordReport report "rejected-conflicting-state-revision"
      else
        commitAuthoritative report.adapterRoute report.target observedValue
          report.stateRevision report.commandId

/-- `state.terminalReport = report`. -/
def withTerminalReport (id : UInt64) (report : EffectReport) (s : RuntimeEffectsState) :
    RuntimeEffectsState :=
  { s with
    commands := s.commands.modify id fun state => { state with terminalReport := some report } }

/-- `accepted.push_back(report)`. -/
def withAccepted (report : EffectReport) (s : RuntimeEffectsState) : RuntimeEffectsState :=
  { s with acceptedReports := s.acceptedReports ++ [report] }

/-- After an accepted report: an applied one carries an observed value. -/
def commitAccepted (report : EffectReport) : Effects Unit :=
  if report.status = .applied then
    match report.observedValue with
    | some observedValue => commitReport report observedValue
    | none => pure ()
  else pure ()

/-- `apply_report` once the report is known to be the first for its command. -/
def acceptReport (report : EffectReport) (status : CommandStatus) : Effects Unit := do
  recordReport report "accepted"
  if status ≠ .superseded then transition report.commandId report.status report.diagnostic
  modify fun s => withAccepted report (withTerminalReport report.commandId report s)
  commitAccepted report

def applyReport (report : EffectReport) : Effects Unit := do
  check (validateEffectReport report)
  let s ← get
  match s.commands.find? report.commandId with
  | none => recordReport report "rejected-unknown-or-cross-session"
  | some state =>
      if report.sessionId ≠ s.session then
        recordReport report "rejected-unknown-or-cross-session"
      else if report.adapterRoute ≠ state.command.effect.adapterRoute ∨
          report.target ≠ state.command.effect.target then
        recordReport report "rejected-mismatched-target"
      else
        match state.terminalReport with
        | some terminalReport =>
            if terminalReport = report then recordReport report "duplicate"
            else recordReport report "rejected-conflicting-duplicate"
        | none =>
            if state.status = .superseded ∧ report.status ≠ .applied then
              recordReport report "rejected-stale-terminal"
            else acceptReport report state.status

/-- What `apply_observation` decides about an observation. -/
def observationDisposition (s : RuntimeEffectsState) (observation : ExternalObservation) :
    String :=
  if observation.sessionId ≠ s.session ∨ s.adapters.contains observation.adapterRoute.value = false
  then "rejected-unknown-or-cross-session"
  else
    match s.observedRevisions.find? observation.key with
    | none => "accepted"
    | some revision =>
        if revision > observation.stateRevision then "stale"
        else if revision = observation.stateRevision then
          if s.observed.find? observation.key = some observation.observedValue then "duplicate"
          else "rejected-conflicting-revision"
        else "accepted"

def applyObservation (observation : ExternalObservation) : Effects Unit := do
  check (validateExternalObservation observation)
  let disposition := observationDisposition (← get) observation
  record .externalObservationReceived (observationFields observation disposition)
  if disposition = "accepted" then
    record .observedStateChanged (externalFields observation)
    modify fun s =>
      { withObserved observation.key observation.observedValue observation.stateRevision s with
        acceptedObservations := s.acceptedObservations ++ [observation] }

/-- The first loop's body: the report stays at the front until it has been applied. -/
def applyDeferred (report : EffectReport) : Effects Unit := do
  applyReport report
  modify fun s => { s with deferredSynchronousReports := s.deferredSynchronousReports.tail }

/-- The second loop's body: a report whose application throws goes back to the front. -/
def receiveReport (report : EffectReport) : Effects Unit := do
  modify fun s => { s with feedback := { s.feedback with reports := s.feedback.reports.tail } }
  tryCatch (applyReport report) fun e => do
    modify fun s => { s with
      deferredSynchronousReports := report :: s.deferredSynchronousReports }
    throw e

def receiveObservation (observation : ExternalObservation) : Effects Unit := do
  modify fun s => { s with
    feedback := { s.feedback with observations := s.feedback.observations.tail } }
  applyObservation observation

/-- `process_feedback`: applying a report or an observation never queues another. -/
def processFeedback : Effects Unit := do
  let s ← get
  forM s.deferredSynchronousReports applyDeferred
  forM s.feedback.reports receiveReport
  forM s.feedback.observations receiveObservation

/-! ## Adapters -/

/-- The reason `register_adapter` gives for a command it cannot retry. -/
def restartReason (capabilities : AdapterCapabilities) : Bytes :=
  if capabilities.readAfterWriteReconciliation then
    utf8 "host reconciliation required after restart"
  else utf8 "adapter cannot safely retry after restart"

/-- The commands a registration makes indeterminate. -/
def unsafeRetries (s : RuntimeEffectsState) (route : AdapterRoute)
    (capabilities : AdapterCapabilities) : List UInt64 :=
  (s.commands.entries.filter fun entry =>
    decide (entry.2.command.effect.adapterRoute = route) &&
      decide (entry.2.status = .pending) && !capabilities.nativeIdempotency).map Prod.fst

def withAdapter (id : UInt64) (state : CommandState) (adapter : Adapter)
    (capabilities : AdapterCapabilities) (s : RuntimeEffectsState) : RuntimeEffectsState :=
  { s with commands := s.commands.insert id { state with adapter := some adapter, capabilities } }

/-- The second loop's body of `register_adapter`. -/
def attachAdapter (adapter : Adapter) (route : AdapterRoute) (capabilities : AdapterCapabilities)
    (indeterminate : List UInt64) (id : UInt64) : Effects Unit := do
  let state ← commandAt id
  if state.command.effect.adapterRoute = route then
    modify (withAdapter id state adapter capabilities)
    if id ∈ indeterminate then setStatus id .indeterminate

/-- `register_adapter`, with the answers of the adapter's `route()` and `capabilities()`. -/
def registerAdapter (adapter : Option Adapter) (route : AdapterRoute)
    (capabilitiesAnswer : Except Failure AdapterCapabilities) : Effects Unit := do
  match adapter with
  | none => throw (.invalidArgument "adapter ownership must not be null")
  | some adapter =>
      let capabilities ← check capabilitiesAnswer
      let s ← get
      if s.adapters.contains route.value then
        throw (.invalidArgument "adapter route is already registered")
      let indeterminate := unsafeRetries s route capabilities
      let statusEvents ← indeterminate.mapM fun id => do
        let payload ← check (eventPayload
          (statusFields id .indeterminate (restartReason capabilities)))
        pure ({ type := .commandStatusChanged, payload } : EventData)
      modify fun s => { s with adapters := s.adapters.insert route.value adapter }
      tryCatch (appendBatch statusEvents .durable) fun e => do
        modify fun s => { s with adapters := s.adapters.erase route.value }
        throw e
      forM s.commands.keys (attachAdapter adapter route capabilities indeterminate)

/-! ## Dispatch -/

/-- The adapter's answer as the `try` block of `dispatch` sees it: a result that fails
    `validate_dispatch_result_for_command` counts as thrown. -/
def dispatchOutcome (answer : DispatchAnswer) (command : EffectCommand) :
    Except Failure DispatchResult :=
  match answer.outcome with
  | .error e => .error e
  | .ok result =>
      match validateDispatchResultForCommand result command with
      | .error e => .error e
      | .ok () => .ok result

/-- The text a `catch` clause of `dispatch` records. -/
def failureReason (e : Failure) : Bytes :=
  if e.type = .foreign then utf8 "adapter threw an unknown exception" else e.what

/-- The `catch` clauses of `dispatch`. -/
def dispatchThrew (id : UInt64) (nativeIdempotency : Bool) (e : Failure) : Effects Unit :=
  if e.type = .eventStoreError then throw e
  else if nativeIdempotency then recordStatus id (failureReason e)
  else transition id .indeterminate (failureReason e)

/-- The rest of `dispatch`, once the adapter has returned a valid result. -/
def dispatchReturned (id : UInt64) (result : DispatchResult) : Effects Unit :=
  match result.disposition with
  | .rejected => transition id .rejected result.diagnostic
  | .failed => transition id .failed result.diagnostic
  | .accepted =>
      match result.immediateReport with
      | none => pure ()
      | some report => do
          let s ← get
          if s.timing = .immediate then applyReport report
          else if s.deferredSynchronousReports.length ≥ s.maximumDeferredReports then
            transition id .indeterminate
              (utf8 "synchronous feedback staging capacity exceeded")
          else
            modify fun s => { s with
              deferredSynchronousReports := s.deferredSynchronousReports ++ [report] }

/-- The call itself: the adapter sees the command, and may send feedback. -/
def withCall (state : CommandState) (now : UInt64) (sends : List Feedback)
    (s : RuntimeEffectsState) : RuntimeEffectsState :=
  { s with
    calls := s.calls ++ [{
      command := state.command
      attempt := state.retryIndex + 1
      now := now
      log := s.store.durableRecords }]
    feedback := sends.foldl FeedbackChannel.trySend s.feedback }

def dispatch (id : UInt64) (now : UInt64) (answer : DispatchAnswer) : Effects Unit := do
  let state ← commandAt id
  record .commandAttempted (attemptFields id (state.retryIndex + 1) now)
  flush
  modify (withCall state now answer.sends)
  match dispatchOutcome answer state.command with
  | .error e => dispatchThrew id state.capabilities.nativeIdempotency e
  | .ok result => dispatchReturned id result

def elapsedSince (issuedAt now : UInt64) : UInt64 := if now ≥ issuedAt then now - issuedAt else 0

/-- `++state.retryIndex`, on the entry `state` under `id`. -/
def withRetry (id : UInt64) (state : CommandState) (s : RuntimeEffectsState) :
    RuntimeEffectsState :=
  { s with commands := s.commands.insert id { state with retryIndex := state.retryIndex + 1 } }

/-- The body of the loop in `retry_due`. -/
def retryCommand (now : UInt64) (answers : UInt64 → DispatchAnswer) (id : UInt64) :
    Effects Unit := do
  let s ← get
  let state ← commandAt id
  if state.status ≠ .pending ∨ state.adapter = none then pure ()
  else
    let elapsed := elapsedSince state.command.issuedAtMs now
    if elapsed.toNat ≥ s.retry.overallTimeout.toNat then
      transition id .timedOut (utf8 "overall timeout elapsed")
    else
      match ← check (s.retry.delayBeforeRetry state.retryIndex) with
      | none => pure ()
      | some delay =>
          if elapsed.toNat < delay.toNat then pure ()
          else do
            modify (withRetry id state)
            dispatch id now (answers id)

def retryDue (now : UInt64) (answers : UInt64 → DispatchAnswer) : Effects Unit := do
  forM (← get).commands.keys (retryCommand now answers)

/-! ## Issuing -/

/-- What `issue` does about the target's latest command: whether to go on. -/
def supersedePrior (effect : ResolvedEffect) : Effects Bool := do
  match (← get).latestByTarget.find? effect.key with
  | none => pure true
  | some latest =>
      let prior ← commandAt latest
      if prior.status = .indeterminate then pure false
      else if active prior.status ∧ prior.command.effect.desiredValue = effect.desiredValue then
        pure false
      else if prior.status = .pending then do
        transition latest .superseded (utf8 "newer desired value selected")
        pure true
      else pure true

/-- `CommandId{nextCommand++}`. -/
def takeCommandId : Effects UInt64 := do
  let s ← get
  if s.nextCommand = 0 ∨ s.nextCommand = maxU64 then
    throw (.overflowError "command sequence exhausted")
  set { s with nextCommand := s.nextCommand + 1 }
  pure s.nextCommand

/-- The state a new command starts from. -/
def newCommand (command : EffectCommand) (adapter : Adapter)
    (capabilities : AdapterCapabilities) : CommandState where
  command := command
  adapter := some adapter
  capabilities := capabilities
  status := .pending
  retryIndex := 0
  terminalReport := none

/-- The new command enters the maps. -/
def withCommand (state : CommandState) (s : RuntimeEffectsState) : RuntimeEffectsState :=
  { s with
    commands := s.commands.insert state.command.commandId state
    latestByTarget := s.latestByTarget.insert state.key state.command.commandId }

/-- The second half of `issue`: a new command is made, recorded and dispatched. -/
def issueCommand (effect : ResolvedEffect) (now : UInt64) (adapter : Adapter)
    (capabilitiesAnswer : Except Failure AdapterCapabilities) (answer : DispatchAnswer) :
    Effects EffectCommand := do
  pruneTerminalHistory true
  let id ← takeCommandId
  let command : EffectCommand :=
    { sessionId := (← get).session, commandId := id, effect, issuedAtMs := now }
  check (validateEffectCommand command)
  let capabilities ← check capabilitiesAnswer
  record .commandIssued (issuedFields command)
  if (← get).commands.contains id then throw (.logicError "duplicate command ID")
  modify (withCommand (newCommand command adapter capabilities))
  dispatch id now answer
  pure command

/-- `issue`, with the answers of the adapter's `capabilities()` and `dispatch()`. -/
def issue (effect : ResolvedEffect) (now : UInt64)
    (capabilitiesAnswer : Except Failure AdapterCapabilities) (answer : DispatchAnswer) :
    Effects (Option EffectCommand) := do
  check effect.desiredValue.validate
  match (← get).adapters.find? effect.adapterRoute.value with
  | none => throw (.invalidArgument "resolved effect has no registered adapter route")
  | some adapter =>
      if ← supersedePrior effect then
        if (← get).observed.find? effect.key = some effect.desiredValue then pure none
        else return some (← issueCommand effect now adapter capabilitiesAnswer answer)
      else pure none

def clearDesire (route : AdapterRoute) (target : EffectTarget) : Effects Unit := do
  match (← get).latestByTarget.find? (targetKey route target) with
  | none => pure ()
  | some latest =>
      let prior ← commandAt latest
      if prior.status = .pending then
        transition latest .superseded (utf8 "selected desire disappeared")

/-! ## Reconciliation and checkpoints -/

/-- The revision a reconciliation gives to the observed value. -/
def reconciledRevision (s : RuntimeEffectsState) (key : TargetKey) (commandId : CommandId) :
    Except Failure StateRevision :=
  match s.observedRevisions.find? key with
  | none => .ok commandId
  | some prior =>
      if prior = maxU64 then .error (.overflowError "state revision exhausted")
      else .ok (prior + 1)

def reconcileIndeterminate (route : AdapterRoute) (target : EffectTarget)
    (observedValue : Value) : Effects Unit := do
  check observedValue.validate
  let key := targetKey route target
  match (← get).latestByTarget.find? key with
  | none => throw (.logicError "target has no indeterminate command to reconcile")
  | some latest =>
      let state ← commandAt latest
      if state.status ≠ .indeterminate then
        throw (.logicError "target has no indeterminate command to reconcile")
      let reconciledStatus :=
        if state.command.effect.desiredValue = observedValue then .applied else .failed
      let revision ← check (reconciledRevision (← get) key state.command.commandId)
      let terminalReport := EffectReport.make (← get).session state.command.commandId route target
        reconciledStatus (if reconciledStatus = .applied then some observedValue else none)
        (utf8 "host reconciliation") state.command.issuedAtMs revision
      transition latest reconciledStatus (utf8 "host reconciliation")
      commitAuthoritative route target observedValue revision state.command.commandId
      modify (withTerminalReport latest terminalReport)
      flush

def checkpoint : Effects RecordId := do
  let s ← get
  let state ← check (project s.store.metadata s.store.records)
  let payload ← check (checkpointPayload state)
  check (validateCheckpointSession payload s.store.metadata.session)
  append .checkpoint payload .durable
  flush
  pure s.store.nextSequence

end Effects

end LiquidLayer
