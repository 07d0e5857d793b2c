/-
  Construction of `RuntimeEffectsState` and restoring it from a log
  (RuntimeEffectsRestore.cpp, the constructor in RuntimeEffectsState.cpp).

  A throw out of `restore` destroys the object under construction, so the restoring functions
  are plain `Except` computations on the state built so far; `Restoring` adds the local
  `maximumCommandId`.
-/
import LiquidLayer.Effects.State

namespace LiquidLayer

namespace Effects

/-! ## Recorded fields -/

def requiredField (object : Object) (name context : String) : Except Failure Value :=
  match get? object name with
  | none => .error (.eventStoreError (context ++ " is missing " ++ name))
  | some value => .ok value

def requiredUnsigned (object : Object) (name context : String) : Except Failure UInt64 := do
  match ← requiredField object name context with
  | .unsignedInteger value => .ok value
  | _ => .error (.eventStoreError (context ++ " field is not unsigned: " ++ name))

def requiredString (object : Object) (name context : String) : Except Failure Bytes := do
  match ← requiredField object name context with
  | .string value => .ok value
  | _ => .error (.eventStoreError (context ++ " field is not a string: " ++ name))

def requiredObjectPayload (record : EventRecord) (context : String) : Except Failure Object :=
  match record.payload with
  | .object fields => .ok fields
  | _ => .error (.eventStoreError (context ++ " payload must be an object"))

/-- `recorded_command_object`: a nested object under `value` stands for the command. -/
def recordedCommandObject (object : Object) : Object :=
  match get? object "value" with
  | some (.object nested) => nested
  | _ => object

/-- `value.as_object()` on a checkpoint entry that has passed the projection checks. -/
def asObject (value : Value) : Except Failure Object :=
  match value with
  | .object fields => .ok fields
  | _ => .error (.logicError "bad_variant_access")

/-! ## Restoring -/

structure Restoring where
  state : RuntimeEffectsState
  maximumCommandId : UInt64

/-- The `status` field of a recorded command; a command without one is pending. -/
def recordedStatus (object : Object) : Except Failure CommandStatus :=
  match get? object "status" with
  | none => .ok .pending
  | some (.string status) => parseStatus status
  | some _ => .error (.eventStoreError "recorded command status is not a string")

/-- The state a restored command starts from. -/
def restoredCommand (command : EffectCommand) (status : CommandStatus) : CommandState where
  command := command
  adapter := none
  capabilities := {}
  status := status
  retryIndex := 0
  terminalReport := none

/-- The writes of `restore_command`, once the fields are read. -/
def insertRestored (r : Restoring) (command : EffectCommand) (status : CommandStatus) :
    Restoring :=
  let id := command.commandId
  let key := command.effect.key
  { state := { r.state with
      commands := r.state.commands.insert id (restoredCommand command status)
      latestByTarget :=
        match r.state.latestByTarget.find? key with
        | none => r.state.latestByTarget.insert key id
        | some latest =>
            if latest < id then r.state.latestByTarget.insert key id
            else r.state.latestByTarget }
    maximumCommandId := max r.maximumCommandId id }

def restoreCommand (r : Restoring) (object : Object) : Except Failure Restoring := do
  let commandObject := recordedCommandObject object
  let id ← requiredUnsigned commandObject "command_id" "recorded command"
  let route ← AdapterRoute.make (← requiredString commandObject "route" "recorded command")
  let target ← EffectTarget.make (← requiredString commandObject "target" "recorded command")
  let desired ← requiredField commandObject "desired" "recorded command"
  let issuedAt ← requiredUnsigned commandObject "issued_at" "recorded command"
  let command : EffectCommand :=
    { sessionId := r.state.session, commandId := id,
      effect := { adapterRoute := route, target := target, desiredValue := desired },
      issuedAtMs := issuedAt }
  validateEffectCommand command
  let status ← recordedStatus commandObject
  return insertRestored r command status

def restoreAttempt (r : Restoring) (object : Object) : Except Failure Restoring := do
  let id ← requiredUnsigned object "command_id" "recorded command attempt"
  match r.state.commands.find? id with
  | none => .error (.eventStoreError "attempt references unknown command")
  | some state =>
      let attempt ← requiredUnsigned object "attempt" "recorded command attempt"
      if attempt = 0 ∨ attempt.toNat > EffectLimits.maxRetryDelays + 1 then
        .error (.eventStoreError "recorded command attempt is out of range")
      else return { r with state := { r.state with
        commands := r.state.commands.insert id
          { state with retryIndex := max state.retryIndex (attempt.toNat - 1) } } }

def restoreStatus (r : Restoring) (object : Object) : Except Failure Restoring := do
  let id ← requiredUnsigned object "command_id" "recorded command status"
  match r.state.commands.find? id with
  | none => .error (.eventStoreError "status references unknown command")
  | some state =>
      let status ← parseStatus (← requiredString object "status" "recorded command status")
      return { r with state := { r.state with
        commands := r.state.commands.insert id { state with status } } }

/-- The end of `restore_observed_record`: the authority of a record with a command. -/
def restoreAuthority (r : Restoring) (key : TargetKey) (object : Object) :
    Except Failure Restoring :=
  match get? object "command_id" with
  | none => .ok r
  | some (.unsignedInteger id) =>
      if r.state.commands.contains id then
        .ok { r with state := { r.state with
          authoritativeByTarget := r.state.authoritativeByTarget.insert key id } }
      else .error (.eventStoreError "observed state references unknown command")
  | some _ => .error (.eventStoreError "recorded observed command id must be unsigned")

def restoreObservedRecord (r : Restoring) (object : Object) : Except Failure Restoring := do
  let route ← AdapterRoute.make (← requiredString object "route" "recorded observed state")
  let target ← EffectTarget.make (← requiredString object "target" "recorded observed state")
  let key := targetKey route target
  let observed ← requiredField object "observed" "recorded observed state"
  let revision ← requiredUnsigned object "state_revision" "recorded observed state"
  if revision = 0 then .error (.eventStoreError "recorded observed revision is invalid")
  restoreAuthority { r with state := { r.state with
    observed := r.state.observed.insert key observed
    observedRevisions := r.state.observedRevisions.insert key revision } } key object

/-- One turn of the loop in `restore_observed_checkpoint`. -/
def restoreObservedEntry (values : Object) (r : Restoring) (entry : Bytes × Value) :
    Except Failure Restoring := do
  let object ← asObject entry.2
  let route ← requiredString object "route" "checkpoint observed authority"
  let target ← requiredString object "target" "checkpoint observed authority"
  if entry.1 ≠ route ++ utf8 ":" ++ target then
    .error (.eventStoreError "checkpoint observed-authority key is inconsistent")
  let observed ← requiredField object "observed" "checkpoint observed authority"
  if Assoc.find? entry.1 values ≠ some observed then
    .error (.eventStoreError "checkpoint observed state does not match its authority record")
  restoreObservedRecord r object

def restoreObservedCheckpoint (r : Restoring) (authority values : Object) :
    Except Failure Restoring := do
  let r ← authority.foldlM (restoreObservedEntry values) r
  if r.state.observed.size ≠ values.length then
    .error (.eventStoreError "checkpoint observed state is missing an authority record")
  return r

/-- One turn of the loop over a checkpoint's commands. -/
def restoreCheckpointCommand (r : Restoring) (entry : Bytes × Value) :
    Except Failure Restoring := do
  let object ← asObject entry.2
  let r ← restoreCommand r object
  let id ← requiredUnsigned (recordedCommandObject object) "command_id" "checkpoint command"
  if entry.1 ≠ commandText id then
    .error (.eventStoreError "checkpoint command key does not match command ID")
  return r

/-- One turn of the loop over a checkpoint's command attempts. -/
def restoreCheckpointAttempt (r : Restoring) (encoded : Value) : Except Failure Restoring := do
  let attemptRecord ← asObject encoded
  if (← requiredUnsigned attemptRecord "type" "checkpoint command attempt") ≠
      UInt64.ofNat EventType.commandAttempted.code then
    .error (.eventStoreError "checkpoint command_attempts contains another event type")
  match ← requiredField attemptRecord "payload" "checkpoint command attempt" with
  | .object payload => restoreAttempt r payload
  | _ => .error (.eventStoreError "checkpoint command attempt payload must be an object")

/-- The maps a checkpoint record clears. -/
def cleared (s : RuntimeEffectsState) : RuntimeEffectsState :=
  { s with
    commands := .empty
    latestByTarget := .empty
    authoritativeByTarget := .empty
    observed := .empty
    observedRevisions := .empty
    terminalOrder := [] }

def restoreFromCheckpoint (r : Restoring) (record : EventRecord) : Except Failure Restoring := do
  let object ← requiredObjectPayload record "checkpoint"
  validateCheckpointAnchor record.payload r.state.session record.sequence
  let r : Restoring := { state := cleared r.state, maximumCommandId := 0 }
  let r ← (← checkpointObject object "commands").foldlM restoreCheckpointCommand r
  let r ← (← checkpointArray object "command_attempts").foldlM restoreCheckpointAttempt r
  restoreObservedCheckpoint r (← checkpointObject object "observed_authority")
    (← checkpointObject object "observed_state")

/-- The body of the loop in `restore`. -/
def restoreRecord (r : Restoring) (record : EventRecord) : Except Failure Restoring := do
  match record.type with
  | .checkpoint => restoreFromCheckpoint r record
  | .commandIssued => restoreCommand r (← requiredObjectPayload record "recorded command")
  | .commandAttempted =>
      restoreAttempt r (← requiredObjectPayload record "recorded command attempt")
  | .commandStatusChanged =>
      restoreStatus r (← requiredObjectPayload record "recorded command status")
  | .observedStateChanged =>
      restoreObservedRecord r (← requiredObjectPayload record "recorded observed state")
  | _ => return r

/-- The ids `restore` puts into `terminalOrder`. -/
def terminalIds (s : RuntimeEffectsState) : List UInt64 :=
  (s.commands.entries.filter fun entry => !active entry.2.status).map Prod.fst

def restore (s : RuntimeEffectsState) (records : List EventRecord) :
    Except Failure RuntimeEffectsState := do
  let _ ← project s.store.metadata records
  let r ← records.foldlM restoreRecord { state := s, maximumCommandId := 0 }
  if r.maximumCommandId = maxU64 then .error (.eventStoreError "command sequence exhausted")
  let s := { r.state with
    nextCommand := r.maximumCommandId + 1
    terminalOrder := r.state.terminalOrder ++ terminalIds r.state }
  match pruneTerminalHistory false s with
  | .ok _ s => return s
  | .error e _ => .error e

/-! ## Construction -/

structure RuntimeOptions where
  sessionId : SessionId
  feedbackTiming : FeedbackTiming
  retryPolicy : RetryPolicy
  feedbackCapacity : Nat
  maxRetainedCommands : Nat

/-- The members as the initialisers leave them. -/
def initial (options : RuntimeOptions) (store : EventStore) : RuntimeEffectsState where
  session := options.sessionId
  timing := options.feedbackTiming
  retry := options.retryPolicy
  feedback := { reports := [], observations := [], capacity := options.feedbackCapacity }
  store := store
  adapters := .empty
  commands := .empty
  latestByTarget := .empty
  authoritativeByTarget := .empty
  observed := .empty
  observedRevisions := .empty
  terminalOrder := []
  deferredSynchronousReports := []
  maximumRetainedCommands := options.maxRetainedCommands
  maximumDeferredReports := options.feedbackCapacity
  nextCommand := 1
  acceptedReports := []
  acceptedObservations := []
  calls := []

def sessionFields (s : RuntimeEffectsState) : List (String × Value) :=
  [("session", .unsignedInteger s.session),
    ("feedback_timing", .string (timingText s.timing)),
    ("engine_version", .string (utf8 "0.1.0"))]

/-- The constructor's body on the initialised members, with the store of the options. When it
    throws, the object is gone and only the store remains. -/
def construct (options : RuntimeOptions) : Effects Unit := do
  let s ← get
  if options.feedbackCapacity = 0 then
    throw (.invalidArgument "feedback capacity must be positive")
  if s.session = 0 then throw (.invalidArgument "runtime requires a valid session ID")
  check s.retry.validate
  if s.maximumRetainedCommands = 0 then
    throw (.invalidArgument "retained command capacity must be positive")
  if s.store.metadata.session ≠ s.session ∨ s.store.metadata.feedbackTiming ≠ s.timing then
    throw (.invalidArgument "runtime options do not match event-store session metadata")
  if s.store.records.isEmpty then do
    record .sessionStarted (sessionFields s)
    flush
  else do
    let restored ← check (restore s s.store.records)
    set restored

end Effects

end LiquidLayer
