/-
  `ReplayProjector` (Replay.cpp) and the checkpoint checks it shares with the stores
  (EventInternals.hpp).

  * `project`: the fold over a log, with every check of the loop.
  * `checkpointPayload`: the object a projection becomes; `restoreCheckpoint`: its inverse.
  * `validateCheckpointProjection`, `validateCheckpointSession`, `validateCheckpointAnchor`.
-/
import LiquidLayer.Events.Record

namespace LiquidLayer

/-! ## Checkpoint fields (EventInternals.hpp) -/

def checkpointField (object : Object) (name : String) : Except Failure Value :=
  match get? object name with
  | none => .error (.eventStoreError ("checkpoint is missing field: " ++ name))
  | some field => .ok field

def checkpointObject (object : Object) (name : String) : Except Failure Object := do
  match ← checkpointField object name with
  | .object fields => .ok fields
  | _ => .error (.eventStoreError ("checkpoint field must be an object: " ++ name))

def checkpointArray (object : Object) (name : String) : Except Failure (List Value) := do
  match ← checkpointField object name with
  | .array items => .ok items
  | _ => .error (.eventStoreError ("checkpoint field must be an array: " ++ name))

def checkpointUnsigned (object : Object) (name : String) : Except Failure UInt64 := do
  match ← checkpointField object name with
  | .unsignedInteger value => .ok value
  | _ => .error (.eventStoreError ("checkpoint field must be unsigned: " ++ name))

/-- One element of `validate_checkpoint_record_array`. -/
def validateCheckpointRecord (encoded : Value) : Except Failure Unit := do
  match encoded with
  | .object event =>
      let sequence ← checkpointUnsigned event "sequence"
      let type ← checkpointUnsigned event "type"
      let version ← checkpointUnsigned event "version"
      let _ ← checkpointField event "payload"
      if sequence = 0 then
        .error (.eventStoreError "checkpoint event sequence must be nonzero")
      else if (EventType.ofCode type.toNat).isNone then
        .error (.eventStoreError "checkpoint event has an unknown type")
      else if version ≠ 1 then
        .error (.eventStoreError "checkpoint event has an unsupported version")
      else .ok ()
  | _ => .error (.eventStoreError "checkpoint event must be an object")

def validateCheckpointRecordArray (object : Object) (name : String) : Except Failure Unit := do
  let items ← checkpointArray object name
  items.forM validateCheckpointRecord

/-- The entries of a checkpoint object are objects themselves. -/
def validateObjectEntries (what : String) (entries : Object) : Except Failure Unit :=
  entries.forM fun entry =>
    match entry.2 with
    | .object _ => .ok ()
    | _ => .error (.eventStoreError what)

def checkpointObjectNames : List String :=
  ["topology", "components", "intents", "commands", "observed_state", "observed_authority",
    "configuration", "handle_generations"]

def checkpointArrayNames : List String :=
  ["session_events", "configuration_events", "frame_events", "resolutions", "command_attempts",
    "reports", "observations", "failures", "recoveries", "retentions", "scripts"]

def validateCheckpointProjection (projection : Value) : Except Failure Unit := do
  match projection with
  | .object object =>
      let session ← checkpointUnsigned object "session"
      if session = 0 then .error (.eventStoreError "checkpoint session must be nonzero")
      let _ ← checkpointUnsigned object "replay_position"
      checkpointObjectNames.forM fun name => do let _ ← checkpointObject object name
      validateObjectEntries "checkpoint command entry must be an object"
        (← checkpointObject object "commands")
      validateObjectEntries "checkpoint observed-authority entry must be an object"
        (← checkpointObject object "observed_authority")
      checkpointArrayNames.forM (validateCheckpointRecordArray object)
  | _ => .error (.eventStoreError "checkpoint projection must be an object")

def projectionObject : Value → Object
  | .object fields => fields
  | _ => []

def validateCheckpointSession (projection : Value) (session : SessionId) :
    Except Failure Unit := do
  validateCheckpointProjection projection
  if (← checkpointUnsigned (projectionObject projection) "session") ≠ session then
    .error (.eventStoreError "checkpoint session does not match event-store metadata")

def validateCheckpointAnchor (projection : Value) (session : SessionId)
    (checkpointSequence : RecordId) : Except Failure Unit := do
  validateCheckpointSession projection session
  if checkpointSequence = 0 then
    .error (.eventStoreError "checkpoint record sequence must be nonzero")
  if (← checkpointUnsigned (projectionObject projection) "replay_position") ≠
      checkpointSequence - 1 then
    .error (.eventStoreError "checkpoint replay_position does not precede checkpoint")

/-! ## Payload fields (Replay.cpp) -/

def requireObject (value : Value) (context : String) : Except Failure Object :=
  match value with
  | .object fields => .ok fields
  | _ => .error (.eventStoreError (context ++ " payload must be an object"))

def requireField (object : Object) (name context : String) : Except Failure Value :=
  match get? object name with
  | none => .error (.eventStoreError (context ++ " payload is missing " ++ name))
  | some field => .ok field

def requireKey (object : Object) (context : String) : Except Failure Bytes := do
  match ← requireField object "key" context with
  | .string key => .ok key
  | _ => .error (.eventStoreError (context ++ " key must be a string"))

def requireUnsigned (object : Object) (name context : String) : Except Failure UInt64 := do
  match ← requireField object name context with
  | .unsignedInteger value => .ok value
  | _ => .error (.eventStoreError (context ++ " field must be unsigned: " ++ name))

/-! ## The projected state -/

structure SerializedWorldState where
  session : SessionId
  replayPosition : RecordId := 0
  topology : Object := []
  components : Object := []
  intents : Object := []
  commands : Object := []
  observedState : Object := []
  observedAuthority : Object := []
  configuration : Object := []
  handleGenerations : Object := []
  sessionEvents : List EventRecord := []
  configurationEvents : List EventRecord := []
  frameEvents : List EventRecord := []
  resolutions : List EventRecord := []
  commandAttempts : List EventRecord := []
  reports : List EventRecord := []
  observations : List EventRecord := []
  failures : List EventRecord := []
  recoveries : List EventRecord := []
  retentions : List EventRecord := []
  scripts : List EventRecord := []
deriving DecidableEq

def setEntry (target : Object) (record : EventRecord) (context : String) :
    Except Failure Object := do
  let payload ← requireObject record.payload context
  let key ← requireKey payload context
  let value ← requireField payload "value" context
  .ok (Assoc.insert key value target)

def eraseEntry (target : Object) (record : EventRecord) (context : String) :
    Except Failure Object := do
  let payload ← requireObject record.payload context
  let key ← requireKey payload context
  .ok (Assoc.erase key target)

/-- `try_set_entry`: `none` when the payload has no key and value. -/
def trySetEntry (target : Object) (record : EventRecord) (context : String) :
    Except Failure (Option Object) :=
  match record.payload with
  | .object payload =>
      if (get? payload "key").isNone || (get? payload "value").isNone then .ok none
      else do return some (← setEntry target record context)
  | _ => .ok none

def commandText (id : CommandId) : Bytes := utf8 "command:" ++ decimal id.toNat

def commandKey (payload : Object) (context : String) : Except Failure Bytes := do
  return commandText (← requireUnsigned payload "command_id" context)

/-- The entry `merge_command` writes: the earlier object overlaid with the payload. -/
def mergedObject (existing payload : Object) : Object :=
  payload.foldl (fun merged field => Assoc.insert field.1 field.2 merged) existing

/-- A `Value` built from an object; the constructor validates. -/
def Value.ofObject (object : Object) : Except Failure Value := do
  (Value.object object).validate
  return .object object

def mergeCommand (commands : Object) (record : EventRecord) (context : String) :
    Except Failure Object := do
  let payload ← requireObject record.payload context
  if (get? payload "command_id").isNone then setEntry commands record context
  else
    let key ← commandKey payload context
    let existing ← match Assoc.find? key commands with
      | none => .ok []
      | some (.object fields) => .ok fields
      | some _ => .error (.eventStoreError (context ++ " state must be an object"))
    return Assoc.insert key (← Value.ofObject (mergedObject existing payload)) commands

def setObserved (observed : Object) (record : EventRecord) : Except Failure Object := do
  match ← trySetEntry observed record "observed state" with
  | some observed => return observed
  | none =>
      let payload ← requireObject record.payload "observed state"
      let route ← requireField payload "route" "observed state"
      let target ← requireField payload "target" "observed state"
      match route, target with
      | .string route, .string target =>
          let value ← requireField payload "observed" "observed state"
          return Assoc.insert (route ++ utf8 ":" ++ target) value observed
      | _, _ => .error (.eventStoreError "observed state route and target must be strings")

def setObservedAuthority (authority : Object) (record : EventRecord) : Except Failure Object := do
  let payload ← requireObject record.payload "observed state"
  match get? payload "route", get? payload "target" with
  | some (.string route), some (.string target) =>
      return Assoc.insert (route ++ utf8 ":" ++ target) record.payload authority
  | _, _ => return authority

/-! ## Checkpoints -/

def recordFields (record : EventRecord) : List (String × Value) :=
  [("sequence", .unsignedInteger record.sequence),
    ("type", .unsignedInteger (UInt64.ofNat record.type.code)),
    ("version", .unsignedInteger record.version.toUInt64),
    ("payload", record.payload)]

def recordValue (record : EventRecord) : Value := .object (eventObject (recordFields record))

def recordsValue (records : List EventRecord) : Value := .array (records.map recordValue)

/-- The fields of a checkpoint. -/
def checkpointFields (state : SerializedWorldState) : List (String × Value) :=
  [("session", .unsignedInteger state.session),
    ("replay_position", .unsignedInteger state.replayPosition),
    ("topology", .object state.topology),
    ("components", .object state.components),
    ("intents", .object state.intents),
    ("commands", .object state.commands),
    ("observed_state", .object state.observedState),
    ("observed_authority", .object state.observedAuthority),
    ("configuration", .object state.configuration),
    ("handle_generations", .object state.handleGenerations),
    ("session_events", recordsValue state.sessionEvents),
    ("configuration_events", recordsValue state.configurationEvents),
    ("frame_events", recordsValue state.frameEvents),
    ("resolutions", recordsValue state.resolutions),
    ("command_attempts", recordsValue state.commandAttempts),
    ("reports", recordsValue state.reports),
    ("observations", recordsValue state.observations),
    ("failures", recordsValue state.failures),
    ("recoveries", recordsValue state.recoveries),
    ("retentions", recordsValue state.retentions),
    ("scripts", recordsValue state.scripts)]

/-- `checkpoint_payload`. -/
def checkpointPayload (state : SerializedWorldState) : Except Failure Value :=
  if state.session = 0 then
    .error (.eventStoreError "checkpoint state requires a valid session ID")
  else eventPayload (checkpointFields state)

/-- One element of `records_field_or_empty`. -/
def decodeRecord (encoded : Value) : Except Failure EventRecord := do
  let object ← requireObject encoded "checkpoint event"
  let type ← requireUnsigned object "type" "checkpoint event"
  match EventType.ofCode type.toNat with
  | none => .error (.eventStoreError "checkpoint event has an unknown type")
  | some type =>
      let version ← requireUnsigned object "version" "checkpoint event"
      if version ≠ 1 then
        .error (.eventStoreError "checkpoint event has an unsupported version")
      let sequence ← requireUnsigned object "sequence" "checkpoint event"
      if sequence = 0 then
        .error (.eventStoreError "checkpoint event sequence must be nonzero")
      let payload ← requireField object "payload" "checkpoint event"
      return { sequence, type, version := version.toUInt16, payload }

def recordsFieldOrEmpty (checkpoint : Object) (name : String) :
    Except Failure (List EventRecord) :=
  match get? checkpoint name with
  | none => .ok []
  | some (.array items) => items.mapM decodeRecord
  | some _ => .error (.eventStoreError ("checkpoint field must be an array: " ++ name))

/-- `optional_object_field`. -/
def optionalObjectField (checkpoint : Object) (name : String) : Except Failure Object :=
  match get? checkpoint name with
  | none => .error (.eventStoreError ("checkpoint is missing field: " ++ name))
  | some (.object fields) => .ok fields
  | some _ => .error (.eventStoreError ("checkpoint field must be an object: " ++ name))

def objectFieldOrEmpty (checkpoint : Object) (name : String) : Except Failure Object :=
  match get? checkpoint name with
  | none => .ok []
  | some (.object fields) => .ok fields
  | some _ => .error (.eventStoreError ("checkpoint field must be an object: " ++ name))

def checkpointSessionMatches (checkpoint : Object) (session : SessionId) :
    Except Failure Unit :=
  match get? checkpoint "session" with
  | none => .ok ()
  | some (.unsignedInteger recorded) =>
      if recorded = session then .ok ()
      else .error (.eventStoreError "checkpoint session does not match replay metadata")
  | some _ => .error (.eventStoreError "checkpoint session does not match replay metadata")

def checkpointReplayPosition (checkpoint : Object) (current : RecordId) :
    Except Failure RecordId :=
  match get? checkpoint "replay_position" with
  | none => .ok current
  | some (.unsignedInteger position) => .ok position
  | some _ => .error (.eventStoreError "checkpoint replay_position must be unsigned")

/-- `restore_checkpoint`. -/
def restoreCheckpoint (state : SerializedWorldState) (record : EventRecord) :
    Except Failure SerializedWorldState := do
  validateCheckpointAnchor record.payload state.session record.sequence
  let checkpoint ← requireObject record.payload "checkpoint"
  checkpointSessionMatches checkpoint state.session
  return {
    session := state.session
    replayPosition := ← checkpointReplayPosition checkpoint state.replayPosition
    topology := ← optionalObjectField checkpoint "topology"
    components := ← optionalObjectField checkpoint "components"
    intents := ← optionalObjectField checkpoint "intents"
    commands := ← optionalObjectField checkpoint "commands"
    observedState := ← optionalObjectField checkpoint "observed_state"
    observedAuthority := ← objectFieldOrEmpty checkpoint "observed_authority"
    configuration := ← objectFieldOrEmpty checkpoint "configuration"
    handleGenerations := ← objectFieldOrEmpty checkpoint "handle_generations"
    sessionEvents := ← recordsFieldOrEmpty checkpoint "session_events"
    configurationEvents := ← recordsFieldOrEmpty checkpoint "configuration_events"
    frameEvents := ← recordsFieldOrEmpty checkpoint "frame_events"
    resolutions := ← recordsFieldOrEmpty checkpoint "resolutions"
    commandAttempts := ← recordsFieldOrEmpty checkpoint "command_attempts"
    reports := ← recordsFieldOrEmpty checkpoint "reports"
    observations := ← recordsFieldOrEmpty checkpoint "observations"
    failures := ← recordsFieldOrEmpty checkpoint "failures"
    recoveries := ← recordsFieldOrEmpty checkpoint "recoveries"
    retentions := ← recordsFieldOrEmpty checkpoint "retentions"
    scripts := ← recordsFieldOrEmpty checkpoint "scripts" }

/-! ## `project` -/

/-- A topology record that removes its entry. -/
def removesEntry (payload : Value) : Bool :=
  match payload with
  | .object fields => get? fields "removed" == some (.boolean true)
  | _ => false

def projectConfiguration (state : SerializedWorldState) (record : EventRecord) :
    Except Failure SerializedWorldState := do
  let state := { state with configurationEvents := state.configurationEvents ++ [record] }
  match ← trySetEntry state.configuration record "configuration" with
  | none => return state
  | some configuration =>
      let state := { state with configuration }
      let payload ← requireObject record.payload "configuration"
      if (← requireKey payload "configuration") = utf8 "handle_generations" then
        match ← requireField payload "value" "configuration" with
        | .object generations => return { state with handleGenerations := generations }
        | _ => .error (.eventStoreError "handle_generations configuration must be an object")
      else return state

/-- The `switch` of the loop. `first` is `index == 0`. -/
def projectRecord (state : SerializedWorldState) (first : Bool) (record : EventRecord) :
    Except Failure SerializedWorldState := do
  match record.type with
  | .sessionStarted => return { state with sessionEvents := state.sessionEvents ++ [record] }
  | .topologyChanged =>
      if removesEntry record.payload then
        return { state with topology := ← eraseEntry state.topology record "topology" }
      else return { state with topology := ← setEntry state.topology record "topology" }
  | .componentMutated =>
      return { state with components := ← setEntry state.components record "component mutation" }
  | .componentRemoved =>
      return { state with components := ← eraseEntry state.components record "component removal" }
  | .intentCreated =>
      return { state with intents := ← setEntry state.intents record "intent creation" }
  | .intentDestroyed =>
      return { state with intents := ← eraseEntry state.intents record "intent destruction" }
  | .commandIssued | .commandStatusChanged =>
      return { state with commands := ← mergeCommand state.commands record "command" }
  | .observedStateChanged =>
      let observedState ← setObserved state.observedState record
      let observedAuthority ← setObservedAuthority state.observedAuthority record
      return { state with observedState, observedAuthority }
  | .checkpoint =>
      if !first then
        if (← checkpointPayload state) ≠ record.payload then
          .error (.eventStoreError "checkpoint does not match projected event history")
      restoreCheckpoint state record
  | .frameStarted | .frameCompleted =>
      return { state with frameEvents := state.frameEvents ++ [record] }
  | .frameFailed =>
      return { state with
        frameEvents := state.frameEvents ++ [record]
        failures := state.failures ++ [record] }
  | .resolutionSelected => return { state with resolutions := state.resolutions ++ [record] }
  | .commandAttempted => return { state with commandAttempts := state.commandAttempts ++ [record] }
  | .reportReceived => return { state with reports := state.reports ++ [record] }
  | .externalObservationReceived =>
      return { state with observations := state.observations ++ [record] }
  | .recovery => return { state with recoveries := state.recoveries ++ [record] }
  | .retention => return { state with retentions := state.retentions ++ [record] }
  | .configurationChanged => projectConfiguration state record
  | .scriptExecuted => return { state with scripts := state.scripts ++ [record] }

/-- One turn of the loop: the checks on the record, the switch, the next expected sequence
    (0 once the sequence is exhausted). -/
def projectStep (state : SerializedWorldState) (expected : RecordId) (first : Bool)
    (record : EventRecord) : Except Failure (SerializedWorldState × RecordId) := do
  if record.sequence = 0 then
    .error (.eventStoreError "replay record sequence must be nonzero")
  if expected ≠ 0 ∧ record.sequence ≠ expected then
    .error (.eventStoreError "replay record sequence gap")
  if record.version ≠ 1 then
    .error (.eventStoreError "unsupported replay record version")
  let state ← projectRecord state first record
  return ({ state with replayPosition := record.sequence },
    if record.sequence = maxU64 then 0 else record.sequence + 1)

def projectLoop (state : SerializedWorldState) (expected : RecordId) (first : Bool) :
    List EventRecord → Except Failure SerializedWorldState
  | [] => .ok state
  | record :: rest =>
      match projectStep state expected first record with
      | .error e => .error e
      | .ok (state, expected) =>
          if expected = 0 ∧ rest ≠ [] then
            .error (.eventStoreError "records follow exhausted replay sequence")
          else projectLoop state expected false rest

def timingText (timing : FeedbackTiming) : Bytes :=
  match timing with
  | .immediate => utf8 "immediate"
  | .deferred => utf8 "deferred"

/-- The state `project` starts from. -/
def initialProjection (metadata : EventStoreMetadata) : SerializedWorldState where
  session := metadata.session
  configuration := eventObject [
    ("engine_version", .string metadata.engineVersion),
    ("feedback_timing", .string (timingText metadata.feedbackTiming))]

/-- `ReplayProjector::project`. -/
def project (metadata : EventStoreMetadata) (records : List EventRecord) :
    Except Failure SerializedWorldState :=
  match (Value.string metadata.engineVersion).validate with
  | .error e => .error e
  | .ok () => projectLoop (initialProjection metadata) 0 true records

end LiquidLayer
