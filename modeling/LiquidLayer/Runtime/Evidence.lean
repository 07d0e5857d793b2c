/-
  What a runtime records of its world (RuntimeEvidence.cpp).

  `recordWorldEvidence` writes the buffered evidence to the log of the effects, one buffer after
  the other, and empties each buffer once it has been written. Handles are recorded with the
  session in the place of the world.
-/
import LiquidLayer.Runtime.State

namespace LiquidLayer

open Prog

namespace Runtime

/-! ## Topology -/

/-- The loop over the prefixes in `serialized_topology`. -/
def replaceWorld (world session key : Bytes) : List String → Bytes
  | [] => key
  | kind :: rest =>
      if (utf8 kind ++ world ++ utf8 ":").isPrefixOf key then
        utf8 kind ++ session ++ key.drop ((utf8 kind).length + world.length)
      else replaceWorld world session key rest

def serializedKey (key : Bytes) (world : UInt64) (session : SessionId) : Bytes :=
  replaceWorld (decimal world.toNat) (decimal session.toNat) key ["behavior:", "access:"]

/-- `found->second = Value{session.value}`, for a field that is there. -/
def withSession (session : SessionId) (fields : Object) (field : String) : Object :=
  if (get? fields field).isSome then
    Assoc.insert (utf8 field) (.unsignedInteger session) fields
  else fields

def serializedValue (value : Value) (session : SessionId) : Except Failure Value :=
  match value with
  | .object fields =>
      Value.ofObject (["world", "slot_world", "behavior_world"].foldl (withSession session) fields)
  | value => .ok value

def topologyFields (key : Bytes) (value : Value) (removed : Bool) : List (String × Value) :=
  [("key", .string key), ("value", value), ("removed", .boolean removed)]

/-! ## Components -/

/-- The key of a component's entry among the components. -/
def componentText (type : ComponentTypeId) (name : Bytes) : Bytes :=
  decimal type ++ utf8 ":" ++ name

def mutationFields (session : SessionId) (mutation : ComponentMutation) :
    List (String × Value) :=
  [("key", .string (componentText mutation.target.type mutation.name)),
    ("value", mutation.after),
    ("type", World.natural mutation.target.type),
    ("slot_world", .unsignedInteger session),
    ("slot", World.natural mutation.target.slot.slot),
    ("generation", World.natural mutation.target.slot.generation.toNat),
    ("name", .string mutation.name),
    ("before", mutation.before),
    ("after", mutation.after)]

/-! ## Intents -/

def slotText (session : SessionId) (id : Handle) : Bytes :=
  decimal session.toNat ++ utf8 ":" ++ decimal id.slot ++ utf8 ":" ++ decimal id.generation.toNat

def intentText (session : SessionId) (id : IntentId) : Bytes :=
  utf8 "intent:" ++ slotText session id

def intentIdFields (session : SessionId) (id : IntentId) : List (String × Value) :=
  [("intent_world", .unsignedInteger session),
    ("intent_slot", World.natural id.slot),
    ("intent_generation", World.natural id.generation.toNat)]

def destroyedFields (session : SessionId) (intent : Intent) : List (String × Value) :=
  ("key", .string (intentText session intent.id)) :: intentIdFields session intent.id

def lifetimeText (lifetime : IntentLifetime) : String :=
  if lifetime.kind = .persistent then "persistent" else "until-time"

def createdFields (session : SessionId) (intent : Intent) : List (String × Value) :=
  [("key", .string (intentText session intent.id)), ("value", intent.encodedValue)] ++
    intentIdFields session intent.id ++
    [("owner_world", .unsignedInteger session),
      ("owner_slot", World.natural intent.owner.slot),
      ("owner_generation", World.natural intent.owner.generation.toNat),
      ("type", World.natural intent.target.type),
      ("target_world", .unsignedInteger session),
      ("target_slot", World.natural intent.target.slot.slot),
      ("target_generation", World.natural intent.target.slot.generation.toNat),
      ("priority", World.natural intent.priority.value),
      ("name", .string intent.name),
      ("sequence", .unsignedInteger intent.sequence),
      ("lifetime", .string (utf8 (lifetimeText intent.lifetime))),
      ("expires_at", .unsignedInteger intent.lifetime.expiresAt)]

/-! ## Scripts -/

def scriptFields (session : SessionId) (script : ScriptExecutionEvidence) :
    List (String × Value) :=
  [("key", .string (utf8 "script:" ++ slotText session script.owner ++ utf8 ":" ++
      decimal script.now.toNat)),
    ("owner_world", .unsignedInteger session),
    ("owner_slot", World.natural script.owner.slot),
    ("owner_generation", World.natural script.owner.generation.toNat),
    ("now", .unsignedInteger script.now),
    ("source_included", .boolean script.sourceIncluded),
    ("source_hash", .string script.sourceHash)] ++
    (if script.sourceIncluded then [("source", .string script.source)] else []) ++
    [("status", World.natural script.status.toNat),
      ("diagnostic", .string script.diagnostic),
      ("created_intents", World.natural script.createdIntentCount)]

/-! ## Recording -/

variable {C : Type}

def recordTopologyMutation (world : UInt64) (mutation : TopologyMutation) : Effects Unit := do
  let session := (← get).session
  let value ← Effects.check (serializedValue mutation.value session)
  Effects.record .topologyChanged
    (topologyFields (serializedKey mutation.key world session) value mutation.removed)

def recordMutation (mutation : ComponentMutation) : Effects Unit := do
  Effects.record (if mutation.removed then .componentRemoved else .componentMutated)
    (mutationFields (← get).session mutation)

def recordLifecycle (lifecycle : IntentLifecycleRecord) : Effects Unit := do
  let session := (← get).session
  if lifecycle.created then Effects.record .intentCreated (createdFields session lifecycle.intent)
  else Effects.record .intentDestroyed (destroyedFields session lifecycle.intent)

def recordScript (script : ScriptExecutionEvidence) : Effects Unit := do
  Effects.record .scriptExecuted (scriptFields (← get).session script)

def recordWorldEvidence : RuntimeM C Unit := do
  let w := (← get).world
  onEffects (forM w.topologyMutations (recordTopologyMutation w.instanceId))
  onWorld (World.Op.clearTopologyMutations).program
  onEffects (forM w.componentMutations recordMutation)
  onWorld (World.Op.clearComponentMutations).program
  onEffects (forM w.intents.lifecycleRecords recordLifecycle)
  onWorld (World.Op.clearIntentLifecycleRecords).program
  onEffects (forM (← get).scriptExecutions recordScript)
  modify fun r => { r with scriptExecutions := [] }

/-- `record_script_execution`: evidence that does not fit is refused, and what becomes of the
    exception is up to the system that ran the script. -/
def recordScriptExecution (script : ScriptExecutionEvidence) : RuntimeM C Unit :=
  modify fun r =>
    if r.scriptEvidenceEnabled &&
        decide (r.scriptExecutions.length < maximumBufferedScriptExecutions) then
      { r with scriptExecutions := r.scriptExecutions ++ [script] }
    else r

end Runtime

end LiquidLayer
