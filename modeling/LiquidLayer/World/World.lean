/-
  `World` and its `Coordinator` (World.hpp, World.cpp, Coordinator.hpp, Coordinator.cpp,
  SystemRegistry.hpp, SystemRegistry.cpp).

  The world runs code of its host: the membership callbacks of systems. A callback may use the
  world, but the topology is frozen while it runs, so what it can do is a list of `Call`s, and
  then return or throw. In one operation a system is told about one behavior at most once each
  way, so the callbacks are a function of the system and the behavior. Worlds are confined to
  their thread, and the thread checks are left out.

  `evidenceLost` is not in the sources: it counts the entries that the full topology and component
  buffers have refused, and the times that one of the two was emptied.
-/
import LiquidLayer.Events.Record
import LiquidLayer.World.Intents

namespace LiquidLayer

open Prog

/-! ## State -/

structure ComponentMutation where
  target : ComponentTarget
  name : Bytes
  before : Value
  after : Value
  removed : Bool
deriving DecidableEq

structure TopologyMutation where
  key : Bytes
  value : Value
  removed : Bool
deriving DecidableEq

/-- The static members of a `SystemType`; `index` is its `type_index`. -/
structure SystemType where
  index : Nat
  stableName : Bytes
  version : UInt32
deriving DecidableEq

structure SystemRecord where
  signature : Signature
  behaviours : OrdMap BehaviorId Unit
  stableName : Bytes
  version : UInt32
  phase : SystemPhase

structure SystemRegistry where
  systems : OrdMap Nat SystemRecord
  registrationOrder : List Nat
  dispatchDepth : Nat

/-- `World` with its `WorldState`. -/
structure World (C : Type) where
  instanceId : UInt64
  components : ComponentRegistry C
  behaviors : BehaviorRegistry
  intents : IntentRegistry
  systems : SystemRegistry
  behaviorSignatures : OrdMap BehaviorId Signature
  behaviorAccessRevisions : OrdMap BehaviorId UInt64
  lastBehaviorAccessRevision : UInt64
  systemsRunning : Bool
  componentMutations : List ComponentMutation
  topologyMutations : List TopologyMutation
  intentTransactionActive : Bool
  evidenceLost : Nat

abbrev WorldM (C : Type) := EStateM Failure (World C)

namespace World

variable {C : Type}

def initial (instanceId : UInt64) : World C where
  instanceId := instanceId
  components := .initial instanceId
  behaviors := .initial instanceId
  intents := .initial instanceId
  systems := ⟨.empty, [], 0⟩
  behaviorSignatures := .empty
  behaviorAccessRevisions := .empty
  lastBehaviorAccessRevision := 0
  systemsRunning := false
  componentMutations := []
  topologyMutations := []
  intentTransactionActive := false
  evidenceLost := 0

def onComponents {α : Type} : EStateM Failure (ComponentRegistry C) α → WorldM C α :=
  zoom World.components fun r w => { w with components := r }

def onBehaviors {α : Type} : EStateM Failure BehaviorRegistry α → WorldM C α :=
  zoom World.behaviors fun r w => { w with behaviors := r }

def onIntents {α : Type} : EStateM Failure IntentRegistry α → WorldM C α :=
  zoom World.intents fun r w => { w with intents := r }

/-! ## Evidence -/

def loseEvidence (w : World C) : World C :=
  { w with evidenceLost := w.evidenceLost + 1 }

def recordTopology (key : Bytes) (value : Value) (removed : Bool) : WorldM C Unit := do
  if (← get).topologyMutations.length ≥ maximumBuffered then
    modify loseEvidence
    throw (.lengthError "topology evidence capacity exceeded")
  modify fun w => { w with topologyMutations := w.topologyMutations ++ [⟨key, value, removed⟩] }

def recordComponentMutation (mutation : ComponentMutation) : WorldM C Unit := do
  if (← get).componentMutations.length ≥ maximumBuffered then
    modify loseEvidence
    throw (.lengthError "component evidence capacity exceeded")
  modify fun w => { w with componentMutations := w.componentMutations ++ [mutation] }

def clearComponentMutations : WorldM C Unit :=
  modify fun w => { w.loseEvidence with componentMutations := [] }

def clearTopologyMutations : WorldM C Unit :=
  modify fun w => { w.loseEvidence with topologyMutations := [] }

def handleText (id : Handle) : Bytes :=
  decimal id.world.toNat ++ utf8 ":" ++ decimal id.slot ++ utf8 ":" ++
    decimal id.generation.toNat

def behaviorKey (id : BehaviorId) : Bytes := utf8 "behavior:" ++ handleText id

def componentKey (type : ComponentTypeId) (name : Bytes) : Bytes :=
  utf8 "component:" ++ decimal type ++ utf8 ":" ++ name

def componentTypeKey (name : Bytes) : Bytes := utf8 "component_type:" ++ name

def systemKey (name : Bytes) : Bytes := utf8 "system:" ++ name

def accessKey (behavior : BehaviorId) (type : ComponentTypeId) (name : Bytes) : Bytes :=
  utf8 "access:" ++ handleText behavior ++ utf8 ":" ++ decimal type ++ utf8 ":" ++ name

def natural (n : Nat) : Value := .unsignedInteger (UInt64.ofNat n)

def behaviorFields (id : BehaviorId) : List (String × Value) :=
  [("world", .unsignedInteger id.world), ("slot", natural id.slot),
    ("generation", natural id.generation.toNat)]

def componentTypeFields (type : ComponentType) (name : Bytes) (version : UInt32) :
    List (String × Value) :=
  [("name", .string name), ("version", natural version.toNat), ("type", natural type.id),
    ("world", .unsignedInteger type.world)]

def componentFields (type : ComponentTypeId) (name : Bytes) (slot : ComponentSlotId) :
    List (String × Value) :=
  [("type", natural type), ("name", .string name), ("slot_world", .unsignedInteger slot.world),
    ("slot", natural slot.slot), ("generation", natural slot.generation.toNat)]

def accessFields (behavior : BehaviorId) (type : ComponentTypeId) (name : Bytes)
    (mode : ComponentAccessMode) : List (String × Value) :=
  [("behavior_world", .unsignedInteger behavior.world), ("behavior_slot", natural behavior.slot),
    ("behavior_generation", natural behavior.generation.toNat), ("type", natural type),
    ("component", .string name), ("mode", natural mode.code)]

def systemFields (system : SystemType) (signature : Signature) : List (String × Value) :=
  [("name", .string system.stableName), ("version", natural system.version.toNat),
    ("signature", .string signature.text)]

def phasedSystemFields (system : SystemType) (signature : Signature) (phase : SystemPhase) :
    List (String × Value) :=
  systemFields system signature ++ [("phase", .string (utf8 phase.text))]

/-- The entry for a thing that is there. Its value is built before it is recorded. -/
def recordEntry (key : Bytes) (fields : List (String × Value)) : WorldM C Unit := do
  let value ← lift (eventPayload fields)
  recordTopology key value false

def recordTombstone (key : Bytes) : WorldM C Unit := recordTopology key .null true

/-! ## Intents and component values -/

def ensureBehavior (w : World C) (behavior : BehaviorId) : Except Failure Unit :=
  if !w.behaviors.exist behavior then .error (.runtimeError "behavior id not found") else .ok ()

/-- The checks of both `Coordinator::create_intent`; the encoded value. -/
def admitIntent (w : World C) (owner : BehaviorId) (type : ComponentType)
    (slot : ComponentSlotId) (value : C) : Except Failure Value := do
  w.ensureBehavior owner
  match ← w.components.resolveComponent type slot with
  | none => .error (.runtimeError "component slot not found")
  | some _ =>
      if !w.components.canWrite type owner slot then
        .error (.runtimeError "component write access denied")
      else if ← w.components.hasComponentCodec type then w.components.encodeComponent type value
      else .error (.logicError "component codec is required for intents")

def createIntent (owner : BehaviorId) (type : ComponentType) (slot : ComponentSlotId)
    (lifetime : IntentLifetime) (value : C) (priority : IntentPriority) (name : Bytes) :
    WorldM C IntentId := do
  let encodedValue ← lift ((← get).admitIntent owner type slot value)
  onIntents (IntentRegistry.create owner type slot lifetime priority encodedValue name)

def createIntentTransaction (owner : BehaviorId) (type : ComponentType) (slot : ComponentSlotId)
    (lifetime : IntentLifetime) (value : C) (priority : IntentPriority) (name : Bytes) :
    WorldM C IntentId := do
  let encodedValue ← lift ((← get).admitIntent owner type slot value)
  onIntents (IntentRegistry.createIn owner type slot lifetime priority encodedValue name)

def destroyIntent (id : IntentId) : WorldM C Unit := onIntents (IntentRegistry.destroy id)

def getComponents (w : World C) (type : ComponentType) (behavior : BehaviorId) :
    Except Failure (OrdMap Bytes ComponentSlotId) := do
  w.ensureBehavior behavior
  return (← w.components.typeRecord type).componentsOf behavior

def readComponent (w : World C) (type : ComponentType) (behavior : BehaviorId) (name : Bytes) :
    Except Failure (Option C) := do
  w.ensureBehavior behavior
  let slot ← w.components.componentSlot type name
  if !w.components.canRead type behavior slot then
    .error (.runtimeError "component read access denied")
  w.components.resolveComponent type slot

/-- What `replace_component` works out before it replaces: the slot, the two encoded values and
    the component to store. -/
def stageReplacement (w : World C) (type : ComponentType) (behavior : BehaviorId) (name : Bytes)
    (replacement : C) : Except Failure (ComponentSlotId × Value × Value × C) := do
  match ← w.readComponent type behavior name with
  | none => .error (.runtimeError "component not found")
  | some current =>
      let before ← w.components.encodeComponent type current
      let after ← w.components.encodeComponent type replacement
      let validated ← w.components.decodeComponent type after
      match (← w.getComponents type behavior).find? name with
      | none => .error atFailure
      | some slot =>
          if !w.components.canWriteNamed type behavior name then
            .error (.runtimeError "component write access denied")
          return (slot, before, after, validated)

def replaceComponent (type : ComponentType) (behavior : BehaviorId) (name : Bytes)
    (replacement : C) : WorldM C Unit := do
  let (slot, before, after, validated) ←
    lift ((← get).stageReplacement type behavior name replacement)
  onComponents (ComponentRegistry.replaceComponent type name validated)
  recordComponentMutation ⟨⟨type.id, slot⟩, name, before, after, false⟩

/-- `replace_component_value`. -/
def replaceComponentValue (target : ComponentTarget) (name : Bytes) (replacement : Value) :
    WorldM C Value := do
  let w ← get
  let before ← lift (w.components.encodeTarget target.type target.slot)
  if before = replacement then return before
  let (after, components) ←
    lift (w.components.replaceTarget target.type target.slot replacement)
  set { w with components }
  recordComponentMutation ⟨target, name, before, after, false⟩
  return after

/-! ## Lua bundles -/

/-- `TypedPendingIntent`. -/
structure PendingIntent (C : Type) where
  type : ComponentType
  name : Bytes
  lifetime : IntentLifetime
  priority : IntentPriority
  intentName : Bytes
  value : C

/-- `TypedPendingIntent::validate`: the slot of the component it may write. -/
def PendingIntent.validate (pending : PendingIntent C) (w : World C) (owner : BehaviorId) :
    Except Failure ComponentSlotId := do
  match (← w.getComponents pending.type owner).find? pending.name with
  | none => .error (.runtimeError "component write access denied")
  | some slot =>
      if !w.components.canWriteNamed pending.type owner pending.name then
        .error (.runtimeError "component write access denied")
      return slot

def PendingIntent.commit (pending : PendingIntent C) (owner : BehaviorId) : WorldM C IntentId := do
  let slot ← lift (pending.validate (← get) owner)
  createIntentTransaction owner pending.type slot pending.lifetime pending.value pending.priority
    pending.intentName

/-- The loop over the pending intents before a transaction. -/
def validatePending (w : World C) (owner : BehaviorId) (cancellations : List IntentId) :
    List (PendingIntent C) → List Bytes → Except Failure Unit
  | [], _ => .ok ()
  | pending :: rest, names => do
      let _ ← pending.validate w owner
      if pending.intentName.isEmpty then validatePending w owner cancellations rest names
      else if pending.intentName ∈ names then
        .error (.runtimeError "Lua transaction contains duplicate intent names")
      else
        match w.intents.intentNamed owner pending.intentName with
        | some existing =>
            if existing ∈ cancellations then
              validatePending w owner cancellations rest (pending.intentName :: names)
            else .error (.runtimeError "intent name is already live for this behavior")
        | none => validatePending w owner cancellations rest (pending.intentName :: names)

def ownedStill (w : World C) (owner : BehaviorId) (id : IntentId) : Bool :=
  match w.intents.intent id with
  | .error _ => false
  | .ok intent => w.intents.exist id && intent.owner == owner

/-- The commit phase of `LuaBehaviorRunner::Impl::run`; `false` is `CommitFailed`. -/
def commitBundle (owner : BehaviorId) (cancellations : List IntentId)
    (pending : List (PendingIntent C)) : WorldM C Bool := do
  let w ← get
  match w.validatePending owner cancellations pending [] with
  | .error _ => return false
  | .ok () =>
      if !cancellations.all fun id => w.ownedStill owner id then return false
      let began ← tryCatch (do
        onIntents IntentRegistry.beginTransaction
        modify fun w => { w with intentTransactionActive := true }
        return true) fun _ => return false
      if !began then return false
      tryCatch (do
        forM cancellations fun id => onIntents (IntentRegistry.cancel id)
        forM pending fun pending => do let _ ← pending.commit owner
        onIntents IntentRegistry.commit
        modify fun w => { w with intentTransactionActive := false }
        return true) fun _ => do
          modify fun w => { w with
            intents := w.intents.rollback, intentTransactionActive := false }
          return false

/-! ## Callbacks -/

/-- What code run by the world can do to it while the topology is frozen. -/
inductive Call (C : Type) where
  | createIntent (owner : BehaviorId) (type : ComponentType) (slot : ComponentSlotId)
      (lifetime : IntentLifetime) (value : C) (priority : IntentPriority) (name : Bytes)
  | destroyIntent (id : IntentId)
  | replaceComponent (type : ComponentType) (behavior : BehaviorId) (name : Bytes) (value : C)
  | commitBundle (owner : BehaviorId) (cancellations : List IntentId)
      (pending : List (PendingIntent C))
  | clearComponentMutations
  | clearTopologyMutations

def Call.program : Call C → WorldM C Unit
  | .createIntent owner type slot lifetime value priority name => do
      let _ ← World.createIntent owner type slot lifetime value priority name
  | .destroyIntent id => World.destroyIntent id
  | .replaceComponent type behavior name value => World.replaceComponent type behavior name value
  | .commitBundle owner cancellations pending => do
      let _ ← World.commitBundle owner cancellations pending
  | .clearComponentMutations => World.clearComponentMutations
  | .clearTopologyMutations => World.clearTopologyMutations

/-- Code of the host: its calls, whether they throw or not, and then its own end. -/
structure HostCode (C : Type) where
  calls : List (Call C)
  throws : Option Failure

def HostCode.run (code : HostCode C) : WorldM C Unit := do
  forM code.calls fun call => tryCatch call.program fun _ => pure ()
  match code.throws with
  | none => pure ()
  | some e => throw e

/-- `on_behavior_added` and `on_behavior_removed` of every system. -/
structure Callbacks (C : Type) where
  added : Nat → BehaviorId → HostCode C
  removed : Nat → BehaviorId → HostCode C

/-! ## Systems -/

/-- Run, and hand out the exception instead of throwing it. -/
def captured (m : WorldM C Unit) : WorldM C (Option Failure) :=
  tryCatch (do m; return none) fun e => return some e

def rethrow : Option Failure → WorldM C Unit
  | none => pure ()
  | some e => throw e

/-- Run all of them and keep the first exception. -/
def runAll {α : Type} (step : α → WorldM C (Option Failure)) : List α → WorldM C (Option Failure)
  | [] => return none
  | a :: rest => do
      let first ← step a
      let later ← runAll step rest
      return first.or later

def setDispatchDepth (f : Nat → Nat) : WorldM C Unit :=
  modify fun w => { w with systems := { w.systems with
    dispatchDepth := f w.systems.dispatchDepth } }

/-- A body under a `DispatchGuard`. -/
def dispatching (m : WorldM C (Option Failure)) : WorldM C Unit := do
  if (← get).systems.dispatchDepth > 0 then
    throw (.logicError "system registry topology cannot change during dispatch")
  setDispatchDepth (· + 1)
  let first ← tryCatch m fun e => do
    setDispatchDepth (· - 1)
    throw e
  setDispatchDepth (· - 1)
  rethrow first

def setSystem (type : Nat) (record : SystemRecord) : WorldM C Unit :=
  modify fun w => { w with systems := { w.systems with
    systems := w.systems.systems.insert type record } }

def systemAt (type : Nat) : WorldM C SystemRecord := do
  match (← get).systems.systems.find? type with
  | none => throw atFailure
  | some record => return record

/-- One system in `update_behavior`. -/
def updateMembership (callbacks : Callbacks C) (behavior : BehaviorId)
    (behaviorSignature : Signature) (type : Nat) : WorldM C (Option Failure) := do
  let record ← systemAt type
  if behaviorSignature.covers record.signature then
    if record.behaviours.contains behavior then return none
    setSystem type { record with behaviours := record.behaviours.insert behavior () }
    captured (callbacks.added type behavior).run
  else
    if record.behaviours.contains behavior then
      setSystem type { record with behaviours := record.behaviours.erase behavior }
      captured (callbacks.removed type behavior).run
    else return none

def updateBehavior (callbacks : Callbacks C) (behavior : BehaviorId)
    (behaviorSignature : Signature) : WorldM C Unit := do
  let order := (← get).systems.registrationOrder
  dispatching (runAll (updateMembership callbacks behavior behaviorSignature) order)

/-- One system in `remove_behavior`. -/
def removeMembership (callbacks : Callbacks C) (behavior : BehaviorId) (type : Nat) :
    WorldM C (Option Failure) := do
  let record ← systemAt type
  if record.behaviours.contains behavior then
    setSystem type { record with behaviours := record.behaviours.erase behavior }
    captured (callbacks.removed type behavior).run
  else return none

def removeFromSystems (callbacks : Callbacks C) (behavior : BehaviorId) : WorldM C Unit := do
  let order := (← get).systems.registrationOrder
  dispatching (runAll (removeMembership callbacks behavior) order)

def behaviorSignature (w : World C) (behavior : BehaviorId) : Signature :=
  (w.behaviorSignatures.find? behavior).getD 0

def updateSystemMemberships (callbacks : Callbacks C) (behavior : BehaviorId) :
    WorldM C Unit := do
  updateBehavior callbacks behavior ((← get).behaviorSignature behavior)

def updateAllSystemMemberships (callbacks : Callbacks C) : WorldM C Unit := do
  let behaviors := (← get).behaviorSignatures.keys
  rethrow (← runAll (fun b => captured (updateSystemMemberships callbacks b)) behaviors)

def ensureStructuralMutationAllowed : WorldM C Unit := do
  let w ← get
  if w.systemsRunning ∨ w.systems.dispatchDepth > 0 ∨ w.intentTransactionActive then
    throw (.logicError "world topology cannot change during dispatch or intent commit")

def insertSystem (system : SystemType) (signature : Signature) (phase : SystemPhase)
    (constructed : Except Failure Unit) : WorldM C Unit := do
  let w ← get
  if w.systems.systems.contains system.index then
    throw (.runtimeError "system already registered")
  if system.stableName.isEmpty ∨ system.version = 0 then
    throw (.invalidArgument "system stable name and version are required")
  lift constructed
  set { w with systems := { w.systems with
    systems := w.systems.systems.insert system.index
      ⟨signature, .empty, system.stableName, system.version, phase⟩
    registrationOrder := w.systems.registrationOrder ++ [system.index] } }

def eraseSystem (system : SystemType) : WorldM C Unit := do
  let w ← get
  if !w.systems.systems.contains system.index then throw (.runtimeError "system not registered")
  set { w with systems := { w.systems with
    systems := w.systems.systems.erase system.index
    registrationOrder := w.systems.registrationOrder.filter fun type => type ≠ system.index } }

/-- `register_system`, whose phase is `Decision` when none is given; `constructed` is the
    outcome of the system's own constructor. -/
def registerSystem (callbacks : Callbacks C) (system : SystemType) (signature : Signature)
    (phase : SystemPhase) (constructed : Except Failure Unit) : WorldM C Unit := do
  ensureStructuralMutationAllowed
  insertSystem system signature phase constructed
  tryCatch (updateAllSystemMemberships callbacks) fun e => do
    eraseSystem system
    throw e
  recordEntry (systemKey system.stableName) (phasedSystemFields system signature phase)

def destroySystem (system : SystemType) : WorldM C Unit := do
  ensureStructuralMutationAllowed
  eraseSystem system
  recordTombstone (systemKey system.stableName)

def setSystemSignature (callbacks : Callbacks C) (system : SystemType) (signature : Signature) :
    WorldM C Unit := do
  ensureStructuralMutationAllowed
  match (← get).systems.systems.find? system.index with
  | none => throw (.runtimeError "system not registered")
  | some record =>
      setSystem system.index { record with signature }
      updateAllSystemMemberships callbacks
      recordEntry (systemKey system.stableName) (systemFields system signature)

/-! ## Behaviors -/

def nextBehaviorAccessRevision : WorldM C UInt64 := do
  let w ← get
  if w.lastBehaviorAccessRevision = maxU64 then
    throw (.overflowError "behavior access revision exhausted")
  set { w with lastBehaviorAccessRevision := w.lastBehaviorAccessRevision + 1 }
  return w.lastBehaviorAccessRevision + 1

/-- The `try` block of `Coordinator::create_behavior`. -/
def admitBehavior (callbacks : Callbacks C) (behavior : BehaviorId) (accessRevision : UInt64) :
    WorldM C Unit := do
  onIntents (IntentRegistry.createBehaviorPool behavior)
  if (← get).behaviorSignatures.contains behavior then
    throw (.logicError "behavior signature already exists")
  modify fun w => { w with behaviorSignatures := w.behaviorSignatures.insert behavior 0 }
  if (← get).behaviorAccessRevisions.contains behavior then
    throw (.logicError "behavior access revision already exists")
  modify fun w => { w with
    behaviorAccessRevisions := w.behaviorAccessRevisions.insert behavior accessRevision }
  updateSystemMemberships callbacks behavior

def forgetBehavior (behavior : BehaviorId) : WorldM C Unit :=
  modify fun w => { w with
    behaviorSignatures := w.behaviorSignatures.erase behavior
    behaviorAccessRevisions := w.behaviorAccessRevisions.erase behavior }

def createBehavior (callbacks : Callbacks C) : WorldM C BehaviorId := do
  ensureStructuralMutationAllowed
  let accessRevision ← nextBehaviorAccessRevision
  let behavior ← onBehaviors BehaviorRegistry.create
  tryCatch (admitBehavior callbacks behavior accessRevision) fun e => do
    let _ ← captured (removeFromSystems callbacks behavior)
    forgetBehavior behavior
    onIntents (IntentRegistry.destroyOwnedBy behavior)
    onBehaviors (BehaviorRegistry.destroy behavior)
    throw e
  recordEntry (behaviorKey behavior) (behaviorFields behavior)
  return behavior

/-- `Coordinator::destroy_behavior`. -/
def eraseBehavior (callbacks : Callbacks C) (id : BehaviorId) : WorldM C Unit := do
  lift ((← get).ensureBehavior id)
  modify fun w => { w with components := w.components.removeBehavior id }
  forgetBehavior id
  let callbackException ← captured (removeFromSystems callbacks id)
  onIntents (IntentRegistry.destroyOwnedBy id)
  onBehaviors (BehaviorRegistry.destroy id)
  rethrow callbackException

def destroyBehavior (callbacks : Callbacks C) (id : BehaviorId) : WorldM C Unit := do
  ensureStructuralMutationAllowed
  let existed := (← get).behaviors.exist id
  tryCatch (eraseBehavior callbacks id) fun e => do
    if existed ∧ !(← get).behaviors.exist id then recordTombstone (behaviorKey id)
    throw e
  recordTombstone (behaviorKey id)

/-! ## Components -/

def registerComponent (component : Nat) (name : Bytes) (version : UInt32)
    (encode : Option (C → Except Failure Value)) (decode : Option (Value → Except Failure C)) :
    WorldM C ComponentType := do
  ensureStructuralMutationAllowed
  let w ← get
  let (type, components) ←
    lift (w.components.registerComponent component name version encode decode)
  set { w with components }
  recordEntry (componentTypeKey name) (componentTypeFields type name version)
  return type

/-- The value `add_component` and `remove_component` put into the component's evidence. -/
def encodedFor (w : World C) (type : ComponentType) (component : C) :
    Except Failure (Option Value) := do
  if ← w.components.hasComponentCodec type then
    return some (← w.components.encodeComponent type component)
  else return none

def recordOptional (mutation : Value → ComponentMutation) : Option Value → WorldM C Unit
  | none => pure ()
  | some encoded => recordComponentMutation (mutation encoded)

def addComponent (type : ComponentType) (name : Bytes) (component : C) : WorldM C Unit := do
  ensureStructuralMutationAllowed
  let encoded ← lift ((← get).encodedFor type component)
  onComponents (ComponentRegistry.addComponent type name component)
  let slot ← lift ((← get).components.componentSlot type name)
  recordOptional (fun encoded => ⟨⟨type.id, slot⟩, name, .null, encoded, false⟩) encoded
  recordEntry (componentKey type.id name) (componentFields type.id name slot)

def destroyIntentsForTarget (type : ComponentTypeId) (slot : ComponentSlotId) :
    WorldM C Unit := do
  let targeted := (← get).intents.intentsFor type slot
  forM targeted fun id => onIntents (IntentRegistry.destroy id)

def destroyIntentsForOwnerTarget (owner : BehaviorId) (type : ComponentTypeId)
    (slot : ComponentSlotId) : WorldM C Unit := do
  let targeted := (← get).intents.intentsFor type slot
  forM targeted fun id => do
    if (← lift ((← get).intents.intent id)).owner = owner then
      onIntents (IntentRegistry.destroy id)

def setRevision (behavior : BehaviorId) (revision : UInt64) : WorldM C Unit :=
  modify fun w => { w with
    behaviorAccessRevisions := w.behaviorAccessRevisions.insert behavior revision }

/-- `behaviorAccessRevisions.at(behavior)` and a new revision. -/
def drawRevision (behavior : BehaviorId) : WorldM C UInt64 := do
  if !(← get).behaviorAccessRevisions.contains behavior then throw atFailure
  nextBehaviorAccessRevision

def drawRevisions (type : ComponentType) (slot : ComponentSlotId) :
    List BehaviorId → WorldM C (List (BehaviorId × UInt64))
  | [] => return []
  | behavior :: rest => do
      let w ← get
      if w.components.canRead type behavior slot || w.components.canWrite type behavior slot then
        let revision ← drawRevision behavior
        return (behavior, revision) :: (← drawRevisions type slot rest)
      else drawRevisions type slot rest

def setSignature (behavior : BehaviorId) (signature : Signature) : WorldM C Unit :=
  modify fun w => { w with
    behaviorSignatures := w.behaviorSignatures.insert behavior signature }

/-- The behavior's signature loses the type once it can access no component of it. -/
def resetSignature (callbacks : Callbacks C) (type : ComponentType) (behavior : BehaviorId) :
    WorldM C Unit := do
  let w ← get
  let t ← lift (w.components.typeRecord type)
  if (t.componentsOf behavior).entries.isEmpty then
    setSignature behavior ((w.behaviorSignature behavior).reset type.id)
    updateSystemMemberships callbacks behavior

/-- `Coordinator::remove_component`. The type check in the loop cannot fail once the component
    is gone, so only the callbacks' exceptions are captured there. -/
def eraseComponent (callbacks : Callbacks C) (type : ComponentType) (name : Bytes) :
    WorldM C Unit := do
  let w ← get
  let t ← lift (w.components.typeRecord type)
  let slot ← lift (ComponentRegistry.namedSlot t name)
  let affected := ComponentRegistry.behaviorsWithAccess t
  let revisions ← drawRevisions type slot affected
  destroyIntentsForTarget type.id slot
  onComponents (ComponentRegistry.removeComponent type name)
  forM revisions fun entry => setRevision entry.1 entry.2
  rethrow (← runAll (fun behavior => captured (resetSignature callbacks type behavior)) affected)

def removeComponent (callbacks : Callbacks C) (type : ComponentType) (name : Bytes) :
    WorldM C Unit := do
  ensureStructuralMutationAllowed
  let w ← get
  let slot ← lift (w.components.componentSlot type name)
  let encoded ←
    if ← lift (w.components.hasComponentCodec type) then
      match ← lift (w.components.getComponentNamed type name) with
      | none => throw (.logicError "component disappeared before removal")
      | some component => do
          let encoded ← lift (w.components.encodeComponent type component)
          pure (some encoded)
    else pure none
  let recordRemoval : WorldM C Unit := do
    recordOptional (fun encoded => ⟨⟨type.id, slot⟩, name, encoded, .null, true⟩) encoded
    recordTombstone (componentKey type.id name)
  tryCatch (eraseComponent callbacks type name) fun e => do
    if !(← get).components.hasComponentNamed type name then recordRemoval
    throw e
  recordRemoval

/-! ## Access -/

/-- Whether a grant changes what the behavior can do. -/
def accessChanges (mode : ComponentAccessMode) (canRead canWrite : Bool) : Bool :=
  match mode with
  | .read => !canRead || canWrite
  | .write => canRead || !canWrite
  | .readWrite => !canRead || !canWrite
  | .unknown => true

/-- `Coordinator::grant_component_access`. -/
def grantAccess (callbacks : Callbacks C) (type : ComponentType) (behavior : BehaviorId)
    (name : Bytes) (mode : ComponentAccessMode) : WorldM C Unit := do
  let w ← get
  lift (w.ensureBehavior behavior)
  let slot ← lift (w.components.componentSlot type name)
  let changes := accessChanges mode (w.components.canRead type behavior slot)
    (w.components.canWrite type behavior slot)
  let revision ← if changes then drawRevision behavior else pure 0
  onComponents (ComponentRegistry.grantAccess type behavior name mode)
  if changes then setRevision behavior revision
  if mode = .read then destroyIntentsForOwnerTarget behavior type.id slot
  setSignature behavior (((← get).behaviorSignature behavior).set type.id)
  updateSystemMemberships callbacks behavior

def grantComponentAccess (callbacks : Callbacks C) (type : ComponentType) (behavior : BehaviorId)
    (name : Bytes) (mode : ComponentAccessMode) : WorldM C Unit := do
  ensureStructuralMutationAllowed
  grantAccess callbacks type behavior name mode
  recordEntry (accessKey behavior type.id name) (accessFields behavior type.id name mode)

/-- `Coordinator::revoke_component_access`. -/
def revokeAccess (callbacks : Callbacks C) (type : ComponentType) (behavior : BehaviorId)
    (name : Bytes) : WorldM C Unit := do
  let w ← get
  lift (w.ensureBehavior behavior)
  let slot ← lift (w.components.componentSlot type name)
  let hadAccess := w.components.canRead type behavior slot ||
    w.components.canWrite type behavior slot
  let revision ← if hadAccess then drawRevision behavior else pure 0
  destroyIntentsForOwnerTarget behavior type.id slot
  onComponents (ComponentRegistry.revokeAccess type behavior name)
  if hadAccess then setRevision behavior revision
  resetSignature callbacks type behavior

def revokeComponentAccess (callbacks : Callbacks C) (type : ComponentType) (behavior : BehaviorId)
    (name : Bytes) : WorldM C Unit := do
  ensureStructuralMutationAllowed
  revokeAccess callbacks type behavior name
  recordTombstone (accessKey behavior type.id name)

end World

end LiquidLayer
