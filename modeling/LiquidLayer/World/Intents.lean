/-
  `IntentRegistry` (IntentRegistry.hpp, IntentRegistry.cpp).

  A typed storage keeps the intents of one component type; the typed value beside the encoded
  one is left out, since nothing but its accessor reads it. The registry owns at most one
  transaction at a time, so the open transaction is a member: `none` is `transactionActive ==
  false`. Of the storages a transaction saves the pointers, not the contents, so a rollback
  takes back contents record by record.

  Three members are not in the sources. `capacityErrors` counts the records the full lifecycle
  buffer has refused, so that "no evidence-capacity error" can be said of a run. `slotWraps`
  counts how often the 32 bits of `nextSlot` have wrapped, and no rollback takes it back.
  `terminated` is set where the sources call `std::terminate`; no state follows there, and what
  else the model has in such a state means nothing.
-/
import LiquidLayer.World.Components

namespace LiquidLayer

structure Intent where
  id : IntentId
  owner : BehaviorId
  target : ComponentTarget
  lifetime : IntentLifetime
  priority : IntentPriority
  sequence : UInt64
  encodedValue : Value
  name : Bytes
deriving DecidableEq

structure IntentLifecycleRecord where
  created : Bool
  intent : Intent
deriving DecidableEq

structure IntentStorage where
  component : Nat
  records : OrdMap IntentId Intent

abbrev IntentSet := OrdMap IntentId Unit

abbrev IntentTargetIndex := OrdMap ComponentTypeId (OrdMap ComponentSlotId IntentSet)

/-- `IntentRegistry::Transaction`. -/
structure IntentTransaction where
  storages : List ComponentTypeId
  intentTypes : OrdMap IntentId ComponentTypeId
  availableSlots : List Nat
  generations : List UInt32
  nextSlot : UInt32
  lastSequence : UInt64
  lifecycleRecordCount : Nat
  byOwner : OrdMap BehaviorId IntentSet
  byOwnerName : OrdMap BehaviorId (OrdMap Bytes IntentId)
  byTarget : IntentTargetIndex
  cancelled : List (ComponentTypeId × Intent)

structure IntentRegistry where
  worldId : UInt64
  storages : OrdMap ComponentTypeId IntentStorage
  intentTypes : OrdMap IntentId ComponentTypeId
  availableSlots : List Nat
  generations : List UInt32
  nextSlot : UInt32
  lastSequence : UInt64
  lifecycleRecords : List IntentLifecycleRecord
  byOwner : OrdMap BehaviorId IntentSet
  byOwnerName : OrdMap BehaviorId (OrdMap Bytes IntentId)
  byTarget : IntentTargetIndex
  transaction : Option IntentTransaction
  capacityErrors : Nat
  slotWraps : Nat
  terminated : Bool

namespace IntentRegistry

def initial (world : UInt64) : IntentRegistry where
  worldId := world
  storages := .empty
  intentTypes := .empty
  availableSlots := []
  generations := List.replicate (maxIntents + 1) 1
  nextSlot := 1
  lastSequence := 0
  lifecycleRecords := []
  byOwner := .empty
  byOwnerName := .empty
  byTarget := .empty
  transaction := none
  capacityErrors := 0
  slotWraps := 0
  terminated := false

/-! ## Reading -/

def exist (r : IntentRegistry) (id : IntentId) : Bool := r.intentTypes.contains id

/-- `storage_for(id).intent(id)`. -/
def intent (r : IntentRegistry) (id : IntentId) : Except Failure Intent :=
  match r.intentTypes.find? id with
  | none => .error (.runtimeError "intent id not found")
  | some type =>
      match r.storages.find? type with
      | none => .error (.runtimeError "intent storage type not found")
      | some storage =>
          match storage.records.find? id with
          | none => .error (.runtimeError "intent id not found")
          | some intent => .ok intent

def liveIntentIds (r : IntentRegistry) : List IntentId := r.intentTypes.keys

def intentsOwnedBy (r : IntentRegistry) (owner : BehaviorId) : List IntentId :=
  ((r.byOwner.find? owner).map OrdMap.keys).getD []

def intentNamed (r : IntentRegistry) (owner : BehaviorId) (name : Bytes) : Option IntentId :=
  (r.byOwnerName.find? owner).bind fun names => names.find? name

def intentsFor (r : IntentRegistry) (type : ComponentTypeId) (slot : ComponentSlotId) :
    List IntentId :=
  (((r.byTarget.find? type).bind fun slots => slots.find? slot).map OrdMap.keys).getD []

/-! ## Ids -/

def ensureNoActiveTransaction : EStateM Failure IntentRegistry Unit := do
  if (← get).transaction.isSome then
    throw (.logicError "ordinary intent mutation is forbidden during a transaction")

/-- `nextSlot++`. -/
def countSlot (r : IntentRegistry) : IntentRegistry :=
  { r with
    nextSlot := r.nextSlot + 1
    slotWraps := if r.nextSlot = maxU32 then r.slotWraps + 1 else r.slotWraps }

def nextIntentId : EStateM Failure IntentRegistry IntentId := do
  let r ← get
  match r.availableSlots with
  | slot :: rest =>
      set { r with availableSlots := rest }
      match r.generations[slot]? with
      | none => throw atFailure
      | some generation => return ⟨r.worldId, slot, generation⟩
  | [] =>
      if r.intentTypes.size ≥ maxIntents then
        throw (.runtimeError "all the intents are already in use")
      set r.countSlot
      match r.generations[r.nextSlot.toNat]? with
      | none => throw atFailure
      | some generation => return ⟨r.worldId, r.nextSlot.toNat, generation⟩

def nextIntentSequence : EStateM Failure IntentRegistry UInt64 := do
  let r ← get
  if r.lastSequence = maxU64 then throw (.overflowError "intent sequence exhausted")
  set { r with lastSequence := r.lastSequence + 1 }
  return r.lastSequence + 1

def releaseIntentId (r : IntentRegistry) (id : IntentId) : IntentRegistry :=
  if UInt32.ofNat id.slot + 1 = r.nextSlot then { r with nextSlot := r.nextSlot - 1 }
  else { r with availableSlots := id.slot :: r.availableSlots }

def retireIntentId (id : IntentId) : EStateM Failure IntentRegistry Unit := do
  let r ← get
  match r.generations[id.slot]? with
  | none => throw atFailure
  | some generation =>
      if generation ≠ maxU32 then
        set { r with
          generations := r.generations.set id.slot (generation + 1)
          availableSlots := id.slot :: r.availableSlots }

/-! ## Indexes -/

def insertTarget (index : IntentTargetIndex) (target : ComponentTarget) (id : IntentId) :
    IntentTargetIndex :=
  let slots := (index.find? target.type).getD .empty
  let ids := (slots.find? target.slot).getD .empty
  index.insert target.type (slots.insert target.slot (ids.insert id ()))

/-- The slots of one type without the id; an empty set is not kept. -/
def eraseSlot (slots : OrdMap ComponentSlotId IntentSet) (slot : ComponentSlotId)
    (id : IntentId) : OrdMap ComponentSlotId IntentSet :=
  match slots.find? slot with
  | none => slots
  | some ids =>
      if (ids.erase id).entries.isEmpty then slots.erase slot
      else slots.insert slot (ids.erase id)

/-- Erasing an id leaves no empty set and no empty map behind. -/
def eraseTarget (index : IntentTargetIndex) (target : ComponentTarget) (id : IntentId) :
    IntentTargetIndex :=
  match index.find? target.type with
  | none => index
  | some slots =>
      if (eraseSlot slots target.slot id).entries.isEmpty then index.erase target.type
      else index.insert target.type (eraseSlot slots target.slot id)

def targeted (index : IntentTargetIndex) (target : ComponentTarget) (id : IntentId) : Bool :=
  ((index.find? target.type).bind fun slots => slots.find? target.slot).any fun ids =>
    ids.contains id

/-- `erase_from_indexes`. When the slot's set is not there, it returns before the map of the
    type is looked at. -/
def eraseFromIndexes (r : IntentRegistry) (intent : Intent) : IntentRegistry :=
  { r with
    byOwner := r.byOwner.modify intent.owner fun ids => ids.erase intent.id
    byOwnerName :=
      if intent.name.isEmpty then r.byOwnerName
      else r.byOwnerName.modify intent.owner fun names => names.erase intent.name
    byTarget :=
      if ((r.byTarget.find? intent.target.type).bind fun slots =>
          slots.find? intent.target.slot).isSome then
        eraseTarget r.byTarget intent.target intent.id
      else r.byTarget }

/-- Take one record out of its storage. -/
def destroyStored (storages : OrdMap ComponentTypeId IntentStorage) (type : ComponentTypeId)
    (id : IntentId) : OrdMap ComponentTypeId IntentStorage :=
  storages.modify type fun storage => { storage with records := storage.records.erase id }

/-! ## Creating -/

def validateMetadata (lifetime : IntentLifetime) (priority : IntentPriority) :
    Except Failure Unit :=
  if lifetime.kind = .unknown then .error (.invalidArgument "unknown intent lifetime kind")
  else if lifetime.kind = .persistent ∧ lifetime.expiresAt ≠ 0 then
    .error (.invalidArgument "persistent intent lifetime must not expire")
  else if priority = .unknown then .error (.invalidArgument "unknown intent priority")
  else .ok ()

/-- `storage_for(type)`: the storage of the type is made at its first intent. -/
def storageFor (type : ComponentType) : EStateM Failure IntentRegistry Unit := do
  let r ← get
  match r.storages.find? type.id with
  | none => set { r with storages := r.storages.insert type.id ⟨type.component, .empty⟩ }
  | some storage =>
      if storage.component ≠ type.component then
        throw (.runtimeError "intent storage type mismatch")

def countCapacityError (r : IntentRegistry) : IntentRegistry :=
  { r with capacityErrors := r.capacityErrors + 1 }

/-- The `catch` clause of `create_impl`, with its three flags. -/
def withdraw (intent : Intent) (storageAdded typeIndexed ownerIndexed : Bool)
    (r : IntentRegistry) : IntentRegistry :=
  { r with
    byTarget := eraseTarget r.byTarget intent.target intent.id
    byOwner := if ownerIndexed then r.byOwner.modify intent.owner fun ids => ids.erase intent.id
      else r.byOwner
    byOwnerName := if intent.name.isEmpty then r.byOwnerName
      else r.byOwnerName.modify intent.owner fun names => names.erase intent.name
    intentTypes := if typeIndexed then r.intentTypes.erase intent.id else r.intentTypes
    storages := if storageAdded then destroyStored r.storages intent.target.type intent.id
      else r.storages }.releaseIntentId intent.id

/-- The `try` block of `create_impl`. -/
def index (intent : Intent) : EStateM Failure IntentRegistry IntentId := do
  let r ← get
  let fail (storageAdded typeIndexed ownerIndexed : Bool) (e : Failure) :
      EStateM Failure IntentRegistry IntentId := do
    modify (withdraw intent storageAdded typeIndexed ownerIndexed)
    throw e
  if ((r.storages.find? intent.target.type).any fun storage =>
      storage.records.contains intent.id) then
    fail false false false (.logicError "intent id already exists in typed storage")
  else do
    modify fun r => { r with storages := r.storages.modify intent.target.type fun storage =>
      { storage with records := storage.records.insert intent.id intent } }
    if r.intentTypes.contains intent.id then
      fail true false false (.logicError "intent id already indexed")
    else do
      modify fun r => { r with
        intentTypes := r.intentTypes.insert intent.id intent.target.type }
      if ((r.byOwner.find? intent.owner).any fun ids => ids.contains intent.id) then
        fail true true false (.logicError "intent id already indexed by owner")
      else do
        modify fun r => { r with
          byOwner := r.byOwner.modify intent.owner fun ids => ids.insert intent.id ()
          byOwnerName := if intent.name.isEmpty then r.byOwnerName
            else r.byOwnerName.modify intent.owner fun names => names.insert intent.name intent.id }
        if targeted r.byTarget intent.target intent.id then
          fail true true true (.logicError "intent id already indexed by target")
        else do
          modify fun r => { r with byTarget := insertTarget r.byTarget intent.target intent.id }
          if r.lifecycleRecords.length ≥ maximumBuffered then do
            modify countCapacityError
            fail true true true (.lengthError "intent lifecycle evidence capacity exceeded")
          else do
            modify fun r => { r with lifecycleRecords := r.lifecycleRecords ++ [⟨true, intent⟩] }
            return intent.id

/-- The checks of `create_impl`. -/
def checkCreate (owner : BehaviorId) (type : ComponentType) (slot : ComponentSlotId)
    (lifetime : IntentLifetime) (priority : IntentPriority) (name : Bytes) :
    EStateM Failure IntentRegistry Unit := do
  let r ← get
  if !r.byOwner.contains owner then throw (.runtimeError "behavior intent pool not found")
  if type.id = invalidComponentTypeId then throw (.runtimeError "invalid component type id")
  if slot = invalidComponentSlotId then throw (.runtimeError "invalid component slot id")
  lift (validateMetadata lifetime priority)
  if name.length > 128 then throw (.invalidArgument "intent name exceeds 128 bytes")
  if !name.isEmpty then
    match r.byOwnerName.find? owner with
    | none => throw atFailure
    | some names =>
        if names.contains name then
          throw (.invalidArgument "intent name is already live for this behavior")

def createImpl (owner : BehaviorId) (type : ComponentType) (slot : ComponentSlotId)
    (lifetime : IntentLifetime) (priority : IntentPriority) (encodedValue : Value)
    (name : Bytes) : EStateM Failure IntentRegistry IntentId := do
  checkCreate owner type slot lifetime priority name
  storageFor type
  let id ← nextIntentId
  let sequence ← nextIntentSequence
  index { id, owner, target := ⟨type.id, slot⟩, lifetime, priority, sequence, encodedValue, name }

def create (owner : BehaviorId) (type : ComponentType) (slot : ComponentSlotId)
    (lifetime : IntentLifetime) (priority : IntentPriority) (encodedValue : Value)
    (name : Bytes) : EStateM Failure IntentRegistry IntentId := do
  ensureNoActiveTransaction
  createImpl owner type slot lifetime priority encodedValue name

/-! ## Destroying -/

/-- The common end of `destroy` and `cancel`. -/
def forget (intent : Intent) (type : ComponentTypeId) : EStateM Failure IntentRegistry Unit := do
  modify fun r =>
    let r := r.eraseFromIndexes intent
    { r with
      storages := destroyStored r.storages type intent.id
      intentTypes := r.intentTypes.erase intent.id }
  retireIntentId intent.id

/-- The record of a destruction, made before anything is taken out. -/
def recordDestroyed (intent : Intent) : EStateM Failure IntentRegistry Unit := do
  let r ← get
  if r.lifecycleRecords.length ≥ maximumBuffered then
    modify countCapacityError
    throw (.lengthError "intent lifecycle evidence capacity exceeded")
  modify fun r => { r with lifecycleRecords := r.lifecycleRecords ++ [⟨false, intent⟩] }

def typeOf (r : IntentRegistry) (id : IntentId) : Except Failure ComponentTypeId :=
  match r.intentTypes.find? id with
  | none => .error atFailure
  | some type => .ok type

def destroy (id : IntentId) : EStateM Failure IntentRegistry Unit := do
  ensureNoActiveTransaction
  let r ← get
  let removed ← lift (r.intent id)
  let type ← lift (r.typeOf id)
  recordDestroyed removed
  forget removed type

def destroyOwnedBy (owner : BehaviorId) : EStateM Failure IntentRegistry Unit := do
  ensureNoActiveTransaction
  let r ← get
  if r.byOwner.contains owner then
    forM (r.intentsOwnedBy owner) destroy
    modify fun r => { r with byOwner := r.byOwner.erase owner }

def createBehaviorPool (id : BehaviorId) : EStateM Failure IntentRegistry Unit := do
  destroyOwnedBy id
  modify fun r => { r with
    byOwner := if r.byOwner.contains id then r.byOwner else r.byOwner.insert id .empty
    byOwnerName :=
      if r.byOwnerName.contains id then r.byOwnerName else r.byOwnerName.insert id .empty }

def clearLifecycleRecords : EStateM Failure IntentRegistry Unit := do
  ensureNoActiveTransaction
  modify fun r => { r with lifecycleRecords := [] }

/-! ## Transactions -/

/-- The constructor of a transaction. -/
def saved (r : IntentRegistry) : IntentTransaction where
  storages := r.storages.keys
  intentTypes := r.intentTypes
  availableSlots := r.availableSlots
  generations := r.generations
  nextSlot := r.nextSlot
  lastSequence := r.lastSequence
  lifecycleRecordCount := r.lifecycleRecords.length
  byOwner := r.byOwner
  byOwnerName := r.byOwnerName
  byTarget := r.byTarget
  cancelled := []

def beginTransaction : EStateM Failure IntentRegistry Unit := do
  let r ← get
  if r.transaction.isSome then throw (.logicError "intent transaction is already active")
  set { r with transaction := some r.saved }

def ensureActive : EStateM Failure IntentRegistry Unit := do
  if (← get).transaction.isNone then throw (.logicError "intent transaction is not active")

def cancel (id : IntentId) : EStateM Failure IntentRegistry Unit := do
  ensureActive
  let r ← get
  let removed ← lift (r.intent id)
  let type ← lift (r.typeOf id)
  recordDestroyed removed
  modify fun r => { r with transaction := r.transaction.map fun transaction =>
    { transaction with cancelled := transaction.cancelled ++ [(type, removed)] } }
  forget removed type

/-- `create` through the transaction. -/
def createIn (owner : BehaviorId) (type : ComponentType) (slot : ComponentSlotId)
    (lifetime : IntentLifetime) (priority : IntentPriority) (encodedValue : Value)
    (name : Bytes) : EStateM Failure IntentRegistry IntentId := do
  ensureActive
  createImpl owner type slot lifetime priority encodedValue name

def commit : EStateM Failure IntentRegistry Unit := do
  ensureActive
  modify fun r => { r with transaction := none }

/-- The storages with a cancelled record back in its storage. -/
def putBack (storages : OrdMap ComponentTypeId IntentStorage)
    (cancelled : ComponentTypeId × Intent) : OrdMap ComponentTypeId IntentStorage :=
  storages.modify cancelled.1 fun storage =>
    { storage with records := storage.records.insert cancelled.2.id cancelled.2 }

/-- `restore`, which ends the process when the place of the record is taken. -/
def restoreStored (storages : OrdMap ComponentTypeId IntentStorage)
    (cancelled : ComponentTypeId × Intent) : Option (OrdMap ComponentTypeId IntentStorage) :=
  if (storages.find? cancelled.1).any fun storage => storage.records.contains cancelled.2.id then
    none
  else some (putBack storages cancelled)

/-- The storages of some of the types. -/
def storagesOf (types : List ComponentTypeId) (storages : OrdMap ComponentTypeId IntentStorage) :
    OrdMap ComponentTypeId IntentStorage :=
  ⟨storages.entries.filter fun entry => entry.1 ∈ types,
    List.Pairwise.filter _ storages.sorted⟩

/-- The storages of the saved types, without the records made in the transaction and with the
    cancelled ones. -/
def rolledBackStorages (r : IntentRegistry) (transaction : IntentTransaction) :
    Option (OrdMap ComponentTypeId IntentStorage) :=
  let created := r.intentTypes.entries.filter fun entry =>
    !transaction.intentTypes.contains entry.1
  let storages := created.foldl (fun storages entry => destroyStored storages entry.2 entry.1)
    r.storages
  (transaction.cancelled.foldlM restoreStored storages).map (storagesOf transaction.storages)

/-- `rollback`, which ends the process without an open transaction. -/
def rollback (r : IntentRegistry) : IntentRegistry :=
  match r.transaction with
  | none => { r with terminated := true }
  | some transaction =>
      match r.rolledBackStorages transaction with
      | none =>
          { r with
            transaction := none
            terminated := true }
      | some storages =>
          { r with
            storages
            intentTypes := transaction.intentTypes
            availableSlots := transaction.availableSlots
            generations := transaction.generations
            nextSlot := transaction.nextSlot
            lastSequence := transaction.lastSequence
            lifecycleRecords := r.lifecycleRecords.take transaction.lifecycleRecordCount
            byOwner := transaction.byOwner
            byOwnerName := transaction.byOwnerName
            byTarget := transaction.byTarget
            transaction := none }

/-! ## Expiry and selection -/

/-- `lifetime_is_expired`. -/
def lifetimeIsExpired (lifetime : IntentLifetime) (now : UInt64) : Except Failure Bool :=
  match lifetime.kind with
  | .persistent => .ok false
  | .untilTime => .ok (decide (now ≥ lifetime.expiresAt))
  | .unknown => .error (.invalidArgument "unknown intent lifetime kind")

def expiredIntentIds (r : IntentRegistry) (now : UInt64) : Except Failure (List IntentId) :=
  r.liveIntentIds.filterM fun id => do
    lifetimeIsExpired (← r.intent id).lifetime now

/-- `destroy_expired_intents`: the number of intents destroyed. -/
def destroyExpired (now : UInt64) : EStateM Failure IntentRegistry Nat := do
  let expired ← lift ((← get).expiredIntentIds now)
  forM expired destroy
  return expired.length

/-- The candidate `select` keeps: higher priority, then higher sequence. -/
def better (candidate : Intent) : Option Intent → Bool
  | none => true
  | some selected =>
      candidate.priority.value > selected.priority.value ||
        (candidate.priority == selected.priority && candidate.sequence > selected.sequence)

def selectOne (r : IntentRegistry) (type : ComponentTypeId) (slot : ComponentSlotId) :
    Except Failure (Option Intent) :=
  (r.intentsFor type slot).foldlM (fun selected id => do
    let candidate ← r.intent id
    return if better candidate selected then some candidate else selected) none

/-- `select`: one intent for each of the named slots that has any. -/
def select (r : IntentRegistry) (type : ComponentTypeId)
    (components : OrdMap Bytes ComponentSlotId) : Except Failure (OrdMap Bytes IntentId) :=
  components.entries.foldlM (fun selected entry => do
    match ← r.selectOne type entry.2 with
    | none => return selected
    | some intent => return selected.insert entry.1 intent.id) .empty

/-- The live intents whose time has come, as `resolve` collects them. -/
def expiredAt (r : IntentRegistry) (now : UInt64) : Except Failure (List IntentId) :=
  r.liveIntentIds.filterM fun id => do
    let intent ← r.intent id
    return intent.lifetime.kind = .untilTime ∧ now ≥ intent.lifetime.expiresAt

def resolve (type : ComponentTypeId) (components : OrdMap Bytes ComponentSlotId)
    (now : UInt64) : EStateM Failure IntentRegistry (OrdMap Bytes IntentId) := do
  ensureNoActiveTransaction
  let expired ← lift ((← get).expiredAt now)
  forM expired destroy
  lift ((← get).select type components)

end IntentRegistry

end LiquidLayer
