/-
  `BehaviorRegistry`, `ComponentStorage` and `ComponentRegistry`.

  The registry keeps its storages, name indexes, schemas, codecs and slot generations in maps
  keyed by the component type; `TypeRecord` is one type's part of all of them, since a type is
  registered in all of them at once and never taken out. `C` is the type of component values,
  whatever their C++ type; the C++ type of a storage is the number `component`, which the
  dynamic casts of the sources compare. A vector used as a stack has its back at the head.
-/
import LiquidLayer.Lib.Prog
import LiquidLayer.World.Ids

namespace LiquidLayer

/-- What `std::vector::at` and `std::map::at` throw. -/
def atFailure : Failure := .outOfRange "at"

/-- An `Except` computation inside a program. -/
def lift {σ α : Type} : Except Failure α → EStateM Failure σ α
  | .ok a => pure a
  | .error e => throw e

/-! ## Behaviors -/

structure BehaviorRegistry where
  worldId : UInt64
  active : OrdMap BehaviorId Unit
  availableSlots : List Nat
  generations : List UInt32

namespace BehaviorRegistry

def initial (world : UInt64) : BehaviorRegistry where
  worldId := world
  active := .empty
  availableSlots := List.range' 0 maxBehaviours
  generations := List.replicate maxBehaviours 1

def exist (r : BehaviorRegistry) (id : BehaviorId) : Bool := r.active.contains id

def create : EStateM Failure BehaviorRegistry BehaviorId := do
  let r ← get
  match r.availableSlots with
  | [] => throw (.runtimeError "all behavior ids are already in use")
  | slot :: rest =>
      set { r with availableSlots := rest }
      match r.generations[slot]? with
      | none => throw atFailure
      | some generation =>
          let behavior : BehaviorId := ⟨r.worldId, slot, generation⟩
          if r.active.contains behavior then
            set r
            throw (.logicError "behavior id already active")
          set { r with availableSlots := rest, active := r.active.insert behavior () }
          return behavior

def destroy (id : BehaviorId) : EStateM Failure BehaviorRegistry Unit := do
  let r ← get
  if !r.exist id then throw (.runtimeError "behavior id not found")
  let r := { r with active := r.active.erase id }
  set r
  match r.generations[id.slot]? with
  | none => throw atFailure
  | some generation =>
      if generation ≠ maxU32 then
        set { r with
          generations := r.generations.set id.slot (generation + 1)
          availableSlots := id.slot :: r.availableSlots }

end BehaviorRegistry

/-! ## One component type -/

structure ComponentSlotAccess where
  mode : ComponentAccessMode
  slot : ComponentSlotId
deriving DecidableEq, Repr

structure ComponentCodec (C : Type) where
  encode : C → Except Failure Value
  decode : Value → Except Failure C

structure TypeRecord (C : Type) where
  component : Nat
  name : Bytes
  version : UInt32
  codec : Option (ComponentCodec C)
  components : List (Option C)
  availableSlots : List Nat
  accesses : OrdMap BehaviorId (List ComponentSlotAccess)
  names : OrdMap Bytes ComponentSlotId
  slotNames : OrdMap ComponentSlotId Bytes
  generations : List UInt32

namespace TypeRecord

variable {C : Type}

def get? (t : TypeRecord C) (slot : Nat) : Option C := t.components[slot]?.join

def has (t : TypeRecord C) (slot : Nat) : Bool := (t.get? slot).isSome

/-- `ComponentStorage::add`. -/
def add (t : TypeRecord C) (component : C) : Except Failure (Nat × TypeRecord C) :=
  match t.availableSlots with
  | id :: rest =>
      .ok (id, { t with components := t.components.set id (some component), availableSlots := rest })
  | [] =>
      if t.components.length ≥ maxComponentSlots then
        .error (.runtimeError "all component slots are already filled")
      else .ok (t.components.length, { t with components := t.components ++ [some component] })

def accessesOf (t : TypeRecord C) (behavior : BehaviorId) : List ComponentSlotAccess :=
  (t.accesses.find? behavior).getD []

def removeAccess (t : TypeRecord C) (behavior : BehaviorId) (slot : ComponentSlotId) :
    TypeRecord C :=
  match t.accesses.find? behavior with
  | none => t
  | some accesses =>
      let rest := accesses.filter fun access => access.slot ≠ slot
      { t with accesses :=
          if rest.isEmpty then t.accesses.erase behavior else t.accesses.insert behavior rest }

def removeAccessesOf (t : TypeRecord C) (behavior : BehaviorId) : TypeRecord C :=
  { t with accesses := t.accesses.erase behavior }

def removeAccessesTo (t : TypeRecord C) (slot : ComponentSlotId) : TypeRecord C :=
  { t with accesses := t.accesses.filterMap fun accesses =>
      let rest := accesses.filter fun access => access.slot ≠ slot
      if rest.isEmpty then none else some rest }

/-- `ComponentStorage::remove`. Its `removeAccessesTo` takes the bare slot number, which
    converts to a handle without world and generation. -/
def remove (t : TypeRecord C) (id : Nat) (recycle : Bool) : Except Failure (TypeRecord C) :=
  if id ≥ t.components.length then .error (.outOfRange "invalid component slot id")
  else if !t.has id then .error (.runtimeError "component slot already removed")
  else
    .ok ({ t with
      availableSlots := if recycle then id :: t.availableSlots else t.availableSlots
      components := t.components.set id none }.removeAccessesTo ⟨0, id, 0⟩)

def addAccess (t : TypeRecord C) (behavior : BehaviorId) (mode : ComponentAccessMode)
    (slot : ComponentSlotId) : Except Failure (TypeRecord C) :=
  if !t.has slot.slot then .error (.runtimeError "component slot not found")
  else if mode = .unknown then .error (.runtimeError "unknown component access mode")
  else
    .ok { t with
      accesses := t.accesses.insert behavior (t.accessesOf behavior ++ [⟨mode, slot⟩]) }

/-- `ComponentStorage::replace`. -/
def replace (t : TypeRecord C) (slot : Nat) (component : C) : Except Failure (TypeRecord C) :=
  if !t.has slot then .error (.runtimeError "component slot removed")
  else .ok { t with components := t.components.set slot (some component) }

def reads (t : TypeRecord C) (behavior : BehaviorId) (slot : ComponentSlotId) : Bool :=
  (t.accessesOf behavior).any fun access => access.slot = slot ∧ access.mode.reads

def writes (t : TypeRecord C) (behavior : BehaviorId) (slot : ComponentSlotId) : Bool :=
  (t.accessesOf behavior).any fun access => access.slot = slot ∧ access.mode.writes

/-- `get_components`: the live, named slots the behavior can access. -/
def componentsOf (t : TypeRecord C) (behavior : BehaviorId) : OrdMap Bytes ComponentSlotId :=
  (t.accessesOf behavior).foldl (fun available access =>
    if t.has access.slot.slot then
      match t.slotNames.find? access.slot with
      | some name => available.insert name access.slot
      | none => available
    else available) .empty

end TypeRecord

/-! ## The registry -/

structure ComponentRegistry (C : Type) where
  worldId : UInt64
  nextComponentType : ComponentTypeId
  componentTypes : OrdMap Bytes ComponentTypeId
  types : OrdMap ComponentTypeId (TypeRecord C)

namespace ComponentRegistry

variable {C : Type}

def initial (world : UInt64) : ComponentRegistry C where
  worldId := world
  nextComponentType := 0
  componentTypes := .empty
  types := .empty

/-- `component_type` and the storage it finds. -/
def typeRecord (r : ComponentRegistry C) (type : ComponentType) :
    Except Failure (TypeRecord C) :=
  if type.world ≠ 0 ∧ type.world ≠ r.worldId then
    .error (.runtimeError "component type belongs to another world")
  else if type.world ≠ 0 ∧ type.generation ≠ 1 then
    .error (.runtimeError "stale component type handle")
  else
    match r.types.find? type.id with
    | none => .error (.runtimeError "component type storage not found")
    | some t =>
        if t.component ≠ type.component then
          .error (.runtimeError "component storage type mismatch")
        else .ok t

def namedSlot (t : TypeRecord C) (name : Bytes) : Except Failure ComponentSlotId :=
  match t.names.find? name with
  | none => .error (.runtimeError "component name not registered")
  | some slot => .ok slot

def componentSlot (r : ComponentRegistry C) (type : ComponentType) (name : Bytes) :
    Except Failure ComponentSlotId := do
  namedSlot (← r.typeRecord type) name

/-- `slot_is_current` on one type's generations. -/
def current (world : UInt64) (t : TypeRecord C) (slot : ComponentSlotId) : Bool :=
  slot.valid && slot.world == world && t.generations[slot.slot]? == some slot.generation

def slotIsCurrent (r : ComponentRegistry C) (type : ComponentTypeId) (slot : ComponentSlotId) :
    Bool :=
  match r.types.find? type with
  | none => false
  | some t => current r.worldId t slot

def validateSlot (r : ComponentRegistry C) (type : ComponentTypeId) (slot : ComponentSlotId) :
    Except Failure Nat :=
  if !slot.valid ∨ slot.world ≠ r.worldId then
    .error (.runtimeError "component slot belongs to another world")
  else if !r.slotIsCurrent type slot then .error (.runtimeError "stale component slot handle")
  else .ok slot.slot

/-- `can_read` by slot; what it catches is what the type and slot checks throw. -/
def canRead (r : ComponentRegistry C) (type : ComponentType) (behavior : BehaviorId)
    (slot : ComponentSlotId) : Bool :=
  match r.typeRecord type with
  | .error _ => false
  | .ok t => r.slotIsCurrent type.id slot && t.reads behavior slot

def canWrite (r : ComponentRegistry C) (type : ComponentType) (behavior : BehaviorId)
    (slot : ComponentSlotId) : Bool :=
  match r.typeRecord type with
  | .error _ => false
  | .ok t => r.slotIsCurrent type.id slot && t.writes behavior slot

/-- `can_write` by name. -/
def canWriteNamed (r : ComponentRegistry C) (type : ComponentType) (behavior : BehaviorId)
    (name : Bytes) : Bool :=
  match r.componentSlot type name with
  | .error _ => false
  | .ok slot => r.canWrite type behavior slot

def hasComponentNamed (r : ComponentRegistry C) (type : ComponentType) (name : Bytes) : Bool :=
  match r.componentSlot type name with
  | .error _ => false
  | .ok slot => r.slotIsCurrent type.id slot

def resolveComponent (r : ComponentRegistry C) (type : ComponentType) (slot : ComponentSlotId) :
    Except Failure (Option C) := do
  let t ← r.typeRecord type
  return t.get? (← r.validateSlot type.id slot)

def getComponentNamed (r : ComponentRegistry C) (type : ComponentType) (name : Bytes) :
    Except Failure (Option C) := do
  r.resolveComponent type (← r.componentSlot type name)

/-! ### Codecs -/

def hasComponentCodec (r : ComponentRegistry C) (type : ComponentType) : Except Failure Bool := do
  return (← r.typeRecord type).codec.isSome

def componentCodec (r : ComponentRegistry C) (type : ComponentType) :
    Except Failure (ComponentCodec C) := do
  match (← r.typeRecord type).codec with
  | none => .error (.runtimeError "component codec not registered")
  | some codec => .ok codec

/-- `encode` and `validate`. -/
def encodeWith (codec : ComponentCodec C) (component : C) : Except Failure Value := do
  let encoded ← codec.encode component
  encoded.validate
  return encoded

def encodeComponent (r : ComponentRegistry C) (type : ComponentType) (component : C) :
    Except Failure Value := do
  encodeWith (← r.componentCodec type) component

def decodeComponent (r : ComponentRegistry C) (type : ComponentType) (value : Value) :
    Except Failure C := do
  value.validate
  let codec ← r.componentCodec type
  let decoded ← codec.decode value
  if (← codec.encode decoded) ≠ value then
    .error (.invalidArgument "component codec is not canonical")
  return decoded

/-- The type and codec behind a target, `encode_component` and `replace_component` by slot. -/
def targetCodec (r : ComponentRegistry C) (type : ComponentTypeId) (slot : ComponentSlotId) :
    Except Failure (Nat × TypeRecord C × ComponentCodec C) := do
  let rawSlot ← r.validateSlot type slot
  match r.types.find? type with
  | none => .error (.runtimeError "component codec not registered")
  | some t =>
      match t.codec with
      | none => .error (.runtimeError "component codec not registered")
      | some codec => return (rawSlot, t, codec)

/-- `operator[]` of the storage. -/
def storedAt (t : TypeRecord C) (slot : Nat) : Except Failure C :=
  if slot ≥ t.components.length then .error (.outOfRange "invalid component slot id")
  else
    match t.get? slot with
    | none => .error (.runtimeError "component slot removed")
    | some component => .ok component

def encodeTarget (r : ComponentRegistry C) (type : ComponentTypeId) (slot : ComponentSlotId) :
    Except Failure Value := do
  let (rawSlot, t, codec) ← r.targetCodec type slot
  encodeWith codec (← storedAt t rawSlot)

def replaceTarget (r : ComponentRegistry C) (type : ComponentTypeId) (slot : ComponentSlotId)
    (value : Value) : Except Failure (Value × ComponentRegistry C) := do
  let (rawSlot, t, codec) ← r.targetCodec type slot
  value.validate
  let decoded ← codec.decode value
  let canonical ← encodeWith codec decoded
  if canonical ≠ value then .error (.invalidArgument "component codec is not canonical")
  let t ← t.replace rawSlot decoded
  return (canonical, { r with types := r.types.insert type t })

/-! ### Changes -/

/-- `register_component` with its `register_component_storage`; a `std::function` that is
    empty is `none`. -/
def registerComponent (r : ComponentRegistry C) (component : Nat) (name : Bytes)
    (version : UInt32) (encode : Option (C → Except Failure Value))
    (decode : Option (Value → Except Failure C)) :
    Except Failure (ComponentType × ComponentRegistry C) :=
  if version = 0 then .error (.invalidArgument "component schema version must be positive")
  else
    match encode, decode with
    | some encode, some decode =>
        if name.isEmpty then .error (.runtimeError "component type name cannot be empty")
        else if r.componentTypes.contains name then
          .error (.runtimeError "component type already registered")
        else if r.nextComponentType ≥ maxComponentTypes then
          .error (.runtimeError "maximum component types reached")
        else
          let type := r.nextComponentType
          .ok (⟨component, type, r.worldId, 1⟩, { r with
            nextComponentType := type + 1
            componentTypes := r.componentTypes.insert name type
            types := r.types.insert type
              { component, name, version, codec := some ⟨encode, decode⟩, components := [],
                availableSlots := [], accesses := .empty, names := .empty, slotNames := .empty,
                generations := [] } })
    | _, _ => .error (.invalidArgument "component codec must provide encode and decode")

/-- Write back one type. -/
def setType (type : ComponentTypeId) (t : TypeRecord C) :
    EStateM Failure (ComponentRegistry C) Unit :=
  modify fun r => { r with types := r.types.insert type t }

/-- `vector::resize` with generation 1. -/
def resized (generations : List UInt32) (size : Nat) : List UInt32 :=
  generations ++ List.replicate (size - generations.length) 1

def addComponent (type : ComponentType) (name : Bytes) (component : C) :
    EStateM Failure (ComponentRegistry C) Unit := do
  let r ← get
  if name.isEmpty then throw (.runtimeError "component name cannot be empty")
  let t ← lift (r.typeRecord type)
  if t.names.contains name then throw (.runtimeError "component name already registered")
  let (rawSlot, t) ← lift (t.add component)
  let t := { t with generations := resized t.generations (rawSlot + 1) }
  setType type.id t
  match t.generations[rawSlot]? with
  | none => throw atFailure
  | some generation =>
      if generation = 0 then throw (.overflowError "component slot generation exhausted")
      let slot : ComponentSlotId := ⟨r.worldId, rawSlot, generation⟩
      if t.slotNames.contains slot then
        setType type.id (← lift (t.remove rawSlot true))
        throw (.logicError "component slot already indexed")
      setType type.id { t with
        names := t.names.insert name slot
        slotNames := t.slotNames.insert slot name }

/-- `advance_slot_generation`: whether the slot can be used again, and the new generation. -/
def advanced (generation : UInt32) : Bool × UInt32 :=
  if generation = maxU32 then (false, 0) else (true, generation + 1)

def removeComponent (type : ComponentType) (name : Bytes) :
    EStateM Failure (ComponentRegistry C) Unit := do
  let r ← get
  let t ← lift (r.typeRecord type)
  let slot ← lift (namedSlot t name)
  let t := t.removeAccessesTo slot
  setType type.id t
  let rawSlot ← lift (r.validateSlot type.id slot)
  match t.generations[rawSlot]? with
  | none => throw atFailure
  | some generation =>
      let (recycle, generation) := advanced generation
      let t := { t with generations := t.generations.set rawSlot generation }
      setType type.id t
      let t ← lift (t.remove rawSlot recycle)
      setType type.id { t with names := t.names.erase name, slotNames := t.slotNames.erase slot }

/-- `remove_behavior`: the behavior loses every access. -/
def removeBehavior (r : ComponentRegistry C) (behavior : BehaviorId) : ComponentRegistry C :=
  { r with types := r.types.filterMap fun t => some (t.removeAccessesOf behavior) }

def grantAccess (type : ComponentType) (behavior : BehaviorId) (name : Bytes)
    (mode : ComponentAccessMode) : EStateM Failure (ComponentRegistry C) Unit := do
  let r ← get
  let t ← lift (r.typeRecord type)
  let slot ← lift (namedSlot t name)
  if mode = .unknown then throw (.runtimeError "unknown component access mode")
  let t := t.removeAccess behavior slot
  setType type.id t
  setType type.id (← lift (t.addAccess behavior mode slot))

def revokeAccess (type : ComponentType) (behavior : BehaviorId) (name : Bytes) :
    EStateM Failure (ComponentRegistry C) Unit := do
  let r ← get
  let t ← lift (r.typeRecord type)
  let slot ← lift (namedSlot t name)
  setType type.id (t.removeAccess behavior slot)

/-- `replace_component` by name. -/
def replaceComponent (type : ComponentType) (name : Bytes) (component : C) :
    EStateM Failure (ComponentRegistry C) Unit := do
  let r ← get
  let t ← lift (r.typeRecord type)
  let slot ← lift (namedSlot t name)
  let rawSlot ← lift (r.validateSlot type.id slot)
  setType type.id (← lift (t.replace rawSlot component))

/-- `behaviors_with_access`, in key order. -/
def behaviorsWithAccess (t : TypeRecord C) : List BehaviorId :=
  (t.accesses.entries.filter fun entry => !entry.2.isEmpty).map Prod.fst

end ComponentRegistry

end LiquidLayer
