/-
  Handles, enumerations and limits of the world (Ids.hpp, IntentLifetime.hpp, System.hpp).

  A slot of a handle is 16 or 32 bits wide in the sources; every slot the registries hand out
  lies below the limits here, so it is a `Nat`. A generation is 32 bits wide and its overflow
  is part of the behaviour. An enumeration has a constructor for the values outside its
  enumerators that the sources check for.
-/
import LiquidLayer.Value.Basic

namespace LiquidLayer

/-- `GenerationalHandle`. -/
structure Handle where
  world : UInt64
  slot : Nat
  generation : UInt32
deriving DecidableEq, Repr

/-- Member by member. -/
instance : LinearOrder Handle :=
  LinearOrder.lift' (fun h => toLex (h.world, toLex (h.slot, h.generation))) (by
    rintro ⟨w, s, g⟩ ⟨w', s', g'⟩ h
    have h' := congrArg ofLex h
    simp only [ofLex_toLex, Prod.mk.injEq] at h'
    have h'' := congrArg ofLex h'.2
    simp only [ofLex_toLex, Prod.mk.injEq] at h''
    rw [h'.1, h''.1, h''.2])

abbrev BehaviorId := Handle
abbrev IntentId := Handle
abbrev ComponentSlotId := Handle
abbrev ComponentTypeId := Nat

/-- `operator bool`. -/
def Handle.valid (handle : Handle) : Bool := handle.generation != 0

def invalidComponentSlotId : ComponentSlotId := ⟨0, 0, 0⟩
def invalidComponentTypeId : ComponentTypeId := 65535

structure ComponentTarget where
  type : ComponentTypeId
  slot : ComponentSlotId
deriving DecidableEq, Repr

/-- `ComponentType<Component>`; `component` stands for the C++ type. -/
structure ComponentType where
  component : Nat
  id : ComponentTypeId
  world : UInt64
  generation : UInt32
deriving DecidableEq, Repr

def maxBehaviours : Nat := 5000
def maxIntents : Nat := 5000
def maxComponentTypes : Nat := 64
def maxComponentSlots : Nat := 65535

/-- The limit of each evidence buffer. -/
def maximumBuffered : Nat := 1000000

inductive ComponentAccessMode where
  | read
  | write
  | readWrite
  | unknown
deriving DecidableEq, Repr

namespace ComponentAccessMode

def reads : ComponentAccessMode → Bool
  | .read | .readWrite => true
  | _ => false

def writes : ComponentAccessMode → Bool
  | .write | .readWrite => true
  | _ => false

/-- The number of the enumerator. -/
def code : ComponentAccessMode → Nat
  | .read => 0
  | .write => 1
  | .readWrite => 2
  | .unknown => 3

end ComponentAccessMode

inductive IntentPriority where
  | low
  | medium
  | high
  | unknown
deriving DecidableEq, Repr

/-- `priority_value`. -/
def IntentPriority.value : IntentPriority → Nat
  | .low => 55
  | .medium => 155
  | .high => 255
  | .unknown => 0

inductive IntentLifetimeKind where
  | persistent
  | untilTime
  | unknown
deriving DecidableEq, Repr

structure IntentLifetime where
  kind : IntentLifetimeKind
  expiresAt : UInt64
deriving DecidableEq, Repr

inductive SystemPhase where
  | input
  | behavior
  | decision
deriving DecidableEq, Repr

def SystemPhase.text : SystemPhase → String
  | .input => "input"
  | .behavior => "behavior"
  | .decision => "decision"

/-- `std::bitset<MaxComponentTypes>`. -/
abbrev Signature := BitVec 64

namespace Signature

def set (signature : Signature) (type : ComponentTypeId) : Signature :=
  signature ||| BitVec.twoPow 64 type

def reset (signature : Signature) (type : ComponentTypeId) : Signature :=
  signature &&& ~~~BitVec.twoPow 64 type

/-- `to_string`: the highest bit first. -/
def text (signature : Signature) : Bytes :=
  ((List.range 64).reverse).map fun i => if signature.getLsbD i then 49 else 48

/-- `(behavior & required) == required`. -/
def covers (behavior required : Signature) : Bool := behavior &&& required == required

end Signature

end LiquidLayer
