/-
  `Runtime` (Runtime.hpp, Runtime.cpp, RuntimeEvidence.cpp): a world, the effects it drives and
  the bindings between them.

  The host's code is an input: a `FrameHost` is what the systems of one frame do, the evidence
  of the scripts they run, and the answers of the adapters. Systems, adapters and codecs are
  taken not to call back into the runtime; the thread checks are left out.

  The effect codecs, which the sources keep with the components, and the script evidence, which
  they keep with the world, are fields of the runtime here. `locals` are the local variables of
  `run_frame` that its `catch` clauses look at, and the commands of its result.
-/
import LiquidLayer.Effects.Run
import LiquidLayer.Scripting.Lifecycle
import LiquidLayer.World.Resolution

namespace LiquidLayer

open Prog

/-! ## Data -/

structure FrameLog where
  frame : UInt64
  now : UInt64
  completed : Bool
  phases : List String
  expiredIntents : Nat
  resolutionRequests : Nat
  selectedIntents : Nat
  systemsRun : Nat
  intentSelections : Selections
  failurePhase : Bytes
  failureMessage : Bytes
  failureSystem : Bytes

def FrameLog.initial : FrameLog where
  frame := 0
  now := 0
  completed := false
  phases := []
  expiredIntents := 0
  resolutionRequests := 0
  selectedIntents := 0
  systemsRun := 0
  intentSelections := .empty
  failurePhase := []
  failureMessage := []
  failureSystem := []

structure FrameInput where
  now : UInt64
  resolutions : Resolutions
  resolvedEffects : List ResolvedEffect

structure FrameResult where
  frame : FrameLog
  commands : List EffectCommand
  reports : List EffectReport
  observations : List ExternalObservation

inductive ComponentControl where
  | selectionOnly
  | internalState
  | externalEffect
deriving DecidableEq, Repr

structure ExternalComponentBinding where
  component : ComponentTarget
  name : Bytes
  route : AdapterRoute
  target : EffectTarget

def ExternalComponentBinding.key (binding : ExternalComponentBinding) : TargetKey :=
  targetKey binding.route binding.target

structure ScriptExecutionEvidence where
  owner : BehaviorId
  now : UInt64
  source : Bytes
  sourceHash : Bytes
  sourceIncluded : Bool
  status : UInt32
  diagnostic : Bytes
  createdIntentCount : Nat

/-- Member by member. -/
instance ComponentTarget.linearOrder : LinearOrder ComponentTarget :=
  LinearOrder.lift' (fun t => toLex (t.type, t.slot)) (by
    rintro ⟨t, s⟩ ⟨t', s'⟩ h
    have h' := congrArg ofLex h
    simp only [ofLex_toLex, Prod.mk.injEq] at h'
    rw [h'.1, h'.2])

/-! ### Effect codecs -/

structure EffectCodec (C : Type) where
  adapterRoute : AdapterRoute
  encode : Bytes → C → Except Failure (Option ResolvedEffect)
  decodeObserved : Value → Except Failure C

/-- `EffectCodecModel`: an effect codec beside the codec of its component. -/
structure EffectCodecModel (C : Type) where
  codec : EffectCodec C
  componentCodec : ComponentCodec C

namespace EffectCodecModel

variable {C : Type}

def encode (model : EffectCodecModel C) (name : Bytes) (value : Value) :
    Except Failure (Option ResolvedEffect) := do
  value.validate
  let decoded ← model.componentCodec.decode value
  if (← ComponentRegistry.encodeWith model.componentCodec decoded) ≠ value then
    .error (.invalidArgument "component codec is not canonical")
  match ← model.codec.encode name decoded with
  | none => return none
  | some effect =>
      if effect.adapterRoute ≠ model.codec.adapterRoute then
        .error (.invalidArgument "effect codec returned an unstable adapter route")
      effect.desiredValue.validate
      return some effect

def decodeObserved (model : EffectCodecModel C) (value : Value) : Except Failure Value := do
  value.validate
  ComponentRegistry.encodeWith model.componentCodec (← model.codec.decodeObserved value)

end EffectCodecModel

/-! ## The state -/

structure FrameLocals where
  log : FrameLog
  /-- `result.frame`. -/
  frame : FrameLog
  worldEvidenceAttempted : Bool
  commands : List EffectCommand

structure Runtime (C : Type) where
  world : World C
  effectCodecs : OrdMap ComponentTypeId (EffectCodecModel C)
  scriptEvidenceEnabled : Bool
  scriptExecutions : List ScriptExecutionEvidence
  currentFrame : UInt64
  latestFrameLog : FrameLog
  frameInProgress : Bool
  faultedState : Bool
  effectsState : Option RuntimeEffectsState
  componentControls : OrdMap ComponentTarget ComponentControl
  effectBindings : OrdMap ComponentTarget ExternalComponentBinding
  componentsByEffectTarget : OrdMap TargetKey ComponentTarget
  locals : FrameLocals

abbrev RuntimeM (C : Type) := EStateM Failure (Runtime C)

/-- What the code of the host does in one frame. The commands and retries of a frame are told
    apart, each by what it is asked at most once. -/
structure FrameHost (C : Type) where
  systems : SystemPhase → Nat → World.HostCode C
  scripts : SystemPhase → List ScriptExecutionEvidence
  capabilities : ResolvedEffect → Except Failure AdapterCapabilities
  issued : ResolvedEffect → DispatchAnswer
  retried : UInt64 → DispatchAnswer

namespace Runtime

variable {C : Type}

def FrameLocals.initial : FrameLocals := ⟨.initial, .initial, false, []⟩

/-- `Runtime(FrameNumber)`. -/
def initial (instanceId : UInt64) (initialFrame : UInt64) : Runtime C where
  world := .initial instanceId
  effectCodecs := .empty
  scriptEvidenceEnabled := false
  scriptExecutions := []
  currentFrame := initialFrame
  latestFrameLog := .initial
  frameInProgress := false
  faultedState := false
  effectsState := none
  componentControls := .empty
  effectBindings := .empty
  componentsByEffectTarget := .empty
  locals := FrameLocals.initial

/-- `Runtime(RuntimeOptions)`, on effects that have been constructed. -/
def configured (instanceId : UInt64) (effectsState : RuntimeEffectsState) : Runtime C :=
  { initial instanceId 0 with
    scriptEvidenceEnabled := true
    effectsState := some effectsState }

def onWorld {α : Type} : WorldM C α → RuntimeM C α :=
  zoom Runtime.world fun w r => { r with world := w }

/-- A call on the effects, if the runtime has any. -/
def onEffects {α : Type} (m : Effects α) : RuntimeM C α := fun r =>
  match r.effectsState with
  | none => .error (.logicError "runtime effects were not configured") r
  | some s =>
      match m s with
      | .ok a s' => .ok a { r with effectsState := some s' }
      | .error e s' => .error e { r with effectsState := some s' }

/-- A check that throws without touching the state. -/
def demand {α : Type} : Except Failure α → RuntimeM C α
  | .ok a => pure a
  | .error e => throw e

/-- What the effects are asked without changing them. -/
def askEffects {α : Type} (f : RuntimeEffectsState → α) : RuntimeM C α :=
  onEffects do return f (← get)

end Runtime

end LiquidLayer
