/-
  Components bound to effect targets (Runtime.hpp, RuntimeEvidence.cpp).

  A component is selected only, kept as internal state, or bound to the target of an adapter;
  `effectBindings` and `componentsByEffectTarget` are the two indexes of the bound ones. What is
  selected for a bound component becomes an effect (`applySelections`), and what is observed of
  its target becomes its value (`projectAuthoritativeReports`,
  `projectAuthoritativeObservations`).
-/
import LiquidLayer.Runtime.State

namespace LiquidLayer

open Prog

namespace RuntimeEffectsState

/-! ## What the effects know -/

def reportIsAuthoritative (s : RuntimeEffectsState) (report : EffectReport) : Bool :=
  decide (report.status = .applied) &&
    s.authoritativeByTarget.find? report.key == some report.commandId &&
    s.observedRevisions.find? report.key == some report.stateRevision &&
    (s.observed.find? report.key).isSome && s.observed.find? report.key == report.observedValue

def observationIsAuthoritative (s : RuntimeEffectsState) (observation : ExternalObservation) :
    Bool :=
  s.observedRevisions.find? observation.key == some observation.stateRevision &&
    s.observed.find? observation.key == some observation.observedValue

/-- The loop of `validate_effects`; `targets` are the targets seen so far. -/
def validateEffectsLoop (s : RuntimeEffectsState) :
    List ResolvedEffect → List TargetKey → Except Failure Unit
  | [], _ => .ok ()
  | effect :: rest, targets => do
      effect.desiredValue.validate
      if !s.adapters.contains effect.adapterRoute.value then
        .error (.invalidArgument "resolved effect has no registered adapter route")
      if effect.key ∈ targets then
        .error (.invalidArgument "frame contains more than one resolved effect for a target")
      validateEffectsLoop s rest (effect.key :: targets)

def validateEffects (s : RuntimeEffectsState) (effects : List ResolvedEffect) :
    Except Failure Unit := s.validateEffectsLoop effects []

end RuntimeEffectsState

namespace Runtime

variable {C : Type}

/-! ## Effect codecs -/

/-- `World::register_effect_codec`; a `std::function` that is empty is `none`. -/
def registerEffectCodec (type : ComponentType) (adapterRoute : AdapterRoute)
    (encode : Option (Bytes → C → Except Failure (Option ResolvedEffect)))
    (decodeObserved : Option (Value → Except Failure C)) : RuntimeM C Unit := do
  onWorld World.ensureStructuralMutationAllowed
  let r ← get
  let _ ← demand (r.world.components.typeRecord type)
  match encode, decodeObserved with
  | some encode, some decodeObserved =>
      if r.effectCodecs.contains type.id then
        throw (.invalidArgument "effect codec already registered")
      let componentCodec ← demand (r.world.components.componentCodec type)
      let model : EffectCodecModel C := ⟨⟨adapterRoute, encode, decodeObserved⟩, componentCodec⟩
      modify fun r => { r with effectCodecs := r.effectCodecs.insert type.id model }
  | _, _ => throw (.invalidArgument "effect codec must provide encode and decodeObserved")

def effectCodec (r : Runtime C) (type : ComponentTypeId) :
    Except Failure (Option (EffectCodecModel C)) :=
  if !r.world.components.componentTypeExists type then
    .error (.runtimeError "component type not registered")
  else .ok (r.effectCodecs.find? type)

def requiredCodec (r : Runtime C) (type : ComponentTypeId) :
    Except Failure (EffectCodecModel C) := do
  match ← r.effectCodec type with
  | none => .error (.runtimeError "effect codec not registered")
  | some model => .ok model

def effectRoute (r : Runtime C) (type : ComponentTypeId) : Except Failure AdapterRoute := do
  return (← r.requiredCodec type).codec.adapterRoute

def encodeEffect (r : Runtime C) (target : ComponentTarget) (name : Bytes) (desired : Value) :
    Except Failure (Option ResolvedEffect) := do
  match ← r.effectCodec target.type with
  | none => return none
  | some model => model.encode name desired

def decodeObserved (r : Runtime C) (target : ComponentTarget) (observed : Value) :
    Except Failure Value := do
  (← r.requiredCodec target.type).decodeObserved observed

/-! ## The indexes of the bindings -/

def componentExists (r : Runtime C) (target : ComponentTarget) : Bool :=
  r.world.components.slotIsCurrent target.type target.slot

/-- `unbind_effect_component`. -/
def unbound (component : ComponentTarget) (r : Runtime C) : Runtime C :=
  match r.effectBindings.find? component with
  | none => r
  | some binding =>
      { r with
        componentsByEffectTarget :=
          if r.componentsByEffectTarget.find? binding.key = some component then
            r.componentsByEffectTarget.erase binding.key
          else r.componentsByEffectTarget
        effectBindings := r.effectBindings.erase component }

/-- A component that is gone loses its binding and its control. -/
def retired (component : ComponentTarget) (r : Runtime C) : Runtime C :=
  let r := unbound component r
  { r with componentControls := r.componentControls.erase component }

def retireDeadEffectBindings : RuntimeM C Unit :=
  modify fun r =>
    let dead := r.effectBindings.keys.filter fun component => !r.componentExists component
    dead.foldl (fun r component => retired component r) r

/-- `current_effect_binding`: the binding of the target, which forgets what is not current. -/
def currentEffectBinding (route : AdapterRoute) (target : EffectTarget) :
    RuntimeM C (Option ExternalComponentBinding) := do
  let r ← get
  let key := targetKey route target
  match r.componentsByEffectTarget.find? key with
  | none => return none
  | some component =>
      let superseded : RuntimeM C (Option ExternalComponentBinding) := do
        set { r with componentsByEffectTarget := r.componentsByEffectTarget.erase key }
        return none
      match r.effectBindings.find? component with
      | none => superseded
      | some binding =>
          if binding.route ≠ route ∨ binding.target ≠ target then superseded
          else if !r.componentExists binding.component then do
            set (retired component r)
            return none
          else return some binding

/-! ## Configuring -/

def setControl (component : ComponentTarget) (control : ComponentControl) : RuntimeM C Unit :=
  modify fun r => { r with componentControls := r.componentControls.insert component control }

/-- `World::component_target`. -/
def componentTarget (r : Runtime C) (type : ComponentType) (name : Bytes) :
    Except Failure ComponentTarget := do
  return ⟨type.id, ← r.world.components.componentSlot type name⟩

def configureComponent (type : ComponentType) (name : Bytes) (control : ComponentControl) :
    RuntimeM C Unit := do
  let r ← get
  if r.effectsState.isNone then
    throw (.logicError "component controls require an effects-configured runtime")
  else if r.frameInProgress then
    throw (.logicError "component control cannot change during a frame")
  else if control = .externalEffect then
    throw (.invalidArgument "external components require bind_effect_component")
  else do
    let target ← demand (r.componentTarget type name)
    setControl target control
    modify (unbound target)

/-- The last statements of `bind_effect_component`. -/
def bound (component : ComponentTarget) (name : Bytes) (route : AdapterRoute)
    (target : EffectTarget) (r : Runtime C) : Runtime C :=
  { r with
    componentControls := r.componentControls.insert component .externalEffect
    effectBindings := r.effectBindings.insert component ⟨component, name, route, target⟩
    componentsByEffectTarget :=
      r.componentsByEffectTarget.insert (targetKey route target) component }

def bindEffectComponent (type : ComponentType) (name : Bytes) (target : EffectTarget) :
    RuntimeM C Unit := do
  let r ← get
  if r.effectsState.isNone then
    throw (.logicError "effect bindings require an effects-configured runtime")
  else if r.frameInProgress then
    throw (.logicError "effect binding cannot change during a frame")
  else do
    let component ← demand (r.componentTarget type name)
    let route ← demand (r.effectRoute type.id)
    let existing ← currentEffectBinding route target
    if existing.any fun binding => decide (binding.component ≠ component) then
      throw (.invalidArgument "effect route and target are already bound")
    else modify fun r => bound component name route target (unbound component r)

/-! ## Feedback -/

/-- A value observed of a target, given to the component bound to it. -/
def project (route : AdapterRoute) (target : EffectTarget) (observed : Value) :
    RuntimeM C Unit := do
  match ← currentEffectBinding route target with
  | none => return ()
  | some binding => do
      let projected ← demand ((← get).decodeObserved binding.component observed)
      let _ ← onWorld (World.replaceComponentValue binding.component binding.name projected)

def projectReport (report : EffectReport) : RuntimeM C Unit := do
  if ← askEffects fun s => s.reportIsAuthoritative report then
    match report.observedValue with
    | none => return ()
    | some observed => project report.adapterRoute report.target observed

def projectObservation (observation : ExternalObservation) : RuntimeM C Unit := do
  if ← askEffects fun s => s.observationIsAuthoritative observation then
    project observation.adapterRoute observation.target observation.observedValue

def projectAuthoritativeReports (reports : List EffectReport) : RuntimeM C Unit :=
  forM reports projectReport

def projectAuthoritativeObservations (observations : List ExternalObservation) :
    RuntimeM C Unit := forM observations projectObservation

/-! ## Selections -/

/-- The intents selected in a frame, in the order of their types and names. -/
def selected (selections : Selections) : List (ComponentTypeId × Bytes × IntentId) :=
  selections.entries.flatMap fun entry => entry.2.entries.map fun pair => (entry.1, pair)

/-- What one selected intent becomes: the effect of a bound component, if its codec gives one. -/
def applySelection (name : Bytes) (id : IntentId) :
    RuntimeM C (Option (ComponentTarget × ResolvedEffect)) := do
  let r ← get
  let intent ← demand (r.world.intents.intent id)
  match (r.componentControls.find? intent.target).getD .selectionOnly with
  | .selectionOnly => return none
  | .internalState =>
      let _ ← onWorld (World.replaceComponentValue intent.target name intent.encodedValue)
      return none
  | .externalEffect =>
      match r.effectBindings.find? intent.target with
      | none => throw (.logicError "external component selection has no effect binding")
      | some binding =>
          match ← demand (r.encodeEffect intent.target name intent.encodedValue) with
          | none => return none
          | some effect =>
              if effect.adapterRoute ≠ binding.route ∨ effect.target ≠ binding.target then
                throw (.invalidArgument
                  "effect codec output does not match the stable binding")
              return some (intent.target, effect)

/-- The first loop of `apply_selections`. -/
def applyEach : List (ComponentTypeId × Bytes × IntentId) →
    RuntimeM C (List (ComponentTarget × ResolvedEffect))
  | [] => return []
  | (_, name, id) :: rest => do
      let effect ← applySelection name id
      return effect.toList ++ (← applyEach rest)

/-- The second loop: a bound component without an effect has no desire any more. -/
def clearUnselected (chosen : List ComponentTarget) : RuntimeM C Unit := do
  forM (← get).effectBindings.entries fun entry =>
    if entry.1 ∈ chosen then pure ()
    else onEffects (Effects.clearDesire entry.2.route entry.2.target)

def applySelections (selections : Selections) : RuntimeM C (List ResolvedEffect) := do
  let effects ← applyEach (selected selections)
  clearUnselected (effects.map Prod.fst)
  return effects.map Prod.snd

end Runtime

end LiquidLayer
