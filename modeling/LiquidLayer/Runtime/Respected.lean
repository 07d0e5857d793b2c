/-
  What the operations of a runtime do, they do through calls on the world, calls on the effects
  and the four programs that change the indexes of the bindings.

  `Respected R`: the relation `R` of runtimes is kept by each of these calls, and by changes of
  anything else. `Op.respected`: every operation stays within such a relation, so an invariant
  of the runtime is a fact about the calls.
-/
import LiquidLayer.Runtime.Frame

namespace LiquidLayer

open Prog

namespace Runtime

variable {C : Type}

/-! ## Calls -/

/-- The programs that change the indexes of the bindings. -/
inductive Rebinding where
  | current (route : AdapterRoute) (target : EffectTarget)
  | retireDead
  | configure (type : ComponentType) (name : Bytes) (control : ComponentControl)
  | bind (type : ComponentType) (name : Bytes) (target : EffectTarget)

def Rebinding.program : Rebinding → RuntimeM C Unit
  | .current route target => do let _ ← currentEffectBinding route target
  | .retireDead => retireDeadEffectBindings
  | .configure type name control => configureComponent type name control
  | .bind type name target => bindEffectComponent type name target

/-- The records of frames. -/
def frameType (type : EventType) : Bool :=
  type == .frameStarted || type == .frameCompleted || type == .frameFailed

/-- What a runtime asks of its effects. -/
inductive EffectsCall where
  | op (op : Effects.Op)
  | topology (world : UInt64) (mutation : TopologyMutation)
  | mutation (mutation : ComponentMutation)
  | lifecycle (record : IntentLifecycleRecord)
  | script (script : ScriptExecutionEvidence)
  | selection (selection : ComponentTypeId × Bytes × IntentId)
  | frame (type : EventType) (isFrame : frameType type = true) (fields : List (String × Value))
  | flush
  | reset

def EffectsCall.program : EffectsCall → Effects Unit
  | .op o => o.program
  | .topology world m => recordTopologyMutation world m
  | .mutation m => recordMutation m
  | .lifecycle l => recordLifecycle l
  | .script s => recordScript s
  | .selection s => recordSelection s
  | .frame type _ fields => Effects.record type fields
  | .flush => Effects.flush
  | .reset => modify fun s => { s with acceptedReports := [], acceptedObservations := [] }

/-- The operations by which a frame gives components their values and empties the evidence. -/
def revalues : World.Op C → Bool
  | .replaceComponentValue .. => true
  | .clearComponentMutations => true
  | .clearTopologyMutations => true
  | .clearIntentLifecycleRecords => true
  | _ => false

/-- The operations a frame performs on its world. -/
def framed : World.Op C → Bool
  | .destroyExpiredIntents .. => true
  | .runSystems .. => true
  | op => revalues op

theorem framed_of_revalues {op : World.Op C} (h : revalues op = true) : framed op = true := by
  cases op <;> first | exact h | rfl

/-- `R` is kept by the calls of a runtime, those on the world among the `A`, and by changes of
    its locals along `L`. -/
structure Respected (A : World.Op C → Prop) (L : FrameLocals → FrameLocals → Prop)
    (R : Runtime C → Runtime C → Prop) : Prop where
  trans : ∀ r v r', R r v → R v r' → R r r'
  still : ∀ l, L l l
  aside : ∀ (r : Runtime C) codecs enabled scripts frame log inProgress faulted locals,
    L r.locals locals → R r { r with
      effectCodecs := codecs
      scriptEvidenceEnabled := enabled
      scriptExecutions := scripts
      currentFrame := frame
      latestFrameLog := log
      frameInProgress := inProgress
      faultedState := faulted
      locals := locals }
  world : ∀ (op : World.Op C) r, A op → R r { r with world := op.step r.world }
  effects : ∀ (call : EffectsCall) r s, r.effectsState = some s →
    R r { r with effectsState := some (after call.program s) }
  rebind : ∀ (b : Rebinding) r, R r (after b.program r)

abbrev Revaluing (A : World.Op C → Prop) : Prop := ∀ op, revalues op = true → A op

abbrev Framing (A : World.Op C → Prop) : Prop := ∀ op, framed op = true → A op

theorem Framing.revaluing {A : World.Op C → Prop} (h : Framing A) : Revaluing A :=
  fun op hop => h op (framed_of_revalues hop)

/-- Locals may change as they like. -/
def anyLocals (_ _ : FrameLocals) : Prop := True

variable {A : World.Op C → Prop} {L : FrameLocals → FrameLocals → Prop}
  {R : Runtime C → Runtime C → Prop} {α : Type}

theorem after_onEffects (m : Effects α) (r : Runtime C) :
    after (onEffects m) r = { r with effectsState := r.effectsState.map (after m) } := by
  unfold after onEffects
  cases hs : r.effectsState with
  | none =>
      show r = { r with effectsState := none }
      rw [← hs]
  | some s =>
      dsimp only [Option.map_some]
      cases m s <;> rfl

section Programs

theorem Respected.refl (h : Respected A L R) (r : Runtime C) : R r r :=
  h.aside r _ _ _ _ _ _ _ _ (h.still _)

theorem Respected.along_pure (h : Respected A L R) (a : α) : Within R (pure a : RuntimeM C α) :=
  within_pure h.refl a

theorem Respected.along_throw (h : Respected A L R) (e : Failure) :
    Within R (throw e : RuntimeM C α) := within_throw h.refl e

theorem Respected.along_bind (h : Respected A L R) {β : Type} {m : RuntimeM C α}
    {f : α → RuntimeM C β} (hm : Within R m) (hf : ∀ a, Within R (f a)) : Within R (m >>= f) :=
  within_bind h.trans hm hf

theorem Respected.along_tryCatch (h : Respected A L R) {m : RuntimeM C α}
    {f : Failure → RuntimeM C α} (hm : Within R m) (hf : ∀ e, Within R (f e)) :
    Within R (tryCatch m f) := within_tryCatch h.trans hm hf

theorem Respected.along_forM (h : Respected A L R) {f : α → RuntimeM C Unit} (l : List α)
    (hf : ∀ a, Within R (f a)) : Within R (forM l f) :=
  within_forM h.refl h.trans l fun a _ => hf a

theorem Respected.along_demand (h : Respected A L R) (x : Except Failure α) :
    Within R (demand x : RuntimeM C α) := by
  cases x with
  | ok a => exact h.along_pure a
  | error e => exact h.along_throw e

/-- A program that is an operation of the world, up to its reply. -/
theorem Respected.along_onWorld (h : Respected A L R) {m : WorldM C α} (op : World.Op C)
    (allowed : A op) (hop : ∀ w, after op.program w = after m w) :
    Within R (onWorld m) := fun r => by
  have hr := h.world op r allowed
  unfold World.Op.step at hr
  rw [hop] at hr
  unfold onWorld
  rwa [after_zoom]

/-- A program that is a call on the effects, up to its reply. -/
theorem Respected.along_onEffects (h : Respected A L R) {m : Effects α} (call : EffectsCall)
    (hcall : ∀ s, after call.program s = after m s) : Within R (onEffects m : RuntimeM C α) := by
  intro r
  rw [after_onEffects]
  cases hs : r.effectsState with
  | none =>
      have hr := h.refl r
      rw [Option.map_none, ← hs]
      exact hr
  | some s =>
      rw [Option.map_some, ← hcall]
      exact h.effects call r s hs

/-- Calls on the effects one after the other. -/
theorem Respected.along_effectsForM (h : Respected A L R) {f : α → Effects Unit}
    (call : α → EffectsCall) (hcall : ∀ a, (call a).program = f a) (l : List α) :
    Within R (onEffects (forM l f) : RuntimeM C Unit) := by
  intro r
  rw [after_onEffects]
  cases hs : r.effectsState with
  | none =>
      rw [Option.map_none, ← hs]
      exact h.refl r
  | some s =>
      -- along the list, one effects state after the other
      have key : ∀ s', R { r with effectsState := some s' }
          { r with effectsState := some (after (forM l f) s') } := by
        refine fun s' => within_forM
          (R := fun s s' => R { r with effectsState := some s } { r with effectsState := some s' })
          (fun _ => h.refl _) (fun _ _ _ => h.trans _ _ _) l (fun a _ s => ?_) s'
        rw [← hcall a]
        exact h.effects (call a) { r with effectsState := some s } s rfl
      have hr := key s
      rw [← hs] at hr
      rwa [Option.map_some]

theorem Respected.along_ask (h : Respected A L R) (f : RuntimeEffectsState → α) :
    Within R (askEffects f : RuntimeM C α) := fun r => by
  unfold askEffects
  rw [after_onEffects]
  have hsame : r.effectsState.map (after (do return f (← get) : Effects α)) = r.effectsState := by
    cases r.effectsState <;> rfl
  rw [hsame]
  exact h.refl r

/-- A check of the effects. -/
theorem Respected.along_checkEffects (h : Respected A L R)
    (f : RuntimeEffectsState → Except Failure α) :
    Within R (onEffects (do Effects.check (f (← get))) : RuntimeM C α) := fun r => by
  rw [after_onEffects]
  have hsame : r.effectsState.map (after (do Effects.check (f (← get)) : Effects α)) =
      r.effectsState := by
    cases hs : r.effectsState with
    | none => rfl
    | some s =>
        show some (after (Effects.check (f s)) s) = some s
        cases f s <;> rfl
  rw [hsame]
  exact h.refl r

/-! ### Bindings and feedback -/

theorem Respected.along_currentEffectBinding (h : Respected A L R) (route : AdapterRoute)
    (target : EffectTarget) : Within R (currentEffectBinding route target : RuntimeM C _) :=
  fun r => by
    have hr := h.rebind (.current route target) r
    unfold Rebinding.program at hr
    rwa [after_discard] at hr

theorem Respected.along_replaceComponentValue (h : Respected A L R) (hA : Revaluing A)
    (target : ComponentTarget)
    (name : Bytes) (value : Value) :
    Within R (onWorld (World.replaceComponentValue target name value) : RuntimeM C Value) :=
  h.along_onWorld (.replaceComponentValue target name value) (hA _ rfl) fun w => after_discard _ w

theorem Respected.along_project (h : Respected A L R) (hA : Revaluing A) (route : AdapterRoute)
    (target : EffectTarget)
    (observed : Value) : Within R (project route target observed : RuntimeM C Unit) := by
  unfold project
  refine h.along_bind (h.along_currentEffectBinding route target) fun binding => ?_
  cases binding with
  | none => exact h.along_pure ()
  | some binding =>
      exact within_get fun r => h.along_bind (h.along_demand _) fun _ =>
        h.along_bind (h.along_replaceComponentValue hA _ _ _) fun _ => h.along_pure ()

theorem Respected.along_projectReport (h : Respected A L R) (hA : Revaluing A)
    (report : EffectReport) :
    Within R (projectReport report : RuntimeM C Unit) := by
  unfold projectReport
  refine h.along_bind (h.along_ask _) fun authoritative => within_ite ?_ (h.along_pure ())
  cases report.observedValue with
  | none => exact h.along_pure ()
  | some observed => exact h.along_project hA _ _ observed

theorem Respected.along_projectObservation (h : Respected A L R) (hA : Revaluing A)
    (observation : ExternalObservation) :
    Within R (projectObservation observation : RuntimeM C Unit) := by
  unfold projectObservation
  exact h.along_bind (h.along_ask _) fun _ =>
    within_ite (h.along_project hA _ _ _) (h.along_pure ())

theorem Respected.along_applySelection (h : Respected A L R) (hA : Revaluing A) (name : Bytes)
    (id : IntentId) :
    Within R (applySelection name id : RuntimeM C _) := by
  unfold applySelection
  refine within_get fun r => h.along_bind (h.along_demand _) fun intent => ?_
  cases (r.componentControls.find? intent.target).getD .selectionOnly with
  | selectionOnly => exact h.along_pure none
  | internalState =>
      exact h.along_bind (h.along_replaceComponentValue hA _ _ _) fun _ => h.along_pure none
  | externalEffect =>
      dsimp only
      cases r.effectBindings.find? intent.target with
      | none => exact h.along_throw _
      | some binding =>
          refine h.along_bind (h.along_demand _) fun effect => ?_
          cases effect with
          | none => exact h.along_pure none
          | some effect =>
              exact within_ite (h.along_bind (h.along_throw _) fun _ => h.along_pure _)
                (h.along_pure _)

theorem Respected.along_applyEach (h : Respected A L R) (hA : Revaluing A)
    (l : List (ComponentTypeId × Bytes × IntentId)) :
    Within R (applyEach l : RuntimeM C _) := by
  induction l with
  | nil => exact h.along_pure []
  | cons a l ih =>
      exact h.along_bind (h.along_applySelection hA a.2.1 a.2.2) fun _ =>
        h.along_bind ih fun _ => h.along_pure _

theorem Respected.along_clearUnselected (h : Respected A L R) (chosen : List ComponentTarget) :
    Within R (clearUnselected chosen : RuntimeM C Unit) := by
  unfold clearUnselected
  exact within_get fun r => h.along_forM _ fun entry => within_ite (h.along_pure ())
    (h.along_onEffects (.op (.clearDesire entry.2.route entry.2.target)) fun _ => rfl)

theorem Respected.along_applySelections (h : Respected A L R) (hA : Revaluing A)
    (selections : Selections) :
    Within R (applySelections selections : RuntimeM C _) :=
  h.along_bind (h.along_applyEach hA _) fun _ => h.along_bind (h.along_clearUnselected _) fun _ =>
    h.along_pure _

theorem Respected.along_registerEffectCodec (h : Respected A L R) (type : ComponentType)
    (adapterRoute : AdapterRoute)
    (encode : Option (Bytes → C → Except Failure (Option ResolvedEffect)))
    (decodeObserved : Option (Value → Except Failure C)) :
    Within R (registerEffectCodec type adapterRoute encode decodeObserved) := by
  have hallowed : Within R (onWorld World.ensureStructuralMutationAllowed : RuntimeM C Unit) := by
    intro r
    unfold onWorld
    rw [after_zoom]
    have hsame : after World.ensureStructuralMutationAllowed r.world = r.world := by
      unfold World.ensureStructuralMutationAllowed
      refine wp_after (P := fun w => w = r.world) |>.mp ?_
      rw [wp_bind, wp_get, wp_ite]
      exact ⟨fun _ => (wp_throw _).mpr rfl, fun _ => (wp_pure _).mpr rfl⟩
    rw [hsame]
    exact h.refl r
  unfold registerEffectCodec
  refine h.along_bind hallowed fun _ => within_get fun r =>
    h.along_bind (h.along_demand _) fun _ => ?_
  cases encode with
  | none => exact h.along_throw _
  | some encode =>
      cases decodeObserved with
      | none => exact h.along_throw _
      | some decodeObserved =>
          have hrest : Within R (do
              let componentCodec ← demand (r.world.components.componentCodec type)
              let model : EffectCodecModel C :=
                ⟨⟨adapterRoute, encode, decodeObserved⟩, componentCodec⟩
              modify fun r => { r with
                effectCodecs := r.effectCodecs.insert type.id model } : RuntimeM C Unit) :=
            h.along_bind (h.along_demand _) fun _ =>
              within_modify fun r => h.aside r _ _ _ _ _ _ _ _ (h.still _)
          exact within_ite (h.along_bind (h.along_throw _) fun _ => hrest) hrest

/-! ### Evidence -/

theorem Respected.along_recordWorldEvidence (h : Respected A L R) (hA : Revaluing A) :
    Within R (recordWorldEvidence : RuntimeM C Unit) := by
  unfold recordWorldEvidence
  refine within_get fun r => ?_
  refine h.along_bind (h.along_effectsForM (.topology r.world.instanceId) (fun _ => rfl) _)
    fun _ => ?_
  refine h.along_bind (h.along_onWorld .clearTopologyMutations (hA _ rfl) fun _ => rfl) fun _ => ?_
  refine h.along_bind (h.along_effectsForM .mutation (fun _ => rfl) _) fun _ => ?_
  refine h.along_bind (h.along_onWorld .clearComponentMutations (hA _ rfl) fun _ => rfl) fun _ => ?_
  refine h.along_bind (h.along_effectsForM .lifecycle (fun _ => rfl) _) fun _ => ?_
  refine h.along_bind (h.along_onWorld .clearIntentLifecycleRecords (hA _ rfl) fun _ => rfl)
    fun _ => ?_
  refine within_get fun r => ?_
  refine h.along_bind (h.along_effectsForM .script (fun _ => rfl) _) fun _ => ?_
  exact within_modify fun r => h.aside r _ _ _ _ _ _ _ _ (h.still _)

theorem Respected.along_recordScriptExecution (h : Respected A L R)
    (script : ScriptExecutionEvidence) :
    Within R (recordScriptExecution script : RuntimeM C Unit) := by
  refine within_modify fun r => ?_
  split
  · exact h.aside r _ _ _ _ _ _ _ _ (h.still _)
  · exact h.refl r

/-! ### Frames -/

theorem Respected.along_modifyLocals (h : Respected A L R) {f : FrameLocals → FrameLocals}
    (hf : ∀ l, L l (f l)) : Within R (modifyLocals f : RuntimeM C Unit) :=
  within_modify fun r => h.aside r _ _ _ _ _ _ _ _ (hf r.locals)

theorem Respected.along_issueEffect (h : Respected A L R)
    (hcommands : ∀ (l : FrameLocals) commands, L l { l with commands })
    (host : FrameHost C) (now : UInt64) (effect : ResolvedEffect) :
    Within R (issueEffect host now effect) := by
  unfold issueEffect
  refine h.along_bind (h.along_onEffects
    (.op (.issue effect now (host.capabilities effect) (host.issued effect)))
    fun s => after_discard _ s) fun command => ?_
  cases command with
  | none => exact h.along_pure ()
  | some command => exact h.along_modifyLocals fun l => hcommands l _

theorem Respected.along_modifyLog (h : Respected A anyLocals R) (f : FrameLog → FrameLog) :
    Within R (modifyLog f : RuntimeM C Unit) := h.along_modifyLocals fun _ => trivial

theorem Respected.along_expireIntents (h : Respected A anyLocals R) (hA : Framing A)
    (now : UInt64) :
    Within R (expireIntents now : RuntimeM C Unit) :=
  h.along_bind (h.along_onWorld (.destroyExpiredIntents now) (hA _ rfl) fun w => after_discard _ w)
    fun _ => h.along_modifyLog _

theorem Respected.along_runPhase (h : Respected A anyLocals R) (hA : Framing A)
    (host : FrameHost C) (phase : SystemPhase)
    (name : String) : Within R (runPhase host phase name) := by
  unfold runPhase
  refine h.along_bind (h.along_modifyLog _) fun _ => ?_
  refine h.along_bind (h.along_forM _ fun _ => h.along_recordScriptExecution _) fun _ => ?_
  exact within_get fun r => h.along_bind (h.along_modifyLog _) fun _ =>
    h.along_onWorld (.runSystems (host.systems phase) phase) (hA _ rfl) fun _ => rfl

theorem Respected.along_resolvePhase (h : Respected A anyLocals R) (hA : Framing A) (now : UInt64)
    (resolutions : Resolutions) : Within R (resolvePhase now resolutions : RuntimeM C Unit) := by
  unfold resolvePhase
  refine h.along_bind (h.along_modifyLog _) fun _ => h.along_bind (h.along_expireIntents hA now)
    fun _ => within_get fun r => h.along_bind (h.along_demand _) fun _ =>
    h.along_bind (h.along_modifyLog _) fun _ => h.along_forM _ fun entry => ?_
  exact within_get fun r => h.along_bind (h.along_demand _) fun _ => h.along_modifyLog _

theorem Respected.along_executeFramePhases (h : Respected A anyLocals R) (hA : Framing A)
    (host : FrameHost C) (now : UInt64)
    (resolutions : Resolutions) : Within R (executeFramePhases host now resolutions) := by
  have hphases : Within R (phases host now resolutions) := by
    unfold phases
    refine h.along_bind (h.along_modifyLog _) fun _ => h.along_bind (h.along_modifyLog _) fun _ =>
      h.along_bind (h.along_expireIntents hA now) fun _ => ?_
    refine h.along_bind (h.along_runPhase hA host _ _) fun _ =>
      h.along_bind (h.along_runPhase hA host _ _) fun _ =>
      h.along_bind (h.along_runPhase hA host _ _) fun _ => ?_
    exact h.along_bind (h.along_resolvePhase hA now resolutions) fun _ =>
      h.along_bind (h.along_modifyLog _) fun _ => h.along_modifyLog _
  unfold executeFramePhases
  refine within_get fun r => h.along_bind (h.along_modifyLog _) fun _ =>
    h.along_bind (h.along_tryCatch hphases fun e => ?_) fun _ =>
      within_get fun r => h.along_pure _
  exact h.along_bind (h.along_modifyLog _) fun _ =>
    h.along_bind (within_modify fun r => h.aside r _ _ _ _ _ _ _ _ trivial) fun _ => h.along_throw e

theorem Respected.along_setInProgress (h : Respected A anyLocals R) (inProgress : Bool) :
    Within R (setInProgress inProgress : RuntimeM C Unit) :=
  within_modify fun r => h.aside r _ _ _ _ _ _ _ _ trivial

theorem Respected.along_runFrame (h : Respected A anyLocals R) (hA : Framing A)
    (host : FrameHost C) (now : UInt64)
    (resolutions : Resolutions) : Within R (runFrame host now resolutions) := by
  unfold runFrame
  refine within_get fun r => h.along_bind (h.along_demand _) fun _ =>
    h.along_bind (h.along_setInProgress true) fun _ => h.along_bind (h.along_tryCatch ?_ ?_)
    fun _ => ?_
  · exact h.along_bind (h.along_executeFramePhases hA host now resolutions) fun _ =>
      within_modify fun r => h.aside r _ _ _ _ _ _ _ _ trivial
  · exact fun e => h.along_bind (h.along_setInProgress false) fun _ =>
      h.along_bind (within_modify fun r => h.aside r _ _ _ _ _ _ _ _ trivial) fun _ =>
      h.along_throw e
  · exact h.along_bind (h.along_setInProgress false) fun _ =>
      h.along_bind (within_modify fun r => h.aside r _ _ _ _ _ _ _ _ trivial) fun _ =>
      within_get fun r => h.along_pure _

theorem Respected.along_frameBody (h : Respected A anyLocals R) (hA : Framing A)
    (host : FrameHost C) (input : FrameInput) :
    Within R (frameBody host input) := by
  have hrev := hA.revaluing
  unfold frameBody
  refine within_get fun r => ?_
  refine h.along_bind (h.along_onEffects (.frame .frameStarted rfl _) fun _ => rfl) fun _ => ?_
  refine h.along_bind (h.along_onEffects (.op .processFeedback) fun _ => rfl) fun _ => ?_
  refine h.along_bind (h.rebind .retireDead) fun _ => ?_
  refine h.along_bind (h.along_ask _) fun _ => ?_
  refine h.along_bind (h.along_forM _ (h.along_projectReport hrev)) fun _ => ?_
  refine h.along_bind (h.along_ask _) fun _ => ?_
  refine h.along_bind (h.along_forM _ (h.along_projectObservation hrev)) fun _ => ?_
  refine h.along_bind (h.along_executeFramePhases hA host _ _) fun log => ?_
  refine h.along_bind (h.along_modifyLocals fun _ => trivial) fun _ => ?_
  refine h.along_bind (h.along_applySelections hrev _) fun effects => ?_
  refine h.along_bind (h.along_checkEffects _) fun _ => ?_
  refine h.along_bind (h.along_effectsForM .selection (fun _ => rfl) _) fun _ => ?_
  refine h.along_bind (h.along_forM _ fun effect =>
    h.along_issueEffect (fun _ _ => trivial) host _ effect) fun _ => ?_
  refine h.along_bind (h.along_onEffects (.op (.retryDue input.now host.retried)) fun _ => rfl)
    fun _ => ?_
  refine h.along_bind (h.along_ask _) fun _ => ?_
  refine h.along_bind (h.along_forM _ (h.along_projectReport hrev)) fun _ => ?_
  refine h.along_bind (h.along_modifyLocals fun _ => trivial) fun _ => ?_
  refine h.along_bind (h.along_recordWorldEvidence hrev) fun _ => ?_
  refine h.along_bind (h.along_onEffects (.op (.pruneTerminalHistory false)) fun _ => rfl)
    fun _ => ?_
  refine h.along_bind (h.along_onEffects (.frame .frameCompleted rfl _) fun _ => rfl) fun _ => ?_
  exact h.along_onEffects .flush fun _ => rfl

theorem Respected.along_recordFrameFailure (h : Respected A anyLocals R) (hA : Revaluing A)
    (frameNumber now : UInt64)
    (log : FrameLog) : Within R (recordFrameFailure frameNumber now log : RuntimeM C Unit) := by
  have hfailed : Within R (do
      onEffects (Effects.record .frameFailed (failedFields frameNumber now log))
      onEffects Effects.flush : RuntimeM C Unit) :=
    h.along_bind (h.along_onEffects (.frame .frameFailed rfl _) fun _ => rfl) fun _ =>
      h.along_onEffects .flush fun _ => rfl
  unfold recordFrameFailure
  refine h.along_tryCatch (within_get fun r => within_ite ?_ hfailed) fun _ => h.along_pure ()
  exact h.along_bind (h.along_recordWorldEvidence hA) fun _ => hfailed

theorem Respected.along_frameFailed (h : Respected A anyLocals R) (hA : Revaluing A)
    (frameNumber now : UInt64) (e : Failure) :
    Within R (frameFailed frameNumber now e : RuntimeM C Unit) := by
  unfold frameFailed publishFrameFailure
  refine h.along_bind (within_modify fun r => h.aside r _ _ _ _ _ _ _ _ trivial) fun _ =>
    within_get fun r => ?_
  refine h.along_bind (h.along_bind
    (within_modify fun r => h.aside r _ _ _ _ _ _ _ _ trivial) fun _ => h.along_pure _)
    fun log => ?_
  exact h.along_bind (h.along_recordFrameFailure hA _ _ _) fun _ =>
    h.along_bind (h.along_setInProgress false) fun _ => h.along_throw e

theorem Respected.along_runFrameInput (h : Respected A anyLocals R) (hA : Framing A)
    (host : FrameHost C)
    (input : FrameInput) : Within R (runFrameInput host input) := by
  have hframe : Within R (do
      let frameBeingRun := (← get).currentFrame
      tryCatch (frameBody host input) (frameFailed frameBeingRun input.now)
      let locals := (← get).locals
      modify fun r => { r with latestFrameLog := locals.frame }
      setInProgress false
      modify fun r => { r with currentFrame := r.currentFrame + 1 }
      return ⟨locals.frame, locals.commands, ← acceptedReports,
        ← askEffects RuntimeEffectsState.acceptedObservations⟩ : RuntimeM C FrameResult) := by
    refine within_get fun r => h.along_bind (h.along_tryCatch (h.along_frameBody hA host input)
      fun e => h.along_frameFailed hA.revaluing _ _ e) fun _ => within_get fun r => ?_
    refine h.along_bind (within_modify fun r => h.aside r _ _ _ _ _ _ _ _ trivial) fun _ =>
      h.along_bind (h.along_setInProgress false) fun _ =>
      h.along_bind (within_modify fun r => h.aside r _ _ _ _ _ _ _ _ trivial) fun _ => ?_
    exact h.along_bind (h.along_ask _) fun _ => h.along_bind (h.along_ask _) fun _ =>
      h.along_pure _
  have hrest : Within R (do
      demand ((← get).validateFrameStart input.now input.resolutions)
      onEffects do Effects.check ((← get).validateEffects input.resolvedEffects)
      setInProgress true
      beginResult
      let frameBeingRun := (← get).currentFrame
      tryCatch (frameBody host input) (frameFailed frameBeingRun input.now)
      let locals := (← get).locals
      modify fun r => { r with latestFrameLog := locals.frame }
      setInProgress false
      modify fun r => { r with currentFrame := r.currentFrame + 1 }
      return ⟨locals.frame, locals.commands, ← acceptedReports,
        ← askEffects RuntimeEffectsState.acceptedObservations⟩ : RuntimeM C FrameResult) :=
    within_get fun r => h.along_bind (h.along_demand _) fun _ =>
      h.along_bind (h.along_checkEffects _) fun _ =>
      h.along_bind (h.along_setInProgress true) fun _ =>
      h.along_bind (h.along_bind (h.along_onEffects .reset fun _ => rfl) fun _ =>
        h.along_modifyLocals fun _ => trivial) fun _ => hframe
  unfold runFrameInput
  exact within_get fun r => within_ite (h.along_bind (h.along_throw _) fun _ => hrest) hrest

theorem Respected.along_checkpoint (h : Respected A anyLocals R) (hA : Revaluing A) :
    Within R (checkpoint : RuntimeM C RecordId) := by
  have hrest : Within R (do
      recordWorldEvidence
      onEffects Effects.checkpoint : RuntimeM C RecordId) :=
    h.along_bind (h.along_recordWorldEvidence hA) fun _ =>
      h.along_onEffects (.op .checkpoint) fun s => after_discard _ s
  unfold checkpoint
  exact within_get fun r => within_ite (h.along_bind (h.along_throw _) fun _ =>
    within_ite (h.along_bind (h.along_throw _) fun _ => hrest) hrest)
    (within_ite (h.along_bind (h.along_throw _) fun _ => hrest) hrest)

/-! ### Operations -/

/-- Every operation stays within a relation that the calls of a runtime respect. -/
theorem Op.respected (h : Respected (fun _ => True) anyLocals R) (op : Op C) :
    Within R op.program := by
  cases op with
  | onWorld op _ => exact h.along_onWorld op trivial fun _ => rfl
  | runScript script => exact h.along_recordScriptExecution script
  | registerEffectCodec type adapterRoute encode decodeObserved =>
      exact h.along_registerEffectCodec type adapterRoute encode decodeObserved
  | registerAdapter adapter route capabilities =>
      exact h.along_onEffects (.op (.registerAdapter adapter route capabilities)) fun _ => rfl
  | send message => exact h.along_onEffects (.op (.send message)) fun _ => rfl
  | reconcileIndeterminate route target observed =>
      exact h.along_onEffects (.op (.reconcileIndeterminate route target observed)) fun _ => rfl
  | configureComponent type name control => exact h.rebind (.configure type name control)
  | bindEffectComponent type name target => exact h.rebind (.bind type name target)
  | runFrame host now resolutions =>
      exact h.along_bind (h.along_runFrame (fun _ _ => trivial) host now resolutions)
        fun _ => h.along_pure ()
  | runFrameInput host input =>
      exact h.along_bind (h.along_runFrameInput (fun _ _ => trivial) host input)
        fun _ => h.along_pure ()
  | checkpoint =>
      exact h.along_bind (h.along_checkpoint fun _ _ => trivial) fun _ => h.along_pure ()

end Programs

/-! ## Indexes and worlds -/

/-- Only the indexes of the bindings may differ. -/
def Reindexed (r r' : Runtime C) : Prop :=
  ∃ controls bindings targets, r' = { r with
    componentControls := controls
    effectBindings := bindings
    componentsByEffectTarget := targets }

theorem Reindexed.refl (r : Runtime C) : Reindexed r r := ⟨_, _, _, rfl⟩

theorem Reindexed.trans {r v r' : Runtime C} (h : Reindexed r v) (h' : Reindexed v r') :
    Reindexed r r' := by
  obtain ⟨_, _, _, rfl⟩ := h
  obtain ⟨controls, bindings, targets, rfl⟩ := h'
  exact ⟨controls, bindings, targets, rfl⟩

theorem Reindexed.world {r r' : Runtime C} (h : Reindexed r r') : r'.world = r.world := by
  obtain ⟨_, _, _, rfl⟩ := h
  rfl

theorem Reindexed.locals {r r' : Runtime C} (h : Reindexed r r') : r'.locals = r.locals := by
  obtain ⟨_, _, _, rfl⟩ := h
  rfl

theorem reindexed_unbound (component : ComponentTarget) (r : Runtime C) :
    Reindexed r (unbound component r) := by
  unfold unbound
  cases r.effectBindings.find? component with
  | none => exact .refl r
  | some binding => exact ⟨_, _, _, rfl⟩

theorem reindexed_retired (component : ComponentTarget) (r : Runtime C) :
    Reindexed r (retired component r) := (reindexed_unbound component r).trans ⟨_, _, _, rfl⟩

theorem reindexed_retire_all (dead : List ComponentTarget) (r : Runtime C) :
    Reindexed r (dead.foldl (fun r component => retired component r) r) := by
  induction dead generalizing r with
  | nil => exact .refl r
  | cons component dead ih => exact (reindexed_retired component r).trans (ih _)

theorem wp_demand {x : Except Failure α} {Q : α → Runtime C → Prop}
    {E : Failure → Runtime C → Prop} {r : Runtime C} (hok : ∀ a, x = .ok a → Q a r)
    (herror : ∀ e, x = .error e → E e r) : wp (demand x) Q E r := by
  cases x with
  | ok a =>
      unfold demand
      rw [wp_pure]
      exact hok a rfl
  | error e =>
      unfold demand
      rw [wp_throw]
      exact herror e rfl

theorem reindexed_current (route : AdapterRoute) (target : EffectTarget) (r : Runtime C) :
    wp (currentEffectBinding route target) (fun _ => Reindexed r) (fun _ => Reindexed r) r := by
  unfold currentEffectBinding
  rw [wp_bind, wp_get]
  dsimp only
  cases r.componentsByEffectTarget.find? (targetKey route target) with
  | none => exact (wp_pure _).mpr (.refl r)
  | some component =>
      dsimp only
      cases r.effectBindings.find? component with
      | none =>
          dsimp only
          rw [wp_bind, wp_set, wp_pure]
          exact ⟨_, _, _, rfl⟩
      | some binding =>
          dsimp only
          rw [wp_ite, wp_ite, wp_bind, wp_bind, wp_set, wp_set, wp_pure, wp_pure, wp_pure]
          exact ⟨fun _ => ⟨_, _, _, rfl⟩, fun _ =>
            ⟨fun _ => reindexed_retired component r, fun _ => .refl r⟩⟩

/-- The four programs change nothing but the indexes. -/
theorem reindexed_rebind (b : Rebinding) (r : Runtime C) : Reindexed r (after b.program r) := by
  refine wp_after (P := Reindexed r) |>.mp ?_
  cases b with
  | current route target =>
      unfold Rebinding.program
      rw [wp_bind]
      exact wp_mono (reindexed_current route target r) (fun _ _ h => (wp_pure _).mpr h)
        fun _ _ h => h
  | retireDead =>
      unfold Rebinding.program retireDeadEffectBindings
      rw [wp_modify]
      exact reindexed_retire_all _ r
  | configure type name control =>
      unfold Rebinding.program configureComponent setControl
      rw [wp_bind, wp_get, wp_ite, wp_ite, wp_ite]
      refine ⟨fun _ => (wp_throw _).mpr (.refl r), fun _ => ⟨fun _ => (wp_throw _).mpr (.refl r),
        fun _ => ⟨fun _ => (wp_throw _).mpr (.refl r), fun _ => ?_⟩⟩⟩
      rw [wp_bind]
      refine wp_demand (fun component _ => ?_) fun _ _ => .refl r
      rw [wp_bind, wp_modify, wp_modify]
      exact Reindexed.trans ⟨_, _, _, rfl⟩ (reindexed_unbound component _)
  | bind type name target =>
      unfold Rebinding.program bindEffectComponent
      rw [wp_bind, wp_get, wp_ite, wp_ite]
      refine ⟨fun _ => (wp_throw _).mpr (.refl r), fun _ => ⟨fun _ => (wp_throw _).mpr (.refl r),
        fun _ => ?_⟩⟩
      rw [wp_bind]
      refine wp_demand (fun component _ => ?_) fun _ _ => .refl r
      rw [wp_bind]
      refine wp_demand (fun route _ => ?_) fun _ _ => .refl r
      rw [wp_bind]
      refine wp_mono (reindexed_current route target r) (fun existing r' hr' => ?_) fun _ _ h => h
      rw [wp_ite]
      refine ⟨fun _ => (wp_throw _).mpr hr', fun _ => ?_⟩
      rw [wp_modify]
      exact (hr'.trans (reindexed_unbound component r')).trans ⟨_, _, _, rfl⟩

/-- What the operations of a world respect, a runtime respects of its world. -/
theorem respected_world {S : World C → World C → Prop} (hrefl : ∀ w, S w w)
    (htrans : ∀ w v w', S w v → S v w' → S w w') (hop : ∀ op w, A op → S w (op.step w)) :
    Respected A anyLocals fun r r' : Runtime C => S r.world r'.world where
  trans _ _ _ := htrans _ _ _
  still _ := trivial
  aside _ _ _ _ _ _ _ _ _ _ := hrefl _
  world op r hA := hop op r.world hA
  effects _ _ _ _ := hrefl _
  rebind b r := by
    rw [(reindexed_rebind b r).world]
    exact hrefl _

/-- What the calls preserve, every state of a run has. -/
theorem Run.kept {P : Runtime C → Prop}
    (h : Respected (fun _ => True) anyLocals fun r r' => P r → P r')
    (start : ∀ r, Started r → P r) {r : Runtime C} (run : Run r) : P r := by
  obtain ⟨r₀, hstart, hreach⟩ := run
  exact hreach.induct (start r₀ hstart) fun op r hr _ => op.respected h r hr

end Runtime

end LiquidLayer
