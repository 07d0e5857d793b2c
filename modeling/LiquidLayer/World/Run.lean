/-
  Runs of a world.

  `Op` is what the host and the runtime can do with a world between callbacks; `Op.step` is the
  world an operation leaves, whether it returns or throws. An `update_component` is a read, the
  host's update and then a `replace_component`. The evidence buffers belong to the runtime,
  which empties them between operations.

  `Advanced w w'` is what every operation guarantees (`Op.advanced`): the world is `Ok` again,
  access changed only together with its revision, registered types are kept, and, unless
  evidence of an intent was refused, behaviors, signatures and pools still agree.
  `signatures_agree` is the invariant of all runs from a new world.
-/
import LiquidLayer.World.Handles
import LiquidLayer.World.Situated

namespace LiquidLayer

open Prog

namespace World

variable {C : Type}

/-! ## Running systems -/

def setSystemsRunning (running : Bool) : WorldM C Unit :=
  modify fun w => { w with systemsRunning := running }

/-- One system in `SystemRegistry::run_systems`; `run` is the code of the systems. -/
def runSystem (run : Nat → HostCode C) (phase : SystemPhase) (type : Nat) : WorldM C Unit := do
  let record ← systemAt type
  if record.phase = phase then (run type).run

def runSystems (run : Nat → HostCode C) (phase : SystemPhase) : WorldM C Unit := do
  if (← get).systemsRunning then
    throw (.logicError "world system execution is not reentrant")
  setSystemsRunning true
  tryCatch (do
    let order := (← get).systems.registrationOrder
    dispatching (captured (forM order (runSystem run phase)))
    setSystemsRunning false) fun e => do
      setSystemsRunning false
      throw e

/-! ## Operations -/

inductive Op (C : Type) where
  | call (call : Call C)
  | createBehavior (callbacks : Callbacks C)
  | destroyBehavior (callbacks : Callbacks C) (id : BehaviorId)
  | registerSystem (callbacks : Callbacks C) (system : SystemType) (signature : Signature)
      (phase : SystemPhase) (constructed : Except Failure Unit)
  | destroySystem (system : SystemType)
  | setSystemSignature (callbacks : Callbacks C) (system : SystemType) (signature : Signature)
  | registerComponent (component : Nat) (name : Bytes) (version : UInt32)
      (encode : Option (C → Except Failure Value)) (decode : Option (Value → Except Failure C))
  | addComponent (type : ComponentType) (name : Bytes) (component : C)
  | removeComponent (callbacks : Callbacks C) (type : ComponentType) (name : Bytes)
  | grantComponentAccess (callbacks : Callbacks C) (type : ComponentType) (behavior : BehaviorId)
      (name : Bytes) (mode : ComponentAccessMode)
  | revokeComponentAccess (callbacks : Callbacks C) (type : ComponentType)
      (behavior : BehaviorId) (name : Bytes)
  | replaceComponentValue (target : ComponentTarget) (name : Bytes) (replacement : Value)
  | destroyExpiredIntents (now : UInt64)
  | runSystems (run : Nat → HostCode C) (phase : SystemPhase)
  | clearComponentMutations
  | clearTopologyMutations
  | clearIntentLifecycleRecords

def Op.program : Op C → WorldM C Unit
  | .call c => c.program
  | .createBehavior callbacks => do let _ ← World.createBehavior callbacks
  | .destroyBehavior callbacks id => World.destroyBehavior callbacks id
  | .registerSystem callbacks system signature phase constructed =>
      World.registerSystem callbacks system signature phase constructed
  | .destroySystem system => World.destroySystem system
  | .setSystemSignature callbacks system signature =>
      World.setSystemSignature callbacks system signature
  | .registerComponent component name version encode decode => do
      let _ ← World.registerComponent component name version encode decode
  | .addComponent type name component => World.addComponent type name component
  | .removeComponent callbacks type name => World.removeComponent callbacks type name
  | .grantComponentAccess callbacks type behavior name mode =>
      World.grantComponentAccess callbacks type behavior name mode
  | .revokeComponentAccess callbacks type behavior name =>
      World.revokeComponentAccess callbacks type behavior name
  | .replaceComponentValue target name replacement => do
      let _ ← World.replaceComponentValue target name replacement
  | .destroyExpiredIntents now => do let _ ← onIntents (IntentRegistry.destroyExpired now)
  | .runSystems run phase => World.runSystems run phase
  | .clearComponentMutations => World.clearComponentMutations
  | .clearTopologyMutations => World.clearTopologyMutations
  | .clearIntentLifecycleRecords => onIntents IntentRegistry.clearLifecycleRecords

/-- The world an operation leaves. -/
def Op.step (op : Op C) (w : World C) : World C := after op.program w

/-- The runs of a new world. -/
abbrev Run (instanceId : UInt64) (w : World C) : Prop :=
  Reaches Op.step (fun _ _ => True) (initial instanceId) w

/-! ## What an operation guarantees -/

structure Advanced (w w' : World C) : Prop where
  ok : Ok w'
  revised : Revised w w'
  schemas : ∀ type schema, w.components.schemas type = some schema →
    w'.components.schemas type = some schema
  capacity : w.intents.capacityErrors ≤ w'.intents.capacityErrors
  settled : w'.intents.capacityErrors = w.intents.capacityErrors → Settled w → Settled w'

theorem Advanced.refl {w : World C} (h : Ok w) : Advanced w w :=
  ⟨h, .refl w, fun _ _ hs => hs, le_refl _, fun _ hs => hs⟩

theorem Advanced.trans {w v w' : World C} (h : Advanced w v) (h' : Advanced v w') :
    Advanced w w' := by
  refine ⟨h'.ok, h.revised.trans h'.revised, fun type schema hs =>
    h'.schemas type schema (h.schemas type schema hs), h.capacity.trans h'.capacity, ?_⟩
  intro hcap hs
  have hle := h.capacity
  have hle' := h'.capacity
  exact h'.settled (by omega) (h.settled (by omega) hs)

theorem Outcome.intentCapacity {w w' : World C} {content : Content}
    {entries : List TopologyMutation} (h : Outcome w w' content entries) :
    w.intents.capacityErrors ≤ w'.intents.capacityErrors := by
  obtain ⟨_, hsteps, _⟩ := h.intents
  exact hsteps.capacity

/-- The schemas of the registry are those of its content. -/
theorem Outcome.schemas {w w' : World C} {content : Content} {entries : List TopologyMutation}
    (h : Outcome w w' content entries) : w'.components.schemas = content.schemas :=
  congrArg Content.schemas h.content

theorem Lawful.advanced {w w' : World C} {content : Content} {entries : List TopologyMutation}
    (h : Lawful w w' content entries)
    (hschemas : ∀ type schema, w.components.schemas type = some schema →
      content.schemas type = some schema) : Advanced w w' := by
  refine ⟨h.outcome.ok, h.outcome.revised, fun type schema hs => ?_, h.outcome.intentCapacity,
    h.settled⟩
  rw [h.outcome.schemas]
  exact hschemas type schema hs

/-- An operation that was stopped because evidence of an intent was refused. -/
theorem Outcome.advanced {w w' : World C} {content : Content} {entries : List TopologyMutation}
    (h : Outcome w w' content entries) (hschemas : content.schemas = w.components.schemas)
    (hrefused : w.intents.capacityErrors < w'.intents.capacityErrors) : Advanced w w' := by
  refine ⟨h.ok, h.revised, fun type schema hs => ?_, h.intentCapacity, fun hcap => ?_⟩
  · rw [h.schemas, hschemas]
    exact hs
  · omega

/-- Only callbacks ran. -/
theorem Advanced.of_retold {w w' : World C} (h : Ok w) (hret : Retold w w')
    (hsig : w'.behaviorSignatures = w.behaviorSignatures) (hsys : w'.systems = w.systems) :
    Advanced w w' := by
  have hb : w'.behaviors = w.behaviors := by rw [hret.tended.quiet.rest]
  have hok : Ok w' := by
    refine ⟨hret.held h.held, fun b hc => ?_, ?_⟩
    · rw [hb]
      rw [hsig] at hc
      exact h.signed b hc
    · rw [hsig, hsys]
      exact h.membered
  exact (Lawful.of_retold h.held.ready hret hok hsig).advanced fun _ _ hs => hs

/-! ### Operations that change no signature -/

/-- A move of the intents under which what is created is authorized. -/
theorem Advanced.of_moved {w : World C} (h : Ok w) {r : IntentRegistry}
    {entries : List IntentLifecycleRecord} (hm : IntentRegistry.Moved entries w.intents r)
    (hauth : ∀ e ∈ entries, e.created = true → Authorized w e.intent ∧
      e.intent.encodedValue.validate = .ok ()) : Advanced w { w with intents := r } :=
  .of_retold h ⟨.of_moved h.held.ready hm hauth, .refl _⟩ rfl rfl

theorem Call.advanced (call : Call C) {w : World C} (h : Ok w) :
    Advanced w (after call.program w) := by
  have htended := call.tended w h.held.ready
  refine .of_retold h ⟨?_, ?_⟩ htended.signatures htended.systems
  · rw [htended.signatures, htended.systems]
    exact htended
  · rw [htended.systems]
    exact .refl _

theorem advanced_destroyExpired (now : UInt64) {w : World C} (h : Ok w) :
    wp (onIntents (IntentRegistry.destroyExpired now)) (fun _ => Advanced w)
      (fun _ => Advanced w) w := by
  have hintents := h.held.ready.intents
  have hculled : ∀ {D : Intent → Prop} {r : IntentRegistry},
      IntentRegistry.Culled D w.intents r → Advanced w { w with intents := r } := by
    intro D r hc
    obtain ⟨entries, hm, hdestroyed⟩ := hc.moved
    refine .of_moved h hm fun e he hcreated => ?_
    rw [hdestroyed e he] at hcreated
    cases hcreated
  rw [wp_onIntents]
  unfold IntentRegistry.destroyExpired
  rw [wp_bind, wp_get, wp_bind, wp_lift]
  refine ⟨fun expired hexp => ?_, fun _ _ => .refl h⟩
  have hsub : expired.Sublist w.intents.liveIntentIds := IntentRegistry.sublist_of_filterM hexp
  rw [wp_bind]
  refine wp_mono (IntentRegistry.sheds_destroy.forM expired (hsub.nodup (OrdMap.nodup_keys _)) _
    hintents h.held.ready.idle fun id hid =>
      hintents.indexed.mem_liveIntentIds.mp (hsub.subset hid)) (fun _ r hr => ?_)
    (fun _ r hr => hculled hr.1)
  rw [wp_pure]
  exact hculled hr.1

/-- The values of components are neither access nor signatures. -/
theorem Advanced.of_revalued {w : World C} (h : Ok w) {r : ComponentRegistry C}
    (hr : ComponentRegistry.Revalued w.components r) :
    Advanced w { w with components := r } where
  ok := by
    refine h.withComponents (hr.ok h.held.ready.components) fun id t' b ht' hc => ?_
    obtain ⟨t, ht, hrev⟩ := hr.types_back ht'
    rw [hrev.rest] at hc
    exact h.held.holders id t b ht hc
  revised := by
    refine ⟨le_refl _, fun b revision hf => Or.inl ⟨hf, fun type name => ?_⟩⟩
    dsimp only
    rw [hr.access, hr.slots]
    exact ⟨rfl, fun _ => rfl⟩
  schemas type schema hs := by
    dsimp only
    rw [hr.schemas]
    exact hs
  capacity := le_refl _
  settled _ hs := by
    refine ⟨hs.signed, hs.revised, hs.pooled, fun b signature hf type ht => ?_⟩
    dsimp only
    rw [hr.access]
    exact hs.bits b signature hf type ht

/-- Only evidence is different. -/
theorem Advanced.evidence {w w' : World C} (h : Advanced w w')
    (components : List ComponentMutation) (topology : List TopologyMutation) (errors : Nat) :
    Advanced w { w' with
      componentMutations := components
      topologyMutations := topology
      evidenceLost := errors } where
  ok := h.ok.evidence components topology errors
  revised := ⟨h.revised.last, h.revised.access⟩
  schemas := h.schemas
  capacity := h.capacity
  settled hcap hs :=
    ⟨(h.settled hcap hs).signed, (h.settled hcap hs).revised, (h.settled hcap hs).pooled,
      (h.settled hcap hs).bits⟩

theorem advanced_replaceComponentValue (target : ComponentTarget) (name : Bytes)
    (replacement : Value) {w : World C} (h : Ok w) :
    wp (replaceComponentValue target name replacement) (fun _ => Advanced w)
      (fun _ => Advanced w) w := by
  unfold replaceComponentValue
  rw [wp_bind, wp_get, wp_bind, wp_lift]
  refine ⟨fun before _ => ?_, fun _ _ => .refl h⟩
  by_cases hsame : before = replacement
  · rw [if_pos hsame, wp_pure]
    exact .refl h
  rw [if_neg hsame, wp_bind, wp_lift]
  refine ⟨fun p hp => ?_, fun _ _ => .refl h⟩
  obtain ⟨afterwards, r⟩ := p
  have hadvanced := Advanced.of_revalued h (ComponentRegistry.replaceTarget_revalued hp)
  dsimp only
  rw [wp_bind, wp_set, wp_bind]
  refine wp_recordComponentMutation (fun _ => ?_) (fun _ => ?_)
  · rw [wp_pure]
    exact hadvanced.evidence _ _ _
  · exact hadvanced.evidence _ _ _

theorem advanced_clearIntentLifecycleRecords {w : World C} (h : Ok w) :
    wp (onIntents IntentRegistry.clearLifecycleRecords) (fun _ => Advanced w)
      (fun _ => Advanced w) w := by
  rw [wp_onIntents]
  unfold IntentRegistry.clearLifecycleRecords IntentRegistry.ensureNoActiveTransaction
  rw [wp_bind, wp_bind, wp_get, if_neg (by simp [h.held.ready.idle]), wp_pure, wp_modify]
  have hkept := IntentRegistry.Kept.framed h.held.ready.intents [] w.intents.transaction
    w.intents.capacityErrors w.intents.terminated
  exact
    { ok := h.withIntents hkept.coherent h.held.ready.idle h.held.pooled
      revised := ⟨le_refl _, (Revised.refl w).access⟩
      schemas := fun _ _ hs => hs
      capacity := le_refl _
      settled := fun _ hs => ⟨hs.signed, hs.revised, hs.pooled, hs.bits⟩ }

/-! ### Running systems -/

theorem HostCode.tended (code : HostCode C) : Within Tended code.run := fun w =>
  wp_after.mp (wp_mono (wp_run code w) (fun _ _ h => h.2.tended) fun _ _ h => h.2.tended)

theorem tended_runSystem (run : Nat → HostCode C) (phase : SystemPhase) (type : Nat) :
    Within Tended (runSystem run phase type) := by
  unfold runSystem systemAt
  refine within_bind Tended.trans (within_get fun w => ?_) fun record => ?_
  · cases w.systems.systems.find? type with
    | none => exact within_throw Tended.refl atFailure
    | some record => exact within_pure Tended.refl record
  · by_cases hphase : record.phase = phase
    · rw [if_pos hphase]
      exact (run type).tended
    · rw [if_neg hphase]
      exact within_pure Tended.refl ()

/-- Being tended to does not look at the dispatch either. -/
theorem TendedTo.resumed {w w' : World C} (h : TendedTo w w') (systems : SystemRegistry)
    (running : Bool) : TendedTo { w with systems, systemsRunning := running }
      { w' with systems, systemsRunning := running } := by
  obtain ⟨hready, hquiet, hintended⟩ := h
  refine ⟨⟨hready.components, hready.intents, hready.idle, hready.inactive⟩, ⟨?_,
    hquiet.components, hquiet.lost, hquiet.evidence⟩, hintended⟩
  rw [hquiet.rest]

/-- The world while its systems run. -/
def underway (w : World C) : World C :=
  { w with
    systemsRunning := true
    systems := { w.systems with dispatchDepth := w.systems.dispatchDepth + 1 } }

theorem advanced_runSystems (run : Nat → HostCode C) (phase : SystemPhase) {w : World C}
    (h : Ok w) :
    wp (runSystems run phase) (fun _ => Advanced w) (fun _ => Advanced w) w := by
  have hready := h.held.ready
  have hv : Ready (underway w) := ⟨hready.components, hready.intents, hready.idle, hready.inactive⟩
  have hback : ∀ w₁ : World C, TendedTo (underway w) w₁ → Advanced w { w₁ with
      systemsRunning := false
      systems := { w₁.systems with dispatchDepth := w₁.systems.dispatchDepth - 1 } } := by
    intro w₁ htended
    have hresumed := htended.resumed w.systems w.systemsRunning
    have hend : ({ w₁ with
        systemsRunning := false
        systems := { w₁.systems with dispatchDepth := w₁.systems.dispatchDepth - 1 } } :
          World C) = { w₁ with systems := w.systems, systemsRunning := w.systemsRunning } := by
      rw [htended.systems, h.held.running]
      rfl
    rw [hend]
    refine .of_retold h ⟨?_, .refl _⟩ htended.signatures rfl
    have hsig : w₁.behaviorSignatures = w.behaviorSignatures := htended.signatures
    rw [hsig] at hresumed
    dsimp only
    rw [hsig]
    exact hresumed
  unfold runSystems
  rw [wp_bind, wp_get, if_neg (by simp [h.held.running]), wp_bind]
  unfold setSystemsRunning
  rw [wp_modify, wp_tryCatch, wp_bind, wp_get]
  dsimp only
  unfold dispatching setDispatchDepth
  rw [wp_bind, wp_bind, wp_get, if_neg (by simp [h.held.depth]), wp_bind, wp_modify, wp_bind,
    wp_tryCatch]
  refine wp_captured (wp_mono (wp_after (P := TendedTo (underway w)) |>.mpr ?_) (fun _ w₁ h₁ => ?_)
    (fun e w₁ h₁ => ?_))
  · exact within_forM Tended.refl Tended.trans _ (fun type _ =>
      tended_runSystem run phase type) (underway w) hv
  · rw [wp_bind, wp_modify]
    refine wp_rethrow (fun _ => ?_) (fun e he => by cases he)
    rw [wp_modify]
    exact hback w₁ h₁
  · rw [wp_bind, wp_modify]
    refine wp_rethrow (fun hnone => by cases hnone) (fun e he => ?_)
    rw [wp_bind, wp_modify, wp_throw]
    exact hback w₁ h₁

/-! ### Every operation -/

/-- Only a registration changes the schemas. -/
theorem Change.schemas_apply (change : Change) (c : Content)
    (h : ∀ type name version, change ≠ .registerComponent type name version) :
    (change.apply c).schemas = c.schemas := by
  cases change with
  | registerComponent type name version => exact absurd rfl (h type name version)
  | _ => rfl

theorem Lawful.advanced_apply {w w' : World C} {change : Change}
    {entries : List TopologyMutation} (h : Lawful w w' (change.apply w.content) entries)
    (hc : ∀ type name version, change ≠ .registerComponent type name version) : Advanced w w' := by
  refine h.advanced fun type schema hs => ?_
  rw [Change.schemas_apply change w.content hc]
  exact hs

theorem Lawful.advanced_same {w w' : World C} {entries : List TopologyMutation}
    (h : Lawful w w' w.content entries) : Advanced w w' := h.advanced fun _ _ hs => hs

/-- A registration keeps the types that are there. -/
theorem Lawful.advanced_registered {w w' : World C} (hw : Ok w) {component : Nat} {name : Bytes}
    {version : UInt32} {encode : Option (C → Except Failure Value)}
    {decode : Option (Value → Except Failure C)} {type : ComponentType} {r : ComponentRegistry C}
    (hreg : w.components.registerComponent component name version encode decode = .ok (type, r))
    {entries : List TopologyMutation}
    (h : Lawful w w' ((Change.registerComponent type name version).apply w.content) entries) :
    Advanced w w' := by
  have hfresh := (hw.held.ready.components.registered hreg).fresh
  refine h.advanced fun type' schema hs => ?_
  show (if type' = type.id then _ else w.components.schemas type') = some schema
  rw [if_neg]
  · exact hs
  · rintro rfl
    unfold ComponentRegistry.schemas at hs
    rw [hfresh] at hs
    cases hs

theorem Op.advanced (op : Op C) {w : World C} (h : Ok w) : Advanced w (op.step w) := by
  refine wp_after.mp ?_
  cases op with
  | call c => exact wp_after.mpr (c.advanced h)
  | createBehavior callbacks =>
      unfold Op.program
      rw [wp_bind]
      refine wp_mono (wp_createBehavior callbacks h) (fun b w' hw' => ?_) (fun _ w' hw' => ?_)
      · rw [wp_pure]
        exact hw'.1.advanced_apply nofun
      · rcases hw' with ⟨hl, _⟩ | ⟨b, _, hl, _⟩
        · exact hl.advanced_same
        · exact hl.advanced_apply nofun
  | destroyBehavior callbacks id =>
      refine wp_mono (wp_destroyBehavior callbacks h id) (fun _ w' hw' => ?_) (fun _ w' hw' => ?_)
      · exact hw'.2.advanced_apply nofun
      · rcases hw' with ⟨hl, _⟩ | ⟨_, hl⟩ | ⟨_, hl, _⟩ | ⟨_, hhalted⟩
        · exact hl.advanced_same
        · exact hl.advanced_apply nofun
        · exact hl.advanced_apply nofun
        · exact hhalted.outcome.advanced rfl hhalted.refused
  | registerSystem callbacks system signature phase constructed =>
      refine wp_mono (wp_registerSystem callbacks h system signature phase constructed)
        (fun _ w' hw' => ?_) (fun _ w' hw' => ?_)
      · exact hw'.1.advanced_apply nofun
      · rcases hw' with ⟨hl, _⟩ | ⟨hl, _⟩
        · exact hl.advanced_same
        · exact hl.advanced_apply nofun
  | destroySystem system =>
      refine wp_mono (wp_destroySystem h system) (fun _ w' hw' => ?_) (fun _ w' hw' => ?_)
      · exact hw'.1.advanced_apply nofun
      · rcases hw' with ⟨hl, _⟩ | ⟨hl, _⟩
        · exact hl.advanced_same
        · exact hl.advanced_apply nofun
  | setSystemSignature callbacks system signature =>
      refine wp_mono (wp_setSystemSignature callbacks h system signature) (fun _ w' hw' => ?_)
        (fun _ w' hw' => ?_)
      · exact hw'.1.advanced_apply nofun
      · rcases hw' with ⟨hl, _⟩ | ⟨hl, _⟩
        · exact hl.advanced_same
        · exact hl.advanced_apply nofun
  | registerComponent component name version encode decode =>
      unfold Op.program
      rw [wp_bind]
      refine wp_mono (wp_registerComponent h component name version encode decode)
        (fun type w' hw' => ?_) (fun _ w' hw' => ?_)
      · obtain ⟨hl, _, r, hreg⟩ := hw'
        rw [wp_pure]
        exact hl.advanced_registered h hreg
      · rcases hw' with ⟨hl, _⟩ | ⟨type, r, hreg, hl, _⟩
        · exact hl.advanced_same
        · exact hl.advanced_registered h hreg
  | addComponent type name component =>
      refine wp_mono (wp_addComponent h type name component) (fun _ w' hw' => ?_)
        (fun _ w' hw' => ?_)
      · obtain ⟨slot, _, hl⟩ := hw'
        exact hl.advanced_apply nofun
      · rcases hw' with ⟨hl, _⟩ | ⟨slot, _, hl, _⟩
        · exact hl.advanced_same
        · exact hl.advanced_apply nofun
  | removeComponent callbacks type name =>
      refine wp_mono (wp_removeComponent callbacks h type name) (fun _ w' hl => ?_)
        (fun _ w' hw' => ?_)
      · exact hl.advanced_apply nofun
      · rcases hw' with ⟨hl, _⟩ | hl | ⟨hl, _⟩
        · exact hl.advanced_same
        · exact hl.advanced_apply nofun
        · exact hl.advanced_apply nofun
  | grantComponentAccess callbacks type behavior name mode =>
      refine wp_mono (wp_grantComponentAccess callbacks h type behavior name mode)
        (fun _ w' hl => ?_) (fun _ w' hw' => ?_)
      · exact hl.advanced_apply nofun
      · rcases hw' with ⟨_, hl, _⟩ | ⟨slot, _, ⟨_, hg⟩ | ⟨_, _, hg⟩ | hhalted | ⟨_, hl⟩⟩
        · exact hl.advanced_same
        · exact hg.lawful.advanced_apply nofun
        · exact hg.lawful.advanced_apply nofun
        · exact hhalted.outcome.advanced rfl hhalted.refused
        · exact hl.advanced_apply nofun
  | revokeComponentAccess callbacks type behavior name =>
      refine wp_mono (wp_revokeComponentAccess callbacks h type behavior name)
        (fun _ w' hl => ?_) (fun _ w' hw' => ?_)
      · exact hl.advanced_apply nofun
      · rcases hw' with ⟨_, hl, _⟩ | ⟨slot, _, ⟨_, hr⟩ | ⟨_, hl⟩⟩
        · exact hl.advanced_same
        · exact hr.lawful.advanced_apply nofun
        · exact hl.advanced_apply nofun
  | replaceComponentValue target name replacement =>
      unfold Op.program
      rw [wp_bind]
      refine wp_mono (advanced_replaceComponentValue target name replacement h)
        (fun _ w' hw' => ?_) (fun _ _ hw' => hw')
      rw [wp_pure]
      exact hw'
  | destroyExpiredIntents now =>
      unfold Op.program
      rw [wp_bind]
      refine wp_mono (advanced_destroyExpired now h) (fun _ w' hw' => ?_) (fun _ _ hw' => hw')
      rw [wp_pure]
      exact hw'
  | runSystems run phase => exact advanced_runSystems run phase h
  | clearComponentMutations =>
      unfold Op.program World.clearComponentMutations
      rw [wp_modify]
      exact (Advanced.refl h).evidence [] w.topologyMutations (w.evidenceLost + 1)
  | clearTopologyMutations =>
      unfold Op.program World.clearTopologyMutations
      rw [wp_modify]
      exact (Advanced.refl h).evidence w.componentMutations [] (w.evidenceLost + 1)
  | clearIntentLifecycleRecords => exact advanced_clearIntentLifecycleRecords h

/-! ### What the registries respect -/

theorem respected_replaceComponentValue {R : World C → World C → Prop} (h : Respected R)
    (target : ComponentTarget) (name : Bytes) (replacement : Value) :
    Within R (replaceComponentValue target name replacement) := fun w => by
  rw [← wp_after (P := R w)]
  unfold World.replaceComponentValue
  rw [wp_bind, wp_get, wp_bind, wp_lift]
  refine ⟨fun before _ => ?_, fun _ _ => h.refl w⟩
  by_cases hsame : before = replacement
  · rw [if_pos hsame, wp_pure]
    exact h.refl w
  rw [if_neg hsame, wp_bind, wp_lift]
  refine ⟨fun p hp => ?_, fun _ _ => h.refl w⟩
  obtain ⟨afterwards, r⟩ := p
  -- the registry is set to what the call makes of it
  have hcall : wp (ComponentRegistry.Call.replaceTarget target replacement).program
      (fun _ r' => r' = r) (fun _ r' => r' = r) w.components := by
    unfold ComponentRegistry.Call.program
    rw [wp_bind, wp_get, wp_bind, wp_lift]
    refine ⟨fun p' hp' => ?_, fun e he => ?_⟩
    · rw [hp] at hp'
      cases hp'
      dsimp only
      rw [wp_set]
    · rw [hp] at he
      cases he
  have hset := h.components (.replaceTarget target replacement) w
  rw [wp_after.mp hcall] at hset
  dsimp only
  rw [wp_bind, wp_set, wp_bind]
  have hrecord := h.along_recordComponentMutation
    ⟨target, name, before, afterwards, false⟩
  refine wp_mono (hrecord.wp { w with components := r }) (fun _ w' h' => ?_) (fun _ w' h' => ?_)
  · rw [wp_pure]
    exact h.trans _ _ _ hset h'
  · exact h.trans _ _ _ hset h'

theorem respected_runSystems {R : World C → World C → Prop} (h : Respected R)
    (run : Nat → HostCode C) (phase : SystemPhase) : Within R (World.runSystems run phase) := by
  have hrunning : ∀ running, Within R (setSystemsRunning running : WorldM C Unit) :=
    fun _ => h.along_modify (fun _ => rfl) (fun _ => rfl) fun _ => rfl
  have hbody : Within R (do
      setSystemsRunning true
      tryCatch (do
        let order := (← get).systems.registrationOrder
        dispatching (captured (forM order (runSystem run phase)))
        setSystemsRunning false) fun e => do
          setSystemsRunning false
          throw e) := by
    refine h.along_bind (hrunning true) fun _ => h.along_tryCatch ?_ fun e =>
      h.along_bind (hrunning false) fun _ => h.along_throw e
    refine within_get fun w => h.along_bind (h.along_dispatching (h.along_captured
      (h.along_forM _ fun type => ?_))) fun _ => hrunning false
    exact h.along_bind (h.along_systemAt type) fun record =>
      within_ite (h.along_hostCode _) (h.along_pure ())
  unfold World.runSystems
  exact within_get fun w => within_ite (h.along_bind (h.along_throw _) fun _ => hbody) hbody

/-- Every operation stays within a relation that the calls of the registries respect. -/
theorem Op.respected {R : World C → World C → Prop} (h : Respected R) (op : Op C) :
    Within R op.program := by
  cases op with
  | call c => exact h.along_call c
  | createBehavior callbacks =>
      exact h.along_bind (h.along_createBehavior callbacks) fun _ => h.along_pure ()
  | destroyBehavior callbacks id => exact h.along_destroyBehavior callbacks id
  | registerSystem callbacks system signature phase constructed =>
      exact h.along_registerSystem callbacks system signature phase constructed
  | destroySystem system =>
      exact h.along_structural (h.along_bind (h.along_eraseSystem system) fun _ =>
        h.along_recordTopology _ _ _)
  | setSystemSignature callbacks system signature =>
      exact h.along_setSystemSignature callbacks system signature
  | registerComponent component name version encode decode =>
      exact h.along_bind (h.along_registerComponent component name version encode decode)
        fun _ => h.along_pure ()
  | addComponent type name component => exact h.along_addComponent type name component
  | removeComponent callbacks type name => exact h.along_removeComponent callbacks type name
  | grantComponentAccess callbacks type b name mode =>
      exact h.along_structural (h.along_bind (h.along_grantAccess callbacks type b name mode)
        fun _ => h.along_recordEntry _ _)
  | revokeComponentAccess callbacks type b name =>
      exact h.along_structural (h.along_bind (h.along_revokeAccess callbacks type b name)
        fun _ => h.along_recordTopology _ _ _)
  | replaceComponentValue target name replacement =>
      exact h.along_bind (respected_replaceComponentValue h target name replacement)
        fun _ => h.along_pure ()
  | destroyExpiredIntents now =>
      exact h.along_bind (h.along_destroyExpired now) fun _ => h.along_pure ()
  | runSystems run phase => exact respected_runSystems h run phase
  | clearComponentMutations => exact h.along_modify (fun _ => rfl) (fun _ => rfl) fun _ => rfl
  | clearTopologyMutations => exact h.along_modify (fun _ => rfl) (fun _ => rfl) fun _ => rfl
  | clearIntentLifecycleRecords => exact h.along_onIntents .clearLifecycleRecords rfl

theorem Op.situated (op : Op C) : Within Situated op.program := op.respected respected_situated

/-! ## Runs -/

theorem initial_ok (instanceId : UInt64) : Ok (initial instanceId : World C) := by
  refine ⟨⟨⟨⟨fun id t ht => ?_, fun id t ht => ?_, Nat.zero_le _⟩,
    IntentRegistry.initial_coherent instanceId, rfl, rfl⟩, ⟨List.nodup_nil, fun type => ?_⟩, rfl, rfl,
    BehaviorRegistry.initial_ok instanceId, fun id t b ht => ?_, fun b hb => ?_, fun b hb => ?_⟩,
    fun b hb => ?_, fun type record b _ hf => ?_⟩
  · cases ht
  · cases ht
  · exact ⟨nofun, nofun⟩
  · cases ht
  · cases hb
  · cases hb
  · cases hb
  · cases hf

theorem initial_settled (instanceId : UInt64) : Settled (initial instanceId : World C) :=
  ⟨nofun, nofun, nofun, nofun⟩

theorem Run.advanced {instanceId : UInt64} {w : World C} (h : Run instanceId w) :
    Advanced (initial instanceId) w :=
  h.induct (.refl (initial_ok instanceId)) fun op _ hw _ => hw.trans (op.advanced hw.ok)

theorem Run.ok {instanceId : UInt64} {w : World C} (h : Run instanceId w) : Ok w := h.advanced.ok

/-- The behavior can read or write a live component of the type. -/
def HoldsAccess (w : World C) (behavior : BehaviorId) (type : ComponentTypeId) : Prop :=
  ∃ t slot, w.components.types.find? type = some t ∧ w.components.liveSlot type slot = true ∧
    (t.reads behavior slot || t.writes behavior slot) = true

theorem holdsAccess_iff {w : World C} (h : w.components.Ok) (b : BehaviorId)
    (type : ComponentTypeId) :
    HoldsAccess w b type ↔ ∃ name, w.components.access b type name ≠ none := by
  unfold HoldsAccess ComponentRegistry.access
  constructor
  · rintro ⟨t, slot, ht, hlive, haccess⟩
    obtain ⟨t', ht', hnamed⟩ := h.liveSlot_iff.mp hlive
    rw [ht] at ht'
    cases ht'
    obtain ⟨name, hname⟩ := Option.isSome_iff_exists.mp hnamed
    refine ⟨name, ?_⟩
    rw [ht, Option.bind_some, ← Option.isSome_iff_ne_none,
      accessNamed_isSome (((h.types type t ht).inverse name slot).mpr hname)]
    exact haccess
  · rintro ⟨name, hne⟩
    cases ht : w.components.types.find? type with
    | none => simp [ht] at hne
    | some t =>
        rw [ht, Option.bind_some, ← Option.isSome_iff_ne_none] at hne
        cases hname : t.names.find? name with
        | none => simp [TypeRecord.accessNamed, hname] at hne
        | some slot =>
            rw [accessNamed_isSome hname] at hne
            have hnamed := ((h.types type t ht).inverse name slot).mp hname
            refine ⟨t, slot, rfl, h.liveSlot_iff.mpr ⟨t, ht, ?_⟩, hne⟩
            rw [OrdMap.contains, hnamed]
            rfl

/-- Behaviors, signatures, revisions, intent pools and systems agree. -/
structure Agree (w : World C) : Prop where
  signatures : ∀ b, w.behaviorSignatures.contains b = w.behaviors.exist b
  revisions : ∀ b, w.behaviorAccessRevisions.contains b = w.behaviors.exist b
  pools : ∀ b, w.intents.byOwner.contains b = w.behaviors.exist b
  bits : ∀ b, w.behaviors.exist b = true → ∀ type,
    ((w.behaviorSignature b).getLsbD type = true ↔ HoldsAccess w b type)
  members : ∀ type record, w.systems.systems.find? type = some record → ∀ b,
    (record.behaviours.contains b = true ↔
      w.behaviors.exist b = true ∧ (w.behaviorSignature b).covers record.signature = true)

theorem Settled.agree {w : World C} (hs : Settled w) (h : Ok w) : Agree w := by
  have hcomp := h.held.ready.components
  have hsigned : ∀ b, w.behaviors.exist b = true →
      ∃ signature, w.behaviorSignatures.find? b = some signature := fun b hb =>
    Option.isSome_iff_exists.mp (hs.signed b hb)
  refine ⟨fun b => Bool.eq_iff_iff.mpr ⟨h.signed b, hs.signed b⟩,
    fun b => Bool.eq_iff_iff.mpr ⟨h.held.revised b, hs.revised b⟩,
    fun b => Bool.eq_iff_iff.mpr ⟨h.held.pooled b, hs.pooled b⟩, fun b hb type => ?_,
    fun type record hfind b => ?_⟩
  · obtain ⟨signature, hfind⟩ := hsigned b hb
    rw [holdsAccess_iff hcomp]
    unfold behaviorSignature
    rw [hfind, Option.getD_some]
    by_cases htype : type < 64
    · exact hs.bits b signature hfind type htype
    · -- there are no such bits and no such types
      have hfar : w.components.types.find? type = none := by
        cases ht : w.components.types.find? type with
        | none => rfl
        | some t =>
            have hbelow := hcomp.below type t ht
            exact absurd (lt_of_lt_of_le hbelow hcomp.limit) htype
      unfold ComponentRegistry.access
      simp [hfar, BitVec.getLsbD_of_ge signature type (Nat.not_lt.mp htype)]
  · rw [h.membered type record b trivial hfind]
    unfold behaviorSignature
    constructor
    · rintro ⟨signature, hsig, hcovers⟩
      rw [hsig, Option.getD_some]
      refine ⟨h.signed b ?_, hcovers⟩
      rw [OrdMap.contains, hsig]
      rfl
    · rintro ⟨hb, hcovers⟩
      obtain ⟨signature, hsig⟩ := hsigned b hb
      rw [hsig, Option.getD_some] at hcovers
      exact ⟨signature, hsig, hcovers⟩

/-- In every run in which no evidence of an intent was refused, however callbacks end. -/
theorem signatures_agree {instanceId : UInt64} {w : World C} (h : Run instanceId w)
    (hcapacity : w.intents.capacityErrors = 0) : Agree w :=
  (h.advanced.settled hcapacity (initial_settled instanceId)).agree h.ok

/-! ### A behavior joins a system whose callback throws -/

def unitType : ComponentType := ⟨0, 0, 7, 1⟩

def firstBehavior : BehaviorId := ⟨7, 0, 1⟩

def silent : Callbacks Unit := ⟨fun _ _ => ⟨[], none⟩, fun _ _ => ⟨[], none⟩⟩

def refusing : Callbacks Unit :=
  { silent with added := fun _ _ => ⟨[], some (.runtimeError "not wanted")⟩ }

def joiningOps : List (Op Unit) :=
  [.registerComponent 0 [67] 1 (some fun _ => .ok .null) (some fun _ => .ok ()),
    .addComponent unitType [108] (), .createBehavior silent,
    .registerSystem silent ⟨0, [83], 1⟩ 1 .decision (.ok ()),
    .grantComponentAccess refusing unitType firstBehavior [108] .readWrite]

def joined : World Unit := joiningOps.foldl (fun w op => op.step w) (initial 7)

theorem joined_run : Run 7 joined := .along .start joiningOps fun _ _ _ => trivial

theorem signatures_agree_joined : Agree joined ∧ joined.behaviors.exist firstBehavior = true ∧
    joined.behaviorSignature firstBehavior = 1 ∧
    ((joined.systems.systems.find? 0).any fun record =>
      record.behaviours.contains firstBehavior) = true ∧
    joined.topologyMutations.length = 4 :=
  ⟨signatures_agree joined_run (by decide +kernel), by decide +kernel, by decide +kernel,
    by decide +kernel, by decide +kernel⟩

end World

end LiquidLayer
