/-
  What the operations of a world do to components and intents, they do through calls of the two
  registries.

  `Respected R`: the relation `R` of worlds is kept by each call of the component registry and of
  the intent registry, and by changes of anything else. One lemma for each program of the model
  says that the program stays within such a relation (`Op.respected` takes them together), so a
  fact about the calls of a registry is a fact about the operations of the world.
-/
import LiquidLayer.World.AccessOps
import LiquidLayer.World.Handles

namespace LiquidLayer

open Prog

namespace World

variable {C : Type}

/-- The id of the world, its components and its intents are all that `R` looks at, and the calls
    of the registries stay within it. -/
structure Respected (R : World C → World C → Prop) : Prop where
  trans : ∀ w v w', R w v → R v w' → R w w'
  aside : ∀ w w', w'.instanceId = w.instanceId → w'.components = w.components →
    w'.intents = w.intents → R w w'
  components : ∀ (call : ComponentRegistry.Call C) w,
    R w { w with components := after call.program w.components }
  intents : ∀ (call : IntentRegistry.Call) w,
    R w { w with intents := after call.program w.intents }

variable {R : World C → World C → Prop}

/-! ## The programs of the world -/

section Programs

variable {α : Type}

theorem Respected.refl (h : Respected R) (w : World C) : R w w := h.aside w w rfl rfl rfl

theorem Respected.along_lift (h : Respected R) (x : Except Failure α) :
    Within R (lift x : WorldM C α) := by
  cases x with
  | ok a => exact within_pure h.refl a
  | error e => exact within_throw h.refl e

theorem Respected.along_modify (h : Respected R) {f : World C → World C}
    (hid : ∀ w, (f w).instanceId = w.instanceId) (hcomp : ∀ w, (f w).components = w.components)
    (hint : ∀ w, (f w).intents = w.intents) :
    Within R (modify f : WorldM C Unit) :=
  within_modify fun w => h.aside w (f w) (hid w) (hcomp w) (hint w)

theorem Respected.along_onComponents (h : Respected R) (call : ComponentRegistry.Call C) :
    Within R (onComponents call.program) := fun w => by
  unfold onComponents
  rw [after_zoom]
  exact h.components call w

/-- A program that is a call, up to the form of its reply. -/
theorem Respected.along_onIntents (h : Respected R) {m : EStateM Failure IntentRegistry α}
    {f : α → IntentRegistry.Reply} (call : IntentRegistry.Call) (hcall : call.program = f <$> m) :
    Within R (onIntents m) := fun w => by
  have hw := h.intents call w
  rw [hcall, after_map] at hw
  unfold onIntents
  rw [after_zoom]
  exact hw

theorem Respected.along_onBehaviors (h : Respected R) (m : EStateM Failure BehaviorRegistry α) :
    Within R (onBehaviors m : WorldM C α) := fun _ =>
  wp_after.mp (wp_onBehaviors.mpr (wp_of_forall (fun _ _ => h.aside _ _ rfl rfl rfl)
    fun _ _ => h.aside _ _ rfl rfl rfl))

theorem Respected.along_forM (h : Respected R) {f : α → WorldM C Unit} (l : List α)
    (hf : ∀ a, Within R (f a)) :
    Within R (forM l f) :=
  within_forM h.refl h.trans l fun a _ => hf a

theorem Respected.along_bind (h : Respected R) {β : Type} {m : WorldM C α} {f : α → WorldM C β}
    (hm : Within R m) (hf : ∀ a, Within R (f a)) : Within R (m >>= f) :=
  within_bind h.trans hm hf

theorem Respected.along_pure (h : Respected R) (a : α) : Within R (pure a : WorldM C α) :=
  within_pure h.refl a

theorem Respected.along_throw (h : Respected R) (e : Failure) : Within R (throw e : WorldM C α) :=
  within_throw h.refl e

theorem Respected.along_tryCatch (h : Respected R) {m : WorldM C α} {f : Failure → WorldM C α}
    (hm : Within R m) (hf : ∀ e, Within R (f e)) : Within R (tryCatch m f) :=
  within_tryCatch h.trans hm hf

theorem Respected.along_captured (h : Respected R) {m : WorldM C Unit} (hm : Within R m) :
    Within R (captured m) :=
  h.along_tryCatch (h.along_bind hm fun _ => h.along_pure none) fun e => h.along_pure (some e)

theorem Respected.along_rethrow (h : Respected R) (e? : Option Failure) : Within R
    (rethrow e? : WorldM C Unit) := by
  cases e? with
  | none => exact h.along_pure ()
  | some e => exact h.along_throw e

theorem Respected.along_runAll (h : Respected R) {step : α → WorldM C (Option Failure)} (l : List α)
    (hstep : ∀ a, Within R (step a)) : Within R (runAll step l) := by
  induction l with
  | nil => exact h.along_pure none
  | cons a l ih =>
      exact h.along_bind (hstep a) fun _ => h.along_bind ih fun _ => h.along_pure _

theorem Respected.along_recordTopology (h : Respected R) (key : Bytes) (value : Value)
    (removed : Bool) :
    Within R (recordTopology key value removed : WorldM C Unit) := by
  unfold recordTopology
  refine within_get fun w => within_ite ?_ ?_
  · exact h.along_bind (h.along_modify (fun _ => rfl) (fun _ => rfl) fun _ => rfl) fun _ =>
      h.along_bind (h.along_throw _) fun _ =>
        h.along_modify (fun _ => rfl) (fun _ => rfl) fun _ => rfl
  · exact h.along_modify (fun _ => rfl) (fun _ => rfl) fun _ => rfl

theorem Respected.along_recordComponentMutation (h : Respected R) (mutation : ComponentMutation) :
    Within R (recordComponentMutation mutation : WorldM C Unit) := by
  unfold recordComponentMutation
  refine within_get fun w => within_ite ?_ ?_
  · exact h.along_bind (h.along_modify (fun _ => rfl) (fun _ => rfl) fun _ => rfl) fun _ =>
      h.along_bind (h.along_throw _) fun _ =>
        h.along_modify (fun _ => rfl) (fun _ => rfl) fun _ => rfl
  · exact h.along_modify (fun _ => rfl) (fun _ => rfl) fun _ => rfl

theorem Respected.along_recordEntry (h : Respected R) (key : Bytes)
    (fields : List (String × Value)) :
    Within R (recordEntry key fields : WorldM C Unit) :=
  h.along_bind (h.along_lift _) fun _ => h.along_recordTopology key _ false

theorem Respected.along_recordOptional (h : Respected R) (mutation : Value → ComponentMutation)
    (encoded : Option Value) :
    Within R (recordOptional mutation encoded : WorldM C Unit) := by
  cases encoded with
  | none => exact h.along_pure ()
  | some encoded => exact h.along_recordComponentMutation _

end Programs

/-! ### Calls and callbacks -/

theorem Respected.along_createIntentTransaction (h : Respected R) (owner : BehaviorId)
    (type : ComponentType) (slot : ComponentSlotId) (lifetime : IntentLifetime) (value : C)
    (priority : IntentPriority) (name : Bytes) :
    Within R (createIntentTransaction owner type slot lifetime value priority name) := by
  unfold createIntentTransaction
  exact within_get fun w => h.along_bind (h.along_lift _) fun _ =>
    h.along_onIntents (.createIn _ _ _ _ _ _ _) rfl

theorem Respected.along_commitBundle (h : Respected R) (owner : BehaviorId)
    (cancellations : List IntentId) (pending : List (PendingIntent C)) :
    Within R (commitBundle owner cancellations pending) := by
  have hactive : ∀ active, Within R
      (modify fun w : World C => { w with intentTransactionActive := active }) := fun _ =>
    h.along_modify (fun _ => rfl) (fun _ => rfl) fun _ => rfl
  unfold commitBundle
  refine within_get fun w => ?_
  cases w.validatePending owner cancellations pending [] with
  | error e => exact h.along_pure false
  | ok _ =>
      dsimp only
      refine within_ite (h.along_pure false) ?_
      refine h.along_bind (h.along_tryCatch
        (h.along_bind (h.along_onIntents .beginTransaction rfl) fun _ =>
          h.along_bind (hactive true) fun _ => h.along_pure true) fun _ => h.along_pure false)
        fun began => within_ite (h.along_pure false) ?_
      refine h.along_tryCatch ?_ fun _ => ?_
      · refine h.along_bind (h.along_forM _ fun _ => h.along_onIntents (.cancel _) rfl) fun _ => ?_
        refine h.along_bind (h.along_forM _ fun p => ?_) fun _ => ?_
        · unfold PendingIntent.commit
          exact h.along_bind (within_get fun w => h.along_bind (h.along_lift _) fun _ =>
            h.along_createIntentTransaction _ _ _ _ _ _ _) fun _ => h.along_pure ()
        · exact h.along_bind (h.along_onIntents .commit rfl) fun _ =>
            h.along_bind (hactive false) fun _ => h.along_pure true
      · refine h.along_bind (within_modify fun w => ?_) fun _ => h.along_pure false
        exact h.trans _ _ _ (h.intents .rollback w) (h.aside _ _ rfl rfl rfl)

theorem Respected.along_call (h : Respected R) (call : Call C) : Within R call.program := by
  cases call with
  | createIntent owner type slot lifetime value priority name =>
      unfold Call.program World.createIntent
      exact h.along_bind (within_get fun w => h.along_bind (h.along_lift _) fun _ =>
        h.along_onIntents (.create _ _ _ _ _ _ _) rfl) fun _ => h.along_pure ()
  | destroyIntent id => exact h.along_onIntents (.destroy _) rfl
  | replaceComponent type b name value =>
      unfold Call.program World.replaceComponent
      refine within_get fun w => h.along_bind (h.along_lift _) fun p => ?_
      exact h.along_bind
        (h.along_onComponents (.replaceComponent _ _ _)) fun _ =>
        h.along_recordComponentMutation _
  | commitBundle owner cancellations pending =>
      exact h.along_bind (h.along_commitBundle owner cancellations pending) fun _ =>
        h.along_pure ()
  | clearComponentMutations => exact h.along_modify (fun _ => rfl) (fun _ => rfl) fun _ => rfl
  | clearTopologyMutations => exact h.along_modify (fun _ => rfl) (fun _ => rfl) fun _ => rfl

theorem Respected.along_hostCode (h : Respected R) (code : HostCode C) : Within R code.run := by
  unfold HostCode.run
  refine h.along_bind (h.along_forM _ fun call =>
    h.along_tryCatch (h.along_call call) fun _ => h.along_pure ()) fun _ => ?_
  cases code.throws with
  | none => exact h.along_pure ()
  | some e => exact h.along_throw e

theorem Respected.along_dispatching (h : Respected R) {m : WorldM C (Option Failure)}
    (hm : Within R m) :
    Within R (dispatching m) := by
  have hdepth : ∀ f, Within R (setDispatchDepth f : WorldM C Unit) := fun _ =>
    h.along_modify (fun _ => rfl) (fun _ => rfl) fun _ => rfl
  have hbody : Within R (do
      setDispatchDepth (· + 1)
      let first ← tryCatch m fun e => do
        setDispatchDepth (· - 1)
        throw e
      setDispatchDepth (· - 1)
      rethrow first) := by
    refine h.along_bind (hdepth _) fun _ => h.along_bind (h.along_tryCatch hm fun e => ?_)
      fun first => h.along_bind (hdepth _) fun _ => h.along_rethrow first
    exact h.along_bind (hdepth _) fun _ => h.along_throw e
  unfold dispatching
  exact within_get fun w => within_ite (h.along_bind (h.along_throw _) fun _ => hbody) hbody

theorem Respected.along_systemAt (h : Respected R) (type : Nat) : Within R
    (systemAt type : WorldM C SystemRecord) := by
  unfold systemAt
  refine within_get fun w => ?_
  split
  · exact h.along_throw _
  · exact h.along_pure _

theorem Respected.along_setSystem (h : Respected R) (type : Nat) (record : SystemRecord) :
    Within R (setSystem type record : WorldM C Unit) :=
  h.along_modify (fun _ => rfl) (fun _ => rfl) fun _ => rfl

theorem Respected.along_updateSystemMemberships (h : Respected R) (callbacks : Callbacks C)
    (b : BehaviorId) :
    Within R (updateSystemMemberships callbacks b) := by
  unfold updateSystemMemberships updateBehavior
  refine within_get fun w => within_get fun w' => h.along_dispatching
    (h.along_runAll _ fun type => ?_)
  unfold updateMembership
  refine h.along_bind (h.along_systemAt type) fun record => within_ite ?_ ?_
  · refine within_ite (h.along_pure none) ?_
    exact h.along_bind (h.along_setSystem _ _) fun _ => h.along_captured (h.along_hostCode _)
  · refine within_ite ?_ (h.along_pure none)
    exact h.along_bind (h.along_setSystem _ _) fun _ => h.along_captured (h.along_hostCode _)

theorem Respected.along_removeFromSystems (h : Respected R) (callbacks : Callbacks C)
    (b : BehaviorId) :
    Within R (removeFromSystems callbacks b) := by
  unfold removeFromSystems
  refine within_get fun w => h.along_dispatching (h.along_runAll _ fun type => ?_)
  unfold removeMembership
  refine h.along_bind (h.along_systemAt type) fun record => within_ite ?_ (h.along_pure none)
  exact h.along_bind (h.along_setSystem _ _) fun _ => h.along_captured (h.along_hostCode _)

theorem Respected.along_updateAllSystemMemberships (h : Respected R) (callbacks : Callbacks C) :
    Within R (updateAllSystemMemberships callbacks) := by
  unfold updateAllSystemMemberships
  refine within_get fun w => h.along_bind (h.along_runAll _ fun b => ?_) fun first =>
    h.along_rethrow first
  exact h.along_captured (h.along_updateSystemMemberships callbacks b)

theorem Respected.along_destroyExpired (h : Respected R) (now : UInt64) :
    Within R (onIntents (IntentRegistry.destroyExpired now) : WorldM C Nat) := fun w => by
  let RI : IntentRegistry → IntentRegistry → Prop := fun r r' =>
    R { w with intents := r } { w with intents := r' }
  have hrefl : ∀ r, RI r r := fun r => h.refl _
  have htrans : ∀ r₁ r₂ r₃, RI r₁ r₂ → RI r₂ r₃ → RI r₁ r₃ := fun _ _ _ => h.trans _ _ _
  have hprogram : Within RI (IntentRegistry.destroyExpired now) := by
    unfold IntentRegistry.destroyExpired
    refine within_get fun r => within_bind htrans (fun r' => ?_) fun expired =>
      within_bind htrans (within_forM hrefl htrans _ fun id _ r' => ?_) fun _ =>
        within_pure hrefl _
    · cases r.expiredIntentIds now with
      | ok expired => exact hrefl r'
      | error e => exact hrefl r'
    · have hdestroy := h.intents (.destroy id) { w with intents := r' }
      rw [IntentRegistry.Call.program, after_map] at hdestroy
      exact hdestroy
  unfold onIntents
  rw [after_zoom]
  exact hprogram w.intents

/-! ### Operations -/

/-- Whether the topology is frozen is only looked at. -/
theorem Respected.along_structural (h : Respected R) {α : Type} {m : WorldM C α} (hm : Within R m) :
    Within R (do ensureStructuralMutationAllowed; m) := by
  refine h.along_bind ?_ fun _ => hm
  unfold ensureStructuralMutationAllowed
  exact within_get fun w => within_ite (h.along_throw _) (h.along_pure ())

theorem Respected.along_nextBehaviorAccessRevision (h : Respected R) :
    Within R (nextBehaviorAccessRevision : WorldM C UInt64) := fun w => by
  rw [← wp_after (P := R w)]
  exact wp_nextBehaviorAccessRevision (fun _ _ => h.aside _ _ rfl rfl rfl) fun _ _ => h.refl w

theorem Respected.along_eraseSystem (h : Respected R) (system : SystemType) :
    Within R (eraseSystem system : WorldM C Unit) := fun w => by
  rw [← wp_after (P := R w)]
  exact wp_eraseSystem (fun _ => h.aside _ _ rfl rfl rfl) fun _ _ => h.refl w

theorem Respected.along_insertSystem (h : Respected R) (system : SystemType)
    (signature : Signature) (phase : SystemPhase)
    (constructed : Except Failure Unit) :
    Within R (insertSystem system signature phase constructed : WorldM C Unit) := fun w => by
  rw [← wp_after (P := R w)]
  exact wp_insertSystem (fun _ => h.aside _ _ rfl rfl rfl) fun _ _ => h.refl w

theorem Respected.along_forgetBehavior (h : Respected R) (b : BehaviorId) :
    Within R (forgetBehavior b : WorldM C Unit) :=
  h.along_modify (fun _ => rfl) (fun _ => rfl) fun _ => rfl

theorem Respected.along_createBehavior (h : Respected R) (callbacks : Callbacks C) :
    Within R (createBehavior callbacks) := by
  unfold createBehavior
  refine h.along_structural (h.along_bind h.along_nextBehaviorAccessRevision fun revision =>
    h.along_bind (h.along_onBehaviors _) fun b => h.along_bind ?_ fun _ =>
      h.along_bind (h.along_recordEntry _ _) fun _ => h.along_pure b)
  refine h.along_tryCatch ?_ fun e => ?_
  · have htold : Within R (do
        modify fun w : World C => { w with
          behaviorAccessRevisions := w.behaviorAccessRevisions.insert b revision }
        updateSystemMemberships callbacks b) :=
      h.along_bind (h.along_modify (fun _ => rfl) (fun _ => rfl) fun _ => rfl) fun _ =>
        h.along_updateSystemMemberships callbacks b
    have hsigned : Within R (do
        modify fun w : World C => { w with behaviorSignatures := w.behaviorSignatures.insert b 0 }
        if (← get).behaviorAccessRevisions.contains b then
          throw (.logicError "behavior access revision already exists")
        modify fun w : World C => { w with
          behaviorAccessRevisions := w.behaviorAccessRevisions.insert b revision }
        updateSystemMemberships callbacks b) :=
      h.along_bind (h.along_modify (fun _ => rfl) (fun _ => rfl) fun _ => rfl) fun _ =>
        within_get fun w => within_ite (h.along_bind (h.along_throw _) fun _ => htold) htold
    unfold admitBehavior
    exact h.along_bind (h.along_onIntents (.createBehaviorPool _) rfl) fun _ =>
      within_get fun w => within_ite (h.along_bind (h.along_throw _) fun _ => hsigned) hsigned
  · refine h.along_bind (h.along_captured (h.along_removeFromSystems callbacks b)) fun _ => ?_
    exact h.along_bind (h.along_forgetBehavior b) fun _ =>
      h.along_bind (h.along_onIntents (.destroyOwnedBy _) rfl) fun _ =>
        h.along_bind (h.along_onBehaviors _) fun _ => h.along_throw e

theorem Respected.along_eraseBehavior (h : Respected R) (callbacks : Callbacks C) (b : BehaviorId) :
    Within R (eraseBehavior callbacks b) := by
  unfold eraseBehavior
  refine within_get fun w => h.along_bind (h.along_lift _) fun _ => ?_
  refine h.along_bind (within_modify fun w => h.components (.removeBehavior b) w) fun _ => ?_
  refine h.along_bind (h.along_forgetBehavior b) fun _ => ?_
  refine h.along_bind (h.along_captured (h.along_removeFromSystems callbacks b)) fun e? => ?_
  exact h.along_bind (h.along_onIntents (.destroyOwnedBy _) rfl) fun _ =>
    h.along_bind (h.along_onBehaviors _) fun _ => h.along_rethrow e?

theorem Respected.along_destroyBehavior (h : Respected R) (callbacks : Callbacks C)
    (b : BehaviorId) :
    Within R (destroyBehavior callbacks b) := by
  unfold destroyBehavior
  refine h.along_structural (within_get fun w => h.along_bind (h.along_tryCatch
    (h.along_eraseBehavior callbacks b) fun e => ?_) fun _ => h.along_recordTopology _ _ _)
  exact within_get fun w' => within_ite (h.along_bind (h.along_recordTopology _ _ _) fun _ =>
    h.along_throw e) (h.along_throw e)

theorem Respected.along_registerSystem (h : Respected R) (callbacks : Callbacks C)
    (system : SystemType)
    (signature : Signature) (phase : SystemPhase) (constructed : Except Failure Unit) :
    Within R (registerSystem callbacks system signature phase constructed) := by
  unfold registerSystem
  refine h.along_structural (h.along_bind (h.along_insertSystem _ _ _ _) fun _ =>
    h.along_bind (h.along_tryCatch (h.along_updateAllSystemMemberships callbacks) fun e => ?_)
      fun _ => h.along_recordEntry _ _)
  exact h.along_bind (h.along_eraseSystem system) fun _ => h.along_throw e

theorem Respected.along_setSystemSignature (h : Respected R) (callbacks : Callbacks C)
    (system : SystemType)
    (signature : Signature) : Within R (setSystemSignature callbacks system signature) := by
  unfold setSystemSignature
  refine h.along_structural (within_get fun w => ?_)
  split
  · exact h.along_throw _
  · exact h.along_bind (h.along_setSystem _ _) fun _ =>
      h.along_bind (h.along_updateAllSystemMemberships callbacks) fun _ =>
        h.along_recordEntry _ _

theorem Respected.along_registerComponent (h : Respected R) (component : Nat) (name : Bytes)
    (version : UInt32) (encode : Option (C → Except Failure Value))
    (decode : Option (Value → Except Failure C)) :
    Within R (registerComponent component name version encode decode) := by
  unfold registerComponent
  refine h.along_structural fun w => ?_
  rw [← wp_after (P := R w), wp_bind, wp_get, wp_bind, wp_lift]
  refine ⟨fun p hp => ?_, fun _ _ => h.refl w⟩
  obtain ⟨type, r⟩ := p
  -- the registry is set to what the call makes of it
  have hcall : wp (ComponentRegistry.Call.registerComponent component name version encode
      decode).program (fun _ r' => r' = r) (fun _ r' => r' = r) w.components := by
    unfold ComponentRegistry.Call.program
    rw [wp_bind, wp_get, wp_bind, wp_lift]
    refine ⟨fun p' hp' => ?_, fun e he => ?_⟩
    · rw [hp] at hp'
      cases hp'
      dsimp only
      rw [wp_set]
    · rw [hp] at he
      cases he
  have hset := h.components (.registerComponent component name version encode decode) w
  rw [wp_after.mp hcall] at hset
  dsimp only
  rw [wp_bind, wp_set]
  have hrest : Within R (do
      recordEntry (componentTypeKey name) (componentTypeFields type name version)
      return type : WorldM C ComponentType) :=
    h.along_bind (h.along_recordEntry _ _) fun _ => h.along_pure type
  exact wp_mono (hrest.wp { w with components := r }) (fun _ _ h' => h.trans _ _ _ hset h')
    fun _ _ h' => h.trans _ _ _ hset h'

theorem Respected.along_addComponent (h : Respected R) (type : ComponentType) (name : Bytes)
    (c : C) :
    Within R (addComponent type name c) := by
  unfold addComponent
  refine h.along_structural (within_get fun w => h.along_bind (h.along_lift _) fun encoded => ?_)
  refine h.along_bind
    (h.along_onComponents (.addComponent _ _ _)) fun _ => ?_
  exact within_get fun w' => h.along_bind (h.along_lift _) fun slot =>
    h.along_bind (h.along_recordOptional _ _) fun _ => h.along_recordEntry _ _

theorem Respected.along_setSignature (h : Respected R) (b : BehaviorId) (signature : Signature) :
    Within R (setSignature b signature : WorldM C Unit) :=
  h.along_modify (fun _ => rfl) (fun _ => rfl) fun _ => rfl

theorem Respected.along_setRevision (h : Respected R) (b : BehaviorId) (revision : UInt64) :
    Within R (setRevision b revision : WorldM C Unit) :=
  h.along_modify (fun _ => rfl) (fun _ => rfl) fun _ => rfl

theorem Respected.along_drawRevision (h : Respected R) (b : BehaviorId) :
    Within R (drawRevision b : WorldM C UInt64) := by
  unfold drawRevision
  exact within_get fun w => within_ite
    (h.along_bind (h.along_throw _) fun _ => h.along_nextBehaviorAccessRevision)
    h.along_nextBehaviorAccessRevision

theorem Respected.along_drawRevisions (h : Respected R) (type : ComponentType)
    (slot : ComponentSlotId)
    (l : List BehaviorId) :
    Within R (drawRevisions type slot l : WorldM C (List (BehaviorId × UInt64))) := by
  induction l with
  | nil => exact h.along_pure []
  | cons b l ih =>
      unfold drawRevisions
      exact within_get fun w => within_ite (h.along_bind (h.along_drawRevision b) fun _ =>
        h.along_bind ih fun _ => h.along_pure _) ih

theorem Respected.along_resetSignature (h : Respected R) (callbacks : Callbacks C)
    (type : ComponentType)
    (b : BehaviorId) : Within R (resetSignature callbacks type b) := by
  unfold resetSignature
  refine within_get fun w => h.along_bind (h.along_lift _) fun t => within_ite ?_
    (h.along_pure ())
  exact h.along_bind (h.along_setSignature _ _) fun _ =>
    h.along_updateSystemMemberships callbacks b

theorem Respected.along_eraseComponent (h : Respected R) (callbacks : Callbacks C)
    (type : ComponentType)
    (name : Bytes) : Within R (eraseComponent callbacks type name) := by
  unfold eraseComponent
  refine within_get fun w => h.along_bind (h.along_lift _) fun t => ?_
  refine h.along_bind (h.along_lift _) fun slot => ?_
  refine h.along_bind (h.along_drawRevisions _ _ _) fun revisions => ?_
  refine h.along_bind
    (within_get fun w' => h.along_forM _ fun _ => h.along_onIntents (.destroy _) rfl) fun _ => ?_
  refine h.along_bind
    (h.along_onComponents (.removeComponent _ _)) fun _ => ?_
  refine h.along_bind (h.along_forM _ fun _ => h.along_setRevision _ _) fun _ => ?_
  exact h.along_bind (h.along_runAll _ fun b =>
    h.along_captured (h.along_resetSignature callbacks type b)) fun first =>
    h.along_rethrow first

theorem Respected.along_removeComponent (h : Respected R) (callbacks : Callbacks C)
    (type : ComponentType)
    (name : Bytes) : Within R (removeComponent callbacks type name) := by
  have hrest : ∀ (slot : ComponentSlotId) (encoded : Option Value), Within R (do
      let recordRemoval : WorldM C Unit := do
        recordOptional (fun encoded => ⟨⟨type.id, slot⟩, name, encoded, .null, true⟩) encoded
        recordTombstone (componentKey type.id name)
      tryCatch (eraseComponent callbacks type name) fun e => do
        if !(← get).components.hasComponentNamed type name then recordRemoval
        throw e
      recordRemoval) := by
    intro slot encoded
    have hrecord : Within R (do
        recordOptional (fun encoded => ⟨⟨type.id, slot⟩, name, encoded, .null, true⟩) encoded
        recordTombstone (componentKey type.id name) : WorldM C Unit) :=
      h.along_bind (h.along_recordOptional _ _) fun _ => h.along_recordTopology _ _ _
    refine h.along_bind (h.along_tryCatch (h.along_eraseComponent callbacks type name)
      fun e => ?_) fun _ => hrecord
    exact within_get fun w => within_ite (h.along_bind hrecord fun _ => h.along_throw e)
      (h.along_throw e)
  unfold removeComponent
  refine h.along_structural (within_get fun w => h.along_bind (h.along_lift _) fun slot => ?_)
  refine h.along_bind (h.along_lift _) fun hasCodec => within_ite ?_ ?_
  · refine h.along_bind (h.along_lift _) fun found => ?_
    split
    · exact h.along_bind (h.along_throw _) fun encoded => hrest slot encoded
    · exact h.along_bind (h.along_lift _) fun encoded => hrest slot (some encoded)
  · exact hrest slot none

theorem Respected.along_destroyIntentsForOwnerTarget (h : Respected R) (owner : BehaviorId)
    (type : ComponentTypeId)
    (slot : ComponentSlotId) :
    Within R (destroyIntentsForOwnerTarget owner type slot : WorldM C Unit) := by
  unfold destroyIntentsForOwnerTarget
  refine within_get fun w => h.along_forM _ fun id => within_get fun w' => ?_
  exact h.along_bind (h.along_lift _) fun i => within_ite (h.along_onIntents (.destroy _) rfl)
    (h.along_pure ())

theorem Respected.along_grantAccess (h : Respected R) (callbacks : Callbacks C)
    (type : ComponentType) (b : BehaviorId)
    (name : Bytes) (mode : ComponentAccessMode) :
    Within R (grantAccess callbacks type b name mode) := by
  have hsign : Within R (do
      setSignature b (((← get).behaviorSignature b).set type.id)
      updateSystemMemberships callbacks b) :=
    within_get fun w => h.along_bind (h.along_setSignature _ _) fun _ =>
      h.along_updateSystemMemberships callbacks b
  have hshed : ∀ slot, Within R (do
      if mode = .read then destroyIntentsForOwnerTarget b type.id slot
      setSignature b (((← get).behaviorSignature b).set type.id)
      updateSystemMemberships callbacks b) := fun slot =>
    within_ite (h.along_bind (h.along_destroyIntentsForOwnerTarget b type.id slot) fun _ => hsign)
      hsign
  unfold grantAccess
  refine within_get fun w => h.along_bind (h.along_lift _) fun _ => ?_
  refine h.along_bind (h.along_lift _) fun slot => ?_
  have hgranted : ∀ (changes : Bool) revision, Within R (do
      onComponents (ComponentRegistry.grantAccess type b name mode)
      if changes then setRevision b revision
      if mode = .read then destroyIntentsForOwnerTarget b type.id slot
      setSignature b (((← get).behaviorSignature b).set type.id)
      updateSystemMemberships callbacks b) := by
    intro changes revision
    refine h.along_bind
      (h.along_onComponents (.grantAccess _ _ _ _)) fun _ => ?_
    exact within_ite (h.along_bind (h.along_setRevision _ _) fun _ => hshed slot) (hshed slot)
  dsimp only
  exact within_ite (h.along_bind (h.along_drawRevision b) fun revision => hgranted _ revision)
    (hgranted _ 0)

theorem Respected.along_revokeAccess (h : Respected R) (callbacks : Callbacks C)
    (type : ComponentType) (b : BehaviorId)
    (name : Bytes) : Within R (revokeAccess callbacks type b name) := by
  unfold revokeAccess
  refine within_get fun w => h.along_bind (h.along_lift _) fun _ => ?_
  refine h.along_bind (h.along_lift _) fun slot => ?_
  have hrevoked : ∀ (changes : Bool) revision, Within R (do
      destroyIntentsForOwnerTarget b type.id slot
      onComponents (ComponentRegistry.revokeAccess type b name)
      if changes then setRevision b revision
      resetSignature callbacks type b) := by
    intro changes revision
    refine h.along_bind (h.along_destroyIntentsForOwnerTarget b type.id slot) fun _ => ?_
    refine h.along_bind
      (h.along_onComponents (.revokeAccess _ _ _)) fun _ => ?_
    exact within_ite (h.along_bind (h.along_setRevision _ _) fun _ =>
      h.along_resetSignature callbacks type b) (h.along_resetSignature callbacks type b)
  dsimp only
  exact within_ite (h.along_bind (h.along_drawRevision b) fun revision => hrevoked _ revision)
    (hrevoked _ 0)

end World

end LiquidLayer
