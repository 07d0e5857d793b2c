/-
  The authority of live intents over whole runs, and the evidence of calls that throw.

  `live_intents_authorized`: as long as the lifecycle buffer has room for the intents that an
  operation takes away, and the 32 bits of `nextSlot` have not wrapped, every live intent is
  owned by a live behavior that can write the current, occupied slot it targets, also after
  operations that threw.

  `thrown_evidence_iff`: a call that throws without loss of evidence leaves topology evidence
  that tells what it did, unless it is torn (`Op.Tears`) with a change that changes something.
-/
import LiquidLayer.World.Disposed

namespace LiquidLayer

open Prog

namespace World

variable {C : Type}

/-! ## Authority -/

/-- Values of components do not matter. -/
theorem Authorized.revalued {w : World C} {r : ComponentRegistry C}
    (hr : w.components.Revalued r) {mutations : List ComponentMutation} {lost : Nat}
    {i : Intent} (h : Authorized w i) : Authorized { w with
      components := r
      componentMutations := mutations
      evidenceLost := lost } i := by
  obtain ⟨hlive, t, ht, hcur, hhas, hwrites⟩ := h
  obtain ⟨t', ht', hrev⟩ := hr.types _ t ht
  refine ⟨hlive, t', ht', ?_, (hrev.has _).trans hhas, ?_⟩
  · rw [hr.worldId, hrev.rest]
    exact hcur
  · rw [hrev.rest]
    exact hwrites

theorem authority_replaceComponentValue (target : ComponentTarget) (name : Bytes)
    (replacement : Value) {w : World C} (ha : w.intents.slotWraps = 0 → Authority w) :
    wp (replaceComponentValue target name replacement)
      (fun _ w' => w'.intents.slotWraps = 0 → Authority w')
      (fun _ w' => w'.intents.slotWraps = 0 → Authority w') w := by
  unfold replaceComponentValue
  rw [wp_bind, wp_get, wp_bind, wp_lift]
  refine ⟨fun before _ => ?_, fun _ _ => ha⟩
  by_cases hsame : before = replacement
  · rw [if_pos hsame, wp_pure]
    exact ha
  rw [if_neg hsame, wp_bind, wp_lift]
  refine ⟨fun p hp => ?_, fun _ _ => ha⟩
  obtain ⟨afterwards, r⟩ := p
  have hrev := ComponentRegistry.replaceTarget_revalued hp
  dsimp only
  rw [wp_bind, wp_set, wp_bind]
  refine wp_recordComponentMutation (fun _ => ?_) (fun _ => ?_)
  · rw [wp_pure]
    exact fun h0 id i hi => (ha h0 id i hi).revalued hrev
  · exact fun h0 id i hi => (ha h0 id i hi).revalued hrev

theorem authority_clearIntentLifecycleRecords {w : World C}
    (ha : w.intents.slotWraps = 0 → Authority w) :
    wp (onIntents IntentRegistry.clearLifecycleRecords)
      (fun _ w' => w'.intents.slotWraps = 0 → Authority w')
      (fun _ w' => w'.intents.slotWraps = 0 → Authority w') w := by
  rw [wp_onIntents]
  unfold IntentRegistry.clearLifecycleRecords IntentRegistry.ensureNoActiveTransaction
  rw [wp_bind, wp_bind, wp_get, wp_ite]
  refine ⟨fun _ => ?_, fun _ => ?_⟩
  · rw [wp_throw]
    exact ha
  · rw [wp_pure, wp_modify]
    exact ha

/-- One operation keeps the authority of intents, if there is room for those that lose it. -/
theorem Op.authority (op : Op C) {w : World C} (h : Ok w) (hroom : op.Roomy w)
    (hw : w.intents.slotWraps = 0 → Authority w) :
    (op.step w).intents.slotWraps = 0 → Authority (op.step w) := by
  have hlawful : ∀ {w' : World C} {content : Content} {entries : List TopologyMutation},
      Lawful w w' content entries → w'.intents.slotWraps = 0 → Authority w' :=
    fun lawful h0 => lawful.authority h0 (hw (lawful.outcome.unwrapped h0))
  refine (wp_after (P := fun w' : World C => w'.intents.slotWraps = 0 → Authority w')
    (m := op.program)).mp ?_
  by_cases hnamed : op.Named w
  swap
  · cases op with
    | replaceComponentValue target name replacement =>
        unfold Op.program
        rw [wp_bind]
        refine wp_mono (authority_replaceComponentValue target name replacement hw)
          (fun _ w' h' => ?_) fun _ _ h' => h'
        rw [wp_pure]
        exact h'
    | _ => exact absurd trivial hnamed
  cases hclears : op.clears with
  | true =>
      cases op with
      | clearComponentMutations => exact (wp_modify _).mpr hw
      | clearTopologyMutations => exact (wp_modify _).mpr hw
      | clearIntentLifecycleRecords => exact authority_clearIntentLifecycleRecords hw
      | _ => cases hclears
  | false =>
      refine wp_mono (op.ends h hclears hnamed) (fun _ w' h' => ?_) fun _ w' h' => ?_
      · cases h' with
        | kept lawful => exact hlawful lawful
        | told change lawful => exact hlawful lawful
      · cases h' with
        | kept lawful _ => exact hlawful lawful
        | told change lawful _ => exact hlawful lawful
        | torn change lawful _ => exact hlawful lawful
        | lost change lawful _ => exact hlawful lawful
        | halted _ _ _ full => exact absurd hroom full

/-- The runs in which the lifecycle buffer always has that room. -/
abbrev RoomyRun (instanceId : UInt64) (w : World C) : Prop :=
  Reaches Op.step (fun op w => op.Roomy w) (initial instanceId) w

theorem RoomyRun.run {instanceId : UInt64} {w : World C} (h : RoomyRun instanceId w) :
    Run instanceId w := h.mono fun _ _ _ => trivial

/-- In every run with room for the evidence that does not wrap `nextSlot`, every live intent has
    a live owner that can write its current and occupied target. -/
theorem live_intents_authorized {instanceId : UInt64} {w : World C}
    (h : RoomyRun instanceId w) (h0 : w.intents.slotWraps = 0) : Authority w := by
  have hboth : Ok w ∧ (w.intents.slotWraps = 0 → Authority w) := by
    have hstart : Authority (initial instanceId : World C) := fun id i hi => by cases hi
    exact h.induct (P := fun w => Ok w ∧ (w.intents.slotWraps = 0 → Authority w))
      ⟨initial_ok instanceId, fun _ => hstart⟩
      fun op w hw hroom => ⟨(op.advanced hw.1).ok, op.authority hw.1 hroom hw.2⟩
  exact hboth.2 h0

/-! ## Calls that throw -/

/-- The topology buffer tells what has become of the content: nothing, or one change. -/
def Evident (w w' : World C) : Prop :=
  (w'.content = w.content ∧ w'.topologyMutations = w.topologyMutations) ∨
    ∃ change : Change, w'.content = change.apply w.content ∧
      w'.topologyMutations = w.topologyMutations ++ [change.entry]

theorem Lawful.evident {w w' : World C} (h : Lawful w w' w.content [])
    (hlost : w'.evidenceLost = w.evidenceLost) : Evident w w' := by
  refine Or.inl ⟨h.outcome.content, ?_⟩
  rw [(h.outcome.evidence hlost).1, List.append_nil]

/-- A component that can be added is not there yet. -/
theorem AddAdmitted.slots {w : World C} {type : ComponentType} {name : Bytes} {component : C}
    (h : AddAdmitted w type name component) : w.content.slots type.id name = none := by
  obtain ⟨_, t, ht, _, hnew, _⟩ := h
  have hfind := ComponentRegistry.typeRecord_eq_ok ht
  show w.components.slots type.id name = none
  unfold ComponentRegistry.slots
  rw [hfind, Option.bind_some, hnew]

/-- An addition changes the content, whatever the slot. -/
theorem addComponent_apply_ne {content : Content} {type : ComponentTypeId} {name : Bytes}
    (h : content.slots type name = none) (slot : ComponentSlotId) :
    (Change.addComponent type name slot).apply content ≠ content := by
  intro heq
  have hset : ((Change.addComponent type name slot).apply content).slots type name = some slot :=
    if_pos ⟨rfl, rfl⟩
  rw [heq, h] at hset
  cases hset

/-- Torn operations make one change, up to the slot of an addition. -/
theorem Op.Tears.apply_ne {op : Op C} {w : World C} {change change' : Change}
    (h : op.Tears w change) (h' : op.Tears w change')
    (hne : change.apply w.content ≠ w.content) : change'.apply w.content ≠ w.content := by
  cases h with
  | registerSystem =>
      cases h'
      exact hne
  | setSystemSignature =>
      cases h'
      exact hne
  | registerComponent admitted _ =>
      cases h' with
      | registerComponent admitted' _ =>
          rw [admitted] at admitted'
          cases admitted'
          exact hne
  | addComponent admitted _ =>
      cases h'
      exact addComponent_apply_ne admitted.slots _
  | grant =>
      cases h'
      exact hne
  | revoke =>
      cases h'
      exact hne

theorem replaceComponentValue_thrown {target : ComponentTarget} {name : Bytes}
    {replacement : Value} {w w' : World C} {e : Failure}
    (h : (Op.replaceComponentValue target name replacement).program w = .error e w')
    (hlost : w'.evidenceLost = w.evidenceLost) : w' = w := by
  have hwp : wp (Op.replaceComponentValue target name replacement).program
      (fun _ _ => True) (fun _ v => v.evidenceLost = w.evidenceLost → v = w) w := by
    unfold Op.program replaceComponentValue
    rw [wp_bind, wp_bind, wp_get, wp_bind, wp_lift]
    refine ⟨fun before _ => ?_, fun _ _ _ => rfl⟩
    by_cases hsame : before = replacement
    · rw [if_pos hsame, wp_pure, wp_pure]
      trivial
    rw [if_neg hsame, wp_bind, wp_lift]
    refine ⟨fun p _ => ?_, fun _ _ _ => rfl⟩
    dsimp only
    rw [wp_bind, wp_set, wp_bind]
    refine wp_recordComponentMutation (fun _ => ?_) fun _ hlost => ?_
    · rw [wp_pure, wp_pure]
      trivial
    · exact absurd hlost (Nat.succ_ne_self _)
  exact wp_error hwp h hlost

theorem clearIntentLifecycleRecords_thrown {w w' : World C} {e : Failure}
    (h : (Op.clearIntentLifecycleRecords).program w = .error e w') : w' = w := by
  have hwp : wp (Op.clearIntentLifecycleRecords : Op C).program (fun _ _ => True)
      (fun _ v => v = w) w := by
    unfold Op.program
    rw [wp_onIntents]
    unfold IntentRegistry.clearLifecycleRecords IntentRegistry.ensureNoActiveTransaction
    rw [wp_bind, wp_bind, wp_get, wp_ite]
    refine ⟨fun _ => ?_, fun _ => ?_⟩
    · rw [wp_throw]
    · rw [wp_pure, wp_modify]
      trivial
  have hsame := wp_error hwp h
  exact hsame

/-- The operations that `Op.ends` leaves out do nothing when they throw, or lose evidence. -/
theorem Op.ends_thrown (op : Op C) {w w' : World C} (h : Ok w) {e : Failure}
    (hthrown : op.program w = .error e w') (hlost : w'.evidenceLost = w.evidenceLost) :
    Thrown op w w' := by
  by_cases hnamed : op.Named w
  swap
  · cases op with
    | replaceComponentValue target name replacement =>
        obtain rfl := replaceComponentValue_thrown hthrown hlost
        exact .kept (.refl h) fun _ _ ht => nomatch ht
    | _ => exact absurd trivial hnamed
  cases hclears : op.clears with
  | false =>
      have hends := wp_error (op.ends h hclears hnamed) hthrown
      exact hends
  | true =>
      cases op with
      | clearComponentMutations => cases hthrown
      | clearTopologyMutations => cases hthrown
      | clearIntentLifecycleRecords =>
          obtain rfl := clearIntentLifecycleRecords_thrown hthrown
          exact .kept (.refl h) fun _ _ ht => nomatch ht
      | _ => cases hclears

/-- What a call that throws has done is in the component buffer, and it is in the topology
    buffer unless a change was made whose entry is missing. -/
theorem thrown_evidence_iff {instanceId : UInt64} {w w' : World C} (h : Run instanceId w)
    (op : Op C) {e : Failure} (hthrown : op.program w = .error e w')
    (hlost : w'.evidenceLost = w.evidenceLost)
    (hintents : w'.intents.capacityErrors = w.intents.capacityErrors) :
    (∃ entries, w'.componentMutations = w.componentMutations ++ entries ∧
      Describes entries w.components.encoded w'.components.encoded) ∧
      (Evident w w' ↔ ¬∃ change, op.Tears w change ∧ change.apply w.content ≠ w.content) := by
  cases op.ends_thrown h.ok hthrown hlost with
  | kept lawful whole =>
      refine ⟨(lawful.outcome.evidence hlost).2, ?_⟩
      have hwhole := whole hintents.symm
      exact iff_of_true (lawful.evident hlost) fun hex => by
        obtain ⟨change, htears, _⟩ := hex
        exact hwhole change htears
  | told change lawful whole =>
      obtain ⟨htopology, hcomponents⟩ := lawful.outcome.evidence hlost
      refine ⟨hcomponents, iff_of_true (Or.inr ⟨change, lawful.outcome.content, htopology⟩)
        fun hex => ?_⟩
      obtain ⟨change', htears, _⟩ := hex
      exact whole change' htears
  | torn change lawful tears =>
      obtain ⟨htopology, hcomponents⟩ := lawful.outcome.evidence hlost
      refine ⟨hcomponents, ?_⟩
      have hcontent := lawful.outcome.content
      rw [List.append_nil] at htopology
      constructor
      · rintro (⟨hsame, _⟩ | ⟨change', _, hentry⟩)
        · -- the change that was made changes nothing, so none of them does
          rintro ⟨change', htears, hne⟩
          exact htears.apply_ne tears hne (hcontent.symm.trans hsame)
        · rw [htopology] at hentry
          have hlength := congrArg List.length hentry
          simp at hlength
      · intro hnone
        refine Or.inl ⟨?_, htopology⟩
        by_contra hne
        rw [hcontent] at hne
        exact hnone ⟨change, tears, hne⟩
  | lost change lawful gone => omega
  | halted _ _ refused _ => omega

/-! ### A behavior that keeps its intent, and one that loses it -/

def writingOps : List (Op Unit) :=
  [.registerComponent 0 [67] 1 (some fun _ => .ok .null) (some fun _ => .ok ()),
    .addComponent unitType [108] (), .createBehavior silent, .createBehavior silent,
    .grantComponentAccess silent unitType firstBehavior [108] .readWrite,
    .grantComponentAccess silent unitType ⟨7, 1, 1⟩ [108] .readWrite,
    .call (.createIntent firstBehavior unitType ⟨7, 0, 1⟩ ⟨.persistent, 0⟩ () .high []),
    .call (.createIntent ⟨7, 1, 1⟩ unitType ⟨7, 0, 1⟩ ⟨.persistent, 0⟩ () .low []),
    .grantComponentAccess silent unitType firstBehavior [108] .read]

def written : World Unit := writingOps.foldl (fun w op => op.step w) (initial 7)

theorem roomy_grant {w : World Unit} {behavior : BehaviorId} {mode : ComponentAccessMode}
    (hslot : w.components.componentSlot unitType [108] = .ok ⟨7, 0, 1⟩)
    (hroom : RoomToShed w behavior unitType.id ⟨7, 0, 1⟩) :
    (Op.grantComponentAccess silent unitType behavior [108] mode).Roomy w := by
  intro slot h
  rw [hslot] at h
  cases h
  exact hroom

theorem written_run : RoomyRun 7 written := by
  refine Reaches.obeys .start ⟨trivial, trivial, trivial, trivial, ?_, ?_, trivial, trivial, ?_,
    trivial⟩
  · exact roomy_grant (by decide +kernel) (by unfold RoomToShed; decide +kernel)
  · exact roomy_grant (by decide +kernel) (by unfold RoomToShed; decide +kernel)
  · exact roomy_grant (by decide +kernel) (by unfold RoomToShed; decide +kernel)

theorem live_intents_authorized_written : Authority written ∧
    (written.intents.record? ⟨7, 2, 1⟩).isSome = true ∧
    written.intents.record? ⟨7, 1, 1⟩ = none :=
  ⟨live_intents_authorized written_run (by decide +kernel), by decide +kernel, by decide +kernel⟩

/-! ### The grant whose callback throws -/

/-- The world before the last operation of `joined`. -/
def joining : World Unit := (joiningOps.take 4).foldl (fun w op => op.step w) (initial 7)

def refusedGrant : Op Unit :=
  .grantComponentAccess refusing unitType firstBehavior [108] .readWrite

theorem joining_run : Run 7 joining := .along .start (joiningOps.take 4) fun _ _ _ => trivial

theorem joining_granted : GrantAdmitted joining unitType firstBehavior [108] .readWrite
    ⟨7, 0, 1⟩ where
  live := by decide +kernel
  found := by decide +kernel
  known := nofun
  drawable _ := ⟨by decide +kernel, by decide +kernel⟩

/-- The access is there, and the topology buffer does not tell. -/
theorem thrown_evidence_iff_joined : joined = refusedGrant.step joining ∧
    ¬Evident joining joined := by
  refine ⟨rfl, fun hevident => ?_⟩
  have hthrown : refusedGrant.program joining = .error (.runtimeError "not wanted") joined := rfl
  refine (thrown_evidence_iff joining_run refusedGrant hthrown (by decide +kernel)
    (by decide +kernel)).2.mp hevident ⟨_, .grant joining_granted (Or.inl ?_), ?_⟩
  · decide +kernel
  · intro heq
    have haccess := congrArg (fun c => Content.access c firstBehavior 0 [108]) heq
    exact absurd haccess (by decide +kernel)

end World

end LiquidLayer
