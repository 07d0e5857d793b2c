/-
  A Lua bundle after `nextSlot` has wrapped.

  `collided` is a world that has come so far: the registry is full, and the next slot is the one
  of an intent of the last generation. `bundle_collides`: a bundle that cancels this intent is
  given its id again, and when the bundle then fails, the cancelled record cannot be put back.
-/
import LiquidLayer.Scripting.Commit
import LiquidLayer.World.SlotWrap

namespace LiquidLayer

open Prog IntentRegistry

namespace World

/-! ## The run of the world -/

/-- `joined` with other intents. -/
def bearing (r : IntentRegistry) : World Unit := { joined with intents := r }

/-- A stroke as operations of the world. -/
def strokeOps : Stroke → List (Op Unit)
  | .make => [.call (.createIntent firstBehavior unitType wornSlot ⟨.persistent, 0⟩ () .low []),
      .clearIntentLifecycleRecords]
  | .destroy id => [.call (.destroyIntent id), .clearIntentLifecycleRecords]

theorem eq_ok_of_toOption {ε α : Type} {x : Except ε α} {a : α} (h : x.toOption = some a) :
    x = .ok a := by
  cases x with
  | error e => cases h
  | ok b => exact congrArg Except.ok (Option.some.inj h)

theorem admit_bearing (r : IntentRegistry) :
    (bearing r).admitIntent firstBehavior unitType wornSlot () = .ok .null := by
  have hjoined : (joined.admitIntent firstBehavior unitType wornSlot ()).toOption =
      some .null := by decide +kernel
  exact eq_ok_of_toOption hjoined

theorem after_onIntents {α : Type} (m : EStateM Failure IntentRegistry α) (r : IntentRegistry) :
    after (onIntents m) (bearing r) = bearing (after m r) := after_zoom _ _ m (bearing r)

theorem step_clear (r : IntentRegistry) : Op.clearIntentLifecycleRecords.step (bearing r) =
    bearing (IntentRegistry.Call.clearLifecycleRecords.step r) := by
  unfold Op.step Op.program IntentRegistry.Call.step IntentRegistry.Call.program
  rw [after_onIntents, after_map]

theorem step_stroke (stroke : Stroke) (r : IntentRegistry) :
    (strokeOps stroke).foldl (fun w op => op.step w) (bearing r) = bearing (stroke.step r) := by
  cases stroke with
  | make =>
      have hcall : (Op.call (.createIntent firstBehavior unitType wornSlot ⟨.persistent, 0⟩ ()
          .low [])).step (bearing r) = bearing (Stroke.make.call.step r) := by
        unfold Op.step Op.program Call.program Stroke.call IntentRegistry.Call.step
          IntentRegistry.Call.program
        rw [after_discard, after_map, ← after_onIntents]
        refine (wp_after (P := fun w => w = _)).mp ?_
        unfold createIntent
        rw [wp_bind, wp_get, wp_bind, admit_bearing, wp_lift]
        refine ⟨fun value hvalue => ?_, fun e he => by cases he⟩
        cases hvalue
        exact wp_after.mpr rfl
      unfold strokeOps
      rw [List.foldl_cons, List.foldl_cons, List.foldl_nil, hcall, step_clear]
      rfl
  | destroy id =>
      have hcall : (Op.call (.destroyIntent id)).step (bearing r) =
          bearing ((Stroke.destroy id).call.step r) := by
        unfold Op.step Op.program Call.program Stroke.call IntentRegistry.Call.step
          IntentRegistry.Call.program
        rw [after_map, ← after_onIntents]
        rfl
      unfold strokeOps
      rw [List.foldl_cons, List.foldl_cons, List.foldl_nil, hcall, step_clear]
      rfl

theorem foldl_strokeOps (strokes : List Stroke) (r : IntentRegistry) :
    (strokes.flatMap strokeOps).foldl (fun w op => op.step w) (bearing r) =
      bearing (strike strokes r) := by
  induction strokes generalizing r with
  | nil => rfl
  | cons stroke strokes ih =>
      rw [List.flatMap_cons, List.foldl_append, step_stroke, ih]
      rfl

def collided : World Unit := (colliding.flatMap strokeOps).foldl (fun w op => op.step w) joined

theorem collided_run : Run 7 collided := .along joined_run _ fun _ _ _ => trivial

theorem collided_eq : collided = bearing (strike colliding pooled) := by
  have hjoined : joined = bearing pooled := rfl
  unfold collided
  rw [hjoined, foldl_strokeOps]

/-! ## The bundle -/

/-- The same world inside the transaction of a bundle. -/
def bundling (r : IntentRegistry) : World Unit :=
  { bearing r with intentTransactionActive := true }

theorem validate_joined : (proposal .low).validate joined firstBehavior = .ok wornSlot :=
  eq_ok_of_toOption (by decide +kernel)

/-- A proposal comes to `create_impl`. -/
theorem wp_proposal {r : IntentRegistry} {t : IntentTransaction} (hopen : r.transaction = some t)
    {Q : IntentId → World Unit → Prop} {E : Failure → World Unit → Prop}
    (h : wp (createImpl wornOwner wornType wornSlot ⟨.persistent, 0⟩ .low .null [])
      (fun id r' => Q id (bundling r')) (fun e r' => E e (bundling r')) r) :
    wp ((proposal .low).commit firstBehavior) Q E (bundling r) := by
  have hvalid : (proposal .low).validate (bundling r) firstBehavior = .ok wornSlot :=
    validate_joined
  have hencoded : (bundling r).admitIntent firstBehavior (proposal .low).type wornSlot
      (proposal .low).value = .ok .null := admit_bearing r
  unfold PendingIntent.commit
  rw [wp_bind, wp_get, wp_bind, hvalid, wp_lift]
  refine ⟨fun slot hslot => ?_, fun e he => by cases he⟩
  cases hslot
  unfold createIntentTransaction
  rw [wp_bind, wp_get, wp_bind, hencoded, wp_lift]
  refine ⟨fun value hvalue => ?_, fun e he => by cases he⟩
  cases hvalue
  refine (wp_zoom _ _ _).mpr ?_
  exact wp_ensureActive (fun _ hnone => by cases hopen.symm.trans hnone) fun _ _ => h

/-- The second proposal finds the registry full, and the rollback the place of the cancelled
    intent taken. -/
theorem commitBundle_terminates {r : IntentRegistry} {n : Nat} (h : Resting crowded n r)
    (hn : n + 1 < 2 ^ 64) :
    wp (commitBundle firstBehavior [lastOfFirst] [proposal .low, proposal .low])
      (fun committed w' => committed = false ∧ w'.intents.terminated = true)
      (fun _ _ => False) (bearing r) := by
  have hlive : crowded.live lastOfFirst := Or.inr (Or.inl rfl)
  obtain ⟨i₀, hi₀, _, hintent, _⟩ := h.found hlive
  have htypes : r.intentTypes.contains lastOfFirst = true := by
    rw [OrdMap.contains, h.coherent.indexed.type_eq hi₀]
    rfl
  have hvalid : (bearing r).validatePending firstBehavior [lastOfFirst]
      [proposal .low, proposal .low] [] = .ok () := by
    have hp : (proposal .low).validate (bearing r) firstBehavior = .ok wornSlot := validate_joined
    unfold validatePending validatePending validatePending
    rw [hp]
    rfl
  have howned : ([lastOfFirst].all fun id => (bearing r).ownedStill firstBehavior id) = true := by
    have hown : (bearing r).ownedStill firstBehavior lastOfFirst = true := by
      unfold ownedStill
      rw [show (bearing r).intents.intent lastOfFirst = _ from hintent]
      show (r.exist lastOfFirst && i₀.owner == firstBehavior) = true
      rw [(h.uniform _ _ hi₀).1, show r.exist lastOfFirst = true from htypes]
      decide
    rw [List.all_cons, hown]
    rfl
  unfold commitBundle
  rw [wp_bind, wp_get, hvalid]
  dsimp only
  rw [howned, if_neg (by decide), wp_bind, wp_tryCatch, wp_bind]
  unfold onIntents
  rw [wp_zoom]
  unfold beginTransaction
  have hclosed : ¬(bearing r).intents.transaction.isSome = true := by
    show ¬r.transaction.isSome = true
    rw [h.closed]
    decide
  rw [wp_bind, wp_get, if_neg hclosed, wp_set, wp_bind, wp_modify, wp_pure, if_neg (by decide),
    wp_tryCatch, wp_bind, List.forM_cons, wp_bind, wp_zoom]
  refine wp_mono ((h.framed r.lifecycleRecords (some r.saved)).cancel rfl hlive
    (by rw [h.cleared]; decide)) (fun _ r₁ h₁ => ?_) fun _ _ h₁ => h₁.elim
  obtain ⟨h₁, hlen, i, hiid, htx₁, htype⟩ := h₁
  rw [List.forM_nil, wp_pure, wp_bind, List.forM_cons, wp_bind, wp_bind]
  refine wp_proposal htx₁ (wp_mono (h₁.createImpl draw_lastOfFirst hn
    (by rw [hlen, h.cleared]; decide)) (fun id r₂ h₂ => ?_) fun _ _ h₂ => h₂.elim)
  obtain ⟨-, h₂, htx₂⟩ := h₂
  rw [wp_pure, List.forM_cons, wp_bind, wp_bind]
  refine wp_proposal (htx₂.trans htx₁) (wp_mono (h₂.full rfl rfl) (fun _ _ h₃ => h₃.elim)
    fun e r₃ h₃ => ?_)
  rw [h₃, wp_bind, wp_modify, wp_pure]
  refine ⟨rfl, rollback_terminates (htx₂.trans htx₁) (Eq.refl r.intentTypes) rfl ?_ ?_⟩
  · rw [hiid]
    exact htypes
  · obtain ⟨j, hj⟩ := (h₂.live lastOfFirst).mpr (Or.inl rfl)
    have hstored := (h₂.coherent.indexed.live hj).2.1
    rw [(h₂.uniform _ _ hj).2] at hstored
    rw [htype, hiid]
    intro hnone
    cases hstored.symm.trans hnone

/-- What the bundle does is neither a success nor a failure of a commit. -/
theorem not_whole {r : IntentRegistry} {n : Nat} (h : Resting crowded n r) (hn : n + 1 < 2 ^ 64) :
    ¬wp (commitBundle firstBehavior [lastOfFirst] [proposal .low, proposal .low])
      (fun committed w' => if committed then
        Success (bearing r) firstBehavior [lastOfFirst] [proposal .low, proposal .low] w'
        else CommitFailed (bearing r) w')
      (fun _ _ => False) (bearing r) := by
  intro hwhole
  have hends := commitBundle_terminates h hn
  cases hrun : commitBundle firstBehavior [lastOfFirst] [proposal .low, proposal .low]
      (bearing r) with
  | error e w' => exact wp_error hends hrun
  | ok committed w' =>
      obtain ⟨hfailed, hterminated⟩ := wp_ok hends hrun
      have hsame := wp_ok hwhole hrun
      rw [hfailed, if_neg (by decide)] at hsame
      have hrestored : w'.intents = { r with
        capacityErrors := w'.intents.capacityErrors
        slotWraps := w'.intents.slotWraps } := hsame.intents
      rw [hrestored] at hterminated
      cases h.terminated.symm.trans hterminated

/-- **The bundle collides.** The world is reached, and its bundle is neither committed whole nor
    taken back. -/
theorem bundle_collides : Run 7 collided ∧
    ¬wp (commitBundle firstBehavior [lastOfFirst] [proposal .low, proposal .low])
      (fun committed w' => if committed then
        Success collided firstBehavior [lastOfFirst] [proposal .low, proposal .low] w'
        else CommitFailed collided w')
      (fun _ _ => False) collided := by
  refine ⟨collided_run, ?_⟩
  rw [collided_eq]
  exact not_whole crowded_resting (by decide)

end World

end LiquidLayer
