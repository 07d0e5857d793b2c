/-
  The ids that new handles carry.

  No operation of a world changes the world's own id or that of its component registry.
  `Situated w w'` says so of two states. It is respected (`respected_situated`), since no call of
  the component registry changes its world.
-/
import LiquidLayer.World.Respected

namespace LiquidLayer

open Prog

variable {C : Type}

/-! ## The programs of the component registry -/

namespace ComponentRegistry

def SameWorld (r r' : ComponentRegistry C) : Prop := r'.worldId = r.worldId

theorem SameWorld.refl (r : ComponentRegistry C) : SameWorld r r := rfl

theorem SameWorld.trans (r r' r'' : ComponentRegistry C) (h : SameWorld r r')
    (h' : SameWorld r' r'') : SameWorld r r'' := Eq.trans h' h

theorem sameWorld_lift {α : Type} (x : Except Failure α) :
    Within SameWorld (lift x : EStateM Failure (ComponentRegistry C) α) := by
  cases x with
  | ok a => exact within_pure SameWorld.refl a
  | error e => exact within_throw SameWorld.refl e

theorem sameWorld_setType (type : ComponentTypeId) (t : TypeRecord C) :
    Within SameWorld (setType type t) := within_modify fun _ => rfl

/-- Before anything is changed, a check that may throw. -/
theorem sameWorld_throwIf {α : Type} {c : Prop} [Decidable c] {e : Failure}
    {m : EStateM Failure (ComponentRegistry C) α} (hm : Within SameWorld m) :
    Within SameWorld (if c then do throw e; m else m) :=
  within_ite (within_bind SameWorld.trans (within_throw SameWorld.refl e) fun _ => hm) hm

theorem sameWorld_addComponent (type : ComponentType) (name : Bytes) (c : C) :
    Within SameWorld (addComponent type name c) := by
  unfold addComponent
  refine within_get fun r => sameWorld_throwIf ?_
  refine within_bind SameWorld.trans (sameWorld_lift _) fun t => sameWorld_throwIf ?_
  refine within_bind SameWorld.trans (sameWorld_lift _) fun p => ?_
  refine within_bind SameWorld.trans (sameWorld_setType _ _) fun _ => ?_
  split
  · exact within_throw SameWorld.refl _
  · refine sameWorld_throwIf (within_ite ?_ (sameWorld_setType _ _))
    refine within_bind SameWorld.trans (sameWorld_lift _) fun _ => ?_
    refine within_bind SameWorld.trans (sameWorld_setType _ _) fun _ => ?_
    exact within_bind SameWorld.trans (within_throw SameWorld.refl _) fun _ => sameWorld_setType _ _

theorem sameWorld_removeComponent (type : ComponentType) (name : Bytes) :
    Within SameWorld (removeComponent type name : EStateM Failure (ComponentRegistry C) Unit) := by
  unfold removeComponent
  refine within_get fun r => within_bind SameWorld.trans (sameWorld_lift _) fun t => ?_
  refine within_bind SameWorld.trans (sameWorld_lift _) fun slot => ?_
  refine within_bind SameWorld.trans (sameWorld_setType _ _) fun _ => ?_
  refine within_bind SameWorld.trans (sameWorld_lift _) fun rawSlot => ?_
  split
  · exact within_throw SameWorld.refl _
  · refine within_bind SameWorld.trans (sameWorld_setType _ _) fun _ => ?_
    exact within_bind SameWorld.trans (sameWorld_lift _) fun _ => sameWorld_setType _ _

theorem sameWorld_grantAccess (type : ComponentType) (b : BehaviorId) (name : Bytes)
    (mode : ComponentAccessMode) :
    Within SameWorld
      (grantAccess type b name mode : EStateM Failure (ComponentRegistry C) Unit) := by
  unfold grantAccess
  refine within_get fun r => within_bind SameWorld.trans (sameWorld_lift _) fun t => ?_
  refine within_bind SameWorld.trans (sameWorld_lift _) fun slot => sameWorld_throwIf ?_
  refine within_bind SameWorld.trans (sameWorld_setType _ _) fun _ => ?_
  exact within_bind SameWorld.trans (sameWorld_lift _) fun _ => sameWorld_setType _ _

theorem sameWorld_revokeAccess (type : ComponentType) (b : BehaviorId) (name : Bytes) :
    Within SameWorld
      (revokeAccess type b name : EStateM Failure (ComponentRegistry C) Unit) := by
  unfold revokeAccess
  refine within_get fun r => within_bind SameWorld.trans (sameWorld_lift _) fun t => ?_
  exact within_bind SameWorld.trans (sameWorld_lift _) fun slot => sameWorld_setType _ _

theorem sameWorld_replaceComponent (type : ComponentType) (name : Bytes) (c : C) :
    Within SameWorld (replaceComponent type name c) := by
  unfold replaceComponent
  refine within_get fun r => within_bind SameWorld.trans (sameWorld_lift _) fun t => ?_
  refine within_bind SameWorld.trans (sameWorld_lift _) fun slot => ?_
  refine within_bind SameWorld.trans (sameWorld_lift _) fun raw => ?_
  exact within_bind SameWorld.trans (sameWorld_lift _) fun t' => sameWorld_setType _ _

theorem Call.sameWorld (call : Call C) : Within SameWorld call.program := by
  cases call with
  | registerComponent component name version encode decode =>
      refine fun r => wp_after.mp ?_
      unfold Call.program
      rw [wp_bind, wp_get, wp_bind, wp_lift]
      refine ⟨fun p hp => ?_, fun _ _ => .refl r⟩
      obtain ⟨type, r'⟩ := p
      dsimp only
      rw [wp_set]
      unfold ComponentRegistry.registerComponent at hp
      split at hp
      · cases hp
      · split at hp
        · split at hp
          · cases hp
          · split at hp
            · cases hp
            · split at hp
              · cases hp
              · cases hp
                rfl
        · cases hp
  | addComponent type name component => exact sameWorld_addComponent type name component
  | removeComponent type name => exact sameWorld_removeComponent type name
  | removeBehavior behavior => exact within_modify fun _ => rfl
  | grantAccess type behavior name mode => exact sameWorld_grantAccess type behavior name mode
  | revokeAccess type behavior name => exact sameWorld_revokeAccess type behavior name
  | replaceComponent type name component => exact sameWorld_replaceComponent type name component
  | replaceTarget target value =>
      refine fun r => wp_after.mp ?_
      unfold Call.program
      rw [wp_bind, wp_get, wp_bind, wp_lift]
      refine ⟨fun p hp => ?_, fun _ _ => .refl r⟩
      obtain ⟨afterwards, r'⟩ := p
      dsimp only
      rw [wp_set]
      exact (replaceTarget_revalued hp).worldId

end ComponentRegistry

namespace World

/-! ## The programs of the world -/

/-- The ids new handles carry are the same. -/
def Situated (w w' : World C) : Prop :=
  w'.instanceId = w.instanceId ∧ w'.components.worldId = w.components.worldId

theorem Situated.trans (w v w' : World C) (h : Situated w v) (h' : Situated v w') :
    Situated w w' := ⟨h'.1.trans h.1, h'.2.trans h.2⟩

theorem respected_situated : Respected (Situated : World C → World C → Prop) where
  trans := Situated.trans
  aside _ _ hid hcomponents _ := ⟨hid, by rw [hcomponents]⟩
  components call w := ⟨rfl, call.sameWorld w.components⟩
  intents _ _ := ⟨rfl, rfl⟩

end World

end LiquidLayer
