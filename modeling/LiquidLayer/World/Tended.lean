/-
  What calls of host code do to the intents.

  `Authorized w i`: the owner of the intent is a live behavior, its target is a current and
  occupied slot, and the owner can write it. `Tended w w'`: in between, the intents moved, and
  every intent created was authorized. `Calm.tended` gives it for everything a callback can do.
-/
import LiquidLayer.World.Quiet
import LiquidLayer.World.Bundle

namespace LiquidLayer

open Prog

namespace World

variable {C : Type}

/-- The intents moved, and what was created was authorized and has a valid value. -/
def Intended (w w' : World C) : Prop :=
  ∃ entries, IntentRegistry.Moved entries w.intents w'.intents ∧
    ∀ e ∈ entries, e.created = true → Authorized w e.intent ∧
      e.intent.encodedValue.validate = .ok ()

structure TendedTo (w w' : World C) : Prop where
  ready : Ready w'
  quiet : Quiet w w'
  intended : Intended w w'

def Tended (w w' : World C) : Prop := Ready w → TendedTo w w'

/-! ## Authority and the values of components -/

theorem Quiet.authorized {w w' : World C} (h : Quiet w w') {i : Intent} :
    Authorized w' i ↔ Authorized w i := by
  have hb : w'.behaviors = w.behaviors := by rw [h.rest]
  unfold Authorized
  rw [hb, h.components.worldId]
  refine and_congr_right fun _ => ⟨?_, ?_⟩
  · rintro ⟨t', ht', hcur, hhas, hwrites⟩
    obtain ⟨t, ht, hrev⟩ := h.components.types_back ht'
    refine ⟨t, ht, ?_, (hrev.has _).symm.trans hhas, ?_⟩
    · rw [hrev.rest] at hcur
      exact hcur
    · rw [hrev.rest] at hwrites
      exact hwrites
  · rintro ⟨t, ht, hcur, hhas, hwrites⟩
    obtain ⟨t', ht', hrev⟩ := h.components.types _ t ht
    refine ⟨t', ht', ?_, (hrev.has _).trans hhas, ?_⟩
    · rw [hrev.rest]
      exact hcur
    · rw [hrev.rest]
      exact hwrites

theorem Tended.refl (w : World C) : Tended w w := fun h =>
  ⟨h, .refl w, [], .refl h.intents, fun _ he => absurd he List.not_mem_nil⟩

theorem TendedTo.trans {w w' w'' : World C} (h : TendedTo w w') (h' : TendedTo w' w'') :
    TendedTo w w'' := by
  obtain ⟨_, hquiet, entries, hmoved, hauth⟩ := h
  obtain ⟨hready', hquiet', entries', hmoved', hauth'⟩ := h'
  refine ⟨hready', hquiet.trans hquiet', entries ++ entries', hmoved.trans hmoved',
    fun e he hc => ?_⟩
  rcases List.mem_append.mp he with he | he
  · exact hauth e he hc
  · obtain ⟨ha, hv⟩ := hauth' e he hc
    exact ⟨hquiet.authorized.mp ha, hv⟩

theorem Tended.trans (w w' w'' : World C) (h : Tended w w') (h' : Tended w' w'') :
    Tended w w'' := fun hr => (h hr).trans (h' (h hr).ready)

/-- Evidence of the world is lost, and nothing else happens. -/
theorem TendedTo.of_lost {w w' : World C} (h : Ready w) (hrest : w' = { w with
      componentMutations := w'.componentMutations
      topologyMutations := w'.topologyMutations
      evidenceLost := w'.evidenceLost })
    (hlost : w.evidenceLost < w'.evidenceLost) : TendedTo w w' := by
  have hintents : w'.intents = w.intents := by rw [hrest]
  refine ⟨?_, .of_lost hrest hlost, [], ?_, fun _ he => absurd he List.not_mem_nil⟩
  · rw [hrest]
    exact ⟨h.components, h.intents, h.idle, h.inactive⟩
  · rw [hintents]
    exact .refl h.intents

/-! ## The calls -/

/-- A change of the intents alone that is a move. -/
theorem TendedTo.of_moved {w : World C} (h : Ready w) {r : IntentRegistry}
    {entries : List IntentLifecycleRecord} (hm : IntentRegistry.Moved entries w.intents r)
    (hauth : ∀ e ∈ entries, e.created = true → Authorized w e.intent ∧
      e.intent.encodedValue.validate = .ok ()) : TendedTo w { w with intents := r } :=
  ⟨⟨h.components, hm.coherent, hm.transaction.trans h.idle, h.inactive⟩,
    .of_intents w r w.intentTransactionActive, entries, hm, hauth⟩

theorem tended_createIntent (owner : BehaviorId) (type : ComponentType) (slot : ComponentSlotId)
    (lifetime : IntentLifetime) (value : C) (priority : IntentPriority) (name : Bytes) :
    Within Tended (createIntent owner type slot lifetime value priority name) := by
  intro w
  rw [← wp_after (P := Tended w)]
  unfold createIntent
  rw [wp_bind, wp_get, wp_bind, wp_lift]
  refine ⟨fun encoded hadmit => ?_, fun e _ => .refl w⟩
  obtain ⟨hvalid, hauth⟩ := admitIntent_eq_ok hadmit
  by_cases hr : Ready w
  swap
  · exact wp_of_forall (fun _ _ h => absurd h hr) (fun _ _ h => absurd h hr)
  unfold onIntents IntentRegistry.create IntentRegistry.ensureNoActiveTransaction
  rw [wp_zoom, wp_bind, wp_bind, wp_get, if_neg (by simp [hr.idle]), wp_pure]
  refine IntentRegistry.wp_createImpl hr.intents (fun id sequence r' _ hm _ _ => ?_)
    (fun e r' hm _ _ => ?_)
  · refine .of_moved hr hm fun e he _ => ?_
    rw [List.mem_singleton.mp he]
    exact ⟨hauth _ rfl rfl, hvalid⟩
  · exact .of_moved hr hm fun e he _ => absurd he List.not_mem_nil

theorem tended_destroyIntent (id : IntentId) :
    Within Tended (destroyIntent id : WorldM C Unit) := by
  intro w
  rw [← wp_after (P := Tended w)]
  unfold destroyIntent onIntents
  rw [wp_zoom]
  by_cases hr : Ready w
  swap
  · exact wp_of_forall (fun _ _ h => absurd h hr) (fun _ _ h => absurd h hr)
  refine IntentRegistry.wp_destroy hr.intents (fun i r' _ _ hm _ _ => ?_) (fun e _ _ => ?_)
    (fun e _ => Tended.refl w)
  · refine .of_moved hr hm fun e he hc => ?_
    rw [List.mem_singleton.mp he] at hc
    cases hc
  · exact .of_moved hr (.refused hr.intents) fun e he _ => absurd he List.not_mem_nil

theorem replaceComponent_intents (type : ComponentType) (b : BehaviorId) (name : Bytes) (c : C) :
    Within (fun w w' : World C => w'.intents = w.intents ∧
      w'.intentTransactionActive = w.intentTransactionActive)
      (replaceComponent type b name c) := by
  intro w
  rw [← wp_after (P := fun w' : World C => w'.intents = w.intents ∧
    w'.intentTransactionActive = w.intentTransactionActive)]
  unfold replaceComponent
  rw [wp_bind, wp_get, wp_bind, wp_lift]
  refine ⟨fun p _ => ?_, fun e _ => ⟨rfl, rfl⟩⟩
  obtain ⟨slot, before, after, validated⟩ := p
  dsimp only
  rw [wp_bind]
  unfold onComponents
  rw [wp_zoom]
  refine wp_of_forall (fun _ r => ?_) (fun _ r => ⟨rfl, rfl⟩)
  exact wp_recordComponentMutation (fun _ => ⟨rfl, rfl⟩) (fun _ => ⟨rfl, rfl⟩)

theorem tended_replaceComponent (type : ComponentType) (b : BehaviorId) (name : Bytes) (c : C) :
    Within Tended (replaceComponent type b name c) := by
  intro w hr
  have hquiet := quiet_replaceComponent hr.components type b name c
  obtain ⟨hintents, hactive⟩ := replaceComponent_intents type b name c w
  refine ⟨⟨hquiet.components.ok hr.components, ?_, ?_, hactive.trans hr.inactive⟩, hquiet, [], ?_,
    fun e he => absurd he List.not_mem_nil⟩
  · rw [hintents]
    exact hr.intents
  · rw [hintents]
    exact hr.idle
  · rw [hintents]
    exact .refl hr.intents

theorem Call.tended (call : Call C) : Within Tended call.program := by
  cases call with
  | createIntent owner type slot lifetime value priority name =>
      exact within_bind Tended.trans
        (tended_createIntent owner type slot lifetime value priority name) fun _ =>
        within_pure Tended.refl ()
  | destroyIntent id => exact tended_destroyIntent id
  | replaceComponent type b name value => exact tended_replaceComponent type b name value
  | commitBundle owner cancellations pending =>
      refine within_bind Tended.trans (fun w => ?_) fun _ => within_pure Tended.refl ()
      rw [← wp_after (P := Tended w)]
      by_cases hr : Ready w
      swap
      · exact wp_of_forall (fun _ _ h => absurd h hr) (fun _ _ h => absurd h hr)
      refine wp_mono (wp_commitBundle hr owner cancellations pending) (fun _ w' h _ => ?_)
        (fun _ _ h => h.elim)
      obtain ⟨r, entries, rfl, hm, hauth, _⟩ := h
      exact .of_moved hr hm hauth
  | clearComponentMutations =>
      exact within_modify fun w hr => .of_lost hr rfl (Nat.lt_succ_self w.evidenceLost)
  | clearTopologyMutations =>
      exact within_modify fun w hr => .of_lost hr rfl (Nat.lt_succ_self w.evidenceLost)

theorem Hosted.tended {w w' : World C} (h : Hosted w w') : Tended w w' := by
  induction h with
  | refl => exact .refl w
  | tail _ hstep ih =>
      obtain ⟨call, rfl⟩ := hstep
      exact ih.trans _ _ _ (call.tended _)

/-- Calls move the intents, whatever becomes of the systems. -/
theorem Calm.tended {s : SystemRegistry} {w w' : World C} (h : Calm s w w') (hr : Ready w) :
    TendedTo (World.setSystems s w) w' := by
  obtain ⟨v, hv, rfl⟩ := h
  exact (Hosted.setSystems hv s).tended ⟨hr.components, hr.intents, hr.idle, hr.inactive⟩

end World

end LiquidLayer
