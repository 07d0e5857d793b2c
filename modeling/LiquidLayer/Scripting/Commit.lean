/-
  Lua bundles are all or nothing.

  `LiveAs w w' owner pending i`: in `w'` the intent `i` is what `pending` proposed in `w`, and
  every index of the registry leads to it. `bundle_whole_or_nothing`: wherever the host's code
  may run (`Ready`, which every operation and every call of a callback leaves behind), and as
  long as the 32 bits of `nextSlot` have not wrapped, the commit phase of a run either has the
  whole bundle in the registry or leaves the registry as it was; only the counts that are not
  in the sources may be different.
-/
import LiquidLayer.World.Run

namespace LiquidLayer

open Prog

namespace World

variable {C : Type}

structure LiveAs (w w' : World C) (owner : BehaviorId) (pending : PendingIntent C) (i : Intent) :
    Prop where
  proposed : Proposed w owner pending i
  intent : w'.intents.intent i.id = .ok i
  live : w'.intents.exist i.id = true
  owned : i.id ∈ w'.intents.intentsOwnedBy owner
  targeted : i.id ∈ w'.intents.intentsFor i.target.type i.target.slot
  named : pending.intentName ≠ [] →
    w'.intents.intentNamed owner pending.intentName = some i.id

/-- `Success`: the cancelled intents are gone, the proposed ones are there, and all others are
    as they were. -/
structure Success (w : World C) (owner : BehaviorId) (cancellations : List IntentId)
    (pending : List (PendingIntent C)) (w' : World C) : Prop where
  ready : Ready w'
  rest : w' = { w with intents := w'.intents }
  cancelled : ∀ id ∈ cancellations, w'.intents.exist id = false
  created : ∃ created, List.Forall₂ (LiveAs w w' owner) pending created ∧
    (created.map Intent.id).Nodup ∧ (∀ i ∈ created, w.intents.exist i.id = false) ∧
    ∀ id, id ∉ cancellations → id ∉ created.map Intent.id →
      w'.intents.record? id = w.intents.record? id

/-- `CommitFailed`: nothing has happened. -/
structure CommitFailed (w w' : World C) : Prop where
  ready : Ready w'
  rest : w' = { w with intents := w'.intents }
  intents : Restored w.intents w'.intents

theorem Committed.success {w : World C} (hw : Ready w) {owner : BehaviorId}
    {cancellations : List IntentId} {pending : List (PendingIntent C)} {r : IntentRegistry}
    (h : Committed w owner cancellations pending r) (hr : Ready { w with intents := r })
    (h0 : r.slotWraps = 0) :
    Success w owner cancellations pending { w with intents := r } := by
  have hidx := hr.intents.indexed
  have hgone : ∀ {r' : IntentRegistry} {id : IntentId}, r'.Coherent → r'.record? id = none →
      r'.exist id = false := by
    intro r' id hcoherent hnone
    refine Bool.eq_false_iff.mpr fun hex => ?_
    obtain ⟨i, hi⟩ := (History.exist_iff hcoherent).mp hex
    rw [hnone] at hi
    cases hi
  obtain ⟨created, hproposed, hnodup, hlive, hothers⟩ := h.proposed
  refine ⟨hr, rfl, fun id hid => hgone hr.intents (h.cancelled id hid), created, ?_, hnodup,
    fun i hi => hgone hw.intents (hlive i hi).2, hothers⟩
  have hboth := (List.forall₂_and_left (p := fun i => r.record? i.id = some i) created pending).mpr
    ⟨fun i hi => (hlive i hi).1, hproposed.flip⟩
  refine hboth.flip.imp fun p i hi => ?_
  obtain ⟨hrec, hp⟩ := hi
  have howner := hp.owned
  exact
    { proposed := hp
      intent := IntentRegistry.intent_eq_ok.mpr hrec
      live := (History.exist_iff hr.intents).mpr ⟨i, hrec⟩
      owned := hidx.mem_intentsOwnedBy.mpr ⟨i, hrec, howner⟩
      targeted := (hr.intents.mem_intentsFor h0).mpr ⟨i, hrec, rfl⟩
      named := fun hname => (hidx.name owner p.intentName i.id).mpr
        ⟨hname, i, hrec, howner, hp.named⟩ }

/-- `Ready` holds between the operations of every run and after every call of host code, and
    from there a bundle is committed whole or not at all, if `nextSlot` has not wrapped in the
    run. A bundle that wraps it is taken back. -/
theorem bundle_whole_or_nothing :
    (∀ instanceId (w : World C), Run instanceId w → Ready w) ∧
      (∀ (call : Call C) (w : World C), Ready w → Ready (after call.program w)) ∧
      ∀ w : World C, Ready w → w.intents.slotWraps = 0 → ∀ owner cancellations pending,
        wp (commitBundle owner cancellations pending)
          (fun committed w' =>
            if committed then Success w owner cancellations pending w' else CommitFailed w w')
          (fun _ _ => False) w := by
  refine ⟨fun instanceId w h => h.ok.held.ready, fun call w h => (call.tended w h).ready,
    fun w hw h0 owner cancellations pending => ?_⟩
  refine wp_mono (wp_commitBundle hw owner cancellations pending) (fun committed w' h => ?_)
    (fun _ _ h => h)
  obtain ⟨r, entries, rfl, hm, _, hbundle⟩ := h
  have hr : Ready { w with intents := r } :=
    ⟨hw.components, hm.coherent, hm.transaction.trans hw.idle, hw.inactive⟩
  have hbundle := hbundle h0
  cases committed with
  | true =>
      rw [if_pos rfl] at hbundle ⊢
      exact hbundle.2.success hw hr hbundle.1
  | false =>
      rw [if_neg (by decide)] at hbundle ⊢
      exact ⟨hr, rfl, hbundle⟩

/-- A proposal for the component of `joined`. -/
def proposal (priority : IntentPriority) : PendingIntent Unit where
  type := unitType
  name := [108]
  lifetime := ⟨.persistent, 0⟩
  priority := priority
  intentName := []
  value := ()

/-- One bundle is committed; in the other the second proposal fails, and with it the first. -/
theorem bundle_whole_or_nothing_joined :
    (∀ pending : List (PendingIntent Unit), wp (commitBundle firstBehavior [] pending)
        (fun committed w' => if committed then
          Success joined firstBehavior [] pending w' else CommitFailed joined w')
        (fun _ _ => False) joined) ∧
      (after (commitBundle firstBehavior [] [proposal .high, proposal .low])
        joined).intents.liveIntentIds.length = 2 ∧
      (after (commitBundle firstBehavior [] [proposal .high, proposal .unknown])
        joined).intents.liveIntentIds.length = 0 :=
  ⟨fun pending => bundle_whole_or_nothing.2.2 joined
    (bundle_whole_or_nothing.1 7 joined joined_run) (by decide +kernel) firstBehavior [] pending,
    by decide +kernel, by decide +kernel⟩

end World

end LiquidLayer
