/-
  The commit phase of a Lua run.

  `Authorized w i`: the owner of the intent is a live behavior, its target is a current and
  occupied slot, and the owner can write it. `Committed w owner cancellations pending r`: in the
  intents `r` the cancelled intents of `w` are gone, the pending ones are live as they were
  proposed, and nothing else is different. `wp_commitBundle`: a bundle is committed so, or the
  intents are as they were.
-/
import LiquidLayer.World.World
import LiquidLayer.World.IntentRun
import LiquidLayer.World.Quiet

namespace LiquidLayer

open Prog

/-! ## Traces of a bundle -/

namespace IntentRegistry

theorem Traces.split {l l' : List IntentLifecycleRecord} {v v'' : IntentView}
    (h : Traces (l ++ l') v v'') : ∃ v', Traces l v v' ∧ Traces l' v' v'' := by
  induction l generalizing v with
  | nil => exact ⟨v, rfl, h⟩
  | cons e l ih =>
      obtain ⟨v', h₁, h₂⟩ := ih h.2
      exact ⟨v', ⟨h.1, h₁⟩, h₂⟩

theorem traces_destroyed {l : List Intent} {v v' : IntentView}
    (h : Traces (l.map fun i => ⟨false, i⟩) v v') (id : IntentId) :
    v' id = if id ∈ l.map Intent.id then none else v id := by
  induction l generalizing v with
  | nil =>
      cases h
      simp
  | cons i l ih =>
      rw [ih h.2]
      unfold IntentLifecycleRecord.apply
      simp only [List.map_cons, List.mem_cons, Bool.false_eq_true, if_false]
      by_cases hid : id = i.id <;> simp [hid]

/-- Intents created one after the other have different ids, and stay. -/
theorem traces_created {l : List Intent} {v v' : IntentView}
    (h : Traces (l.map fun i => ⟨true, i⟩) v v') :
    (∀ i ∈ l, v' i.id = some i ∧ v i.id = none) ∧
      ∀ id, id ∉ l.map Intent.id → v' id = v id := by
  induction l generalizing v with
  | nil =>
      cases h
      exact ⟨fun i hi => absurd hi List.not_mem_nil, fun _ _ => rfl⟩
  | cons i l ih =>
      obtain ⟨hlive, hrest⟩ := ih h.2
      have hfresh : v i.id = none := h.1
      have happly : ∀ id, (⟨true, i⟩ : IntentLifecycleRecord).apply v id =
          if id = i.id then some i else v id := fun _ => rfl
      refine ⟨fun j hj => ?_, fun id hid => ?_⟩
      · rcases List.mem_cons.mp hj with rfl | hj
        · -- no later one has the same id
          have hnot : j.id ∉ l.map Intent.id := by
            intro hm
            obtain ⟨k, hk, hkid⟩ := List.mem_map.mp hm
            have hnone := (hlive k hk).2
            rw [happly, hkid, if_pos rfl] at hnone
            cases hnone
          rw [hrest _ hnot, happly, if_pos rfl]
          exact ⟨rfl, hfresh⟩
        · obtain ⟨hj', hnone⟩ := hlive j hj
          rw [happly] at hnone
          refine ⟨hj', ?_⟩
          split at hnone
          · cases hnone
          · exact hnone
      · rw [List.map_cons, List.mem_cons, not_or] at hid
        rw [hrest id hid.2, happly, if_neg hid.1]

theorem nodup_created {l : List Intent} {v v' : IntentView}
    (h : Traces (l.map fun i => ⟨true, i⟩) v v') : (l.map Intent.id).Nodup := by
  induction l generalizing v with
  | nil => exact List.nodup_nil
  | cons i l ih =>
      rw [List.map_cons]
      refine List.nodup_cons.mpr ⟨fun hm => ?_, ih h.2⟩
      -- a later one with the same id would not be new
      obtain ⟨j, hj, hid⟩ := List.mem_map.mp hm
      have hnone := ((traces_created h.2).1 j hj).2
      unfold IntentLifecycleRecord.apply at hnone
      simp [hid] at hnone

end IntentRegistry

namespace World

variable {C : Type}

/-! ## What is checked -/

def Authorized (w : World C) (i : Intent) : Prop :=
  w.behaviors.exist i.owner = true ∧
    ∃ t, w.components.types.find? i.target.type = some t ∧
      ComponentRegistry.current w.components.worldId t i.target.slot = true ∧
      t.has i.target.slot.slot = true ∧ t.writes i.owner i.target.slot = true

/-- Between the operations of the world. -/
structure Ready (w : World C) : Prop where
  components : w.components.Ok
  intents : w.intents.Coherent
  idle : w.intents.transaction = none
  inactive : w.intentTransactionActive = false

theorem ensureBehavior_eq_ok {w : World C} {b : BehaviorId} {u : Unit}
    (h : w.ensureBehavior b = .ok u) : w.behaviors.exist b = true := by
  unfold ensureBehavior at h
  split at h
  · cases h
  · next hb => simpa using hb

/-- What `create_intent` has checked. -/
theorem admitIntent_eq_ok {w : World C} {owner : BehaviorId} {type : ComponentType}
    {slot : ComponentSlotId} {c : C} {value : Value}
    (h : w.admitIntent owner type slot c = .ok value) :
    value.validate = .ok () ∧ ∀ i : Intent, i.owner = owner → i.target = ⟨type.id, slot⟩ →
      Authorized w i := by
  unfold admitIntent at h
  obtain ⟨_, hb, h⟩ := bind_eq_ok h
  obtain ⟨found, hfound, h⟩ := bind_eq_ok h
  obtain ⟨t, ht, hcur, hget⟩ := ComponentRegistry.resolveComponent_eq_ok hfound
  cases found with
  | none => cases h
  | some c' =>
      dsimp only at h
      by_cases hw : (!w.components.canWrite type owner slot) = true
      · rw [if_pos hw] at h
        cases h
      rw [if_neg hw] at h
      obtain ⟨codec, hcodec, h⟩ := bind_eq_ok h
      by_cases hc : codec = true
      swap
      · rw [if_neg hc] at h
        cases h
      rw [if_pos hc] at h
      obtain ⟨_, _, _, _, _, hvalid⟩ := ComponentRegistry.encodeComponent_eq_ok h
      refine ⟨hvalid, ?_⟩
      intro i ho htarget
      have hwrite : t.writes owner slot = true := by
        have : w.components.canWrite type owner slot = true := by simpa using hw
        unfold ComponentRegistry.canWrite at this
        rw [ht] at this
        exact (Bool.and_eq_true _ _ |>.mp this).2
      have hfind := ComponentRegistry.typeRecord_eq_ok ht
      unfold ComponentRegistry.slotIsCurrent at hcur
      rw [hfind] at hcur
      rw [Authorized, ho, htarget]
      refine ⟨ensureBehavior_eq_ok hb, t, hfind, hcur, ?_, hwrite⟩
      unfold TypeRecord.has
      rw [← hget]
      rfl

/-! ## Bundles -/

/-- The intent is what the pending one proposes. -/
structure Proposed (w : World C) (owner : BehaviorId) (pending : PendingIntent C) (i : Intent) :
    Prop where
  owned : i.owner = owner
  aimed : ∃ slot, pending.validate w owner = .ok slot ∧ i.target = ⟨pending.type.id, slot⟩
  lasting : i.lifetime = pending.lifetime
  urgent : i.priority = pending.priority
  named : i.name = pending.intentName
  admitted : w.admitIntent owner pending.type i.target.slot pending.value = .ok i.encodedValue

theorem Proposed.authorized {w : World C} {owner : BehaviorId} {pending : PendingIntent C}
    {i : Intent} (h : Proposed w owner pending i) :
    Authorized w i ∧ i.encodedValue.validate = .ok () := by
  obtain ⟨hvalid, hauth⟩ := admitIntent_eq_ok h.admitted
  obtain ⟨slot, _, htarget⟩ := h.aimed
  exact ⟨hauth i h.owned (by rw [htarget]), hvalid⟩

theorem exists_of_forall₂ {α β : Type} {R : α → β → Prop} {l : List α} {l' : List β}
    (h : List.Forall₂ R l l') {b : β} (hb : b ∈ l') : ∃ a, R a b := by
  induction h with
  | nil => cases hb
  | cons hr _ ih =>
      rcases List.mem_cons.mp hb with rfl | hb
      · exact ⟨_, hr⟩
      · exact ih hb

/-- The bundle is in the intents, and they are otherwise as they were. -/
structure Committed (w : World C) (owner : BehaviorId) (cancellations : List IntentId)
    (pending : List (PendingIntent C)) (r : IntentRegistry) : Prop where
  cancelled : ∀ id ∈ cancellations, r.record? id = none
  proposed : ∃ created, List.Forall₂ (Proposed w owner) pending created ∧
    (created.map Intent.id).Nodup ∧
    (∀ i ∈ created, r.record? i.id = some i ∧ w.intents.record? i.id = none) ∧
    ∀ id, id ∉ cancellations → id ∉ created.map Intent.id → r.record? id = w.intents.record? id

/-- The world inside the bundle's transaction, once these intents are cancelled and these
    proposals made. -/
structure Bundling (w : World C) (owner : BehaviorId) (cancelled : List IntentId)
    (made : List (PendingIntent C)) (destroyed created : List Intent) (r : IntentRegistry) :
    Prop where
  during : IntentRegistry.During w.intents
    ((destroyed.map fun i => ⟨false, i⟩) ++ created.map fun i => ⟨true, i⟩) r
  ids : destroyed.map Intent.id = cancelled
  start : ∀ i ∈ destroyed, w.intents.record? i.id = some i
  proposed : List.Forall₂ (Proposed w owner) made created

/-- The same of a world. -/
def InBundle (w : World C) (owner : BehaviorId) (cancelled : List IntentId)
    (made : List (PendingIntent C)) (w' : World C) : Prop :=
  ∃ destroyed created r, Bundling w owner cancelled made destroyed created r ∧
    w' = { w with intents := r, intentTransactionActive := true }

section Bundling

variable {w w' : World C} {owner : BehaviorId} {cancelled : List IntentId}
  {made : List (PendingIntent C)} {destroyed created : List Intent} {r : IntentRegistry}

theorem Bundling.mem_destroyed {i : Intent}
    (h : (⟨false, i⟩ : IntentLifecycleRecord) ∈
      (destroyed.map fun i => ⟨false, i⟩) ++ created.map fun i => ⟨true, i⟩) : i ∈ destroyed := by
  simpa using h

/-- What the bundle has cancelled was there before. -/
theorem Bundling.strays (h : Bundling w owner cancelled made destroyed created r) :
    w.intents.strays ((destroyed.map fun i => ⟨false, i⟩) ++ created.map fun i => ⟨true, i⟩) =
      [] := by
  refine IntentRegistry.strays_eq_nil fun i hi => Or.inl ?_
  have hlive := h.start i (Bundling.mem_destroyed hi)
  rw [OrdMap.contains, h.during.start.indexed.type_eq hlive]
  rfl

/-- So a rollback gives the intents back. -/
theorem Bundling.rollback (h : Bundling w owner cancelled made destroyed created r)
    (hidle : w.intents.transaction = none) (h0 : r.slotWraps = 0) :
    r.rollback = { w.intents with capacityErrors := r.capacityErrors } := by
  rw [h.during.rollback hidle h0, h.strays]
  rfl

theorem Bundling.authorized (h : Bundling w owner cancelled made destroyed created r)
    (e : IntentLifecycleRecord)
    (he : e ∈ (destroyed.map fun i => ⟨false, i⟩) ++ created.map fun i => ⟨true, i⟩)
    (hc : e.created = true) :
    Authorized w e.intent ∧ e.intent.encodedValue.validate = .ok () := by
  rcases List.mem_append.mp he with he | he
  · obtain ⟨i, _, rfl⟩ := List.mem_map.mp he
    cases hc
  · obtain ⟨i, hi, rfl⟩ := List.mem_map.mp he
    obtain ⟨pending, hp⟩ := exists_of_forall₂ h.proposed hi
    exact hp.authorized

theorem Bundling.committed (h : Bundling w owner cancelled made destroyed created r)
    (h0 : r.slotWraps = 0) {r' : IntentRegistry} (hrec : r'.record? = r.record?) :
    Committed w owner cancelled made r' := by
  obtain ⟨v, hdestroyed, hcreated⟩ := h.during.moved.traces.split
  have hrec' : ∀ id, r'.record? id = r.record? id := congrFun hrec
  have hv := IntentRegistry.traces_destroyed hdestroyed
  obtain ⟨hlive, hrest⟩ := IntentRegistry.traces_created hcreated
  change ∀ i ∈ created, r.record? i.id = some i ∧ v i.id = none at hlive
  change ∀ id, id ∉ created.map Intent.id → r.record? id = v id at hrest
  have hgone : ∀ id ∈ cancelled, r.record? id = none := by
    intro id hid
    rw [← h.ids] at hid
    obtain ⟨i, hi, rfl⟩ := List.mem_map.mp hid
    exact ((h.during.tracked h0).gone i (List.mem_append_left _ (List.mem_map_of_mem hi))).1
  refine ⟨fun id hid => (hrec' id).trans (hgone id hid), created, h.proposed,
    IntentRegistry.nodup_created hcreated, fun i hi => ?_, fun id hid hnot => ?_⟩
  · obtain ⟨hi', hnone⟩ := hlive i hi
    refine ⟨(hrec' _).trans hi', ?_⟩
    rw [hv] at hnone
    split at hnone
    · next hm =>
        rw [h.ids] at hm
        rw [hgone _ hm] at hi'
        cases hi'
    · exact hnone
  · rw [hrec', hrest id hnot, hv, if_neg]
    rw [h.ids]
    exact hid

theorem wp_bundleCancel (h : InBundle w owner cancelled [] w') {id : IntentId} :
    wp (onIntents (IntentRegistry.cancel id)) (fun _ => InBundle w owner (cancelled ++ [id]) [])
      (fun _ => InBundle w owner cancelled []) w' := by
  obtain ⟨destroyed, created, r, hb, rfl⟩ := h
  cases hb.proposed
  unfold onIntents
  rw [wp_zoom]
  refine hb.during.wp_cancel (fun i r' hi _ hd => ?_)
    (fun e r' _ hd => ⟨destroyed, [], r', ⟨hd, hb.ids, hb.start, .nil⟩, rfl⟩)
  have hiid := hb.during.coherent.indexed.id_eq hi
  -- nothing is made yet, so what is live was there
  have hsame : w.intents.record? id = some i := by
    have htraces := hb.during.moved.traces
    rw [List.map_nil, List.append_nil] at htraces
    have hleft := (IntentRegistry.traces_destroyed htraces id).symm.trans hi
    split at hleft
    · cases hleft
    · exact hleft
  refine ⟨destroyed ++ [i], [], r', ⟨?_, ?_, fun j hj => ?_, .nil⟩, rfl⟩
  · simpa using hd
  · rw [List.map_append, hb.ids, List.map_singleton, hiid]
  · rcases List.mem_append.mp hj with hj | hj
    · exact hb.start j hj
    · rw [List.mem_singleton.mp hj, hiid]
      exact hsame

theorem wp_bundleCommit (h : InBundle w owner cancelled made w') (pending : PendingIntent C) :
    wp (pending.commit owner) (fun _ => InBundle w owner cancelled (made ++ [pending]))
      (fun _ => InBundle w owner cancelled made) w' := by
  obtain ⟨destroyed, created, r, hb, rfl⟩ := h
  have hsame : InBundle w owner cancelled made
      { w with intents := r, intentTransactionActive := true } := ⟨destroyed, created, r, hb, rfl⟩
  unfold PendingIntent.commit
  rw [wp_bind, wp_get, wp_bind, wp_lift]
  refine ⟨fun slot hslot => ?_, fun e _ => hsame⟩
  unfold createIntentTransaction
  rw [wp_bind, wp_get, wp_bind, wp_lift]
  refine ⟨fun encoded hadmit => ?_, fun e _ => hsame⟩
  unfold onIntents
  rw [wp_zoom]
  refine hb.during.wp_createIn (fun id sequence r' hd => ?_)
    (fun e r' hd => ⟨destroyed, created, r', ⟨hd, hb.ids, hb.start, hb.proposed⟩, rfl⟩)
  refine ⟨destroyed, created ++ [⟨id, owner, ⟨pending.type.id, slot⟩, pending.lifetime,
    pending.priority, sequence, encoded, pending.intentName⟩], r', ⟨?_, hb.ids, hb.start, ?_⟩, rfl⟩
  · rw [List.map_append, ← List.append_assoc]
    exact hd
  · exact List.rel_append hb.proposed
      (.cons ⟨rfl, ⟨slot, hslot, rfl⟩, rfl, rfl, rfl, hadmit⟩ .nil)

end Bundling

/-! ### The wrap of `nextSlot` in a bundle -/

/-- Nothing has happened but what is counted here. -/
def Restored (r₀ r : IntentRegistry) : Prop :=
  r = { r₀ with capacityErrors := r.capacityErrors, slotWraps := r.slotWraps }

/-- A rollback of the bundle gives the intents back, if `nextSlot` had not wrapped before it. -/
def Revocable (w w' : World C) : Prop :=
  w.intents.slotWraps = 0 → Restored w.intents w'.intents.rollback

/-- In the bundle, `nextSlot` has wrapped as often as before it. -/
structure Steady (w : World C) (owner : BehaviorId) (cancelled : List IntentId)
    (made : List (PendingIntent C)) (w' : World C) : Prop where
  inside : InBundle w owner cancelled made w'
  wraps : w'.intents.slotWraps = w.intents.slotWraps

theorem Steady.revocable {w w' : World C} {owner : BehaviorId} {cancelled : List IntentId}
    {made : List (PendingIntent C)} (h : Steady w owner cancelled made w')
    (hidle : w.intents.transaction = none) : Revocable w w' := by
  intro h0
  obtain ⟨⟨destroyed, created, r, hb, rfl⟩, hwraps⟩ := h
  have hr0 : r.slotWraps = 0 := hwraps.trans h0
  show Restored w.intents r.rollback
  rw [hb.rollback hidle hr0]
  rfl

theorem Steady.cancel {w w' : World C} {owner : BehaviorId} {cancelled : List IntentId}
    (h : Steady w owner cancelled [] w') (id : IntentId) :
    wp (onIntents (IntentRegistry.cancel id)) (fun _ => Steady w owner (cancelled ++ [id]) [])
      (fun _ => Steady w owner cancelled []) w' := by
  have hwraps : wp (onIntents (IntentRegistry.cancel id))
      (fun _ w'' => w''.intents.slotWraps = w.intents.slotWraps)
      (fun _ w'' => w''.intents.slotWraps = w.intents.slotWraps) w' := by
    unfold onIntents
    rw [wp_zoom]
    exact wp_mono ((IntentRegistry.sameWraps_cancel id).wp w'.intents)
      (fun _ _ hs => Eq.trans hs h.wraps) fun _ _ hs => Eq.trans hs h.wraps
  exact wp_mono (wp_and (wp_bundleCancel h.inside) hwraps) (fun _ _ h' => ⟨h'.1, h'.2⟩)
    fun _ _ h' => ⟨h'.1, h'.2⟩

/-- The create that wraps `nextSlot` is the last of its bundle, since it throws. -/
theorem Steady.commit {w w' : World C} {owner : BehaviorId} {cancelled : List IntentId}
    {made : List (PendingIntent C)} (h : Steady w owner cancelled made w')
    (hidle : w.intents.transaction = none) (pending : PendingIntent C) :
    wp (pending.commit owner) (fun _ => Steady w owner cancelled (made ++ [pending]))
      (fun _ w'' => InBundle w owner cancelled made w'' ∧ Revocable w w'') w' := by
  have hsame := h.revocable hidle
  have hwraps : wp (pending.commit owner)
      (fun _ w'' => w''.intents.slotWraps = w.intents.slotWraps) (fun _ => Revocable w) w' := by
    obtain ⟨⟨destroyed, created, r, hb, rfl⟩, hwraps⟩ := h
    unfold PendingIntent.commit
    rw [wp_bind, wp_get, wp_bind, wp_lift]
    refine ⟨fun slot _ => ?_, fun _ _ => hsame⟩
    unfold createIntentTransaction
    rw [wp_bind, wp_get, wp_bind, wp_lift]
    refine ⟨fun encoded _ => ?_, fun _ _ => hsame⟩
    unfold onIntents IntentRegistry.createIn
    rw [wp_zoom]
    refine IntentRegistry.wp_ensureActive (fun _ _ => hsame) fun _ _ => ?_
    refine wp_mono (IntentRegistry.overrun_createImpl hb.during.coherent)
      (fun _ r' hs => Eq.trans hs hwraps) fun _ r' ho h0 => ?_
    obtain ⟨r₁, available, next, wraps, hm, hs, rfl⟩ := ho
    have hr0 : r₁.slotWraps = 0 := Eq.trans hs (hwraps.trans h0)
    show Restored w.intents (r₁.reslotted available next wraps).rollback
    rw [(hb.during.still hm).rollback_reslotted hidle hr0, hb.strays]
    rfl
  exact wp_mono (wp_and (wp_bundleCommit h.inside pending) hwraps)
    (fun _ _ h' => ⟨h'.1, h'.2⟩) fun _ _ h' => h'

/-- A bundle is committed whole or not at all, if `nextSlot` has not wrapped before it. -/
theorem wp_commitBundle {w : World C} (hr : Ready w) (owner : BehaviorId)
    (cancellations : List IntentId) (pending : List (PendingIntent C)) :
    wp (commitBundle owner cancellations pending)
      (fun committed w' => ∃ r entries, w' = { w with intents := r } ∧
        IntentRegistry.Moved entries w.intents r ∧
        (∀ e ∈ entries, e.created = true → Authorized w e.intent ∧
          e.intent.encodedValue.validate = .ok ()) ∧
        (w.intents.slotWraps = 0 → if committed then
          r.slotWraps = 0 ∧ Committed w owner cancellations pending r else Restored w.intents r))
      (fun _ _ => False) w := by
  have hsame : ∃ r entries, w = { w with intents := r } ∧
      IntentRegistry.Moved entries w.intents r ∧
      (∀ e ∈ entries, e.created = true → Authorized w e.intent ∧
        e.intent.encodedValue.validate = .ok ()) ∧
      (w.intents.slotWraps = 0 → if false then
        r.slotWraps = 0 ∧ Committed w owner cancellations pending r else Restored w.intents r) :=
    ⟨w.intents, [], rfl, .refl hr.intents, fun e he => absurd he List.not_mem_nil, fun _ => rfl⟩
  unfold commitBundle
  rw [wp_bind, wp_get]
  cases w.validatePending owner cancellations pending [] with
  | error e =>
      rw [wp_pure]
      exact hsame
  | ok u =>
      dsimp only
      by_cases hall : (!cancellations.all fun id => w.ownedStill owner id) = true
      · rw [if_pos hall, wp_pure]
        exact hsame
      rw [if_neg hall, wp_bind, wp_tryCatch, wp_bind]
      unfold onIntents
      rw [wp_zoom]
      unfold IntentRegistry.beginTransaction
      rw [wp_bind, wp_get, if_neg (by simp [hr.idle]), wp_set, wp_bind, wp_modify, wp_pure]
      rw [if_neg (by decide), wp_tryCatch, wp_bind]
      have hbegin : Steady w owner [] [] { w with
          intents := { w.intents with transaction := some w.intents.saved }
          intentTransactionActive := true } :=
        ⟨⟨[], [], _, ⟨.begin hr.intents, rfl, fun i hi => absurd hi List.not_mem_nil, .nil⟩, rfl⟩,
          rfl⟩
      have hrollback : ∀ (w' : World C) cancelled made, InBundle w owner cancelled made w' →
          Revocable w w' →
          ∃ r entries, ({ w' with
            intents := w'.intents.rollback, intentTransactionActive := false } : World C) =
              { w with intents := r } ∧
            IntentRegistry.Moved entries w.intents r ∧
            (∀ e ∈ entries, e.created = true → Authorized w e.intent ∧
              e.intent.encodedValue.validate = .ok ()) ∧
            (w.intents.slotWraps = 0 → if false then
              r.slotWraps = 0 ∧ Committed w owner cancellations pending r
              else Restored w.intents r) := by
        rintro w' cancelled made ⟨destroyed, created, r, hb, rfl⟩ hback
        have hworld : ({ w with intents := r.rollback, intentTransactionActive := false } :
            World C) = { w with intents := r.rollback } := by
          rw [← hr.inactive]
        rcases hb.during.moved_rollback hr.idle hb.strays with hm | hm
        · exact ⟨_, _, hworld, hm, fun e he => absurd he List.not_mem_nil, hback⟩
        · exact ⟨_, _, hworld, hm, hb.authorized, hback⟩
      -- the cancellations, and then the proposals
      refine wp_mono (wp_forM (E := fun _ w' => ∃ cancelled, Steady w owner cancelled [] w')
        _ (fun l w' => ∃ cancelled, cancelled ++ l = cancellations ∧
          Steady w owner cancelled [] w') (fun id l w' hw' => ?_)
        cancellations _ ⟨[], rfl, hbegin⟩) (fun _ w₁ h₁ => ?_) (fun e w₁ h₁ => ?_)
      · obtain ⟨cancelled, hcancelled, hb⟩ := hw'
        refine wp_mono (hb.cancel id) (fun _ w'' h => ?_) (fun _ w'' h => ⟨_, h⟩)
        exact ⟨cancelled ++ [id], by rw [List.append_assoc]; exact hcancelled, h⟩
      · obtain ⟨cancelled, hcancelled, hb₁⟩ := h₁
        rw [List.append_nil] at hcancelled
        subst hcancelled
        rw [wp_bind]
        refine wp_mono (wp_forM (E := fun _ w' => ∃ made, InBundle w owner cancelled made w' ∧
            Revocable w w') _
          (fun l w' => ∃ made, made ++ l = pending ∧ Steady w owner cancelled made w')
          (fun p l w' hw' => ?_) pending w₁ ⟨[], rfl, hb₁⟩)
          (fun _ w₂ h₂ => ?_) (fun e w₂ h₂ => ?_)
        · obtain ⟨made, hmade, hb⟩ := hw'
          rw [wp_bind]
          refine wp_mono (hb.commit hr.idle p) (fun _ w'' h => ?_) (fun _ w'' h => ⟨_, h⟩)
          rw [wp_pure]
          exact ⟨made ++ [p], by rw [List.append_assoc]; exact hmade, h⟩
        · obtain ⟨made, hmade, ⟨destroyed, created, r, hb, rfl⟩, hwraps⟩ := h₂
          rw [List.append_nil] at hmade
          subst hmade
          rw [wp_bind, wp_zoom]
          refine hb.during.wp_commit hr.idle fun hm => ?_
          rw [wp_bind, wp_modify, wp_pure]
          refine ⟨{ r with transaction := none }, _, ?_, hm, hb.authorized, fun h0 => ?_⟩
          · dsimp only
            rw [← hr.inactive]
          · have hr0 : r.slotWraps = 0 := hwraps.trans h0
            exact ⟨hr0, hb.committed hr0 rfl⟩
        · rw [wp_bind, wp_modify, wp_pure]
          obtain ⟨made, hb, hback⟩ := h₂
          exact hrollback w₂ _ _ hb hback
      · rw [wp_bind, wp_modify, wp_pure]
        obtain ⟨cancelled, hb⟩ := h₁
        exact hrollback w₁ _ _ hb.inside (hb.revocable hr.idle)

end World

end LiquidLayer
