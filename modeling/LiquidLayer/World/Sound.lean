/-
  What holds between the operations of a world.

  `World.Ok` is kept by every operation, returned or thrown, also by those that a full buffer
  stops half-way. `Outcome w w' content entries` is how an operation is specified: it left a
  world that is `Ok`, whose registries have this content, and the topology buffer gained these
  entries.
-/
import LiquidLayer.World.Content

namespace LiquidLayer

open Prog

/-! ## Behaviors -/

namespace BehaviorRegistry

structure Ok (r : BehaviorRegistry) : Prop where
  active : ∀ b, r.exist b = true → b.world = r.worldId ∧
    r.generations[b.slot]? = some b.generation ∧ b.slot ∉ r.availableSlots
  bounded : ∀ s ∈ r.availableSlots, s < r.generations.length
  nodup : r.availableSlots.Nodup

theorem initial_ok (world : UInt64) : (initial world).Ok := by
  refine ⟨fun b hb => ?_, fun s hs => ?_, List.nodup_range'⟩
  · cases hb
  · unfold initial at hs ⊢
    rw [List.mem_range'_1] at hs
    rw [List.length_replicate]
    omega

theorem exist_insert (m : OrdMap BehaviorId Unit) (b b' : BehaviorId) :
    (m.insert b ()).contains b' = if b' = b then true else m.contains b' := by
  rw [OrdMap.contains, OrdMap.find?_insert]
  split <;> rfl

/-- `create` hands out a handle that is not active, or there is no slot left. -/
theorem wp_create {r : BehaviorRegistry} (h : r.Ok) {Q : BehaviorId → BehaviorRegistry → Prop}
    {E : Failure → BehaviorRegistry → Prop}
    (hok : ∀ b r', r.exist b = false → r'.Ok → (∀ b', r'.exist b' =
      if b' = b then true else r.exist b') → Q b r')
    (herr : ∀ e, r.availableSlots = [] → E e r) : wp create Q E r := by
  unfold create
  rw [wp_bind, wp_get]
  cases hav : r.availableSlots with
  | nil =>
      rw [wp_throw]
      exact herr _ hav
  | cons slot rest =>
      have hnd := h.nodup
      rw [hav, List.nodup_cons] at hnd
      have hlt := h.bounded slot (hav ▸ List.mem_cons_self)
      obtain ⟨g, hg⟩ : ∃ g, r.generations[slot]? = some g := ⟨_, List.getElem?_eq_getElem hlt⟩
      have hnew : r.exist ⟨r.worldId, slot, g⟩ = false := by
        cases hb : r.exist ⟨r.worldId, slot, g⟩ with
        | false => rfl
        | true => exact absurd (hav ▸ List.mem_cons_self) (h.active _ hb).2.2
      dsimp only
      rw [wp_bind, wp_set, hg]
      dsimp only
      rw [if_neg (by unfold exist at hnew; rw [hnew]; decide), wp_bind, wp_set, wp_pure]
      have hexist : ∀ b', ({ r with
          availableSlots := rest
          active := r.active.insert ⟨r.worldId, slot, g⟩ () } : BehaviorRegistry).exist b' =
            if b' = ⟨r.worldId, slot, g⟩ then true else r.exist b' :=
        fun b' => exist_insert r.active _ b'
      refine hok _ _ hnew ⟨fun b' hb' => ?_, fun s hs => ?_, hnd.2⟩ hexist
      · rw [hexist] at hb'
        split at hb'
        · next heq =>
            rw [heq]
            exact ⟨rfl, hg, hnd.1⟩
        · obtain ⟨hw, hgen, hfree⟩ := h.active b' hb'
          exact ⟨hw, hgen, fun hm => hfree (hav ▸ List.mem_cons_of_mem _ hm)⟩
      · exact h.bounded s (hav ▸ List.mem_cons_of_mem _ hs)

/-- `destroy` of an active handle. -/
theorem wp_destroy {r : BehaviorRegistry} (h : r.Ok) {b : BehaviorId} (hb : r.exist b = true)
    {Q : Unit → BehaviorRegistry → Prop} {E : Failure → BehaviorRegistry → Prop}
    (hok : ∀ r', r'.Ok → (∀ b', r'.exist b' = if b' = b then false else r.exist b') → Q () r') :
    wp (destroy b) Q E r := by
  obtain ⟨hw, hg, hfree⟩ := h.active b hb
  have hlt := (List.getElem?_eq_some_iff.mp hg).1
  have hexist : ∀ b', (r.active.erase b).contains b' =
      if b' = b then false else r.active.contains b' := by
    intro b'
    rw [OrdMap.contains, OrdMap.find?_erase]
    split <;> rfl
  -- the other active handles are in other slots
  have hother : ∀ b', (r.active.erase b).contains b' = true → b'.slot ≠ b.slot ∧
      r.exist b' = true := by
    intro b' hb'
    rw [hexist] at hb'
    split at hb'
    · cases hb'
    · next hne =>
        refine ⟨fun hs => hne ?_, hb'⟩
        obtain ⟨hw', hg', _⟩ := h.active b' hb'
        rw [hs, hg] at hg'
        obtain ⟨w, s, g⟩ := b
        obtain ⟨w', s', g'⟩ := b'
        simp_all
  unfold destroy
  rw [wp_bind, wp_get, if_neg (by simp [hb])]
  dsimp only
  rw [wp_bind, wp_set, hg]
  dsimp only
  by_cases hmax : b.generation = maxU32
  · rw [if_neg (by simp [hmax]), wp_pure]
    exact hok _ ⟨fun b' hb' => h.active b' (hother b' hb').2, h.bounded, h.nodup⟩ hexist
  · rw [if_pos hmax, wp_set]
    refine hok _ ⟨fun b' hb' => ?_, fun s hs => ?_, List.nodup_cons.mpr ⟨hfree, h.nodup⟩⟩ hexist
    · obtain ⟨hs, hb'⟩ := hother b' hb'
      obtain ⟨hw', hg', hfree'⟩ := h.active b' hb'
      refine ⟨hw', ?_, fun hm => (List.mem_cons.mp hm).elim hs hfree'⟩
      rw [List.getElem?_set, if_neg (Ne.symm hs)]
      exact hg'
    · rw [List.length_set]
      rcases List.mem_cons.mp hs with rfl | hs
      · exact hlt
      · exact h.bounded s hs

end BehaviorRegistry

/-! ## The world -/

namespace World

variable {C : Type}

section Parts

variable {α : Type} {Q : α → World C → Prop} {E : Failure → World C → Prop} {w : World C}

theorem wp_onIntents {m : EStateM Failure IntentRegistry α} :
    wp (onIntents m) Q E w ↔ wp m (fun a r => Q a { w with intents := r })
      (fun e r => E e { w with intents := r }) w.intents := wp_zoom ..

theorem wp_onBehaviors {m : EStateM Failure BehaviorRegistry α} :
    wp (onBehaviors m) Q E w ↔ wp m (fun a r => Q a { w with behaviors := r })
      (fun e r => E e { w with behaviors := r }) w.behaviors := wp_zoom ..

theorem wp_onComponents {m : EStateM Failure (ComponentRegistry C) α} :
    wp (onComponents m) Q E w ↔ wp m (fun a r => Q a { w with components := r })
      (fun e r => E e { w with components := r }) w.components := wp_zoom ..

end Parts

/-- All of `Ok` but what says how systems, signatures and behaviors belong together. -/
structure Held (w : World C) : Prop where
  ready : Ready w
  systems : w.systems.Ok
  depth : w.systems.dispatchDepth = 0
  running : w.systemsRunning = false
  behaviors : w.behaviors.Ok
  holders : ∀ id t b, w.components.types.find? id = some t → t.accesses.contains b = true →
    w.behaviors.exist b = true
  revised : ∀ b, w.behaviorAccessRevisions.contains b = true → w.behaviors.exist b = true
  pooled : ∀ b, w.intents.byOwner.contains b = true → w.behaviors.exist b = true

structure Ok (w : World C) : Prop where
  held : Held w
  signed : ∀ b, w.behaviorSignatures.contains b = true → w.behaviors.exist b = true
  membered : SystemRegistry.Membered w.systems w.behaviorSignatures

theorem Retold.held {v w' : World C} (h : Retold v w') (hv : Held v) : Held w' := by
  have hq := h.tended.quiet
  have hb : w'.behaviors = v.behaviors := by rw [hq.rest]
  have hrev : w'.behaviorAccessRevisions = v.behaviorAccessRevisions := by rw [hq.rest]
  have hrun : w'.systemsRunning = v.systemsRunning := by rw [hq.rest]
  have hcomp : ComponentRegistry.Revalued v.components w'.components := hq.components
  obtain ⟨entries, hm, _⟩ := h.tended.intended
  refine ⟨h.ready, h.same.ok hv.systems, h.same.depth.trans hv.depth, hrun.trans hv.running,
    hb ▸ hv.behaviors, fun id t' b ht' hc => ?_, fun b hc => ?_, fun b hc => ?_⟩
  · obtain ⟨t, ht, ht'⟩ := hcomp.types_back ht'
    rw [hb]
    rw [ht'.rest] at hc
    exact hv.holders id t b ht hc
  · rw [hb]
    rw [hrev] at hc
    exact hv.revised b hc
  · rw [hb]
    rw [hm.pools] at hc
    exact hv.pooled b hc

/-- Only evidence is different. -/
theorem Ok.evidence {w : World C} (h : Ok w) (components : List ComponentMutation)
    (topology : List TopologyMutation) (errors : Nat) :
    Ok { w with
      componentMutations := components
      topologyMutations := topology
      evidenceLost := errors } := by
  obtain ⟨⟨⟨h1, h2, h3, h4⟩, h5, h6, h7, h8, h9, h10, h11⟩, h12, h13⟩ := h
  exact ⟨⟨⟨h1, h2, h3, h4⟩, h5, h6, h7, h8, h9, h10, h11⟩, h12, h13⟩

/-- Only the intents are different. -/
theorem Ok.withIntents {w : World C} (h : Ok w) {r : IntentRegistry} (hr : r.Coherent)
    (hidle : r.transaction = none)
    (hpooled : ∀ b, r.byOwner.contains b = true → w.behaviors.exist b = true) :
    Ok { w with intents := r } where
  held :=
    { h.held with
      ready := ⟨h.held.ready.components, hr, hidle, h.held.ready.inactive⟩
      pooled := hpooled }
  signed := h.signed
  membered := h.membered

/-- Only the components are different. -/
theorem Ok.withComponents {w : World C} (h : Ok w) {r : ComponentRegistry C} (hr : r.Ok)
    (hholders : ∀ id t b, r.types.find? id = some t → t.accesses.contains b = true →
      w.behaviors.exist b = true) : Ok { w with components := r } where
  held :=
    { h.held with
      ready := ⟨hr, h.held.ready.intents, h.held.ready.idle, h.held.ready.inactive⟩
      holders := hholders }
  signed := h.signed
  membered := h.membered

/-- An intent's owner is live. -/
theorem Held.owner {w : World C} (h : Held w) {id : IntentId} {i : Intent}
    (hi : w.intents.record? id = some i) : w.behaviors.exist i.owner = true := by
  refine h.pooled i.owner ?_
  have howned := (h.ready.intents.indexed.owner i.owner id).mpr ⟨i, hi, rfl⟩
  unfold IntentRegistry.ownedBy at howned
  rw [OrdMap.contains]
  cases hf : w.intents.byOwner.find? i.owner with
  | none =>
      rw [hf] at howned
      cases howned
  | some ids => rfl

theorem wp_ensureStructuralMutationAllowed {w : World C} (h : Held w) {Q : Unit → World C → Prop}
    {E : Failure → World C → Prop} (hQ : Q () w) :
    wp ensureStructuralMutationAllowed Q E w := by
  unfold ensureStructuralMutationAllowed
  rw [wp_bind, wp_get, if_neg, wp_pure]
  · exact hQ
  · rw [h.running, h.depth, h.ready.inactive]
    simp

/-! ## Authority -/

/-- Every live intent is authorized. -/
def Authority (w : World C) : Prop :=
  ∀ id i, w.intents.record? id = some i → Authorized w i

end World

/-- What is there in the end was there at the start or has been created. -/
theorem IntentRegistry.Traces.back {l : List IntentLifecycleRecord}
    {view view' : IntentRegistry.IntentView} (h : IntentRegistry.Traces l view view')
    {id : IntentId} {i : Intent} (hi : view' id = some i) :
    view id = some i ∨ ∃ e ∈ l, e.created = true ∧ e.intent = i := by
  induction l generalizing view with
  | nil =>
      cases h
      exact Or.inl hi
  | cons e l ih =>
      rcases ih h.2 with h' | ⟨e', he', hc⟩
      · unfold IntentLifecycleRecord.apply at h'
        split at h'
        · split at h'
          · next hcreated =>
              cases h'
              exact Or.inr ⟨e, List.mem_cons_self, hcreated, rfl⟩
          · cases h'
        · exact Or.inl h'
      · exact Or.inr ⟨e', List.mem_cons_of_mem _ he', hc⟩

namespace World

variable {C : Type}

/-- What callbacks create is authorized, so it is enough to look at the intents that were
    there. -/
theorem Retold.authorized {v w' : World C} (h : Retold v w') {id : IntentId} {i : Intent}
    (hi : w'.intents.record? id = some i)
    (hv : v.intents.record? id = some i → Authorized v i) : Authorized w' i := by
  obtain ⟨entries, hm, hauth⟩ := h.tended.intended
  refine h.tended.quiet.authorized.mpr ?_
  rcases hm.traces.back hi with hback | ⟨e, he, hc, rfl⟩
  · exact hv hback
  · exact (hauth e he hc).1

theorem Retold.unwrapped {v w' : World C} (h : Retold v w') (h0 : w'.intents.slotWraps = 0) :
    v.intents.slotWraps = 0 := by
  obtain ⟨entries, hm, _⟩ := h.tended.intended
  exact Nat.le_zero.mp (h0 ▸ hm.wraps)

theorem Retold.authority {v w' : World C} (h : Retold v w') (hv : Authority v) :
    Authority w' := fun id i hi => h.authorized hi (hv id i)

/-! ## Signatures -/

/-- What holds as well as long as no evidence of intents was refused: every behavior has its
    entries, and its signature says to which types of components it has access. -/
structure Settled (w : World C) : Prop where
  signed : ∀ b, w.behaviors.exist b = true → w.behaviorSignatures.contains b = true
  revised : ∀ b, w.behaviors.exist b = true → w.behaviorAccessRevisions.contains b = true
  pooled : ∀ b, w.behaviors.exist b = true → w.intents.byOwner.contains b = true
  bits : ∀ b signature, w.behaviorSignatures.find? b = some signature → ∀ type < 64,
    (signature.getLsbD type = true ↔ ∃ name, w.components.access b type name ≠ none)

theorem Retold.settled {v w' : World C} (h : Retold v w')
    (hsig : w'.behaviorSignatures = v.behaviorSignatures) (hv : Settled v) : Settled w' := by
  have hq := h.tended.quiet
  have hb : w'.behaviors = v.behaviors := by rw [hq.rest]
  have hrev : w'.behaviorAccessRevisions = v.behaviorAccessRevisions := by rw [hq.rest]
  have hcomp : ComponentRegistry.Revalued v.components w'.components := hq.components
  obtain ⟨entries, hm, _⟩ := h.tended.intended
  refine ⟨fun b he => ?_, fun b he => ?_, fun b he => ?_, fun b signature hs type ht => ?_⟩
  · rw [hsig]
    exact hv.signed b (hb ▸ he)
  · rw [hrev]
    exact hv.revised b (hb ▸ he)
  · rw [hm.pools]
    exact hv.pooled b (hb ▸ he)
  · rw [hcomp.access]
    exact hv.bits b signature (hsig ▸ hs) type ht

/-- What a behavior has access to has changed only together with its revision, and a new
    revision is greater than all before. -/
structure Revised (w w' : World C) : Prop where
  last : w.lastBehaviorAccessRevision ≤ w'.lastBehaviorAccessRevision
  access : ∀ b revision, w'.behaviorAccessRevisions.find? b = some revision →
    (w.behaviorAccessRevisions.find? b = some revision ∧ ∀ type name,
      w'.components.access b type name = w.components.access b type name ∧
      (w.components.access b type name ≠ none →
        w'.components.slots type name = w.components.slots type name)) ∨
    (w.lastBehaviorAccessRevision < revision ∧ revision ≤ w'.lastBehaviorAccessRevision)

theorem Revised.refl (w : World C) : Revised w w :=
  ⟨le_refl _, fun _ _ h => Or.inl ⟨h, fun _ _ => ⟨rfl, fun _ => rfl⟩⟩⟩

theorem Revised.retold {w v w' : World C} (hv : Revised w v) (h : Retold v w') :
    Revised w w' := by
  have hq := h.tended.quiet
  have hrev : w'.behaviorAccessRevisions = v.behaviorAccessRevisions := by rw [hq.rest]
  have hlast : w'.lastBehaviorAccessRevision = v.lastBehaviorAccessRevision := by rw [hq.rest]
  have hcomp : ComponentRegistry.Revalued v.components w'.components := hq.components
  refine ⟨hlast ▸ hv.last, fun b revision hf => ?_⟩
  rw [hrev] at hf
  rw [hcomp.access, hcomp.slots, hlast]
  exact hv.access b revision hf

theorem Revised.trans {w v w' : World C} (h : Revised w v) (h' : Revised v w') :
    Revised w w' := by
  refine ⟨h.last.trans h'.last, fun b revision hf => ?_⟩
  rcases h'.access b revision hf with ⟨hf', hsame'⟩ | ⟨hlt, hle⟩
  · rcases h.access b revision hf' with ⟨hf'', hsame⟩ | ⟨hlt, hle⟩
    · refine Or.inl ⟨hf'', fun type name => ?_⟩
      obtain ⟨hacc, hslots⟩ := hsame type name
      obtain ⟨hacc', hslots'⟩ := hsame' type name
      refine ⟨hacc'.trans hacc, fun hne => (hslots' ?_).trans (hslots hne)⟩
      rw [hacc]
      exact hne
    · exact Or.inr ⟨hlt, hle.trans h'.last⟩
  · exact Or.inr ⟨lt_of_le_of_lt h.last hlt, hle⟩

/-! ## Outcomes -/

/-- The call left `w'`: its registries have this content, and unless evidence was lost the
    topology buffer gained these entries, and the component buffer what became of component
    values. The lifecycle buffer gained what became of intents. -/
structure Outcome (w w' : World C) (content : Content) (entries : List TopologyMutation) :
    Prop where
  ok : Ok w'
  content : w'.content = content
  evidence : w'.evidenceLost = w.evidenceLost →
    w'.topologyMutations = w.topologyMutations ++ entries ∧
      ∃ l, w'.componentMutations = w.componentMutations ++ l ∧
        Describes l w.components.encoded w'.components.encoded
  intents : ∃ l, IntentRegistry.Steps l w.intents w'.intents ∧
    ∀ e ∈ l, e.created = true → e.intent.encodedValue.validate = .ok ()
  lost : w.evidenceLost ≤ w'.evidenceLost
  revised : Revised w w'

/-- Nothing has changed but what callbacks do. -/
structure Unchanged (w w' : World C) : Prop where
  content : w'.content = w.content
  systems : w'.systems = w.systems
  signatures : w'.behaviorSignatures = w.behaviorSignatures
  revisions : w'.behaviorAccessRevisions = w.behaviorAccessRevisions

theorem Unchanged.refl (w : World C) : Unchanged w w := ⟨rfl, rfl, rfl, rfl⟩

theorem Outcome.refl {w : World C} (h : Ok w) : Outcome w w w.content [] :=
  ⟨h, rfl, fun _ => ⟨(List.append_nil _).symm, [], (List.append_nil _).symm, rfl⟩,
    ⟨[], (IntentRegistry.Moved.refl h.held.ready.intents).steps,
      fun _ he => absurd he List.not_mem_nil⟩, le_refl _, .refl w⟩

theorem Outcome.trans {w v w' : World C} {content content' : Content}
    {entries entries' : List TopologyMutation} (h : Outcome w v content entries)
    (h' : Outcome v w' content' entries') : Outcome w w' content' (entries ++ entries') := by
  have hle := h.lost
  have hle' := h'.lost
  refine ⟨h'.ok, h'.content, fun hlost => ?_, ?_, hle.trans hle', h.revised.trans h'.revised⟩
  · obtain ⟨htop, l, hbuf, hdesc⟩ := h.evidence (by omega)
    obtain ⟨htop', l', hbuf', hdesc'⟩ := h'.evidence (by omega)
    exact ⟨by rw [htop', htop, List.append_assoc], l ++ l',
      by rw [hbuf', hbuf, List.append_assoc], hdesc.append hdesc'⟩
  · obtain ⟨l, hsteps, hvalid⟩ := h.intents
    obtain ⟨l', hsteps', hvalid'⟩ := h'.intents
    refine ⟨l ++ l', hsteps.trans hsteps', fun e he hc => ?_⟩
    rcases List.mem_append.mp he with he | he
    · exact hvalid e he hc
    · exact hvalid' e he hc

/-- The entry of a change behind an outcome. -/
theorem Outcome.recorded {w w' : World C} {content : Content} {entries : List TopologyMutation}
    (h : Outcome w w' content entries) (entry : TopologyMutation) :
    Outcome w { w' with topologyMutations := w'.topologyMutations ++ [entry] } content
      (entries ++ [entry]) where
  ok := h.ok.evidence w'.componentMutations _ w'.evidenceLost
  content := h.content
  evidence hlost := by
    obtain ⟨htop, hcomponents⟩ := h.evidence hlost
    refine ⟨?_, hcomponents⟩
    dsimp only
    rw [htop, List.append_assoc]
  intents := h.intents
  lost := h.lost
  revised := ⟨h.revised.last, h.revised.access⟩

theorem Outcome.refused {w w' : World C} {content : Content} {entries : List TopologyMutation}
    (h : Outcome w w' content entries) : Outcome w w'.loseEvidence content entries where
  ok := h.ok.evidence w'.componentMutations w'.topologyMutations _
  content := h.content
  evidence hlost := by
    have hle := h.lost
    have hlost' : w'.evidenceLost + 1 = w.evidenceLost := hlost
    omega
  intents := h.intents
  lost := h.lost.trans (Nat.le_succ _)
  revised := ⟨h.revised.last, h.revised.access⟩

/-- `nextSlot` has not wrapped before either. -/
theorem Outcome.unwrapped {w w' : World C} {content : Content} {entries : List TopologyMutation}
    (h : Outcome w w' content entries) (h0 : w'.intents.slotWraps = 0) :
    w.intents.slotWraps = 0 := by
  obtain ⟨l, hsteps, _⟩ := h.intents
  exact Nat.le_zero.mp (h0 ▸ hsteps.wraps)

/-- An outcome after which every live intent is still authorized unless `nextSlot` has wrapped,
    and signatures are right unless evidence of an intent was refused. -/
structure Lawful (w w' : World C) (content : Content) (entries : List TopologyMutation) :
    Prop where
  outcome : Outcome w w' content entries
  authority : w'.intents.slotWraps = 0 → Authority w → Authority w'
  settled : w'.intents.capacityErrors = w.intents.capacityErrors → Settled w → Settled w'

theorem Lawful.refl {w : World C} (h : Ok w) : Lawful w w w.content [] :=
  ⟨.refl h, fun _ ha => ha, fun _ hs => hs⟩

theorem Lawful.trans {w v w' : World C} {content content' : Content}
    {entries entries' : List TopologyMutation} (h : Lawful w v content entries)
    (h' : Lawful v w' content' entries') : Lawful w w' content' (entries ++ entries') := by
  refine ⟨h.outcome.trans h'.outcome, fun h0 ha =>
    h'.authority h0 (h.authority (h'.outcome.unwrapped h0) ha), fun hcap hs => ?_⟩
  obtain ⟨_, hsteps, _⟩ := h.outcome.intents
  obtain ⟨_, hsteps', _⟩ := h'.outcome.intents
  have hle := hsteps.capacity
  have hle' := hsteps'.capacity
  exact h'.settled (by omega) (h.settled (by omega) hs)

theorem Lawful.recorded {w w' : World C} {content : Content} {entries : List TopologyMutation}
    (h : Lawful w w' content entries) (entry : TopologyMutation) :
    Lawful w { w' with topologyMutations := w'.topologyMutations ++ [entry] } content
      (entries ++ [entry]) :=
  ⟨h.outcome.recorded entry, h.authority, fun hc hs =>
    ⟨(h.settled hc hs).signed, (h.settled hc hs).revised, (h.settled hc hs).pooled,
      (h.settled hc hs).bits⟩⟩

theorem Lawful.refused {w w' : World C} {content : Content} {entries : List TopologyMutation}
    (h : Lawful w w' content entries) : Lawful w w'.loseEvidence content entries :=
  ⟨h.outcome.refused, h.authority, fun hc hs =>
    ⟨(h.settled hc hs).signed, (h.settled hc hs).revised, (h.settled hc hs).pooled,
      (h.settled hc hs).bits⟩⟩

/-- The systems were told of a change of the registries that leaves component values alone. -/
theorem Outcome.of_retold {w v w' : World C} (h : Retold v w') (hok : Ok w')
    (htop : v.topologyMutations = w.topologyMutations)
    (hmut : v.componentMutations = w.componentMutations)
    (hcap : v.evidenceLost = w.evidenceLost)
    (henc : v.components.encoded = w.components.encoded)
    (hint : ∃ l, IntentRegistry.Steps l w.intents v.intents ∧
      ∀ e ∈ l, e.created = true → e.intent.encodedValue.validate = .ok ())
    (hrev : Revised w v) : Outcome w w' v.content [] := by
  have hq := h.tended.quiet
  have hle : v.evidenceLost ≤ w'.evidenceLost := hq.lost
  refine ⟨hok, h.content, fun hlost => ?_, ?_, ?_, hrev.retold h⟩
  · obtain ⟨htop', l, hbuf, _, hdesc⟩ := hq.evidence (hlost.trans hcap.symm)
    refine ⟨?_, l, ?_, ?_⟩
    · rw [List.append_nil, ← htop]
      exact htop'
    · rw [← hmut]
      exact hbuf
    · rw [← henc]
      exact hdesc
  · obtain ⟨l, hsteps, hvalid⟩ := hint
    obtain ⟨l', hmoved, hauth⟩ := h.tended.intended
    refine ⟨l ++ l', hsteps.trans hmoved.steps, fun e he hc => ?_⟩
    rcases List.mem_append.mp he with he | he
    · exact hvalid e he hc
    · exact (hauth e he hc).2
  · rw [← hcap]
    exact hle

/-- Only callbacks ran. -/
theorem Lawful.of_retold {w w' : World C} (hw : Ready w) (h : Retold w w') (hok : Ok w')
    (hsig : w'.behaviorSignatures = w.behaviorSignatures) : Lawful w w' w.content [] :=
  ⟨.of_retold h hok rfl rfl rfl rfl ⟨[], (IntentRegistry.Moved.refl hw.intents).steps,
    fun _ he => absurd he List.not_mem_nil⟩ (.refl w), fun _ => h.authority,
    fun _ => h.settled hsig⟩

/-! ## Recording a change -/

theorem wp_recordTopology {key : Bytes} {value : Value} {removed : Bool} {w : World C}
    {Q : Unit → World C → Prop} {E : Failure → World C → Prop}
    (hok : w.topologyMutations.length < maximumBuffered →
      Q () { w with topologyMutations := w.topologyMutations ++ [⟨key, value, removed⟩] })
    (hfull : maximumBuffered ≤ w.topologyMutations.length →
      E (.lengthError "topology evidence capacity exceeded") w.loseEvidence) :
    wp (recordTopology key value removed) Q E w := by
  unfold recordTopology
  rw [wp_bind, wp_get]
  by_cases h : w.topologyMutations.length ≥ maximumBuffered
  · rw [if_pos h]
    simp only [wp_bind, wp_modify, wp_throw]
    exact hfull h
  · rw [if_neg h, wp_modify]
    exact hok (Nat.not_le.mp h)

/-- Why a change was not recorded. -/
inductive Unrecorded (w w' : World C) (change : Change) : Prop where
  | inadmissible : ¬change.Recordable → Unrecorded w w' change
  | lost : w.evidenceLost < w'.evidenceLost → Unrecorded w w' change

theorem wp_recordEntry (change : Change) {fields : List (String × Value)}
    (hf : change.fields = some fields) {w : World C} {Q : Unit → World C → Prop}
    {E : Failure → World C → Prop}
    (hok : change.Recordable → w.topologyMutations.length < maximumBuffered →
      Q () { w with topologyMutations := w.topologyMutations ++ [change.entry] })
    (hbad : ∀ e, ¬change.Recordable → E e w)
    (hfull : ∀ e, maximumBuffered ≤ w.topologyMutations.length → E e w.loseEvidence) :
    wp (recordEntry change.key fields) Q E w := by
  unfold recordEntry
  rw [wp_bind, wp_lift]
  refine ⟨fun value hv => ?_, fun e he => hbad e fun hr => ?_⟩
  · have hentry : change.entry = ⟨change.key, value, false⟩ := by
      unfold Change.entry
      rw [hf, (eventPayload_eq_ok hv).1]
    have hr : change.Recordable := fun fields' hf' => by
      rw [hf] at hf'
      cases hf'
      exact ⟨value, hv⟩
    refine wp_recordTopology (fun hlt => ?_) (fun hle => hfull _ hle)
    rw [← hentry]
    exact hok hr hlt
  · obtain ⟨value, hv⟩ := hr fields hf
    rw [hv] at he
    cases he

theorem wp_recordTombstone (change : Change) (hf : change.fields = none) {w : World C}
    {Q : Unit → World C → Prop} {E : Failure → World C → Prop}
    (hok : w.topologyMutations.length < maximumBuffered →
      Q () { w with topologyMutations := w.topologyMutations ++ [change.entry] })
    (hfull : ∀ e, maximumBuffered ≤ w.topologyMutations.length → E e w.loseEvidence) :
    wp (recordTombstone change.key) Q E w := by
  have hentry : change.entry = ⟨change.key, .null, true⟩ := by
    unfold Change.entry
    rw [hf]
  unfold recordTombstone
  refine wp_recordTopology (fun hlt => ?_) (fun hle => hfull _ hle)
  rw [← hentry]
  exact hok hlt

end World

end LiquidLayer
