/-
  `remove_component`.

  It draws the new revisions, destroys the intents that target the component, removes it, and
  resets the signatures of the behaviors that had access to its type. What throws before the
  removal leaves the component there; what throws after it finds it gone, and the removal is
  recorded either way.
-/
import LiquidLayer.World.ComponentOps

namespace LiquidLayer

open Prog

variable {C : Type}

namespace World

/-! ## Intents of a target -/

/-- A loop over the intents runs on the intents alone. -/
theorem wp_forM_onIntents {f : IntentId → WorldM C Unit}
    {g : IntentId → EStateM Failure IntentRegistry Unit}
    (hfg : ∀ (id : IntentId) (w : World C) (Q : Unit → World C → Prop)
      (E : Failure → World C → Prop),
      wp (g id) (fun _ r => Q () { w with intents := r }) (fun e r => E e { w with intents := r })
        w.intents → wp (f id) Q E w)
    (ids : List IntentId) (w : World C) {Q : Unit → World C → Prop}
    {E : Failure → World C → Prop}
    (h : wp (forM ids g) (fun _ r => Q () { w with intents := r })
      (fun e r => E e { w with intents := r }) w.intents) : wp (forM ids f) Q E w := by
  induction ids generalizing w with
  | nil =>
      rw [List.forM_nil, wp_pure] at h ⊢
      exact h
  | cons id ids ih =>
      rw [List.forM_cons, wp_bind] at h ⊢
      refine hfg id w _ _ (wp_mono h (fun _ r h' => ?_) (fun _ _ h' => h'))
      exact ih { w with intents := r } h'

theorem wp_destroyIntentsForTarget {w : World C} (h : Held w) (type : ComponentTypeId)
    (slot : ComponentSlotId) {Q : Unit → World C → Prop} {E : Failure → World C → Prop}
    (hok : ∀ r, IntentRegistry.Culled (fun i => i.target = ⟨type, slot⟩) w.intents r →
      r.capacityErrors = w.intents.capacityErrors →
      (r.slotWraps = 0 → ∀ id i, r.record? id = some i → i.target ≠ ⟨type, slot⟩) →
      Q () { w with intents := r })
    (hfull : ∀ e r, IntentRegistry.Culled (fun i => i.target = ⟨type, slot⟩) w.intents r →
      w.intents.capacityErrors < r.capacityErrors → E e { w with intents := r }) :
    wp (destroyIntentsForTarget type slot) Q E w := by
  have hidx := h.ready.intents.indexed
  have hmem := fun id => @IntentRegistry.Indexed.of_mem_intentsFor _ hidx type slot id
  have hmono : ∀ {r : IntentRegistry},
      IntentRegistry.Culled (fun i => True ∧ i.id ∈ w.intents.intentsFor type slot) w.intents r →
      IntentRegistry.Culled (fun i => i.target = ⟨type, slot⟩) w.intents r := by
    intro r hc
    refine hc.mono fun id i hi hd => ?_
    obtain ⟨j, hj, ht⟩ := hmem i.id hd.2
    rw [hidx.id_eq hi, hi] at hj
    cases hj
    exact ht
  unfold destroyIntentsForTarget
  rw [wp_bind, wp_get]
  refine wp_forM_onIntents (g := IntentRegistry.destroy) (fun id w' Q E h' => wp_onIntents.mpr h')
    _ w (wp_mono (IntentRegistry.sheds_destroy.forM _ (w.intents.nodup_intentsFor type slot)
      w.intents h.ready.intents h.ready.idle fun id hid => ?_) (fun _ r hr => ?_)
      (fun e r hr => ?_))
  · obtain ⟨i, hi, _⟩ := hmem id hid
    exact ⟨i, hi⟩
  · obtain ⟨hculled, hcap, hgone⟩ := hr
    refine hok r (hmono hculled) hcap fun h0 id i hi ht => ?_
    refine hgone id ?_ i hi trivial
    exact (h.ready.intents.mem_intentsFor (hculled.unwrapped h0)).mpr
      ⟨i, hculled.back id i hi, ht⟩
  · exact hfull e r (hmono hr.1) hr.2.1

/-- The destruction of an intent of one owner, on the intents alone. -/
def destroyOwned (owner : BehaviorId) (id : IntentId) : EStateM Failure IntentRegistry Unit := do
  let intent ← lift ((← get).intent id)
  if intent.owner = owner then IntentRegistry.destroy id

theorem sheds_destroyOwned (owner : BehaviorId) :
    IntentRegistry.Sheds (fun i => i.owner = owner) (destroyOwned owner) := by
  intro r id i h htx hi
  unfold destroyOwned
  rw [wp_bind, wp_get, wp_bind, wp_lift]
  refine ⟨fun j hj => ?_, fun e he => ?_⟩
  · rw [IntentRegistry.intent_eq_ok.mpr hi] at hj
    cases hj
    by_cases ho : i.owner = owner
    · rw [if_pos ho]
      refine wp_mono (IntentRegistry.sheds_destroy r id i h htx hi) (fun _ r' h' => ?_)
        (fun _ r' h' => ⟨ho, h'.2⟩)
      rcases h' with ⟨_, h'⟩ | ⟨hn, _⟩
      · exact Or.inl ⟨ho, h'⟩
      · exact absurd trivial hn
    · rw [if_neg ho, wp_pure]
      exact Or.inr ⟨ho, rfl⟩
  · rw [IntentRegistry.intent_eq_ok.mpr hi] at he
    cases he

/-- The lifecycle buffer has room for the owner's intents of the target. -/
def RoomToShed (w : World C) (owner : BehaviorId) (type : ComponentTypeId)
    (slot : ComponentSlotId) : Prop :=
  w.intents.lifecycleRecords.length + ((w.intents.intentsFor type slot).filter fun id =>
    (w.intents.record? id).any fun i => i.owner = owner).length ≤ maximumBuffered

theorem wp_destroyIntentsForOwnerTarget {w : World C} (h : Held w) (owner : BehaviorId)
    (type : ComponentTypeId) (slot : ComponentSlotId) {Q : Unit → World C → Prop}
    {E : Failure → World C → Prop}
    (hok : ∀ r, IntentRegistry.Culled (fun i => i.owner = owner ∧ i.target = ⟨type, slot⟩)
        w.intents r → r.capacityErrors = w.intents.capacityErrors →
      (r.slotWraps = 0 → ∀ id i, r.record? id = some i →
        ¬(i.owner = owner ∧ i.target = ⟨type, slot⟩)) →
      Q () { w with intents := r })
    (hfull : ∀ e r, IntentRegistry.Culled (fun i => i.owner = owner ∧ i.target = ⟨type, slot⟩)
        w.intents r → w.intents.capacityErrors < r.capacityErrors →
      ¬RoomToShed w owner type slot → E e { w with intents := r }) :
    wp (destroyIntentsForOwnerTarget owner type slot) Q E w := by
  have hidx := h.ready.intents.indexed
  have hmem := fun id => @IntentRegistry.Indexed.of_mem_intentsFor _ hidx type slot id
  have hmono : ∀ {r : IntentRegistry},
      IntentRegistry.Culled (fun i => i.owner = owner ∧ i.id ∈ w.intents.intentsFor type slot)
        w.intents r →
      IntentRegistry.Culled (fun i => i.owner = owner ∧ i.target = ⟨type, slot⟩) w.intents r := by
    intro r hc
    refine hc.mono fun id i hi hd => ⟨hd.1, ?_⟩
    obtain ⟨j, hj, ht⟩ := hmem i.id hd.2
    rw [hidx.id_eq hi, hi] at hj
    cases hj
    exact ht
  unfold destroyIntentsForOwnerTarget
  rw [wp_bind, wp_get]
  refine wp_forM_onIntents (g := destroyOwned owner) (fun id w' Q E h' => ?_)
    _ w (wp_mono ((sheds_destroyOwned owner).forM _ (w.intents.nodup_intentsFor type slot)
      w.intents h.ready.intents h.ready.idle fun id hid => ?_) (fun _ r hr => ?_)
      (fun e r hr => ?_))
  · unfold destroyOwned at h'
    rw [wp_bind, wp_get, wp_bind, wp_lift] at h'
    rw [wp_bind, wp_get, wp_bind, wp_lift]
    refine ⟨fun i hi => ?_, fun e he => h'.2 e he⟩
    have hi' := h'.1 i hi
    by_cases ho : i.owner = owner
    · rw [if_pos ho] at hi' ⊢
      exact wp_onIntents.mpr hi'
    · rw [if_neg ho, wp_pure] at hi' ⊢
      exact hi'
  · obtain ⟨i, hi, _⟩ := hmem id hid
    exact ⟨i, hi⟩
  · obtain ⟨hculled, hcap, hgone⟩ := hr
    refine hok r (hmono hculled) hcap fun h0 id i hi ht => ?_
    refine hgone id ?_ i hi ht.1
    exact (h.ready.intents.mem_intentsFor (hculled.unwrapped h0)).mpr
      ⟨i, hculled.back id i hi, ht.2⟩
  · obtain ⟨hculled, hcap, l, hsub, _, hD, hover⟩ := hr
    refine hfull e r (hmono hculled) hcap fun hroom => ?_
    have hfilter : l.filter (fun id => (w.intents.record? id).any fun i => i.owner = owner) = l := by
      refine List.filter_eq_self.mpr fun id hid => ?_
      obtain ⟨i, hi, ho⟩ := hD id hid
      rw [hi, Option.any_some]
      simpa using ho
    have hlen := (hsub.filter fun id => (w.intents.record? id).any fun i => i.owner = owner).length_le
    rw [hfilter] at hlen
    unfold RoomToShed at hroom
    omega

/-- Intents were destroyed, and that is all. -/
theorem Lawful.shed {w : World C} (h : Ok w) {D : Intent → Prop} {r : IntentRegistry}
    (hc : IntentRegistry.Culled D w.intents r) :
    Lawful w { w with intents := r } w.content [] := by
  obtain ⟨l, hm, hd⟩ := hc.moved
  refine ⟨?_, fun _ ha id i hi => ha id i (hc.back id i hi),
    fun _ hs => ⟨hs.signed, hs.revised, fun b he => ?_, hs.bits⟩⟩
  · exact
      { ok := h.withIntents hm.coherent (hm.transaction.trans h.held.ready.idle) fun b hp =>
          h.held.pooled b (hm.pools b ▸ hp)
        content := rfl
        evidence := fun _ =>
          ⟨(List.append_nil _).symm, [], (List.append_nil _).symm, rfl⟩
        intents := ⟨l, hm.steps, fun e he hc => by
          rw [hd e he] at hc
          cases hc⟩
        lost := le_refl _
        revised := ⟨le_refl _, (Revised.refl w).access⟩ }
  · dsimp only
    rw [hm.pools]
    exact hs.pooled b he

/-! ## Revisions -/

/-- A new revision can be drawn for the behavior. -/
def Drawable (w : World C) (b : BehaviorId) : Prop :=
  w.behaviorAccessRevisions.contains b = true ∧ w.lastBehaviorAccessRevision ≠ maxU64

theorem wp_drawRevision {w : World C} {b : BehaviorId} {Q : UInt64 → World C → Prop}
    {E : Failure → World C → Prop}
    (hok : Drawable w b → w.lastBehaviorAccessRevision < w.lastBehaviorAccessRevision + 1 →
      Q (w.lastBehaviorAccessRevision + 1)
        { w with lastBehaviorAccessRevision := w.lastBehaviorAccessRevision + 1 })
    (herr : ∀ e, ¬Drawable w b → E e w) : wp (drawRevision b) Q E w := by
  unfold drawRevision
  rw [wp_bind, wp_get]
  by_cases hc : w.behaviorAccessRevisions.contains b = true
  · rw [if_neg (by simp [hc])]
    exact wp_nextBehaviorAccessRevision (fun hne hlt => hok ⟨hc, hne⟩ hlt)
      (fun e hmax => herr e fun hd => hd.2 hmax)
  · rw [if_pos (by simpa using hc)]
    simpa only [wp_bind, wp_throw] using herr _ fun hd => hc hd.1

/-- The behaviors of the list with access to the slot get new revisions. -/
theorem wp_drawRevisions (type : ComponentType) (slot : ComponentSlotId) (l : List BehaviorId)
    (w : World C) :
    wp (drawRevisions type slot l)
      (fun revisions w' => ∃ last, w' = { w with lastBehaviorAccessRevision := last } ∧
        w.lastBehaviorAccessRevision ≤ last ∧
        revisions.map Prod.fst = l.filter (fun b =>
          w.components.canRead type b slot || w.components.canWrite type b slot) ∧
        ∀ e ∈ revisions, w.behaviorAccessRevisions.contains e.1 = true ∧
          w.lastBehaviorAccessRevision < e.2 ∧ e.2 ≤ last)
      (fun _ w' => ∃ last, w' = { w with lastBehaviorAccessRevision := last } ∧
        w.lastBehaviorAccessRevision ≤ last) w := by
  induction l generalizing w with
  | nil =>
      unfold drawRevisions
      rw [wp_pure]
      exact ⟨_, rfl, le_refl _, rfl, fun _ he => absurd he List.not_mem_nil⟩
  | cons b l ih =>
      unfold drawRevisions
      rw [wp_bind, wp_get]
      by_cases hc : (w.components.canRead type b slot || w.components.canWrite type b slot) = true
      · rw [if_pos hc, wp_bind]
        refine wp_drawRevision (fun hd hlt => ?_) (fun e _ => ⟨_, rfl, le_refl _⟩)
        rw [wp_bind]
        refine wp_mono (ih _) (fun revisions w' h' => ?_) (fun e w' h' => ?_)
        · obtain ⟨last, rfl, hle, hmap, hrev⟩ := h'
          rw [wp_pure]
          refine ⟨last, rfl, le_trans (le_of_lt hlt) hle, ?_, fun e he => ?_⟩
          · rw [List.map_cons, List.filter_cons, if_pos hc, hmap]
          · rcases List.mem_cons.mp he with rfl | he
            · exact ⟨hd.1, hlt, hle⟩
            · obtain ⟨h1, h2, h3⟩ := hrev e he
              exact ⟨h1, lt_trans hlt h2, h3⟩
        · obtain ⟨last, rfl, hle⟩ := h'
          exact ⟨last, rfl, le_trans (le_of_lt hlt) hle⟩
      · rw [if_neg hc]
        refine wp_mono (ih w) (fun revisions w' h' => ?_) (fun e w' h' => h')
        obtain ⟨last, rfl, hle, hmap, hrev⟩ := h'
        refine ⟨last, rfl, hle, ?_, hrev⟩
        rw [List.filter_cons, if_neg hc, hmap]

theorem wp_setRevisions (revisions : List (BehaviorId × UInt64)) (w : World C)
    {E : Failure → World C → Prop} :
    wp (forM revisions fun entry => setRevision entry.1 entry.2)
      (fun _ w' => ∃ m, w' = { w with behaviorAccessRevisions := m } ∧
        (∀ b revision, m.find? b = some revision →
          (b, revision) ∈ revisions ∨
          (b ∉ revisions.map Prod.fst ∧ w.behaviorAccessRevisions.find? b = some revision)) ∧
        ∀ b, w.behaviorAccessRevisions.contains b = true → m.contains b = true) E w := by
  induction revisions generalizing w with
  | nil =>
      rw [List.forM_nil, wp_pure]
      exact ⟨_, rfl, fun b revision hf => Or.inr ⟨List.not_mem_nil, hf⟩, fun _ h => h⟩
  | cons entry revisions ih =>
      rw [List.forM_cons, wp_bind]
      unfold setRevision
      rw [wp_modify]
      refine wp_mono (ih _) (fun _ w' h' => ?_) (fun _ _ h' => h')
      obtain ⟨m, rfl, hm, hall⟩ := h'
      refine ⟨m, rfl, fun b revision hf => ?_, fun b hb => hall b ?_⟩
      swap
      · dsimp only
        rw [IntentRegistry.contains_insert, hb, Bool.true_or]
      rcases hm b revision hf with hin | ⟨hout, hold⟩
      · exact Or.inl (List.mem_cons_of_mem _ hin)
      · dsimp only at hold
        rw [OrdMap.find?_insert] at hold
        split at hold
        · next hb =>
            cases hold
            rw [hb]
            exact Or.inl List.mem_cons_self
        · next hb =>
            refine Or.inr ⟨fun hin => ?_, hold⟩
            rw [List.map_cons] at hin
            exact (List.mem_cons.mp hin).elim hb hout

theorem setRevisions_contains {revisions : List (BehaviorId × UInt64)} {w : World C}
    {m : OrdMap BehaviorId UInt64}
    (hm : ∀ b revision, m.find? b = some revision → (b, revision) ∈ revisions ∨
      (b ∉ revisions.map Prod.fst ∧ w.behaviorAccessRevisions.find? b = some revision))
    (hr : ∀ e ∈ revisions, w.behaviorAccessRevisions.contains e.1 = true) {b : BehaviorId}
    (hb : m.contains b = true) : w.behaviorAccessRevisions.contains b = true := by
  obtain ⟨revision, hf⟩ := Option.isSome_iff_exists.mp hb
  rcases hm b revision hf with hin | ⟨_, hold⟩
  · exact hr _ hin
  · rw [OrdMap.contains, hold]
    rfl

/-! ## Rights by slot and by name -/

theorem canRead_named {w : World C} (h : w.components.Ok) {type : ComponentType}
    {t : TypeRecord C} (ht : w.components.typeRecord type = .ok t) {name : Bytes}
    {slot : ComponentSlotId} (hname : t.names.find? name = some slot) (b : BehaviorId) :
    w.components.canRead type b slot = t.reads b slot ∧
      w.components.canWrite type b slot = t.writes b slot := by
  have hfind := ComponentRegistry.typeRecord_eq_ok ht
  have htok := h.types _ t hfind
  have hcur := (htok.live slot name ((htok.inverse name slot).mp hname)).1
  have hslot : w.components.slotIsCurrent type.id slot = true := by
    unfold ComponentRegistry.slotIsCurrent
    rw [hfind]
    exact hcur
  unfold ComponentRegistry.canRead ComponentRegistry.canWrite
  rw [ht]
  dsimp only
  rw [hslot]
  exact ⟨rfl, rfl⟩

theorem accessNamed_isSome {t : TypeRecord C} {name : Bytes} {slot : ComponentSlotId}
    (hname : t.names.find? name = some slot) (b : BehaviorId) :
    (t.accessNamed b name).isSome = (t.reads b slot || t.writes b slot) := by
  unfold TypeRecord.accessNamed
  rw [hname, Option.bind_some]
  cases t.reads b slot <;> cases t.writes b slot <;> rfl

end World

/-- A behavior has a list of accesses exactly if it has access to a named component. -/
theorem TypeRecord.Ok.contains_iff {world : UInt64} {t : TypeRecord C} (h : t.Ok world)
    (b : BehaviorId) :
    t.accesses.contains b = true ↔ ∃ name, t.accessNamed b name ≠ none := by
  constructor
  · intro hc
    obtain ⟨l, hl⟩ := Option.isSome_iff_exists.mp hc
    have hok := h.accesses b l hl
    obtain ⟨a, ha⟩ := List.exists_mem_of_ne_nil l hok.nonempty
    obtain ⟨hknown, hmode⟩ := hok.known a ha
    obtain ⟨name, hname⟩ := Option.isSome_iff_exists.mp hknown
    have hnamed := (h.inverse name a.slot).mpr hname
    refine ⟨name, fun hnone => ?_⟩
    have hsome := World.accessNamed_isSome hnamed b
    rw [hnone] at hsome
    have hfalse : (t.reads b a.slot || t.writes b a.slot) = false := hsome.symm
    rw [Bool.or_eq_false_iff, TypeRecord.reads_eq, TypeRecord.writes_eq] at hfalse
    have hr := hfalse.1
    have hw := hfalse.2
    rw [TypeRecord.allows_eq, hl, Option.any_some, List.any_eq_false] at hr hw
    have hr' := hr a ha
    have hw' := hw a ha
    cases hm : a.mode with
    | unknown => exact hmode hm
    | read => simp [hm, ComponentAccessMode.reads] at hr'
    | readWrite => simp [hm, ComponentAccessMode.reads] at hr'
    | write => simp [hm, ComponentAccessMode.writes] at hw'
  · rintro ⟨name, hne⟩
    cases hc : t.accesses.contains b with
    | true => rfl
    | false =>
        refine absurd ?_ hne
        rw [OrdMap.contains, Option.isSome_eq_false_iff, Option.isNone_iff_eq_none] at hc
        unfold TypeRecord.accessNamed TypeRecord.reads TypeRecord.writes TypeRecord.accessesOf
        rw [hc]
        cases t.names.find? name <;> rfl

theorem TypeRecord.Ok.mem_behaviorsWithAccess {world : UInt64} {t : TypeRecord C}
    (h : t.Ok world) (b : BehaviorId) :
    b ∈ ComponentRegistry.behaviorsWithAccess t ↔ t.accesses.contains b = true := by
  unfold ComponentRegistry.behaviorsWithAccess
  rw [List.mem_map]
  constructor
  · rintro ⟨⟨b', l⟩, hm, rfl⟩
    have hf := OrdMap.mem_entries.mp (List.mem_filter.mp hm).1
    rw [OrdMap.contains, hf]
    rfl
  · intro hc
    obtain ⟨l, hl⟩ := Option.isSome_iff_exists.mp hc
    refine ⟨(b, l), List.mem_filter.mpr ⟨OrdMap.mem_entries.mpr hl, ?_⟩, rfl⟩
    have hne := (h.accesses b l hl).nonempty
    cases l with
    | nil => exact absurd rfl hne
    | cons a l => rfl

theorem ComponentRegistry.nodup_behaviorsWithAccess (t : TypeRecord C) :
    (ComponentRegistry.behaviorsWithAccess t).Nodup :=
  t.accesses.nodup_keys.sublist (List.filter_sublist.map Prod.fst)

namespace World

/-! ## The signatures after a removal -/

theorem getLsbD_reset (signature : Signature) (type i : Nat) (hi : i < 64) :
    (signature.reset type).getLsbD i = (signature.getLsbD i && !decide (i = type)) := by
  unfold Signature.reset
  rw [BitVec.getLsbD_and, BitVec.getLsbD_not, BitVec.getLsbD_twoPow]
  by_cases h : i = type
  · simp [h]
  · simp [h, Ne.symm h, hi]

theorem getLsbD_set (signature : Signature) (type i : Nat) (hi : i < 64) :
    (signature.set type).getLsbD i = (signature.getLsbD i || decide (i = type)) := by
  unfold Signature.set
  rw [BitVec.getLsbD_or, BitVec.getLsbD_twoPow]
  by_cases h : i = type
  · simp [h, h ▸ hi]
  · simp [h, Ne.symm h]

/-- What the systems are told for each of these behaviors. -/
theorem wp_resetSignatures (callbacks : Callbacks C) (type : ComponentType)
    {w : World C} (hr : Ready w) (hs : w.systems.Ok) (hdepth : w.systems.dispatchDepth = 0)
    {t : TypeRecord C} (ht : w.components.typeRecord type = .ok t) (l : List BehaviorId)
    (hl : l.Nodup) :
    wp (runAll (fun b => captured (resetSignature callbacks type b)) l)
      (fun first w' => first = l.findSome? (resignNotice callbacks w t type.id) ∧ Retold w w' ∧
        (∀ c, w'.behaviorSignatures.find? c =
          if c ∈ l then w.resigned t type.id c else w.behaviorSignatures.find? c) ∧
        (SystemRegistry.Membered w.systems w.behaviorSignatures →
          SystemRegistry.Membered w'.systems w'.behaviorSignatures))
      (fun _ _ => False) w := by
  -- what is known after a part of the behaviors
  have hloop : ∀ (l : List BehaviorId) (w₁ : World C) (t₁ : TypeRecord C), l.Nodup →
      Retold w w₁ → w₁.components.typeRecord type = .ok t₁ → TypeRecord.Revalued t t₁ →
      (∀ c ∈ l, w₁.behaviorSignatures.find? c = w.behaviorSignatures.find? c) →
      (∀ c ∈ l, ∀ joins, firstNotice callbacks joins c w₁.systems =
        firstNotice callbacks joins c w.systems) →
      wp (runAll (fun b => captured (resetSignature callbacks type b)) l)
        (fun first w' => first = l.findSome? (resignNotice callbacks w t type.id) ∧
          Retold w w' ∧
          (∀ c, w'.behaviorSignatures.find? c =
            if c ∈ l then w.resigned t type.id c else w₁.behaviorSignatures.find? c) ∧
          (SystemRegistry.Membered w₁.systems w₁.behaviorSignatures →
            SystemRegistry.Membered w'.systems w'.behaviorSignatures))
        (fun _ _ => False) w₁ := by
    intro l
    induction l with
    | nil =>
        intro w₁ t₁ _ hret _ _ _ _
        unfold runAll
        rw [wp_pure]
        exact ⟨rfl, hret, fun c => by simp, fun h => h⟩
    | cons b l ih =>
        intro w₁ t₁ hnd hret ht₁ hrev hsig hnotice
        obtain ⟨hb, hnd⟩ := List.nodup_cons.mp hnd
        have hs₁ := hret.same.ok hs
        have hd₁ := hret.same.depth.trans hdepth
        have hsame : w₁.behaviorSignature b = w.behaviorSignature b := by
          unfold behaviorSignature
          rw [hsig b List.mem_cons_self]
        have hacc : t₁.accesses = t.accesses := by rw [hrev.rest]
        have hresigned : w₁.resigned t₁ type.id b = w.resigned t type.id b := by
          unfold resigned
          rw [hacc, hsame, hsig b List.mem_cons_self]
        have hresign : resignNotice callbacks w₁ t₁ type.id b =
            resignNotice callbacks w t type.id b := by
          unfold resignNotice
          rw [hacc, hsame, hnotice b List.mem_cons_self]
        unfold runAll
        rw [wp_bind]
        have hrest : ∀ (first : Option Failure) (w₂ : World C),
            first = resignNotice callbacks w t type.id b → Retold w₁ w₂ →
            (∀ c, w₂.behaviorSignatures.find? c =
              if c = b then w₁.resigned t₁ type.id b else w₁.behaviorSignatures.find? c) →
            (∀ c, c ≠ b → ∀ joins, firstNotice callbacks joins c w₂.systems =
              firstNotice callbacks joins c w₁.systems) →
            (SystemRegistry.Membered w₁.systems w₁.behaviorSignatures →
              SystemRegistry.Membered w₂.systems w₂.behaviorSignatures) →
            wp (do
              let later ← runAll (fun b => captured (resetSignature callbacks type b)) l
              return first.or later)
              (fun first w' => first =
                  (b :: l).findSome? (resignNotice callbacks w t type.id) ∧ Retold w w' ∧
                (∀ c, w'.behaviorSignatures.find? c = if c ∈ b :: l then
                  w.resigned t type.id c else w₁.behaviorSignatures.find? c) ∧
                (SystemRegistry.Membered w₁.systems w₁.behaviorSignatures →
                  SystemRegistry.Membered w'.systems w'.behaviorSignatures))
              (fun _ _ => False) w₂ := by
          intro first w₂ hfirst hret₂ hsig₂ hnotice₂ hm₂
          have hcomp₂ : ComponentRegistry.Revalued w₁.components w₂.components :=
            hret₂.tended.quiet.components
          obtain ⟨t₂, ht₂, hrev₂⟩ := hcomp₂.typeRecord ht₁
          have hcb : ∀ c ∈ l, c ≠ b := by
            rintro c hc rfl
            exact hb hc
          rw [wp_bind]
          refine wp_mono (ih w₂ t₂ hnd (hret.trans hret₂) ht₂ (hrev.trans hrev₂)
            (fun c hc => ?_) (fun c hc joins => ?_)) (fun later w' h => ?_) (fun _ _ h => h)
          · rw [hsig₂, if_neg (hcb c hc)]
            exact hsig c (List.mem_cons_of_mem _ hc)
          · rw [hnotice₂ c (hcb c hc)]
            exact hnotice c (List.mem_cons_of_mem _ hc) joins
          · obtain ⟨hlater, hret', hsig', hm'⟩ := h
            rw [wp_pure]
            refine ⟨?_, hret', fun c => ?_, fun hm => hm' (hm₂ hm)⟩
            · rw [hlater, hfirst, List.findSome?_cons]
              cases resignNotice callbacks w t type.id b <;> rfl
            · rw [hsig', hsig₂, hresigned]
              by_cases hc : c = b
              · rw [hc, if_neg hb, if_pos rfl, if_pos List.mem_cons_self]
              · by_cases hcl : c ∈ l
                · rw [if_pos hcl, if_pos (List.mem_cons_of_mem _ hcl)]
                · rw [if_neg hcl, if_neg hc, if_neg]
                  exact fun hm => (List.mem_cons.mp hm).elim hc hcl
        refine wp_captured (wp_mono (wp_resetSignature callbacks hret.ready hs₁ hd₁ ht₁ b)
          (fun _ w₂ h => ?_) (fun e w₂ h => ?_))
        · rw [hresign] at h
          exact hrest none w₂ h.1.symm h.2.1 h.2.2.1 h.2.2.2.1 h.2.2.2.2
        · rw [hresign] at h
          exact hrest (some e) w₂ h.1.symm h.2.1 h.2.2.1 h.2.2.2.1 h.2.2.2.2
  exact hloop l w t hl (.refl hr) ht (.refl t) (fun _ _ => rfl) (fun _ _ _ => rfl)

/-! ## Evidence of a removal -/

end World

/-- The view without one component. -/
def ComponentView.without (view : ComponentView) (type : ComponentTypeId) (name : Bytes) :
    ComponentView := fun t n => if t = type ∧ n = name then none else view t n

/-- Entries about what is left are entries about the whole, and the removal can come last. -/
theorem Describes.removed {l : List ComponentMutation} {view view' : ComponentView}
    {mutation : ComponentMutation}
    (h : Describes l (view.without mutation.target.type mutation.name) view')
    (hkept : ∀ m ∈ l, m.removed = false)
    (hgone : view' mutation.target.type mutation.name = none)
    (hfits : view mutation.target.type mutation.name = some (.ok mutation.before))
    (hremoved : mutation.removed = true) : Describes (l ++ [mutation]) view view' := by
  have happly : ∀ view : ComponentView, mutation.apply view =
      view.without mutation.target.type mutation.name := by
    intro view
    funext t n
    unfold ComponentMutation.apply ComponentView.without
    rw [hremoved]
    rfl
  induction l generalizing view with
  | nil =>
      refine ⟨Or.inl hfits, ?_⟩
      rw [happly]
      exact h
  | cons m l ih =>
      obtain ⟨hfit, hrest⟩ := h
      have hm := hkept m List.mem_cons_self
      -- nothing is written where the component was, because nothing is there in the end
      have hne : ¬(mutation.target.type = m.target.type ∧ mutation.name = m.name) := by
        intro heq
        have hstay : ∀ (l : List ComponentMutation) (v : ComponentView),
            (∀ m ∈ l, m.removed = false) →
            v mutation.target.type mutation.name ≠ none → Describes l v view' → False := by
          intro l
          induction l with
          | nil =>
              intro v _ hv hd
              cases hd
              exact hv hgone
          | cons k l ihl =>
              intro v hk hv hd
              refine ihl _ (fun m hm => hk m (List.mem_cons_of_mem _ hm)) ?_ hd.2
              unfold ComponentMutation.apply
              rw [hk k List.mem_cons_self]
              split
              · simp
              · exact hv
        refine hstay l _ (fun k hk => hkept k (List.mem_cons_of_mem _ hk)) ?_ hrest
        unfold ComponentMutation.apply
        rw [hm, if_pos heq]
        simp
      have hne' : ¬(m.target.type = mutation.target.type ∧ m.name = mutation.name) :=
        fun hc => hne ⟨hc.1.symm, hc.2.symm⟩
      have hat : view.without mutation.target.type mutation.name m.target.type m.name =
          view m.target.type m.name := if_neg hne'
      refine ⟨?_, ih ?_ (fun k hk => hkept k (List.mem_cons_of_mem _ hk)) ?_⟩
      · unfold ComponentMutation.Fits at hfit ⊢
        rw [hat] at hfit
        exact hfit
      · have hcomm : (m.apply view).without mutation.target.type mutation.name =
            m.apply (view.without mutation.target.type mutation.name) := by
          funext t n
          unfold ComponentView.without ComponentMutation.apply
          rw [hm]
          dsimp only
          by_cases hk : t = mutation.target.type ∧ n = mutation.name
          · rw [if_pos hk, if_neg, if_pos hk]
            rintro ⟨h1, h2⟩
            exact hne ⟨hk.1 ▸ h1, hk.2 ▸ h2⟩
          · rw [if_neg hk, if_neg hk]
        rw [hcomm]
        exact hrest
      · unfold ComponentMutation.apply
        rw [if_neg hne]
        exact hfits

namespace World

/-- The component is gone, and its removal is still to be recorded. -/
structure Erased (w : World C) (type : ComponentTypeId) (name : Bytes) (w' : World C) : Prop where
  ok : Ok w'
  content : w'.content = (Change.removeComponent type name).apply w.content
  evidence : w'.evidenceLost = w.evidenceLost →
    w'.topologyMutations = w.topologyMutations ∧
      ∃ l, w'.componentMutations = w.componentMutations ++ l ∧ (∀ m ∈ l, m.removed = false) ∧
        Describes l (ComponentView.without w.components.encoded type name)
          w'.components.encoded
  intents : ∃ l, IntentRegistry.Steps l w.intents w'.intents ∧
    ∀ e ∈ l, e.created = true → e.intent.encodedValue.validate = .ok ()
  lost : w.evidenceLost ≤ w'.evidenceLost
  revised : Revised w w'
  authority : w'.intents.slotWraps = 0 → Authority w → Authority w'
  settled : w'.intents.capacityErrors = w.intents.capacityErrors → Settled w → Settled w'

theorem Erased.gone {w w' : World C} {type : ComponentTypeId} {name : Bytes}
    (h : Erased w type name w') : w'.components.slots type name = none := by
  have := congrFun₂ (congrArg Content.slots h.content) type name
  exact this.trans (if_pos ⟨rfl, rfl⟩)

theorem Erased.encoded_gone {w w' : World C} {type : ComponentTypeId} {name : Bytes}
    (h : Erased w type name w') : w'.components.encoded type name = none := by
  have hgone := h.gone
  unfold ComponentRegistry.slots at hgone
  unfold ComponentRegistry.encoded
  cases ht : w'.components.types.find? type with
  | none => rfl
  | some t =>
      rw [ht, Option.bind_some] at hgone
      rw [Option.bind_some, hgone]
      rfl

/-- With the removal's own entry, if the component has a codec, the evidence is complete. -/
theorem Erased.lawful {w w' : World C} {type : ComponentTypeId} {name : Bytes}
    (h : Erased w type name w') (slot : ComponentSlotId) {encoded : Option Value}
    (henc : w.components.encoded type name = encoded.map Except.ok) :
    Lawful w { w' with componentMutations := w'.componentMutations ++
        encoded.toList.map fun value => ⟨⟨type, slot⟩, name, value, .null, true⟩ }
      ((Change.removeComponent type name).apply w.content) [] := by
  refine ⟨⟨h.ok.evidence _ w'.topologyMutations w'.evidenceLost, h.content, fun hlost => ?_,
    h.intents, h.lost, ⟨h.revised.last, h.revised.access⟩⟩, h.authority, fun hc hs => ?_⟩
  · obtain ⟨htop, l, hbuf, hkept, hd⟩ := h.evidence hlost
    refine ⟨?_, l ++ encoded.toList.map fun value => ⟨⟨type, slot⟩, name, value, .null, true⟩,
      ?_, ?_⟩
    · rw [List.append_nil]
      exact htop
    · dsimp only
      rw [hbuf, List.append_assoc]
    · cases encoded with
      | none =>
          have hsame : ComponentView.without w.components.encoded type name =
              w.components.encoded := by
            funext t n
            unfold ComponentView.without
            split
            · next hc =>
                rw [hc.1, hc.2, henc]
                rfl
            · rfl
          rw [hsame] at hd
          rw [Option.toList_none, List.map_nil, List.append_nil]
          exact hd
      | some value => exact hd.removed hkept h.encoded_gone henc rfl
  · have := h.settled hc hs
    exact ⟨this.signed, this.revised, this.pooled, this.bits⟩

theorem Erased.refused {w w' : World C} {type : ComponentTypeId} {name : Bytes}
    (h : Erased w type name w') :
    Lawful w w'.loseEvidence ((Change.removeComponent type name).apply w.content) [] := by
  have hle := h.lost
  refine ⟨⟨h.ok.evidence w'.componentMutations w'.topologyMutations _, h.content,
    fun hlost => ?_, h.intents, hle.trans (Nat.le_succ _),
    ⟨h.revised.last, h.revised.access⟩⟩, h.authority, fun hc hs => ?_⟩
  · have hlost' : w'.evidenceLost + 1 = w.evidenceLost := hlost
    omega
  · have := h.settled hc hs
    exact ⟨this.signed, this.revised, this.pooled, this.bits⟩

/-- Access by type, for one type's record exchanged. -/
theorem access_of_put {w : World C} (h : w.components.Ok) {type : ComponentType}
    {t t' : TypeRecord C} (ht : w.components.typeRecord type = .ok t)
    (ht' : t'.Ok w.components.worldId) (b : BehaviorId) (id : ComponentTypeId) :
    ((∃ name, (w.components.put type.id t').access b id name ≠ none) ↔
      if id = type.id then t'.accesses.contains b = true
      else ∃ name, w.components.access b id name ≠ none) ∧
    ((∃ name, w.components.access b type.id name ≠ none) ↔ t.accesses.contains b = true) := by
  have hfind := ComponentRegistry.typeRecord_eq_ok ht
  constructor
  · simp only [ComponentRegistry.access_put]
    by_cases hid : id = type.id
    · simp only [hid, if_true]
      exact (ht'.contains_iff b).symm
    · simp only [hid, if_false]
  · rw [(h.types _ t hfind).contains_iff b]
    unfold ComponentRegistry.access
    rw [hfind]
    rfl

/-- The registries with the component removed and its revisions written; the systems are still
    to be told. -/
structure Dropped (w v : World C) (type : ComponentType) (name : Bytes) (slot : ComponentSlotId)
    (t t' : TypeRecord C) (revisions : List (BehaviorId × UInt64)) : Prop where
  record : w.components.typeRecord type = .ok t
  named : t.names.find? name = some slot
  removed : TypeRecord.Removed w.components.worldId t name slot t'
  rest : v = { w with
    lastBehaviorAccessRevision := v.lastBehaviorAccessRevision
    intents := v.intents
    components := w.components.put type.id t'
    behaviorAccessRevisions := v.behaviorAccessRevisions }
  last : w.lastBehaviorAccessRevision ≤ v.lastBehaviorAccessRevision
  drawn : revisions.map Prod.fst = (ComponentRegistry.behaviorsWithAccess t).filter (fun b =>
    w.components.canRead type b slot || w.components.canWrite type b slot)
  fresh : ∀ e ∈ revisions, w.behaviorAccessRevisions.contains e.1 = true ∧
    w.lastBehaviorAccessRevision < e.2 ∧ e.2 ≤ v.lastBehaviorAccessRevision
  culled : IntentRegistry.Culled (fun i => i.target = ⟨type.id, slot⟩) w.intents v.intents
  gone : v.intents.slotWraps = 0 →
    ∀ id i, v.intents.record? id = some i → i.target ≠ ⟨type.id, slot⟩
  written : ∀ b revision, v.behaviorAccessRevisions.find? b = some revision →
    (b, revision) ∈ revisions ∨
      (b ∉ revisions.map Prod.fst ∧ w.behaviorAccessRevisions.find? b = some revision)
  all : ∀ b, w.behaviorAccessRevisions.contains b = true →
    v.behaviorAccessRevisions.contains b = true

section Dropped

variable {w v w' : World C} {type : ComponentType} {name : Bytes} {slot : ComponentSlotId}
  {t t' : TypeRecord C} {revisions : List (BehaviorId × UInt64)}

theorem Dropped.found (h : Dropped w v type name slot t t' revisions) :
    w.components.types.find? type.id = some t := ComponentRegistry.typeRecord_eq_ok h.record

theorem Dropped.held (h : Dropped w v type name slot t t' revisions) (hw : Ok w) : Held v := by
  obtain ⟨l, hmoved, _⟩ := h.culled.moved
  have hput := hw.held.put h.record h.removed.ok fun b hc =>
    hw.held.holders _ t b h.found (h.removed.holders b hc)
  rw [h.rest]
  exact
    { hput with
      ready := ⟨hput.ready.components, hmoved.coherent,
        hmoved.transaction.trans hw.held.ready.idle, hw.held.ready.inactive⟩
      revised := fun b hc => hw.held.revised b
        (setRevisions_contains h.written (fun e he => (h.fresh e he).1) hc)
      pooled := fun b hp => hw.held.pooled b (hmoved.pools b ▸ hp) }

theorem Dropped.content (h : Dropped w v type name slot t t' revisions) (hw : Ok w) :
    v.content = (Change.removeComponent type.id name).apply w.content := by
  rw [h.rest]
  exact content_remove hw.held.ready.components h.record h.named h.removed

theorem Dropped.encoded (h : Dropped w v type name slot t t' revisions) (hw : Ok w) :
    v.components.encoded = ComponentView.without w.components.encoded type.id name := by
  have htok := hw.held.ready.components.types _ t h.found
  funext id n
  rw [h.rest]
  dsimp only
  rw [ComponentRegistry.encoded_put]
  unfold ComponentView.without
  by_cases hid : id = type.id
  · rw [if_pos hid, h.removed.encodedNamed htok h.named, hid,
      ComponentRegistry.encoded_eq h.found]
    by_cases hn : n = name <;> simp [hn]
  · rw [if_neg hid, if_neg fun hc => hid hc.1]

/-- Who has no new revision had no access to the component. -/
theorem Dropped.unaffected (h : Dropped w v type name slot t t' revisions) (hw : Ok w)
    {b : BehaviorId} (hnot : b ∉ revisions.map Prod.fst) :
    w.components.access b type.id name = none := by
  have hcomp := hw.held.ready.components
  have htok := hcomp.types _ t h.found
  unfold ComponentRegistry.access
  rw [h.found, Option.bind_some]
  by_contra hne
  refine hnot ?_
  rw [h.drawn, List.mem_filter, htok.mem_behaviorsWithAccess]
  refine ⟨(htok.contains_iff b).mpr ⟨name, hne⟩, ?_⟩
  obtain ⟨hread, hwrite⟩ := canRead_named hcomp h.record h.named b
  rw [hread, hwrite, ← accessNamed_isSome h.named b]
  exact Option.isSome_iff_ne_none.mpr hne

theorem Dropped.revised (h : Dropped w v type name slot t t' revisions) (hw : Ok w) :
    Revised w v := by
  refine ⟨h.last, fun b revision hf => ?_⟩
  rcases h.written b revision hf with hin | ⟨hout, hold⟩
  · exact Or.inr (h.fresh _ hin).2
  · refine Or.inl ⟨hold, fun id n => ?_⟩
    have hcontent := h.content hw
    have hacc : v.components.access b id n =
        if id = type.id ∧ n = name then none else w.components.access b id n :=
      congrFun₃ (congrArg Content.access hcontent) b id n
    have hslots : v.components.slots id n =
        if id = type.id ∧ n = name then none else w.components.slots id n :=
      congrFun₂ (congrArg Content.slots hcontent) id n
    rw [hacc, hslots]
    by_cases hc : id = type.id ∧ n = name
    · rw [if_pos hc, hc.1, hc.2, h.unaffected hw hout]
      exact ⟨rfl, fun hne => absurd rfl hne⟩
    · rw [if_neg hc, if_neg hc]
      exact ⟨rfl, fun _ => rfl⟩

/-- The intents that are left have other targets, and their owners still write those. -/
theorem Dropped.authority (h : Dropped w v type name slot t t' revisions) (hw : Ok w)
    (h0 : v.intents.slotWraps = 0) (ha : Authority w) : Authority v := by
  intro id i hi
  obtain ⟨hex, t₁, ht₁, hwrites⟩ :=
    (authorized_iff hw.held.ready.components).mp (ha id i (h.culled.back id i hi))
  refine (authorized_iff (h.held hw).ready.components).mpr ?_
  have hex' : v.behaviors.exist i.owner = true := by
    rw [h.rest]
    exact hex
  have hcomp : v.components = w.components.put type.id t' := by rw [h.rest]
  rw [hcomp]
  refine ⟨hex', ?_⟩
  unfold ComponentRegistry.put
  dsimp only
  by_cases hid : i.target.type = type.id
  · refine ⟨t', by rw [hid, OrdMap.find?_insert_self], ?_⟩
    rw [hid, h.found] at ht₁
    cases ht₁
    have hne : i.target.slot ≠ slot := by
      intro hs
      refine h.gone h0 id i hi ?_
      rw [← hid, ← hs]
    rw [TypeRecord.writes_eq] at hwrites ⊢
    rw [h.removed.allows, hwrites]
    simp [hne]
  · exact ⟨t₁, by rw [OrdMap.find?_insert_ne _ hid]; exact ht₁, hwrites⟩

/-- The bits of the signatures once `resetSignatures` has written them. -/
theorem Dropped.bits (h : Dropped w v type name slot t t' revisions) (hw : Ok w)
    (hs : Settled w) {c : BehaviorId} {signature : Signature}
    (hf : (if c ∈ ComponentRegistry.behaviorsWithAccess t then v.resigned t' type.id c
      else w.behaviorSignatures.find? c) = some signature) {id : ComponentTypeId}
    (hid : id < 64) :
    signature.getLsbD id = true ↔
      ∃ n, (w.components.put type.id t').access c id n ≠ none := by
  have hcomp := hw.held.ready.components
  have haffected := (hcomp.types _ t h.found).mem_behaviorsWithAccess c
  obtain ⟨hafter, hbefore⟩ := access_of_put hcomp h.record h.removed.ok c id
  rw [hafter]
  by_cases hin : c ∈ ComponentRegistry.behaviorsWithAccess t
  · have hholds := haffected.mp hin
    have hsig : v.behaviorSignatures = w.behaviorSignatures := by rw [h.rest]
    unfold resigned behaviorSignature at hf
    rw [if_pos hin, hsig] at hf
    by_cases hstill : t'.accesses.contains c = true
    · rw [if_pos hstill] at hf
      rw [hs.bits c signature hf id hid]
      by_cases hidt : id = type.id
      · rw [if_pos hidt, hidt, hbefore, hholds, hstill]
      · rw [if_neg hidt]
    · rw [if_neg hstill] at hf
      cases hf
      obtain ⟨old, hold⟩ := Option.isSome_iff_exists.mp
        (hs.signed c (hw.held.holders _ t c h.found hholds))
      rw [hold, Option.getD_some, getLsbD_reset _ _ _ hid]
      by_cases hidt : id = type.id
      · rw [if_pos hidt, hidt]
        simp [hstill]
      · rw [if_neg hidt, ← hs.bits c old hold id hid]
        simp [hidt]
  · rw [if_neg hin] at hf
    rw [hs.bits c signature hf id hid]
    by_cases hidt : id = type.id
    · rw [if_pos hidt, hidt, hbefore]
      -- who had no access to the type still has none
      have hno : ¬t.accesses.contains c = true := fun hc => hin (haffected.mpr hc)
      exact ⟨fun hc => absurd hc hno, fun hc => h.removed.holders c hc⟩
    · rw [if_neg hidt]

theorem Dropped.settled (h : Dropped w v type name slot t t' revisions) (hw : Ok w)
    (hret : Retold v w')
    (hsig : ∀ c, w'.behaviorSignatures.find? c =
      if c ∈ ComponentRegistry.behaviorsWithAccess t then v.resigned t' type.id c
      else v.behaviorSignatures.find? c) (hs : Settled w) : Settled w' := by
  have hq := hret.tended.quiet
  have hb : w'.behaviors = w.behaviors := by rw [hq.rest, h.rest]
  have hrev : w'.behaviorAccessRevisions = v.behaviorAccessRevisions := by rw [hq.rest]
  have hvsig : v.behaviorSignatures = w.behaviorSignatures := by rw [h.rest]
  have hvcomp : v.components = w.components.put type.id t' := by rw [h.rest]
  have hrevalued : ComponentRegistry.Revalued v.components w'.components := hq.components
  obtain ⟨l, hmoved, _⟩ := h.culled.moved
  obtain ⟨entries, hmoved', _⟩ := hret.tended.intended
  rw [hvsig] at hsig
  refine ⟨fun c he => ?_, fun c he => ?_, fun c he => ?_, fun c signature hf id hid => ?_⟩
  · have hold := hs.signed c (hb ▸ he)
    rw [OrdMap.contains, hsig]
    split
    · unfold resigned
      rw [hvsig]
      split
      · exact hold
      · rfl
    · exact hold
  · rw [hrev]
    exact h.all c (hs.revised c (hb ▸ he))
  · rw [hmoved'.pools]
    show v.intents.byOwner.contains c = true
    rw [hmoved.pools]
    exact hs.pooled c (hb ▸ he)
  · rw [hrevalued.access, hvcomp]
    exact h.bits hw hs ((hsig c).symm.trans hf) hid

/-- The systems have been told of it. -/
theorem Dropped.erased (h : Dropped w v type name slot t t' revisions) (hw : Ok w)
    (hret : Retold v w')
    (hsig : ∀ c, w'.behaviorSignatures.find? c =
      if c ∈ ComponentRegistry.behaviorsWithAccess t then v.resigned t' type.id c
      else v.behaviorSignatures.find? c)
    (hmem : SystemRegistry.Membered w'.systems w'.behaviorSignatures) :
    Erased w type.id name w' where
  ok := by
    have hb : w'.behaviors = w.behaviors := by rw [hret.tended.quiet.rest, h.rest]
    have htok := hw.held.ready.components.types _ t h.found
    refine ⟨hret.held (h.held hw), fun c hc => ?_, hmem⟩
    rw [hb]
    rw [OrdMap.contains, hsig] at hc
    split at hc
    · next hin => exact hw.held.holders _ t c h.found ((htok.mem_behaviorsWithAccess c).mp hin)
    · rw [h.rest] at hc
      exact hw.signed c hc
  content := hret.content.trans (h.content hw)
  evidence hlost := by
    have hsame : w'.evidenceLost = v.evidenceLost := by rw [hlost, h.rest]
    obtain ⟨htop, entries, hbuf, hkept, hdesc⟩ := hret.tended.quiet.evidence hsame
    refine ⟨?_, entries, ?_, hkept, ?_⟩
    · rw [h.rest] at htop
      exact htop
    · rw [hbuf, h.rest]
    · rw [← h.encoded hw]
      exact hdesc
  intents := by
    obtain ⟨l, hmoved, hd⟩ := h.culled.moved
    obtain ⟨l', hmoved', hauth⟩ := hret.tended.intended
    refine ⟨l ++ l', hmoved.steps.trans hmoved'.steps, fun e he hc => ?_⟩
    rcases List.mem_append.mp he with he | he
    · rw [hd e he] at hc
      cases hc
    · exact (hauth e he hc).2
  lost := by
    have hlost : v.evidenceLost ≤ w'.evidenceLost := hret.tended.quiet.lost
    rw [h.rest] at hlost
    exact hlost
  revised := (h.revised hw).retold hret
  authority h0 ha := hret.authority (h.authority hw (hret.unwrapped h0) ha)
  settled _ hs := h.settled hw hret hsig hs

end Dropped

/-- `Coordinator::remove_component` removes the component, or leaves it there. -/
theorem wp_eraseComponent (callbacks : Callbacks C) {w : World C} (h : Ok w)
    (type : ComponentType) (name : Bytes) :
    wp (eraseComponent callbacks type name)
      (fun _ w' => Erased w type.id name w')
      (fun _ w' => (Lawful w w' w.content [] ∧ Unchanged w w' ∧ w'.components = w.components) ∨
        Erased w type.id name w') w := by
  have hcomp := h.held.ready.components
  unfold eraseComponent
  rw [wp_bind, wp_get, wp_bind, wp_lift]
  refine ⟨fun t ht => ?_, fun e _ => Or.inl ⟨.refl h, .refl w, rfl⟩⟩
  rw [wp_bind, wp_lift]
  refine ⟨fun slot hslot => ?_, fun e _ => Or.inl ⟨.refl h, .refl w, rfl⟩⟩
  have hname := ComponentRegistry.namedSlot_eq_ok.mp hslot
  have hfind := ComponentRegistry.typeRecord_eq_ok ht
  have htok := hcomp.types _ t hfind
  rw [wp_bind]
  refine wp_mono (wp_drawRevisions type slot _ w) (fun revisions w₁ h₁ => ?_) (fun e w₁ h₁ => ?_)
  swap
  · obtain ⟨last, rfl, hle⟩ := h₁
    exact Or.inl ⟨.drawn h hle, ⟨rfl, rfl, rfl, rfl⟩, rfl⟩
  obtain ⟨last, hw₁, hle, hdrawn, hfresh⟩ := h₁
  have hok₁ : Ok w₁ := hw₁ ▸ h.drawn last
  rw [wp_bind]
  refine wp_destroyIntentsForTarget hok₁.held type.id slot (fun r hculled hcap hgone => ?_)
    (fun e r hculled hcap => Or.inl ?_)
  swap
  · have hshed := Lawful.shed hok₁ hculled
    have hw₁i : w₁.intents = w.intents := by rw [hw₁]
    refine ⟨?_, ?_, by rw [hw₁]⟩
    · have hdrawn' := Lawful.drawn h hle
      rw [← hw₁] at hdrawn'
      obtain ⟨⟨hok', hcontent, hevidence, hint, _, _⟩, hauth, _⟩ := hshed
      refine ⟨⟨hok', ?_, ?_, ?_, ?_, ?_⟩, fun h0 ha =>
        hauth h0 (hdrawn'.authority (hculled.unwrapped h0) ha), fun he _ => ?_⟩
      · rw [hcontent, hw₁]
        rfl
      · rw [hw₁] at hevidence ⊢
        exact hevidence
      · rw [hw₁] at hint ⊢
        exact hint
      · rw [hw₁]
      · refine ⟨by rw [hw₁]; exact hle, fun b revision hf => Or.inl ?_⟩
        rw [hw₁] at hf ⊢
        exact ⟨hf, fun _ _ => ⟨rfl, fun _ => rfl⟩⟩
      · rw [hw₁i] at hcap
        exact absurd he (Nat.ne_of_gt hcap)
    · rw [hw₁]
      exact ⟨rfl, rfl, rfl, rfl⟩
  have hw₁c : w₁.components = w.components := by rw [hw₁]
  have hw₁i : w₁.intents = w.intents := by rw [hw₁]
  rw [hw₁i] at hculled hcap
  rw [wp_bind, wp_onComponents]
  dsimp only
  rw [hw₁c]
  refine ComponentRegistry.wp_removeComponent hcomp (fun t₁ slot₁ t' ht₁ hname₁ hremoved => ?_)
    (fun e hno => ?_)
  swap
  · have := hno t ht
    rw [hname] at this
    cases this
  rw [ht] at ht₁
  cases ht₁
  rw [hname] at hname₁
  cases hname₁
  rw [wp_bind]
  refine wp_mono (wp_setRevisions revisions _ (E := fun _ _ => False)) (fun _ v hv => ?_)
    (fun _ _ hf => hf.elim)
  obtain ⟨m, hv, hm, hall⟩ := hv
  rw [hw₁] at hv hm hall
  dsimp only at hv hm hall
  have hdropped : Dropped w v type name slot t t' revisions := by
    rw [hv]
    exact
      { record := ht
        named := hname
        removed := hremoved
        rest := rfl
        last := hle
        drawn := hdrawn
        fresh := hfresh
        culled := hculled
        gone := hgone
        written := hm
        all := hall }
  have hheld := hdropped.held h
  have htype : v.components.typeRecord type = .ok t' := by
    rw [hv]
    exact ComponentRegistry.typeRecord_put ht hremoved.schema.1
  rw [wp_bind]
  refine wp_mono (wp_resetSignatures callbacks type hheld.ready hheld.systems hheld.depth htype
    (ComponentRegistry.behaviorsWithAccess t) (ComponentRegistry.nodup_behaviorsWithAccess t))
    (fun first w' h' => ?_) (fun _ _ hf => hf.elim)
  obtain ⟨_, hret, hsig, hmem⟩ := h'
  have hvm : SystemRegistry.Membered v.systems v.behaviorSignatures := by
    rw [hv]
    exact h.membered
  have herased := hdropped.erased h hret hsig (hmem hvm)
  exact wp_rethrow (fun _ => herased) (fun _ _ => Or.inr herased)

theorem hasComponentNamed_of_slots {w : World C} {type : ComponentType} {name : Bytes}
    (h : w.components.slots type.id name = none) :
    w.components.hasComponentNamed type name = false := by
  unfold ComponentRegistry.hasComponentNamed
  cases hs : w.components.componentSlot type name with
  | error e => rfl
  | ok slot =>
      obtain ⟨t, ht, hname⟩ := ComponentRegistry.componentSlot_eq_ok hs
      unfold ComponentRegistry.slots at h
      rw [ComponentRegistry.typeRecord_eq_ok ht, Option.bind_some, hname] at h
      cases h

theorem hasComponentNamed_of_ok {w : World C} (h : w.components.Ok) {type : ComponentType}
    {name : Bytes} {slot : ComponentSlotId}
    (hs : w.components.componentSlot type name = .ok slot) :
    w.components.hasComponentNamed type name = true := by
  obtain ⟨t, ht, hname⟩ := ComponentRegistry.componentSlot_eq_ok hs
  have hfind := ComponentRegistry.typeRecord_eq_ok ht
  have htok := h.types _ t hfind
  unfold ComponentRegistry.hasComponentNamed
  rw [hs]
  dsimp only
  unfold ComponentRegistry.slotIsCurrent
  rw [hfind]
  exact (htok.live slot name ((htok.inverse name slot).mp hname)).1

/-- A component is removed and recorded, also when callbacks threw; or it is still there; or a
    buffer was full. -/
theorem wp_removeComponent (callbacks : Callbacks C) {w : World C} (h : Ok w)
    (type : ComponentType) (name : Bytes) :
    wp (removeComponent callbacks type name)
      (fun _ w' => Lawful w w' ((Change.removeComponent type.id name).apply w.content)
        [(Change.removeComponent type.id name).entry])
      (fun _ w' => (Lawful w w' w.content [] ∧ Unchanged w w') ∨
        Lawful w w' ((Change.removeComponent type.id name).apply w.content)
          [(Change.removeComponent type.id name).entry] ∨
        (Lawful w w' ((Change.removeComponent type.id name).apply w.content) [] ∧
          w.evidenceLost < w'.evidenceLost)) w := by
  have hcomp := h.held.ready.components
  unfold removeComponent
  rw [wp_bind]
  refine wp_ensureStructuralMutationAllowed h.held ?_
  rw [wp_bind, wp_get, wp_bind, wp_lift]
  refine ⟨fun slot hslot => ?_, fun e _ => Or.inl ⟨.refl h, .refl w⟩⟩
  obtain ⟨t, ht, hname⟩ := ComponentRegistry.componentSlot_eq_ok hslot
  have hfind := ComponentRegistry.typeRecord_eq_ok ht
  have hthere := hasComponentNamed_of_ok hcomp hslot
  -- once the value is encoded: remove, and record what is gone
  have hrest : ∀ encoded : Option Value,
      w.components.encoded type.id name = encoded.map Except.ok →
      wp (do
        let recordRemoval : WorldM C Unit := do
          recordOptional (fun encoded => ⟨⟨type.id, slot⟩, name, encoded, .null, true⟩) encoded
          recordTombstone (componentKey type.id name)
        tryCatch (eraseComponent callbacks type name) fun e => do
          if !(← get).components.hasComponentNamed type name then recordRemoval
          throw e
        recordRemoval)
        (fun _ w' => Lawful w w' ((Change.removeComponent type.id name).apply w.content)
          [(Change.removeComponent type.id name).entry])
        (fun _ w' => (Lawful w w' w.content [] ∧ Unchanged w w') ∨
          Lawful w w' ((Change.removeComponent type.id name).apply w.content)
            [(Change.removeComponent type.id name).entry] ∨
          (Lawful w w' ((Change.removeComponent type.id name).apply w.content) [] ∧
            w.evidenceLost < w'.evidenceLost)) w := by
    intro encoded henc
    have hrecord : ∀ (w₁ : World C) (Q : Unit → World C → Prop) (E : Failure → World C → Prop),
        Erased w type.id name w₁ →
        (∀ w', Lawful w w' ((Change.removeComponent type.id name).apply w.content)
          [(Change.removeComponent type.id name).entry] → Q () w') →
        (∀ e w', Lawful w w' ((Change.removeComponent type.id name).apply w.content) [] →
          w.evidenceLost < w'.evidenceLost → E e w') →
        wp (do
          recordOptional (fun encoded => ⟨⟨type.id, slot⟩, name, encoded, .null, true⟩) encoded
          recordTombstone (componentKey type.id name)) Q E w₁ := by
      intro w₁ Q E herased hQ hE
      rw [wp_bind]
      refine wp_recordOptional ?_ (fun e => ?_)
      · have hl := herased.lawful slot henc
        refine wp_recordTombstone (Change.removeComponent type.id name) rfl (fun _ => ?_)
          (fun e _ => ?_)
        · exact hQ _ (hl.recorded _)
        · exact hE e _ hl.refused (Nat.lt_succ_of_le hl.outcome.lost)
      · exact hE e _ herased.refused (Nat.lt_succ_of_le herased.lost)
    rw [wp_bind, wp_tryCatch]
    refine wp_mono (wp_eraseComponent callbacks h type name) (fun _ w₁ h₁ => ?_)
      (fun e w₁ h₁ => ?_)
    · exact hrecord w₁ _ _ h₁ (fun w' hl => hl) (fun e w' hl hc => Or.inr (Or.inr ⟨hl, hc⟩))
    · rw [wp_bind, wp_get]
      rcases h₁ with ⟨hl, hu, hsame⟩ | herased
      · rw [hsame, hthere, if_neg (by simp), wp_throw]
        exact Or.inl ⟨hl, hu⟩
      · rw [hasComponentNamed_of_slots herased.gone, if_pos (by simp)]
        rw [wp_bind]
        refine hrecord w₁ _ _ herased (fun w' hl => ?_) (fun e w' hl hc => Or.inr (Or.inr ⟨hl, hc⟩))
        rw [wp_throw]
        exact Or.inr (Or.inl hl)
  rw [wp_bind, wp_lift]
  refine ⟨fun has hhas => ?_, fun e _ => Or.inl ⟨.refl h, .refl w⟩⟩
  obtain ⟨t₁, ht₁, hhas⟩ := bind_eq_ok hhas
  rw [ht] at ht₁
  cases ht₁
  cases hhas
  have hview : w.components.encoded type.id name =
      t.codec.bind fun codec => (t.get? slot.slot).map codec.encode := by
    rw [ComponentRegistry.encoded_eq hfind]
    unfold TypeRecord.encodedNamed
    rw [hname]
    rfl
  by_cases hc : t.codec.isSome = true
  · rw [if_pos hc, wp_bind, wp_lift]
    refine ⟨fun found hfound => ?_, fun e _ => Or.inl ⟨.refl h, .refl w⟩⟩
    cases found with
    | none =>
        dsimp only
        rw [wp_bind, wp_throw]
        exact Or.inl ⟨.refl h, .refl w⟩
    | some component =>
        dsimp only
        rw [wp_bind, wp_lift]
        refine ⟨fun value hvalue => ?_, fun e _ => Or.inl ⟨.refl h, .refl w⟩⟩
        rw [wp_bind, wp_pure]
        refine hrest (some value) ?_
        obtain ⟨s, hs, hres⟩ := bind_eq_ok hfound
        rw [hslot] at hs
        cases hs
        obtain ⟨t₂, ht₂, _, hget⟩ := ComponentRegistry.resolveComponent_eq_ok hres
        rw [ht] at ht₂
        cases ht₂
        obtain ⟨t₃, codec, ht₃, hcodec, henc, _⟩ := ComponentRegistry.encodeComponent_eq_ok hvalue
        rw [ht] at ht₃
        cases ht₃
        rw [hview, hcodec, ← hget, Option.bind_some, Option.map_some, henc]
        rfl
  · rw [if_neg hc, wp_bind, wp_pure]
    refine hrest none ?_
    rw [hview]
    cases hcodec : t.codec with
    | none => rfl
    | some codec =>
        rw [hcodec] at hc
        exact absurd rfl hc

end World

end LiquidLayer
