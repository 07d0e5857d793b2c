/-
  `grant_component_access` and `revoke_component_access`.

  Both write the access, the revision and the signature before the systems are told, and record
  the change last. What a callback throws is passed on with the change made and not recorded.
  A read grant writes the access before it destroys the intents that lose their right to it.
-/
import LiquidLayer.World.Removal

namespace LiquidLayer

open Prog

variable {C : Type}

namespace World

/-! ## The revision of one behavior -/

/-- The draw of a revision that is made only when the access changes. -/
structure Drawn (w : World C) (b : BehaviorId) (changes : Bool) (revision last : UInt64) :
    Prop where
  le : w.lastBehaviorAccessRevision ≤ last
  drawable : changes = true → Drawable w b
  fresh : changes = true → w.lastBehaviorAccessRevision < revision ∧ revision = last
  same : changes = false → last = w.lastBehaviorAccessRevision

theorem wp_drawThen {α : Type} {w : World C} {b : BehaviorId} {changes : Bool}
    {f : UInt64 → WorldM C α} {Q : α → World C → Prop} {E : Failure → World C → Prop}
    (hok : ∀ revision last, Drawn w b changes revision last →
      wp (f revision) Q E { w with lastBehaviorAccessRevision := last })
    (herr : ∀ e, changes = true → ¬Drawable w b → E e w) :
    wp (if changes then drawRevision b >>= f else pure 0 >>= f) Q E w := by
  cases changes with
  | true =>
      rw [if_pos rfl, wp_bind]
      refine wp_drawRevision (fun hd hlt => ?_) (fun e hd => herr e rfl hd)
      exact hok _ _ ⟨le_of_lt hlt, fun _ => hd, fun _ => ⟨hlt, rfl⟩, fun h => by cases h⟩
  | false =>
      rw [if_neg (by decide), wp_bind, wp_pure]
      exact hok _ _ ⟨le_refl _, fun h => (by cases h), fun h => (by cases h), fun _ => rfl⟩

/-- The revisions once the drawn one has been written. -/
def withRevision (w : World C) (b : BehaviorId) (changes : Bool) (revision : UInt64) :
    OrdMap BehaviorId UInt64 :=
  if changes then w.behaviorAccessRevisions.insert b revision else w.behaviorAccessRevisions

theorem wp_setThen {α : Type} {w : World C} {b : BehaviorId} {changes : Bool}
    {revision : UInt64} {g : Unit → WorldM C α} {Q : α → World C → Prop}
    {E : Failure → World C → Prop}
    (h : wp (g ()) Q E { w with behaviorAccessRevisions := w.withRevision b changes revision }) :
    wp (if changes then setRevision b revision >>= g else g ()) Q E w := by
  cases changes with
  | true =>
      rw [if_pos rfl, wp_bind]
      unfold setRevision
      rw [wp_modify]
      exact h
  | false =>
      rw [if_neg (by decide)]
      exact h

theorem Drawn.revisions {w : World C} {b : BehaviorId} {changes : Bool} {revision last : UInt64}
    (h : Drawn w b changes revision last) :
    (w.withRevision b changes revision = w.behaviorAccessRevisions ∧
      last = w.lastBehaviorAccessRevision ∧ changes = false) ∨
    (w.withRevision b changes revision = w.behaviorAccessRevisions.insert b revision ∧
      w.lastBehaviorAccessRevision < revision ∧ revision = last) := by
  cases changes with
  | true => exact Or.inr ⟨rfl, h.fresh rfl⟩
  | false => exact Or.inl ⟨rfl, h.same rfl, rfl⟩

/-! ## One access changed -/

/-- The registries with one access exchanged, before the systems are told. -/
structure Exchanged (w : World C) (type : ComponentType) (b : BehaviorId) (name : Bytes)
    (slot : ComponentSlotId) (t t' : TypeRecord C) (mode : Option ComponentAccessMode)
    (v : World C) : Prop where
  typed : w.components.typeRecord type = .ok t
  named : t.names.find? name = some slot
  live : w.behaviors.exist b = true
  known : mode ≠ some .unknown
  record : TypeRecord.Reaccessed w.components.worldId t b slot mode t'
  rest : v = { w with
    lastBehaviorAccessRevision := v.lastBehaviorAccessRevision
    intents := v.intents
    components := w.components.put type.id t'
    behaviorAccessRevisions := v.behaviorAccessRevisions }
  revisions : (v.behaviorAccessRevisions = w.behaviorAccessRevisions ∧
      v.lastBehaviorAccessRevision = w.lastBehaviorAccessRevision ∧
      t.accessNamed b name = mode) ∨
    ∃ revision, v.behaviorAccessRevisions = w.behaviorAccessRevisions.insert b revision ∧
      w.lastBehaviorAccessRevision < revision ∧ revision = v.lastBehaviorAccessRevision
  intents : IntentRegistry.Culled (fun i => i.owner = b ∧ i.target = ⟨type.id, slot⟩) w.intents
    v.intents

namespace Exchanged

variable {w v : World C} {type : ComponentType} {b : BehaviorId} {name : Bytes}
  {slot : ComponentSlotId} {t t' : TypeRecord C} {mode : Option ComponentAccessMode}

theorem find (h : Exchanged w type b name slot t t' mode v) :
    w.components.types.find? type.id = some t := ComponentRegistry.typeRecord_eq_ok h.typed

theorem content (h : Exchanged w type b name slot t t' mode v) (hw : w.components.Ok) :
    v.content = w.content.setAccess b type.id name mode := by
  rw [← content_grant hw h.typed h.named h.known h.record, h.rest]
  rfl

theorem held (h : Exchanged w type b name slot t t' mode v) (hw : Held w) : Held v := by
  obtain ⟨l, hmoved, _⟩ := h.intents.moved
  have hput := hw.put h.typed h.record.ok fun b' hc =>
    (h.record.holders b' hc).elim (fun hb => hb.1 ▸ h.live)
      fun hc => hw.holders _ t b' h.find hc
  rw [h.rest]
  refine ⟨⟨hput.ready.components, hmoved.coherent, hmoved.transaction.trans hw.ready.idle,
    hw.ready.inactive⟩, hw.systems, hw.depth, hw.running, hw.behaviors, hput.holders,
    fun b' hc => ?_, fun b' hp => hw.pooled b' (hmoved.pools b' ▸ hp)⟩
  dsimp only at hc ⊢
  rcases h.revisions with ⟨hsame, _⟩ | ⟨revision, hinsert, _⟩
  · exact hw.revised b' (hsame ▸ hc)
  · rw [hinsert, IntentRegistry.contains_insert] at hc
    by_cases hb : b' = b
    · rw [hb]
      exact h.live
    · exact hw.revised b' (by simpa [hb] using hc)

theorem access (h : Exchanged w type b name slot t t' mode v) (hw : w.components.Ok)
    (b' : BehaviorId) (id : ComponentTypeId) (n : Bytes) :
    v.components.access b' id n = if b' = b ∧ id = type.id ∧ n = name then mode
      else w.components.access b' id n :=
  congrFun₃ (congrArg Content.access (h.content hw)) b' id n

theorem revised (h : Exchanged w type b name slot t t' mode v) (hw : w.components.Ok) :
    Revised w v := by
  have hold : w.components.access b type.id name = t.accessNamed b name := by
    unfold ComponentRegistry.access
    rw [h.find]
    rfl
  have hslots : ∀ id n, v.components.slots id n = w.components.slots id n := fun id n =>
    congrFun₂ (congrArg Content.slots (h.content hw)) id n
  rcases h.revisions with ⟨hsame, hlast, hacc⟩ | ⟨revision, hinsert, hlt, hlast⟩
  · refine ⟨le_of_eq hlast.symm, fun b' revision hf => Or.inl ⟨hsame ▸ hf, fun id n => ?_⟩⟩
    refine ⟨?_, fun _ => hslots id n⟩
    rw [h.access hw]
    split
    · next hc => rw [hc.1, hc.2.1, hc.2.2, hold, hacc]
    · rfl
  · refine ⟨hlast ▸ le_of_lt hlt, fun b' revision' hf => ?_⟩
    rw [hinsert, OrdMap.find?_insert] at hf
    split at hf
    · cases hf
      exact Or.inr ⟨hlt, le_of_eq hlast⟩
    · next hb =>
        refine Or.inl ⟨hf, fun id n => ⟨?_, fun _ => hslots id n⟩⟩
        rw [h.access hw, if_neg fun hc => hb hc.1]

/-- The intents that are left could be written before, and still can. -/
theorem authority (h : Exchanged w type b name slot t t' mode v) (hw : Held w)
    (hgone : mode.any ComponentAccessMode.writes = false →
      ∀ id i, v.intents.record? id = some i → ¬(i.owner = b ∧ i.target = ⟨type.id, slot⟩))
    (ha : Authority w) : Authority v := by
  intro id i hi
  have hcomp := hw.ready.components
  obtain ⟨hex, t₁, ht₁, hwrites⟩ :=
    (authorized_iff hcomp).mp (ha id i (h.intents.back id i hi))
  refine (authorized_iff (h.held hw).ready.components).mpr ?_
  have hvb : v.behaviors = w.behaviors := by rw [h.rest]
  have hvc : v.components = w.components.put type.id t' := by rw [h.rest]
  rw [hvb, hvc]
  refine ⟨hex, ?_⟩
  unfold ComponentRegistry.put
  dsimp only
  by_cases hid : i.target.type = type.id
  · refine ⟨t', by rw [hid, OrdMap.find?_insert_self], ?_⟩
    rw [hid, h.find] at ht₁
    cases ht₁
    rw [TypeRecord.writes_eq] at hwrites ⊢
    rw [h.record.allows]
    split
    · next hc =>
        cases hany : mode.any ComponentAccessMode.writes with
        | true => rfl
        | false =>
            refine absurd ⟨hc.1, ?_⟩ (hgone hany id i hi)
            rw [← hid, ← hc.2]
    · exact hwrites
  · exact ⟨t₁, by rw [OrdMap.find?_insert_ne _ hid]; exact ht₁, hwrites⟩

/-- What the systems were told of it. -/
theorem outcome {w' : World C} (h : Exchanged w type b name slot t t' mode v) (hw : Ok w)
    (hret : Retold v w') (hother : ∀ c, c ≠ b →
      w'.behaviorSignatures.find? c = w.behaviorSignatures.find? c)
    (hm : SystemRegistry.Membered w'.systems w'.behaviorSignatures) :
    Outcome w w' (w.content.setAccess b type.id name mode) [] := by
  have hcomp := hw.held.ready.components
  have hq := hret.tended.quiet
  have hb : w'.behaviors = w.behaviors := by rw [hq.rest, h.rest]
  obtain ⟨l, hmoved, hd⟩ := h.intents.moved
  have hok : Ok w' := by
    refine ⟨hret.held (h.held hw.held), fun c hc => ?_, hm⟩
    rw [hb]
    by_cases hcb : c = b
    · rw [hcb]
      exact h.live
    · rw [OrdMap.contains, hother c hcb] at hc
      exact hw.signed c hc
  have henc : v.components.encoded = w.components.encoded := by
    have hvc : v.components = w.components.put type.id t' := by rw [h.rest]
    funext id n
    rw [hvc, ComponentRegistry.encoded_put]
    split
    · next hid =>
        rw [hid, ComponentRegistry.encoded_eq h.find]
        unfold TypeRecord.encodedNamed
        rw [h.record.rest]
        rfl
    · rfl
  rw [← h.content hcomp]
  refine .of_retold hret hok ?_ ?_ ?_ henc ⟨l, hmoved.steps, fun e he hc => ?_⟩ (h.revised hcomp)
  · rw [h.rest]
  · rw [h.rest]
  · rw [h.rest]
  · rw [hd e he] at hc
    cases hc

theorem settled {w' : World C} (h : Exchanged w type b name slot t t' mode v) (hw : Ok w)
    (hret : Retold v w') (hother : ∀ c, c ≠ b →
      w'.behaviorSignatures.find? c = w.behaviorSignatures.find? c)
    (hself : ∀ old, w.behaviorSignatures.find? b = some old →
      ∃ signature, w'.behaviorSignatures.find? b = some signature ∧ ∀ id < 64,
        (id ≠ type.id → signature.getLsbD id = old.getLsbD id) ∧
        (id = type.id → (old.getLsbD id = true ↔ t.accesses.contains b = true) →
          (signature.getLsbD id = true ↔ t'.accesses.contains b = true)))
    (hs : Settled w) : Settled w' := by
  have hcomp := hw.held.ready.components
  have hq := hret.tended.quiet
  have hb : w'.behaviors = w.behaviors := by rw [hq.rest, h.rest]
  have hrev : w'.behaviorAccessRevisions = v.behaviorAccessRevisions := by rw [hq.rest]
  have hvc : v.components = w.components.put type.id t' := by rw [h.rest]
  have hrevalued : ComponentRegistry.Revalued v.components w'.components := hq.components
  obtain ⟨old, hold⟩ := Option.isSome_iff_exists.mp (hs.signed b h.live)
  obtain ⟨signature, hsignature, hbits⟩ := hself old hold
  refine ⟨fun c he => ?_, fun c he => ?_, fun c he => ?_, fun c sig hf id hid => ?_⟩
  · by_cases hcb : c = b
    · rw [hcb, OrdMap.contains, hsignature]
      rfl
    · rw [OrdMap.contains, hother c hcb]
      exact hs.signed c (hb ▸ he)
  · have hc := hs.revised c (hb ▸ he)
    rw [hrev]
    rcases h.revisions with ⟨hsame, _⟩ | ⟨revision, hinsert, _⟩
    · rw [hsame]
      exact hc
    · rw [hinsert, IntentRegistry.contains_insert, hc, Bool.true_or]
  · obtain ⟨entries, hmoved', _⟩ := hret.tended.intended
    obtain ⟨l, hmoved, _⟩ := h.intents.moved
    rw [hmoved'.pools]
    show v.intents.byOwner.contains c = true
    rw [hmoved.pools]
    exact hs.pooled c (hb ▸ he)
  · rw [hrevalued.access]
    obtain ⟨hafter, hbefore⟩ := access_of_put hcomp h.typed h.record.ok c id
    by_cases hcb : c = b
    · subst hcb
      rw [hsignature] at hf
      cases hf
      obtain ⟨hne, heq⟩ := hbits id hid
      rw [hvc, hafter]
      by_cases hidt : id = type.id
      · rw [if_pos hidt]
        refine heq hidt ?_
        rw [hs.bits c old hold id hid, hidt]
        exact hbefore
      · rw [if_neg hidt, hne hidt]
        exact hs.bits c old hold id hid
    · rw [hother c hcb] at hf
      rw [hs.bits c sig hf id hid]
      simp only [h.access hcomp, if_neg fun hc : c = b ∧ id = type.id ∧ _ => hcb hc.1]

end Exchanged

/-! ## Granting -/

theorem accessChanges_iff {mode : ComponentAccessMode} (h : mode ≠ .unknown)
    (canRead canWrite : Bool) :
    accessChanges mode canRead canWrite = true ↔ accessMode canRead canWrite ≠ some mode := by
  cases mode with
  | unknown => exact absurd rfl h
  | read => cases canRead <;> cases canWrite <;> decide
  | write => cases canRead <;> cases canWrite <;> decide
  | readWrite => cases canRead <;> cases canWrite <;> decide

theorem access_named {w : World C} {type : ComponentType} {t : TypeRecord C}
    (hfind : w.components.types.find? type.id = some t) (b : BehaviorId) (name : Bytes) :
    w.components.access b type.id name = t.accessNamed b name := by
  unfold ComponentRegistry.access
  rw [hfind]
  rfl

/-- The mode a behavior has for a named component, by its two rights. -/
theorem accessNamed_rights {w : World C} (h : w.components.Ok) {type : ComponentType}
    {t : TypeRecord C} (ht : w.components.typeRecord type = .ok t) {name : Bytes}
    {slot : ComponentSlotId} (hname : t.names.find? name = some slot) (b : BehaviorId) :
    t.accessNamed b name =
      accessMode (w.components.canRead type b slot) (w.components.canWrite type b slot) := by
  obtain ⟨hread, hwrite⟩ := canRead_named h ht hname b
  unfold TypeRecord.accessNamed
  rw [hname, Option.bind_some, hread, hwrite]

/-- What `grant_component_access` checks. -/
structure GrantAdmitted (w : World C) (type : ComponentType) (b : BehaviorId) (name : Bytes)
    (mode : ComponentAccessMode) (slot : ComponentSlotId) : Prop where
  live : w.behaviors.exist b = true
  found : w.components.componentSlot type name = .ok slot
  known : mode ≠ .unknown
  drawable : w.components.access b type.id name ≠ some mode → Drawable w b

/-- The signature of a behavior that has been granted access to the type. -/
def grantSignature (w : World C) (type : ComponentType) (b : BehaviorId) : Signature :=
  (w.behaviorSignature b).set type.id

/-- What the callbacks throw when they are told of it. -/
def grantNotice (callbacks : Callbacks C) (w : World C) (type : ComponentType) (b : BehaviorId) :
    Option Failure :=
  firstNotice callbacks (grantSignature w type b).covers b w.systems

/-- The access is granted and the systems have been told. -/
structure Granted (w : World C) (type : ComponentType) (b : BehaviorId) (name : Bytes)
    (mode : ComponentAccessMode) (w' : World C) : Prop where
  lawful : Lawful w w' ((Change.grant b type.id name mode).apply w.content) []
  signatures : w'.behaviorSignatures = w.behaviorSignatures.insert b (grantSignature w type b)
  revisions : w.components.access b type.id name = some mode →
    w'.behaviorAccessRevisions = w.behaviorAccessRevisions
  same : SystemRegistry.Same w.systems w'.systems

/-- The access is granted, and the intents that lost their right had no room. -/
structure GrantHalted (w : World C) (type : ComponentType) (b : BehaviorId) (name : Bytes)
    (mode : ComponentAccessMode) (slot : ComponentSlotId) (w' : World C) : Prop where
  outcome : Outcome w w' ((Change.grant b type.id name mode).apply w.content) []
  reads : mode = .read
  refused : w.intents.capacityErrors < w'.intents.capacityErrors
  full : ¬RoomToShed w b type.id slot

/-- The signature and the systems follow a granted access. -/
theorem Exchanged.wp_granted (callbacks : Callbacks C) {w v : World C} (hw : Ok w)
    {type : ComponentType} {b : BehaviorId} {name : Bytes} {slot : ComponentSlotId}
    {t t' : TypeRecord C} {mode : ComponentAccessMode}
    (h : Exchanged w type b name slot t t' (some mode) v)
    (hgone : mode.writes = false → v.intents.slotWraps = 0 →
      ∀ id i, v.intents.record? id = some i → ¬(i.owner = b ∧ i.target = ⟨type.id, slot⟩))
    (hrev : w.components.access b type.id name = some mode →
      v.behaviorAccessRevisions = w.behaviorAccessRevisions) :
    wp (do
      setSignature b (((← get).behaviorSignature b).set type.id)
      updateSystemMemberships callbacks b)
      (fun _ w' => grantNotice callbacks w type b = none ∧ Granted w type b name mode w')
      (fun e w' => grantNotice callbacks w type b = some e ∧ Granted w type b name mode w') v := by
  have hcomp := hw.held.ready.components
  have hheld := h.held hw.held
  have hsys : v.systems = w.systems := by rw [h.rest]
  have hvsig : v.behaviorSignatures = w.behaviorSignatures := by rw [h.rest]
  have hold : v.behaviorSignature b = w.behaviorSignature b := by
    unfold behaviorSignature
    rw [hvsig]
  -- what a world told of the new signature has become
  have hgranted : ∀ w', Retold v w' →
      w'.behaviorSignatures = v.behaviorSignatures.insert b (grantSignature w type b) →
      w'.systems = v.systems.enrolled (grantSignature w type b).covers b →
      Granted w type b name mode w' := by
    intro w' hret hsig hen
    rw [hvsig] at hsig
    have hother : ∀ c, c ≠ b →
        w'.behaviorSignatures.find? c = w.behaviorSignatures.find? c := by
      intro c hc
      rw [hsig, OrdMap.find?_insert_ne _ hc]
    have hm : SystemRegistry.Membered w'.systems w'.behaviorSignatures := by
      rw [hsig, hen, hsys]
      exact hw.membered.signed hw.held.systems b _
    refine ⟨⟨h.outcome hw hret hother hm, fun h0 ha => ?_, fun _ hs => ?_⟩, hsig,
      fun hacc => ?_, ?_⟩
    · exact hret.authority (h.authority hw.held (fun hm => hgone hm (hret.unwrapped h0)) ha)
    · refine h.settled hw hret hother (fun old hf => ?_) hs
      refine ⟨grantSignature w type b, by rw [hsig, OrdMap.find?_insert_self], fun id hid => ?_⟩
      have hsame : w.behaviorSignature b = old := by
        unfold behaviorSignature
        rw [hf]
        rfl
      unfold grantSignature
      rw [hsame, getLsbD_set _ _ _ hid]
      refine ⟨fun hne => by simp [hne], fun heq _ => ?_⟩
      have hnamed := h.record.accessNamed (hcomp.types _ t h.find) h.named h.known b name
      rw [if_pos ⟨rfl, rfl⟩] at hnamed
      have hholds : t'.accesses.contains b = true :=
        (h.record.ok.contains_iff b).mpr ⟨name, by rw [hnamed]; simp⟩
      simp [heq, hholds]
    · have hq := hret.tended.quiet
      have : w'.behaviorAccessRevisions = v.behaviorAccessRevisions := by rw [hq.rest]
      rw [this, hrev hacc]
    · rw [← hsys]
      exact hret.same
  rw [wp_bind, wp_get, hold]
  refine wp_mono (wp_sign callbacks hheld.ready hheld.systems hheld.depth b
    (grantSignature w type b)) (fun _ w' h' => ?_) (fun e w' h' => ?_)
  · rw [hsys] at h'
    exact ⟨h'.1, hgranted w' h'.2.1 h'.2.2.1 (hsys ▸ h'.2.2.2)⟩
  · rw [hsys] at h'
    exact ⟨h'.1, hgranted w' h'.2.1 h'.2.2.1 (hsys ▸ h'.2.2.2)⟩

theorem wp_grantAccess (callbacks : Callbacks C) {w : World C} (h : Ok w) (type : ComponentType)
    (b : BehaviorId) (name : Bytes) (mode : ComponentAccessMode) :
    wp (grantAccess callbacks type b name mode)
      (fun _ w' => ∃ slot, GrantAdmitted w type b name mode slot ∧
        grantNotice callbacks w type b = none ∧ Granted w type b name mode w')
      (fun e w' => ((∀ slot, ¬GrantAdmitted w type b name mode slot) ∧
          Lawful w w' w.content [] ∧ Unchanged w w') ∨
        ∃ slot, GrantAdmitted w type b name mode slot ∧
          (grantNotice callbacks w type b = some e ∧ Granted w type b name mode w' ∨
            GrantHalted w type b name mode slot w')) w := by
  have hcomp := h.held.ready.components
  unfold grantAccess
  rw [wp_bind, wp_get, wp_bind, wp_lift]
  refine ⟨fun u hu => ?_, fun e he => Or.inl ⟨fun slot ha => ?_, .refl h, .refl w⟩⟩
  swap
  · unfold ensureBehavior at he
    rw [ha.live] at he
    simp at he
  have hb := ensureBehavior_eq_ok hu
  rw [wp_bind, wp_lift]
  refine ⟨fun slot hslot => ?_, fun e he => Or.inl ⟨fun slot ha => ?_, .refl h, .refl w⟩⟩
  swap
  · rw [ha.found] at he
    cases he
  obtain ⟨t, ht, hname⟩ := ComponentRegistry.componentSlot_eq_ok hslot
  have hfind := ComponentRegistry.typeRecord_eq_ok ht
  have htok := hcomp.types _ t hfind
  have hrights := accessNamed_rights hcomp ht hname b
  rw [← access_named hfind] at hrights
  have hnotAdmitted : ∀ e (w' : World C), (∀ slot, ¬GrantAdmitted w type b name mode slot) →
      Lawful w w' w.content [] → Unchanged w w' →
      ((∀ slot, ¬GrantAdmitted w type b name mode slot) ∧ Lawful w w' w.content [] ∧
        Unchanged w w') ∨ ∃ slot, GrantAdmitted w type b name mode slot ∧
        (grantNotice callbacks w type b = some e ∧ Granted w type b name mode w' ∨
          GrantHalted w type b name mode slot w') := fun e w' h1 h2 h3 => Or.inl ⟨h1, h2, h3⟩
  dsimp only
  refine wp_drawThen (fun revision last hdrawn => ?_) (fun e hch hd => ?_)
  swap
  · refine hnotAdmitted e w (fun slot' ha => hd (ha.drawable ?_)) (.refl h) (.refl w)
    rw [hrights]
    exact (accessChanges_iff ha.known _ _).mp hch
  rw [wp_bind, wp_onComponents]
  refine ComponentRegistry.wp_grantAccess hcomp (fun t₁ slot₁ t' ht₁ hname₁ hknown hrecord => ?_)
    (fun e hunknown => ?_)
  swap
  · have hmode := hunknown t slot ht hname
    refine hnotAdmitted e _ (fun slot' ha => ha.known hmode) (.drawn h hdrawn.le)
      ⟨rfl, rfl, rfl, rfl⟩
  rw [ht] at ht₁
  cases ht₁
  rw [hname] at hname₁
  cases hname₁
  have hchanges := accessChanges_iff hknown (w.components.canRead type b slot)
    (w.components.canWrite type b slot)
  rw [← hrights] at hchanges
  have hadmitted : GrantAdmitted w type b name mode slot :=
    ⟨hb, hslot, hknown, fun hne => hdrawn.drawable (hchanges.mpr hne)⟩
  refine wp_setThen ?_
  let changes := accessChanges mode (w.components.canRead type b slot)
    (w.components.canWrite type b slot)
  -- the registries once the access is written, for the intents that are left
  have hexchanged : ∀ r, IntentRegistry.Culled
      (fun i => i.owner = b ∧ i.target = ⟨type.id, slot⟩) w.intents r →
      Exchanged w type b name slot t t' (some mode) { w with
        lastBehaviorAccessRevision := last
        intents := r
        components := w.components.put type.id t'
        behaviorAccessRevisions := w.withRevision b changes revision } := by
    intro r hculled
    refine ⟨ht, hname, hb, fun hc => hknown (Option.some.inj hc), hrecord, rfl, ?_, hculled⟩
    rcases hdrawn.revisions with ⟨hsame, hlast, hch⟩ | ⟨hinsert, hlt, hlast⟩
    · refine Or.inl ⟨hsame, hlast, ?_⟩
      rw [← access_named hfind]
      by_contra hne
      rw [hchanges.mpr hne] at hch
      cases hch
    · exact Or.inr ⟨revision, hinsert, hlt, hlast⟩
  have hrevisions : w.components.access b type.id name = some mode →
      w.withRevision b changes revision = w.behaviorAccessRevisions := by
    intro hacc
    rcases hdrawn.revisions with ⟨hsame, _⟩ | hc
    · exact hsame
    · unfold withRevision
      rw [if_neg]
      exact fun hch => hchanges.mp hch hacc
  have hrefl := IntentRegistry.Culled.refl
    (D := fun i => i.owner = b ∧ i.target = ⟨type.id, slot⟩) h.held.ready.intents
  have hfinish : ∀ v, Exchanged w type b name slot t t' (some mode) v → (mode.writes = false →
      v.intents.slotWraps = 0 → ∀ id i, v.intents.record? id = some i →
        ¬(i.owner = b ∧ i.target = ⟨type.id, slot⟩)) →
      (w.components.access b type.id name = some mode →
        v.behaviorAccessRevisions = w.behaviorAccessRevisions) →
      wp (do
        setSignature b (((← get).behaviorSignature b).set type.id)
        updateSystemMemberships callbacks b)
        (fun _ w' => ∃ slot, GrantAdmitted w type b name mode slot ∧
          grantNotice callbacks w type b = none ∧ Granted w type b name mode w')
        (fun e w' => ((∀ slot, ¬GrantAdmitted w type b name mode slot) ∧
            Lawful w w' w.content [] ∧ Unchanged w w') ∨
          ∃ slot, GrantAdmitted w type b name mode slot ∧
            (grantNotice callbacks w type b = some e ∧ Granted w type b name mode w' ∨
              GrantHalted w type b name mode slot w')) v := by
    intro v hx hgone hrev
    exact wp_mono (hx.wp_granted callbacks h hgone hrev)
      (fun _ w' h' => ⟨slot, hadmitted, h'⟩)
      (fun e w' h' => Or.inr ⟨slot, hadmitted, Or.inl h'⟩)
  by_cases hread : mode = .read
  · rw [if_pos hread, wp_bind]
    have hheld := (hexchanged _ hrefl).held h.held
    refine wp_destroyIntentsForOwnerTarget hheld b type.id slot (fun r hculled _ hgone => ?_)
      (fun e r hculled hcap hfull => ?_)
    · exact hfinish _ (hexchanged r hculled) (fun _ => hgone) hrevisions
    · refine Or.inr ⟨slot, hadmitted, Or.inr ⟨?_, hread, hcap, hfull⟩⟩
      have hx := hexchanged r hculled
      refine hx.outcome h (.refl (hx.held h.held).ready) (fun _ _ => rfl) ?_
      exact h.membered
  · rw [if_neg hread]
    refine hfinish _ (hexchanged _ hrefl) (fun hw => ?_) hrevisions
    cases mode with
    | unknown => exact absurd rfl hknown
    | read => exact absurd rfl hread
    | write => cases hw
    | readWrite => cases hw

/-- An access is granted and recorded. A grant that is refused leaves the world as it was; one
    whose callbacks throw, whose name no `Value` holds or whose intents find no room is there
    without its entry. -/
theorem wp_grantComponentAccess (callbacks : Callbacks C) {w : World C} (h : Ok w)
    (type : ComponentType) (b : BehaviorId) (name : Bytes) (mode : ComponentAccessMode) :
    wp (grantComponentAccess callbacks type b name mode)
      (fun _ w' => Lawful w w' ((Change.grant b type.id name mode).apply w.content)
        [(Change.grant b type.id name mode).entry])
      (fun e w' => ((∀ slot, ¬GrantAdmitted w type b name mode slot) ∧
          Lawful w w' w.content [] ∧ Unchanged w w') ∨
        ∃ slot, GrantAdmitted w type b name mode slot ∧
          ((grantNotice callbacks w type b = some e ∧ Granted w type b name mode w') ∨
            (grantNotice callbacks w type b = none ∧
              ¬(Change.grant b type.id name mode).Recordable ∧ Granted w type b name mode w') ∨
            GrantHalted w type b name mode slot w' ∨
            (w.evidenceLost < w'.evidenceLost ∧
              Lawful w w' ((Change.grant b type.id name mode).apply w.content) []))) w := by
  unfold grantComponentAccess
  rw [wp_bind]
  refine wp_ensureStructuralMutationAllowed h.held ?_
  rw [wp_bind]
  refine wp_mono (wp_grantAccess callbacks h type b name mode) (fun _ v hv => ?_)
    (fun e w' h' => ?_)
  · obtain ⟨slot, hadmitted, hnone, hgranted⟩ := hv
    refine wp_recordEntry (Change.grant b type.id name mode) rfl (fun _ _ => ?_)
      (fun e hbad => ?_) (fun e _ => ?_)
    · exact hgranted.lawful.recorded _
    · exact Or.inr ⟨slot, hadmitted, Or.inr (Or.inl ⟨hnone, hbad, hgranted⟩)⟩
    · refine Or.inr ⟨slot, hadmitted, Or.inr (Or.inr (Or.inr ⟨?_, hgranted.lawful.refused⟩))⟩
      exact Nat.lt_succ_of_le hgranted.lawful.outcome.lost
  · rcases h' with hno | ⟨slot, hadmitted, hthrown | hhalted⟩
    · exact Or.inl hno
    · exact Or.inr ⟨slot, hadmitted, Or.inl hthrown⟩
    · exact Or.inr ⟨slot, hadmitted, Or.inr (Or.inr (Or.inl hhalted))⟩

/-! ## Revoking -/

end World

/-- Whether a behavior has access to anything of the type once one access is exchanged. -/
theorem TypeRecord.Reaccessed.contains_eq {world : UInt64} {t t' t'' : TypeRecord C}
    {b : BehaviorId} {slot : ComponentSlotId} {mode : Option ComponentAccessMode}
    (h' : Reaccessed world t b slot mode t') (h'' : Reaccessed world t b slot mode t'')
    (ht : t.Ok world) {name : Bytes} (hname : t.names.find? name = some slot)
    (hmode : mode ≠ some .unknown) : t'.accesses.contains b = t''.accesses.contains b := by
  refine Bool.eq_iff_iff.mpr ?_
  rw [h'.ok.contains_iff, h''.ok.contains_iff]
  simp only [h'.accessNamed ht hname hmode, h''.accessNamed ht hname hmode]

namespace World

/-- What `revoke_component_access` checks. -/
structure RevokeAdmitted (w : World C) (type : ComponentType) (b : BehaviorId) (name : Bytes)
    (slot : ComponentSlotId) : Prop where
  live : w.behaviors.exist b = true
  found : w.components.componentSlot type name = .ok slot
  drawable : w.components.access b type.id name ≠ none → Drawable w b

/-- What the callbacks throw when they are told of it. -/
def revokeNotice (callbacks : Callbacks C) (w : World C) (type : ComponentTypeId)
    (b : BehaviorId) (slot : ComponentSlotId) : Option Failure :=
  (w.components.types.find? type).bind fun t =>
    resignNotice callbacks w (t.removeAccess b slot) type b

/-- The access is revoked and the systems have been told. -/
structure Revoked (w : World C) (type : ComponentType) (b : BehaviorId) (name : Bytes)
    (w' : World C) : Prop where
  lawful : Lawful w w' ((Change.revoke b type.id name).apply w.content) []
  signed : w'.behaviorSignature b = w.behaviorSignature b ∨
    w'.behaviorSignature b = (w.behaviorSignature b).reset type.id

/-- The signature and the systems follow a revoked access. -/
theorem Exchanged.wp_revoked (callbacks : Callbacks C) {w v : World C} (hw : Ok w)
    {type : ComponentType} {b : BehaviorId} {name : Bytes} {slot : ComponentSlotId}
    {t t' : TypeRecord C} (h : Exchanged w type b name slot t t' none v)
    (hgone : v.intents.slotWraps = 0 → ∀ id i, v.intents.record? id = some i →
      ¬(i.owner = b ∧ i.target = ⟨type.id, slot⟩)) :
    wp (resetSignature callbacks type b)
      (fun _ w' => resignNotice callbacks w t' type.id b = none ∧ Revoked w type b name w')
      (fun e w' => resignNotice callbacks w t' type.id b = some e ∧ Revoked w type b name w')
      v := by
  have hheld := h.held hw.held
  have hsys : v.systems = w.systems := by rw [h.rest]
  have hvsig : v.behaviorSignatures = w.behaviorSignatures := by rw [h.rest]
  have hold : v.behaviorSignature b = w.behaviorSignature b := by
    unfold behaviorSignature
    rw [hvsig]
  have htype : v.components.typeRecord type = .ok t' := by
    have hschema : t'.component = t.component := by rw [h.record.rest]
    rw [h.rest]
    exact ComponentRegistry.typeRecord_put h.typed hschema
  have hnotice : resignNotice callbacks v t' type.id b =
      resignNotice callbacks w t' type.id b := by
    unfold resignNotice
    rw [hsys, hold]
  have hresigned : v.resigned t' type.id b = w.resigned t' type.id b := by
    unfold resigned
    rw [hvsig, hold]
  -- what a world told of the signature has become
  have hrevoked : ∀ w', Retold v w' →
      (∀ c, w'.behaviorSignatures.find? c =
        if c = b then v.resigned t' type.id b else v.behaviorSignatures.find? c) →
      (SystemRegistry.Membered v.systems v.behaviorSignatures →
        SystemRegistry.Membered w'.systems w'.behaviorSignatures) →
      Revoked w type b name w' := by
    intro w' hret hsig hm
    rw [hresigned, hvsig] at hsig
    rw [hsys, hvsig] at hm
    have hother : ∀ c, c ≠ b →
        w'.behaviorSignatures.find? c = w.behaviorSignatures.find? c := by
      intro c hc
      rw [hsig, if_neg hc]
    refine ⟨⟨h.outcome hw hret hother (hm hw.membered), fun h0 ha => ?_, fun _ hs => ?_⟩, ?_⟩
    · exact hret.authority (h.authority hw.held (fun _ => hgone (hret.unwrapped h0)) ha)
    · refine h.settled hw hret hother (fun old hf => ?_) hs
      have hself := hsig b
      have hsame : w.behaviorSignature b = old := by
        unfold behaviorSignature
        rw [hf]
        rfl
      unfold resigned at hself
      rw [if_pos rfl, hf, hsame] at hself
      by_cases hc : t'.accesses.contains b = true
      · rw [if_pos hc] at hself
        refine ⟨old, hself, fun id _ => ⟨fun _ => rfl, fun _ hbefore => ?_⟩⟩
        rw [hbefore, hc]
        -- who still has access to the type had it before
        exact (h.record.holders b hc).elim (fun hb => by cases hb.2) fun hc' => by simp [hc']
      · rw [if_neg hc] at hself
        refine ⟨_, hself, fun id hid => ?_⟩
        rw [getLsbD_reset _ _ _ hid]
        exact ⟨fun hne => by simp [hne], fun heq _ => by simp [heq, hc]⟩
    · have hself := hsig b
      unfold resigned at hself
      rw [if_pos rfl] at hself
      by_cases hc : t'.accesses.contains b = true
      · rw [if_pos hc] at hself
        left
        unfold behaviorSignature
        rw [hself]
      · rw [if_neg hc] at hself
        right
        conv_lhs => unfold behaviorSignature
        rw [hself]
        rfl
  refine wp_mono (wp_resetSignature callbacks hheld.ready hheld.systems hheld.depth htype b)
    (fun _ w' h' => ?_) (fun e w' h' => ?_)
  · exact ⟨hnotice ▸ h'.1, hrevoked w' h'.2.1 h'.2.2.1 h'.2.2.2.2⟩
  · exact ⟨hnotice ▸ h'.1, hrevoked w' h'.2.1 h'.2.2.1 h'.2.2.2.2⟩

theorem wp_revokeAccess (callbacks : Callbacks C) {w : World C} (h : Ok w) (type : ComponentType)
    (b : BehaviorId) (name : Bytes) :
    wp (revokeAccess callbacks type b name)
      (fun _ w' => ∃ slot, RevokeAdmitted w type b name slot ∧
        revokeNotice callbacks w type.id b slot = none ∧ Revoked w type b name w')
      (fun e w' => ((w.intents.capacityErrors < w'.intents.capacityErrors ∨
            ∀ slot, ¬RevokeAdmitted w type b name slot) ∧
          Lawful w w' w.content [] ∧ Unchanged w w') ∨
        ∃ slot, RevokeAdmitted w type b name slot ∧
          revokeNotice callbacks w type.id b slot = some e ∧ Revoked w type b name w') w := by
  have hcomp := h.held.ready.components
  unfold revokeAccess
  rw [wp_bind, wp_get, wp_bind, wp_lift]
  refine ⟨fun u hu => ?_, fun e he => Or.inl ⟨Or.inr fun slot ha => ?_, .refl h, .refl w⟩⟩
  swap
  · unfold ensureBehavior at he
    rw [ha.live] at he
    simp at he
  have hb := ensureBehavior_eq_ok hu
  rw [wp_bind, wp_lift]
  refine ⟨fun slot hslot => ?_, fun e he => Or.inl ⟨Or.inr fun slot ha => ?_, .refl h, .refl w⟩⟩
  swap
  · rw [ha.found] at he
    cases he
  obtain ⟨t, ht, hname⟩ := ComponentRegistry.componentSlot_eq_ok hslot
  have hfind := ComponentRegistry.typeRecord_eq_ok ht
  have htok := hcomp.types _ t hfind
  have hrights := accessNamed_rights hcomp ht hname b
  rw [← access_named hfind] at hrights
  have hchanges : (w.components.canRead type b slot || w.components.canWrite type b slot) = true ↔
      w.components.access b type.id name ≠ none := by
    rw [hrights]
    cases w.components.canRead type b slot <;> cases w.components.canWrite type b slot <;> decide
  dsimp only
  refine wp_drawThen (fun revision last hdrawn => ?_) (fun e hch hd => ?_)
  swap
  · exact Or.inl ⟨Or.inr fun slot' ha => hd (ha.drawable (hchanges.mp hch)), .refl h, .refl w⟩
  let changes := w.components.canRead type b slot || w.components.canWrite type b slot
  rw [wp_bind]
  have hdrawnOk : Ok { w with lastBehaviorAccessRevision := last } := h.drawn last
  refine wp_destroyIntentsForOwnerTarget hdrawnOk.held b type.id slot (fun r hculled _ hgone => ?_)
    (fun e r hculled hcap _ => Or.inl ⟨Or.inl hcap, ?_, ⟨rfl, rfl, rfl, rfl⟩⟩)
  swap
  · exact (Lawful.drawn h hdrawn.le).trans (Lawful.shed hdrawnOk hculled)
  rw [wp_bind, wp_onComponents]
  refine ComponentRegistry.wp_revokeAccess hcomp (fun t₁ slot₁ t' ht₁ hname₁ hrecord => ?_)
    (fun e hno => ?_)
  swap
  · have := hno t ht
    rw [hname] at this
    cases this
  rw [ht] at ht₁
  cases ht₁
  rw [hname] at hname₁
  cases hname₁
  have hadmitted : RevokeAdmitted w type b name slot :=
    ⟨hb, hslot, fun hne => hdrawn.drawable (hchanges.mpr hne)⟩
  refine wp_setThen ?_
  -- the registries once the access is gone
  have hexchanged : Exchanged w type b name slot t t' none { w with
      lastBehaviorAccessRevision := last
      intents := r
      components := w.components.put type.id t'
      behaviorAccessRevisions := w.withRevision b changes revision } := by
    refine ⟨ht, hname, hb, nofun, hrecord, rfl, ?_, hculled⟩
    rcases hdrawn.revisions with ⟨hsame, hlast, hch⟩ | ⟨hinsert, hlt, hlast⟩
    · refine Or.inl ⟨hsame, hlast, ?_⟩
      rw [← access_named hfind]
      by_contra hne
      rw [hchanges.mpr hne] at hch
      cases hch
    · exact Or.inr ⟨revision, hinsert, hlt, hlast⟩
  have hnotice : resignNotice callbacks w t' type.id b =
      revokeNotice callbacks w type.id b slot := by
    unfold revokeNotice resignNotice
    rw [hfind, Option.bind_some,
      hrecord.contains_eq (htok.revoked b slot) htok hname (by simp)]
  exact wp_mono (hexchanged.wp_revoked callbacks h hgone)
    (fun _ w' h' => ⟨slot, hadmitted, hnotice ▸ h'⟩)
    (fun e w' h' => Or.inr ⟨slot, hadmitted, hnotice ▸ h'⟩)

/-- An access is revoked and recorded, unless the callbacks threw or the buffer was full; one
    that is refused leaves the world as it was. -/
theorem wp_revokeComponentAccess (callbacks : Callbacks C) {w : World C} (h : Ok w)
    (type : ComponentType) (b : BehaviorId) (name : Bytes) :
    wp (revokeComponentAccess callbacks type b name)
      (fun _ w' => Lawful w w' ((Change.revoke b type.id name).apply w.content)
        [(Change.revoke b type.id name).entry])
      (fun e w' => ((w.intents.capacityErrors < w'.intents.capacityErrors ∨
            ∀ slot, ¬RevokeAdmitted w type b name slot) ∧
          Lawful w w' w.content [] ∧ Unchanged w w') ∨
        ∃ slot, RevokeAdmitted w type b name slot ∧
          ((revokeNotice callbacks w type.id b slot = some e ∧ Revoked w type b name w') ∨
            (w.evidenceLost < w'.evidenceLost ∧
              Lawful w w' ((Change.revoke b type.id name).apply w.content) []))) w := by
  unfold revokeComponentAccess
  rw [wp_bind]
  refine wp_ensureStructuralMutationAllowed h.held ?_
  rw [wp_bind]
  refine wp_mono (wp_revokeAccess callbacks h type b name) (fun _ v hv => ?_)
    (fun e w' h' => ?_)
  · obtain ⟨slot, hadmitted, _, hrevoked⟩ := hv
    refine wp_recordTombstone (Change.revoke b type.id name) rfl (fun _ => ?_) (fun e _ => ?_)
    · exact hrevoked.lawful.recorded _
    · refine Or.inr ⟨slot, hadmitted, Or.inr ⟨?_, hrevoked.lawful.refused⟩⟩
      exact Nat.lt_succ_of_le hrevoked.lawful.outcome.lost
  · rcases h' with hno | ⟨slot, hadmitted, hthrown⟩
    · exact Or.inl hno
    · exact Or.inr ⟨slot, hadmitted, Or.inl hthrown⟩

end World

end LiquidLayer
