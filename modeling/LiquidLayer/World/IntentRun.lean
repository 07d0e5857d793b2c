/-
  Runs of `IntentRegistry`.

  A run is any sequence of calls, returned or thrown; a transaction is opened, used and closed
  by calls of its own, so ordinary calls may come in between (they throw). `Kept r r'` is what
  every call but a rollback does to the handles. `Call.wraps r`: the call is a create that makes
  `nextSlot` wrap; a create that finds all generations taken counts it up as well, and throws.
  `indexes_agree`: as long as that does not happen and no transaction is rolled back, all
  indexes speak about the same intents.
-/
import LiquidLayer.World.IntentRollback

namespace LiquidLayer

open Prog

namespace IntentRegistry

/-! ## Calls -/

inductive Call where
  | create (owner : BehaviorId) (type : ComponentType) (slot : ComponentSlotId)
      (lifetime : IntentLifetime) (priority : IntentPriority) (encodedValue : Value)
      (name : Bytes)
  | destroy (id : IntentId)
  | destroyOwnedBy (owner : BehaviorId)
  | createBehaviorPool (owner : BehaviorId)
  | resolve (type : ComponentTypeId) (components : OrdMap Bytes ComponentSlotId) (now : UInt64)
  | clearLifecycleRecords
  | beginTransaction
  | createIn (owner : BehaviorId) (type : ComponentType) (slot : ComponentSlotId)
      (lifetime : IntentLifetime) (priority : IntentPriority) (encodedValue : Value)
      (name : Bytes)
  | cancel (id : IntentId)
  | commit
  | rollback

inductive Reply where
  | done
  | id (id : IntentId)
  | selected (intents : OrdMap Bytes IntentId)

def Call.program : Call → EStateM Failure IntentRegistry Reply
  | .create owner type slot lifetime priority encodedValue name =>
      Reply.id <$> IntentRegistry.create owner type slot lifetime priority encodedValue name
  | .destroy id => (fun _ => .done) <$> IntentRegistry.destroy id
  | .destroyOwnedBy owner => (fun _ => .done) <$> IntentRegistry.destroyOwnedBy owner
  | .createBehaviorPool owner => (fun _ => .done) <$> IntentRegistry.createBehaviorPool owner
  | .resolve type components now =>
      Reply.selected <$> IntentRegistry.resolve type components now
  | .clearLifecycleRecords => (fun _ => .done) <$> IntentRegistry.clearLifecycleRecords
  | .beginTransaction => (fun _ => .done) <$> IntentRegistry.beginTransaction
  | .createIn owner type slot lifetime priority encodedValue name =>
      Reply.id <$> IntentRegistry.createIn owner type slot lifetime priority encodedValue name
  | .cancel id => (fun _ => .done) <$> IntentRegistry.cancel id
  | .commit => (fun _ => .done) <$> IntentRegistry.commit
  | .rollback => (fun _ => .done) <$> modify IntentRegistry.rollback

/-- The state a call leaves behind. -/
def Call.step (call : Call) (r : IntentRegistry) : IntentRegistry := after call.program r

/-! ## One call -/

/-- What a call may do to the handles: until `nextSlot` wraps, those handed out stay handed out,
    and none of them comes back to life. -/
structure Kept (r r' : IntentRegistry) : Prop where
  coherent : r'.Coherent
  world : r'.worldId = r.worldId
  wraps : r.slotWraps ≤ r'.slotWraps
  past : r'.slotWraps = 0 → ∀ id, r.Past id → r'.Past id
  fresh : r'.slotWraps = 0 → ∀ id i, r'.record? id = some i → r.Past id → r.record? id = some i
  tidy : r'.slotWraps = 0 → r.Tidy → r'.Tidy

theorem Kept.refl {r : IntentRegistry} (h : r.Coherent) : Kept r r :=
  ⟨h, rfl, le_refl _, fun _ _ hp => hp, fun _ _ _ hr _ => hr, fun _ ht => ht⟩

theorem Kept.trans {r r' r'' : IntentRegistry} (h : Kept r r') (h' : Kept r' r'') :
    Kept r r'' := by
  have hwraps : r''.slotWraps = 0 → r'.slotWraps = 0 := fun h0 => Nat.le_zero.mp (h0 ▸ h'.wraps)
  exact
    { coherent := h'.coherent
      world := h'.world.trans h.world
      wraps := h.wraps.trans h'.wraps
      past := fun h0 id hp => h'.past h0 id (h.past (hwraps h0) id hp)
      fresh := fun h0 id i hr hp => h.fresh (hwraps h0) id i
        (h'.fresh h0 id i hr (h.past (hwraps h0) id hp)) hp
      tidy := fun h0 ht => h'.tidy h0 (h.tidy (hwraps h0) ht) }

theorem Moved.kept {entries : List IntentLifecycleRecord} {r r' : IntentRegistry}
    (h : Moved entries r r') : Kept r r' :=
  ⟨h.coherent, h.world, h.wraps, fun h0 => (h.lineage h0).past, fun h0 => (h.lineage h0).fresh,
    fun h0 => (h.lineage h0).tidy⟩

theorem Steps.kept {entries : List IntentLifecycleRecord} {r r' : IntentRegistry}
    (h : Steps entries r r') : Kept r r' :=
  ⟨h.coherent, h.world, h.wraps, fun h0 => (h.lineage h0).past, fun h0 => (h.lineage h0).fresh,
    fun h0 => (h.lineage h0).tidy⟩

/-- The buffer, the transaction, the count of refusals and the end of the process do not
    matter. -/
theorem Kept.framed {r : IntentRegistry} (h : r.Coherent)
    (lifecycleRecords : List IntentLifecycleRecord) (transaction : Option IntentTransaction)
    (capacityErrors : Nat) (terminated : Bool) :
    Kept r { r with lifecycleRecords, transaction, capacityErrors, terminated } :=
  ⟨h.framed _ _ _ _, rfl, le_refl _, fun _ _ hp => hp, fun _ _ _ hr _ => hr, fun _ ht => ht⟩

section Programs

variable {α : Type} {r : IntentRegistry}

/-- The operations that are forbidden during a transaction. -/
theorem wp_ordinary {m : Unit → EStateM Failure IntentRegistry α}
    {Q : α → IntentRegistry → Prop} {E : Failure → IntentRegistry → Prop}
    (hE : ∀ e, E e r) (hm : r.transaction = none → wp (m ()) Q E r) :
    wp (ensureNoActiveTransaction >>= m) Q E r := by
  unfold ensureNoActiveTransaction
  rw [wp_bind, wp_bind, wp_get]
  by_cases htx : r.transaction.isSome = true
  · rw [if_pos htx, wp_throw]
    exact hE _
  · rw [if_neg htx, wp_pure]
    exact hm (by simpa using htx)

/-- The operations on a transaction. -/
theorem wp_ensureActive {m : Unit → EStateM Failure IntentRegistry α}
    {Q : α → IntentRegistry → Prop} {E : Failure → IntentRegistry → Prop}
    (hE : ∀ e, r.transaction = none → E e r)
    (hm : ∀ t, r.transaction = some t → wp (m ()) Q E r) :
    wp (ensureActive >>= m) Q E r := by
  unfold ensureActive
  rw [wp_bind, wp_bind, wp_get]
  cases htx : r.transaction with
  | none =>
      rw [if_pos (by rfl), wp_throw]
      exact hE _ htx
  | some t =>
      rw [if_neg (by simp), wp_pure]
      exact hm t htx

/-- A filtered list is a part of the list. -/
theorem sublist_of_filterAuxM {β : Type} (p : β → Except Failure Bool) (l : List β) :
    ∀ acc l', l.filterAuxM p acc = .ok l' → ∃ k, l'.reverse = acc.reverse ++ k ∧ k.Sublist l := by
  induction l with
  | nil =>
      intro acc l' h
      cases h
      exact ⟨[], by simp, List.Sublist.refl _⟩
  | cons a l ih =>
      intro acc l' h
      unfold List.filterAuxM at h
      cases hp : p a with
      | error e =>
          rw [hp] at h
          cases h
      | ok b =>
          rw [hp] at h
          obtain ⟨k, hk, hsub⟩ := ih _ _ h
          cases b with
          | false => exact ⟨k, hk, hsub.cons a⟩
          | true =>
              refine ⟨a :: k, ?_, hsub.cons_cons a⟩
              rw [hk]
              simp

theorem sublist_of_filterM {β : Type} {p : β → Except Failure Bool} {l l' : List β}
    (h : l.filterM p = .ok l') : l'.Sublist l := by
  unfold List.filterM at h
  cases hf : l.filterAuxM p [] with
  | error e =>
      rw [hf] at h
      cases h
  | ok m =>
      rw [hf] at h
      cases h
      obtain ⟨k, hk, hsub⟩ := sublist_of_filterAuxM p l [] m hf
      rw [hk]
      simpa using hsub

theorem Indexed.mem_liveIntentIds {r : IntentRegistry} (h : r.Indexed) {id : IntentId} :
    id ∈ r.liveIntentIds ↔ ∃ i, r.record? id = some i := by
  unfold liveIntentIds
  rw [OrdMap.mem_keys]
  constructor
  · rintro ⟨type, ht⟩
    obtain ⟨i, hi, _⟩ := h.typed id type ht
    exact ⟨i, by rw [record?_eq, ht, Option.bind_some, hi]⟩
  · rintro ⟨i, hi⟩
    exact ⟨_, h.type_eq hi⟩

/-- `resolve`: expired intents are destroyed, and nothing else happens. -/
theorem wp_resolve (h : r.Coherent) (type : ComponentTypeId)
    (components : OrdMap Bytes ComponentSlotId) (now : UInt64) :
    wp (resolve type components now) (fun _ => Culled (fun _ => True) r)
      (fun _ => Culled (fun _ => True) r) r := by
  unfold resolve
  refine wp_ordinary (fun _ => .refl h) fun htx => ?_
  rw [wp_bind, wp_get, wp_bind, wp_lift]
  refine ⟨fun expired hexp => ?_, fun _ _ => .refl h⟩
  have hsub : expired.Sublist r.liveIntentIds := sublist_of_filterM hexp
  rw [wp_bind]
  refine wp_mono (sheds_destroy.forM expired (hsub.nodup (OrdMap.nodup_keys _)) r h htx
    fun id hid => h.indexed.mem_liveIntentIds.mp (hsub.subset hid)) (fun _ r' h' => ?_)
    (fun _ r' h' => h'.1.mono fun _ _ _ _ => trivial)
  have hculled : Culled (fun _ => True) r r' := h'.1.mono fun _ _ _ _ => trivial
  rw [wp_bind, wp_get, wp_lift]
  exact ⟨fun _ _ => hculled, fun _ _ => hculled⟩

/-- `create_behavior_pool`, whether the behavior has a pool or not. -/
theorem wp_addBehaviorPool (h : r.Coherent) (owner : BehaviorId) :
    wp (createBehaviorPool owner) (fun _ r' => Kept r r' ∧ r'.transaction = r.transaction)
      (fun _ r' => Kept r r' ∧ r'.transaction = r.transaction) r := by
  unfold createBehaviorPool
  rw [wp_bind]
  by_cases htx : r.transaction = none
  · refine wp_mono (wp_destroyOwnedBy h htx owner) (fun _ r₁ h₁ => ?_) (fun _ r₁ h₁ => ?_)
    · obtain ⟨⟨entries, hsteps, _⟩, _⟩ := h₁
      have hpool := hsteps.coherent.addPool owner
      rw [wp_modify]
      exact ⟨hsteps.kept.trans hpool.kept, hpool.transaction.trans hsteps.transaction⟩
    · obtain ⟨entries, hm, _⟩ := h₁.1.moved
      exact ⟨hm.kept, hm.transaction⟩
  · unfold destroyOwnedBy ensureNoActiveTransaction
    rw [wp_bind, wp_bind, wp_get, if_pos (Option.isSome_iff_ne_none.mpr htx), wp_throw]
    exact ⟨.refl h, rfl⟩

end Programs

/-- What a call did. -/
inductive Did (r : IntentRegistry) : Call → IntentRegistry → Prop where
  | ordinary {call : Call} {r' : IntentRegistry} (kept : Kept r r')
      (transaction : r'.transaction = r.transaction) : Did r call r'
  | began (closed : r.transaction = none) :
      Did r .beginTransaction { r with transaction := some r.saved }
  | cancelled {id : IntentId} {r' : IntentRegistry} {t : IntentTransaction}
      (opened : r.transaction = some t) (kept : Kept r r')
      (noted : ∃ c, r'.transaction = some { t with cancelled := t.cancelled ++ [c] }) :
      Did r (.cancel id) r'
  | committed {t : IntentTransaction} (opened : r.transaction = some t) :
      Did r .commit { r with transaction := none }
  | rolledBack {t : IntentTransaction} (opened : r.transaction = some t) :
      Did r .rollback r.rollback

/-- A handle a call returns is live. -/
def Returned (reply : Reply) (r : IntentRegistry) : Prop :=
  ∀ id, reply = .id id → ∃ i, r.record? id = some i

theorem Call.wp_program (call : Call) {r : IntentRegistry} (h : r.Coherent) :
    wp call.program (fun reply r' => Did r call r' ∧ Returned reply r') (fun _ => Did r call) r := by
  have hsame : Did r call r := .ordinary (.refl h) rfl
  have hdone : ∀ r', Returned .done r' := fun _ _ hid => by cases hid
  have hnew : ∀ {i : Intent} {r' : IntentRegistry}, Moved [⟨true, i⟩] r r' →
      Did r call r' ∧ Returned (.id i.id) r' := by
    intro i r' hm
    refine ⟨.ordinary hm.kept hm.transaction, fun id hid => ?_⟩
    cases hid
    exact ⟨i, by rw [hm.record?_created, if_pos rfl]⟩
  have hculled : ∀ {D : Intent → Prop} {r' : IntentRegistry}, Culled D r r' →
      Did r call r' := by
    intro D r' hc
    obtain ⟨entries, hm, _⟩ := hc.moved
    exact .ordinary hm.kept hm.transaction
  cases call with
  | create owner type slot lifetime priority encodedValue name =>
      unfold Call.program IntentRegistry.create
      rw [wp_map]
      refine wp_ordinary (fun _ => hsame) fun _ => ?_
      exact wp_createImpl h (fun id sequence r' _ hm _ => hnew hm) (fun e r' hm _ =>
        .ordinary hm.kept hm.transaction)
  | destroy id =>
      unfold Call.program
      rw [wp_map]
      refine wp_destroy h (fun i r' _ _ hm _ => ⟨.ordinary hm.kept hm.transaction, hdone _⟩)
        (fun e _ => ?_) (fun _ _ => hsame)
      exact .ordinary (Moved.refused h).kept rfl
  | destroyOwnedBy owner =>
      unfold Call.program
      rw [wp_map]
      by_cases htx : r.transaction = none
      · refine wp_mono (wp_destroyOwnedBy h htx owner) (fun _ r' h' => ?_)
          (fun _ r' h' => hculled h'.1)
        obtain ⟨⟨entries, hsteps, _⟩, _⟩ := h'
        exact ⟨.ordinary hsteps.kept hsteps.transaction, hdone _⟩
      · unfold IntentRegistry.destroyOwnedBy
        exact wp_ordinary (fun _ => hsame) fun hc => absurd hc htx
  | createBehaviorPool owner =>
      unfold Call.program
      rw [wp_map]
      exact wp_mono (wp_addBehaviorPool h owner)
        (fun _ r' h' => ⟨.ordinary h'.1 h'.2, hdone _⟩) (fun _ r' h' => .ordinary h'.1 h'.2)
  | resolve type components now =>
      unfold Call.program
      rw [wp_map]
      refine wp_mono (wp_resolve h type components now) (fun _ r' h' => ⟨hculled h', fun id hid => ?_⟩)
        (fun _ r' h' => hculled h')
      cases hid
  | clearLifecycleRecords =>
      unfold Call.program IntentRegistry.clearLifecycleRecords
      rw [wp_map]
      refine wp_ordinary (fun _ => hsame) fun _ => ?_
      rw [wp_modify]
      exact ⟨.ordinary (.framed h [] r.transaction r.capacityErrors r.terminated) rfl, hdone _⟩
  | beginTransaction =>
      unfold Call.program IntentRegistry.beginTransaction
      rw [wp_map, wp_bind, wp_get]
      by_cases htx : r.transaction.isSome = true
      · rw [if_pos htx]
        simpa only [wp_bind, wp_throw] using hsame
      · rw [if_neg htx, wp_set]
        exact ⟨.began (by simpa using htx), hdone _⟩
  | createIn owner type slot lifetime priority encodedValue name =>
      unfold Call.program IntentRegistry.createIn
      rw [wp_map]
      refine wp_ensureActive (fun _ _ => hsame) fun _ _ => ?_
      exact wp_createImpl h (fun id sequence r' _ hm _ => hnew hm) (fun e r' hm _ =>
        .ordinary hm.kept hm.transaction)
  | cancel id =>
      unfold Call.program
      rw [wp_map]
      cases htx : r.transaction with
      | none =>
          unfold IntentRegistry.cancel
          exact wp_ensureActive (fun _ _ => hsame) fun t ht => by rw [htx] at ht; cases ht
      | some t =>
          refine wp_cancel h htx (fun i r' _ _ hm => ⟨.cancelled htx ?_ ⟨_, hm.transaction⟩,
            hdone _⟩) (fun e _ => .ordinary (Moved.refused h).kept rfl) (fun _ _ => hsame)
          exact (Kept.framed h _ _ _ _).trans hm.kept
  | commit =>
      unfold Call.program IntentRegistry.commit
      rw [wp_map]
      refine wp_ensureActive (fun _ _ => hsame) fun t ht => ?_
      rw [wp_modify]
      exact ⟨.committed ht, hdone _⟩
  | rollback =>
      unfold Call.program
      rw [wp_map, wp_modify]
      cases htx : r.transaction with
      | none =>
          have hroll : r.rollback = { r with terminated := true } := by
            unfold IntentRegistry.rollback
            rw [htx]
          rw [hroll]
          exact ⟨.ordinary (.framed h _ _ _ _) rfl, hdone _⟩
      | some t => exact ⟨.rolledBack htx, hdone _⟩

theorem Call.did (call : Call) {r : IntentRegistry} (h : r.Coherent) : Did r call (call.step r) :=
  wp_after.mp (wp_mono (call.wp_program h) (fun _ _ h' => h'.1) fun _ _ h' => h')

/-! ## The wrap of `nextSlot` -/

/-- `next_intent_id` takes no slot that is free, and counts `nextSlot` past its 32 bits. -/
def lastSlotCounted (r : IntentRegistry) : Bool :=
  r.availableSlots.isEmpty && decide (r.intentTypes.size < maxIntents) && r.nextSlot == maxU32

/-- A create comes to `next_intent_id`. -/
def drawsId (r : IntentRegistry) (owner : BehaviorId) (type : ComponentType)
    (slot : ComponentSlotId) (lifetime : IntentLifetime) (priority : IntentPriority)
    (name : Bytes) : Bool :=
  match checkCreate owner type slot lifetime priority name r with
  | .error _ _ => false
  | .ok _ _ =>
      match storageFor type r with
      | .error _ _ => false
      | .ok _ _ => true

/-- In this state the call makes `nextSlot` wrap. -/
def Call.wraps (r : IntentRegistry) : Call → Bool
  | .create owner type slot lifetime priority _ name =>
      r.transaction.isNone && r.drawsId owner type slot lifetime priority name &&
        r.lastSlotCounted
  | .createIn owner type slot lifetime priority _ name =>
      r.transaction.isSome && r.drawsId owner type slot lifetime priority name &&
        r.lastSlotCounted
  | _ => false

/-- `nextSlot` has wrapped as often as before. -/
def SameWraps (r r' : IntentRegistry) : Prop := r'.slotWraps = r.slotWraps

theorem SameWraps.refl (r : IntentRegistry) : SameWraps r r := rfl

theorem SameWraps.trans (r r' r'' : IntentRegistry) (h : SameWraps r r')
    (h' : SameWraps r' r'') : SameWraps r r'' := Eq.trans h' h

section SameWraps

variable {α : Type}

theorem sameWraps_lift (x : Except Failure α) :
    Within SameWraps (lift x : EStateM Failure IntentRegistry α) := by
  cases x with
  | ok a => exact within_pure SameWraps.refl a
  | error e => exact within_throw SameWraps.refl e

theorem sameWraps_ordinary : Within SameWraps ensureNoActiveTransaction :=
  within_get fun _ => within_ite (within_throw SameWraps.refl _) (within_pure SameWraps.refl _)

theorem sameWraps_ensureActive : Within SameWraps ensureActive :=
  within_get fun _ => within_ite (within_throw SameWraps.refl _) (within_pure SameWraps.refl _)

theorem sameWraps_releaseIntentId (r : IntentRegistry) (id : IntentId) :
    SameWraps r (r.releaseIntentId id) := by
  rcases r.releaseIntentId_eq id with ⟨_, heq⟩ | heq <;> rw [heq] <;> rfl

theorem sameWraps_index (i : Intent) : Within SameWraps (index i) := by
  have hfail : ∀ (stored typed owned : Bool) (e : Failure), Within SameWraps
      (do modify (withdraw i stored typed owned); throw e : EStateM Failure IntentRegistry IntentId) :=
    fun stored typed owned e => within_bind SameWraps.trans
      (within_modify fun r => sameWraps_releaseIntentId _ _) fun _ => within_throw SameWraps.refl e
  unfold index
  refine within_get fun r => within_ite (hfail _ _ _ _) ?_
  refine within_bind SameWraps.trans (within_modify fun _ => rfl) fun _ => ?_
  refine within_ite (hfail _ _ _ _) ?_
  refine within_bind SameWraps.trans (within_modify fun _ => rfl) fun _ => ?_
  refine within_ite (hfail _ _ _ _) ?_
  refine within_bind SameWraps.trans (within_modify fun _ => rfl) fun _ => ?_
  refine within_ite (hfail _ _ _ _) ?_
  refine within_bind SameWraps.trans (within_modify fun _ => rfl) fun _ => within_ite ?_ ?_
  · exact within_bind SameWraps.trans (within_modify fun _ => rfl) fun _ => hfail _ _ _ _
  · exact within_bind SameWraps.trans (within_modify fun _ => rfl) fun _ =>
      within_pure SameWraps.refl _

theorem sameWraps_retireIntentId (id : IntentId) : Within SameWraps (retireIntentId id) := by
  refine fun r => (wp_after (P := SameWraps r)).mp ?_
  unfold retireIntentId
  rw [wp_bind, wp_get]
  cases r.generations[id.slot]? with
  | none => exact (wp_throw _).mpr rfl
  | some generation =>
      dsimp only
      rw [wp_ite]
      exact ⟨fun _ => (wp_set _).mpr rfl, fun _ => (wp_pure _).mpr rfl⟩

theorem sameWraps_forget (i : Intent) (type : ComponentTypeId) :
    Within SameWraps (forget i type) :=
  within_bind SameWraps.trans (within_modify fun _ => rfl) fun _ => sameWraps_retireIntentId _

theorem sameWraps_recordDestroyed (i : Intent) : Within SameWraps (recordDestroyed i) :=
  within_get fun _ => within_ite
    (within_bind SameWraps.trans (within_modify fun _ => rfl) fun _ =>
      within_throw SameWraps.refl _)
    (within_modify fun _ => rfl)

theorem sameWraps_destroy (id : IntentId) : Within SameWraps (destroy id) :=
  within_bind SameWraps.trans sameWraps_ordinary fun _ => within_get fun _ =>
    within_bind SameWraps.trans (sameWraps_lift _) fun i =>
      within_bind SameWraps.trans (sameWraps_lift _) fun type =>
        within_bind SameWraps.trans (sameWraps_recordDestroyed i) fun _ => sameWraps_forget i type

theorem sameWraps_destroyOwnedBy (owner : BehaviorId) :
    Within SameWraps (destroyOwnedBy owner) :=
  within_bind SameWraps.trans sameWraps_ordinary fun _ => within_get fun _ => within_ite
    (within_bind SameWraps.trans
      (within_forM SameWraps.refl SameWraps.trans _ fun id _ => sameWraps_destroy id) fun _ =>
        within_modify fun _ => rfl)
    (within_pure SameWraps.refl _)

theorem sameWraps_resolve (type : ComponentTypeId) (components : OrdMap Bytes ComponentSlotId)
    (now : UInt64) : Within SameWraps (resolve type components now) :=
  within_bind SameWraps.trans sameWraps_ordinary fun _ => within_get fun _ =>
    within_bind SameWraps.trans (sameWraps_lift _) fun expired =>
      within_bind SameWraps.trans
        (within_forM SameWraps.refl SameWraps.trans expired fun id _ => sameWraps_destroy id)
        fun _ => within_get fun _ => sameWraps_lift _

theorem sameWraps_cancel (id : IntentId) : Within SameWraps (cancel id) :=
  within_bind SameWraps.trans sameWraps_ensureActive fun _ => within_get fun _ =>
    within_bind SameWraps.trans (sameWraps_lift _) fun i =>
      within_bind SameWraps.trans (sameWraps_lift _) fun type =>
        within_bind SameWraps.trans (sameWraps_recordDestroyed i) fun _ =>
          within_bind SameWraps.trans (within_modify fun _ => rfl) fun _ => sameWraps_forget i type

theorem sameWraps_nextIntentSequence : Within SameWraps nextIntentSequence := by
  refine fun r => (wp_after (P := SameWraps r)).mp ?_
  unfold nextIntentSequence
  rw [wp_bind, wp_get]
  by_cases hseq : r.lastSequence = maxU64
  · rw [if_pos hseq]
    simp only [wp_bind, wp_throw]
    rfl
  · rw [if_neg hseq]
    simp only [wp_bind, wp_set, wp_pure]
    rfl

/-- `next_intent_id` counts a wrap only where it wraps. -/
theorem sameWraps_nextIntentId {r : IntentRegistry} (h : r.lastSlotCounted = false) :
    wp nextIntentId (fun _ => SameWraps r) (fun _ => SameWraps r) r := by
  unfold nextIntentId
  rw [wp_bind, wp_get]
  cases hav : r.availableSlots with
  | cons slot rest =>
      dsimp only
      rw [wp_bind, wp_set]
      cases r.generations[slot]? with
      | none => exact (wp_throw _).mpr rfl
      | some generation => exact (wp_pure _).mpr rfl
  | nil =>
      dsimp only
      by_cases hfull : r.intentTypes.size ≥ maxIntents
      · rw [if_pos hfull]
        simp only [wp_bind, wp_throw]
        rfl
      have hnext : r.nextSlot ≠ maxU32 := by
        rintro hmax
        unfold lastSlotCounted at h
        rw [hav, hmax, decide_eq_true (Nat.not_le.mp hfull)] at h
        cases h
      have hcount : SameWraps r r.countSlot := by
        unfold SameWraps countSlot
        rw [if_neg hnext]
      rw [if_neg hfull, wp_bind, wp_set]
      cases r.generations[r.nextSlot.toNat]? with
      | none => exact (wp_throw _).mpr hcount
      | some generation => exact (wp_pure _).mpr hcount

end SameWraps

/-- A create that does not wrap `nextSlot`. -/
theorem sameWraps_createImpl {r : IntentRegistry} {owner : BehaviorId} {type : ComponentType}
    {slot : ComponentSlotId} {lifetime : IntentLifetime} {priority : IntentPriority}
    {encodedValue : Value} {name : Bytes}
    (h : (r.drawsId owner type slot lifetime priority name && r.lastSlotCounted) = false) :
    wp (createImpl owner type slot lifetime priority encodedValue name)
      (fun _ => SameWraps r) (fun _ => SameWraps r) r := by
  have hcheck : wp (checkCreate owner type slot lifetime priority name)
      (fun _ r' => r' = r) (fun _ r' => r' = r) r :=
    wp_checkCreate (fun _ _ => rfl) fun _ => rfl
  have hstorage : wp (storageFor type)
      (fun _ r' => SameWraps r r' ∧ r'.lastSlotCounted = r.lastSlotCounted)
      (fun _ => SameWraps r) r := by
    unfold storageFor
    rw [wp_bind, wp_get]
    cases r.storages.find? type.id with
    | none => exact (wp_set _).mpr ⟨rfl, rfl⟩
    | some storage =>
        dsimp only
        rw [wp_ite]
        exact ⟨fun _ => (wp_throw _).mpr rfl, fun _ => (wp_pure _).mpr ⟨rfl, rfl⟩⟩
  unfold createImpl
  rw [wp_bind]
  refine wp_mono (wp_and hcheck (wp_outcome _ r)) (fun _ r₁ h₁ => ?_) (fun _ r₁ h₁ => ?_)
  swap
  · rw [h₁.1]
    rfl
  obtain ⟨rfl, hpassed⟩ := h₁
  rw [wp_bind]
  refine wp_mono (wp_and hstorage (wp_outcome _ r₁)) (fun _ r₂ h₂ => ?_) (fun _ _ h₂ => h₂.1)
  obtain ⟨⟨hsame, hcounted⟩, hstored⟩ := h₂
  -- both have passed, so it is the counter that does not wrap
  have hdraws : r₁.drawsId owner type slot lifetime priority name = true := by
    unfold drawsId
    rw [hpassed, hstored]
  rw [hdraws, Bool.true_and, ← hcounted] at h
  rw [wp_bind]
  refine wp_mono (sameWraps_nextIntentId h) (fun id r₃ h₃ => ?_) (fun _ r₃ h₃ => hsame.trans _ _ _ h₃)
  have hrest := within_bind SameWraps.trans sameWraps_nextIntentSequence fun sequence =>
    sameWraps_index ⟨id, owner, ⟨type.id, slot⟩, lifetime, priority, sequence, encodedValue, name⟩
  refine wp_mono (hrest.wp r₃) (fun _ r₄ h₄ => ?_) (fun _ r₄ h₄ => ?_)
  · exact hsame.trans _ _ _ (h₃.trans _ _ _ h₄)
  · exact hsame.trans _ _ _ (h₃.trans _ _ _ h₄)

/-- Nothing is done to the intents, and `nextSlot` may have wrapped. -/
def Overrun (r r' : IntentRegistry) : Prop :=
  ∃ r₁ available next wraps, Moved [] r r₁ ∧ SameWraps r r₁ ∧
    r' = r₁.reslotted available next wraps

/-- A create that wraps `nextSlot` throws, since the last slot has no generation. -/
theorem overrun_createImpl {r : IntentRegistry} (h : r.Coherent) {owner : BehaviorId}
    {type : ComponentType} {slot : ComponentSlotId} {lifetime : IntentLifetime}
    {priority : IntentPriority} {encodedValue : Value} {name : Bytes} :
    wp (createImpl owner type slot lifetime priority encodedValue name)
      (fun _ => SameWraps r) (fun _ => Overrun r) r := by
  have hsame : ∀ {r'}, Moved [] r r' → SameWraps r r' → Overrun r r' :=
    fun hm hs => ⟨_, _, _, _, hm, hs, rfl⟩
  cases hlast : r.lastSlotCounted with
  | false =>
      refine wp_mono (wp_and (sameWraps_createImpl (by rw [hlast, Bool.and_false]))
        (wp_createImpl h (Q := fun _ _ => True) (E := fun _ => Moved [] r)
          (fun _ _ _ _ _ _ => trivial) fun _ _ hm _ => hm)) (fun _ _ hs => hs.1)
        fun _ _ hs => hsame hs.2 hs.1
  | true =>
      unfold lastSlotCounted at hlast
      simp only [Bool.and_eq_true, List.isEmpty_iff, decide_eq_true_eq, beq_iff_eq] at hlast
      obtain ⟨⟨hav, hsize⟩, hnext⟩ := hlast
      have hgen : r.generations[r.nextSlot.toNat]? = none := by
        rw [hnext, List.getElem?_eq_none_iff, h.allocated.sized]
        decide
      -- the storage of the type may be new
      have hdraw : ∀ r₁, Moved [] r r₁ → r₁.availableSlots = r.availableSlots →
          r₁.intentTypes = r.intentTypes → r₁.nextSlot = r.nextSlot →
          r₁.generations = r.generations → SameWraps r r₁ →
          wp nextIntentId (fun _ _ => False) (fun _ => Overrun r) r₁ := by
        intro r₁ hm hav₁ htypes₁ hnext₁ hgen₁ hwraps₁
        unfold nextIntentId
        rw [wp_bind, wp_get, hav₁, hav]
        dsimp only
        rw [if_neg (by rw [htypes₁]; omega), wp_bind, wp_set, hnext₁, hgen₁, hgen]
        exact (wp_throw _).mpr ⟨r₁, _, _, _, hm, hwraps₁, r₁.countSlot_eq⟩
      unfold createImpl
      rw [wp_bind]
      refine wp_checkCreate (fun _ _ => ?_) fun _ => hsame (.refl h) (.refl r)
      have hstorage : wp (storageFor type) (fun _ => wp nextIntentId (fun _ _ => False)
          (fun _ => Overrun r)) (fun _ => Overrun r) r := by
        unfold storageFor
        rw [wp_bind, wp_get]
        cases hs : r.storages.find? type.id with
        | none => exact (wp_set _).mpr (hdraw _ (.newStorage h hs _) rfl rfl rfl rfl rfl)
        | some storage =>
            dsimp only
            rw [wp_ite]
            exact ⟨fun _ => (wp_throw _).mpr (hsame (.refl h) (.refl r)),
              fun _ => (wp_pure _).mpr (hdraw r (.refl h) rfl rfl rfl rfl rfl)⟩
      rw [wp_bind]
      refine wp_mono hstorage (fun _ r₁ h₁ => ?_) fun _ _ h₁ => h₁
      rw [wp_bind]
      exact wp_mono h₁ (fun _ _ hf => hf.elim) fun _ _ h₂ => h₂

/-- A rollback takes back the number of the next slot, and not that it has wrapped. -/
theorem sameWraps_rollback (r : IntentRegistry) : SameWraps r r.rollback := by
  unfold rollback
  cases r.transaction with
  | none => rfl
  | some t =>
      dsimp only
      cases r.rolledBackStorages t <;> rfl

/-- A call that does not wrap `nextSlot`, however it ends. -/
theorem Call.sameWraps {call : Call} {r : IntentRegistry} (h : call.wraps r = false) :
    SameWraps r (call.step r) := by
  unfold Call.step
  refine (wp_after (P := SameWraps r)).mp ?_
  cases call with
  | create owner type slot lifetime priority encodedValue name =>
      unfold Call.program IntentRegistry.create
      rw [wp_map]
      refine wp_ordinary (fun _ => rfl) fun htx => sameWraps_createImpl ?_
      unfold Call.wraps at h
      dsimp only at h
      rwa [htx, Option.isNone_none, Bool.true_and] at h
  | destroy id => exact (wp_map _ _).mpr ((sameWraps_destroy id).wp r)
  | destroyOwnedBy owner => exact (wp_map _ _).mpr ((sameWraps_destroyOwnedBy owner).wp r)
  | createBehaviorPool owner =>
      refine (wp_map _ _).mpr (Within.wp ?_ r)
      exact within_bind SameWraps.trans (sameWraps_destroyOwnedBy owner) fun _ =>
        within_modify fun _ => rfl
  | resolve type components now =>
      exact (wp_map _ _).mpr ((sameWraps_resolve type components now).wp r)
  | clearLifecycleRecords =>
      refine (wp_map _ _).mpr (Within.wp ?_ r)
      exact within_bind SameWraps.trans sameWraps_ordinary fun _ => within_modify fun _ => rfl
  | beginTransaction =>
      unfold Call.program IntentRegistry.beginTransaction
      rw [wp_map, wp_bind, wp_get]
      by_cases htx : r.transaction.isSome = true
      · rw [if_pos htx]
        simp only [wp_bind, wp_throw]
        rfl
      · rw [if_neg htx, wp_set]
        rfl
  | createIn owner type slot lifetime priority encodedValue name =>
      unfold Call.program IntentRegistry.createIn
      rw [wp_map]
      refine wp_ensureActive (fun _ _ => rfl) fun t ht => sameWraps_createImpl ?_
      unfold Call.wraps at h
      dsimp only at h
      rwa [ht, Option.isSome_some, Bool.true_and] at h
  | cancel id => exact (wp_map _ _).mpr ((sameWraps_cancel id).wp r)
  | commit =>
      refine (wp_map _ _).mpr (Within.wp ?_ r)
      exact within_bind SameWraps.trans sameWraps_ensureActive fun _ => within_modify fun _ => rfl
  | rollback => exact (wp_map _ _).mpr ((wp_modify _).mpr (sameWraps_rollback r))

/-! ## Runs without a rollback -/

theorem initial_coherent (world : UInt64) : (initial world).Coherent := by
  have hnone : ∀ id, (initial world).record? id = none := fun _ => rfl
  have hno : ∀ {P : Intent → Prop} {id}, ¬∃ i, (initial world).record? id = some i ∧ P i := by
    rintro P id ⟨i, hi, _⟩
    rw [hnone] at hi
    cases hi
  refine ⟨⟨fun id type ht => ?_, fun b id => ?_, fun t id ht => ?_, fun b n id => ?_,
    fun b hb => ?_⟩, ⟨fun id i hi => ?_, List.nodup_nil, List.length_replicate⟩,
    ⟨fun id i hi => ?_, fun id _ i _ hi => ?_⟩,
    fun type slots hs => ?_, fun _ => ⟨fun id i hi => ?_, fun s hs => ?_, fun id i hi => ?_⟩⟩
  · cases ht
  · exact iff_of_false Bool.false_ne_true hno
  · cases ht
  · exact iff_of_false (by rintro ⟨⟩) fun h => hno h.2
  · cases hb
  · rw [hnone] at hi
    cases hi
  · rw [hnone] at hi
    cases hi
  · rw [hnone] at hi
    cases hi
  · cases hs
  · rw [hnone] at hi
    cases hi
  · cases hs
  · rw [hnone] at hi
    cases hi

theorem initial_tidy (world : UInt64) : (initial world).Tidy := fun _ _ _ h => by cases h

/-- The six structures speak about the same intents, and the free slots are free. -/
structure Agreement (r : IntentRegistry) : Prop where
  typed : ∀ id, r.intentTypes.contains id = true ↔ ∃ type i, r.stored type id = some i
  own : ∀ type id i, r.stored type id = some i →
    i.id = id ∧ i.target.type = type ∧ r.intentTypes.find? id = some type
  owner : ∀ b id, r.ownedBy b id = true ↔ ∃ type i, r.stored type id = some i ∧ i.owner = b
  target : ∀ t id, targeted r.byTarget t id = true ↔
    ∃ type i, r.stored type id = some i ∧ i.target = t
  name : ∀ b n id, r.intentNamed b n = some id ↔
    n ≠ [] ∧ ∃ type i, r.stored type id = some i ∧ i.owner = b ∧ i.name = n
  names : ∀ b n n' id, r.intentNamed b n = some id → r.intentNamed b n' = some id → n = n'
  filled : Filled r.byTarget
  sequences : ∀ type type' id id' i i', r.stored type id = some i → r.stored type' id' = some i' →
    i.sequence = i'.sequence → id = id'
  slots : r.availableSlots.Nodup
  free : ∀ s ∈ r.availableSlots, s < r.nextSlot.toNat ∧
    ∀ id, r.intentTypes.contains id = true → id.slot ≠ s

/-- In a tidy registry the storages hold the live intents. -/
theorem Coherent.stored_iff {r : IntentRegistry} (h : r.Coherent) (ht : r.Tidy) {id : IntentId}
    {P : Intent → Prop} : (∃ type i, r.stored type id = some i ∧ P i) ↔
      ∃ i, r.record? id = some i ∧ P i := by
  constructor
  · rintro ⟨type, i, hi, hP⟩
    exact ⟨i, by rw [record?_eq, ht type id i hi, Option.bind_some, hi], hP⟩
  · rintro ⟨i, hi, hP⟩
    exact ⟨_, i, (h.indexed.live hi).2.1, hP⟩

theorem Coherent.agreement {r : IntentRegistry} (h : r.Coherent) (ht : r.Tidy)
    (h0 : r.slotWraps = 0) : r.Agreement := by
  have horderly := h.orderly h0
  have hrec : ∀ {type id i}, r.stored type id = some i → r.record? id = some i := by
    intro type id i hi
    rw [record?_eq, ht type id i hi, Option.bind_some, hi]
  have hlive : ∀ id, r.intentTypes.contains id = true → ∃ i, r.record? id = some i := by
    intro id hid
    obtain ⟨type, htype⟩ := Option.isSome_iff_exists.mp hid
    obtain ⟨i, hi, _⟩ := h.indexed.typed id type htype
    exact ⟨i, hrec hi⟩
  refine ⟨fun id => ⟨fun hid => ?_, ?_⟩, fun type id i hi => ?_, fun b id => ?_, fun t id => ?_,
    fun b n id => ?_, fun b n n' id hn hn' => ?_, h.filled, fun type type' id id' i i' hi hi' hs => ?_,
    h.allocated.nodup, fun s hs => ⟨horderly.free s hs, fun id hid hslot => ?_⟩⟩
  · obtain ⟨i, hi⟩ := hlive id hid
    exact ⟨_, i, (h.indexed.live hi).2.1⟩
  · rintro ⟨type, i, hi⟩
    rw [OrdMap.contains, ht type id i hi]
    rfl
  · obtain ⟨htype, _, hid⟩ := h.indexed.live (hrec hi)
    have htype' := ht type id i hi
    rw [htype'] at htype
    exact ⟨hid, (Option.some.inj htype).symm, htype'⟩
  · rw [h.stored_iff ht]
    exact h.indexed.owner b id
  · rw [h.stored_iff ht]
    refine ⟨h.indexed.target t id, ?_⟩
    rintro ⟨i, hi, rfl⟩
    exact horderly.targeted id i hi
  · rw [h.stored_iff ht]
    exact h.indexed.name b n id
  · -- one intent has one name
    obtain ⟨_, i, hi, _, hin⟩ := (h.indexed.name b n id).mp hn
    obtain ⟨_, i', hi', _, hin'⟩ := (h.indexed.name b n' id).mp hn'
    rw [hi] at hi'
    cases hi'
    exact hin.symm.trans hin'
  · exact h.sequenced.distinct id id' i i' (hrec hi) (hrec hi') hs
  · obtain ⟨i, hi⟩ := hlive id hid
    exact (h.allocated.live id i hi).2.2 (hslot ▸ hs)

/-- A call that is not a rollback keeps the registry coherent and tidy. -/
theorem Call.kept (call : Call) {r : IntentRegistry} (h : r.Coherent) (hcall : call ≠ .rollback) :
    Kept r (call.step r) := by
  have hdid := call.did h
  generalize call.step r = r' at hdid
  cases hdid with
  | ordinary kept _ => exact kept
  | began _ => exact .framed h _ _ _ _
  | cancelled _ kept _ => exact kept
  | committed _ => exact .framed h _ _ _ _
  | rolledBack _ => exact absurd rfl hcall

theorem coherent_of_run {world : UInt64} {r : IntentRegistry}
    (h : Reaches Call.step (fun call r => call ≠ .rollback ∧ call.wraps r = false)
      (initial world) r) : r.Coherent ∧ r.Tidy ∧ r.slotWraps = 0 := by
  refine h.induct (P := fun r => r.Coherent ∧ r.Tidy ∧ r.slotWraps = 0)
    ⟨initial_coherent world, initial_tidy world, rfl⟩ fun call r hr hcall => ?_
  have hkept := call.kept hr.1 hcall.1
  have h0 : (call.step r).slotWraps = 0 := Eq.trans (Call.sameWraps hcall.2) hr.2.2
  exact ⟨hkept.coherent, hkept.tidy h0 hr.2.1, h0⟩

/-- **Index coherence.** After any run of calls that never wraps `nextSlot` and rolls back no
    transaction, the indexes agree. -/
theorem indexes_agree {world : UInt64} {r : IntentRegistry}
    (h : Reaches Call.step (fun call r => call ≠ .rollback ∧ call.wraps r = false)
      (initial world) r) : r.Agreement := by
  obtain ⟨hcoherent, htidy, h0⟩ := coherent_of_run h
  exact hcoherent.agreement htidy h0

/-- A pool, an intent, a create that throws (the name is taken), and a committed transaction
    that replaces the intent. -/
def replacing : List Call :=
  let owner : BehaviorId := ⟨7, 0, 1⟩
  let create := Call.create owner ⟨0, 0, 7, 1⟩ ⟨7, 0, 1⟩ ⟨.persistent, 0⟩ .low .null [65]
  [.createBehaviorPool owner, create, create, .beginTransaction, .cancel ⟨7, 1, 1⟩,
    .createIn owner ⟨0, 0, 7, 1⟩ ⟨7, 0, 1⟩ ⟨.persistent, 0⟩ .high .null [65], .commit]

theorem indexes_agree_replacing :
    (replacing.foldl (fun r call => call.step r) (initial 7)).Agreement := by
  refine indexes_agree (Reaches.obeys .start ⟨⟨nofun, ?_⟩, ⟨nofun, ?_⟩, ⟨nofun, ?_⟩, ⟨nofun, ?_⟩,
    ⟨nofun, ?_⟩, ⟨nofun, ?_⟩, ⟨nofun, ?_⟩, trivial⟩) <;> decide +kernel

end IntentRegistry

end LiquidLayer
