/-
  What the programs of `IntentRegistry` do.

  `Allocated r`: the id of a live intent carries the generation of its slot, and the slot is not
  among the free ones. `Orderly r`: the slots in use are those below `nextSlot`, and the target
  index misses no live intent. `Past r id`: the id has been handed out, and never comes again.
  `Sequenced r`: no two live intents have the same sequence. `Coherent r` is what every
  operation keeps; it is orderly until the 32 bits of `nextSlot` wrap. After that a create may
  be given the id of a live intent: it throws, and takes the id out of the target index
  (`Clashing`).

  `Moved entries r r'`: the registry went from `r` to `r'`, its live intents changed as
  `entries` say, and `entries` is what was added to the lifecycle buffer. Creating, destroying
  and cancelling are moves, however they end.
-/
import LiquidLayer.World.IntentIndex
import LiquidLayer.World.Registered

namespace LiquidLayer

open Prog

namespace IntentRegistry

/-! ## Ids -/

structure Allocated (r : IntentRegistry) : Prop where
  live : ∀ id i, r.record? id = some i → id.world = r.worldId ∧
    r.generations[id.slot]? = some id.generation ∧ id.slot ∉ r.availableSlots
  nodup : r.availableSlots.Nodup
  sized : r.generations.length = maxIntents + 1

structure Orderly (r : IntentRegistry) : Prop where
  below : ∀ id i, r.record? id = some i → id.slot < r.nextSlot.toNat
  free : ∀ s ∈ r.availableSlots, s < r.nextSlot.toNat
  targeted : ∀ id i, r.record? id = some i → targeted r.byTarget i.target id = true

structure Sequenced (r : IntentRegistry) : Prop where
  issued : ∀ id i, r.record? id = some i → i.sequence ≤ r.lastSequence
  distinct : ∀ id id' i i', r.record? id = some i → r.record? id' = some i' →
    i.sequence = i'.sequence → id = id'

structure Coherent (r : IntentRegistry) : Prop where
  indexed : r.Indexed
  allocated : r.Allocated
  sequenced : r.Sequenced
  filled : Filled r.byTarget
  orderly : r.slotWraps = 0 → r.Orderly

/-- The storages may hold more, as long as the records of the live intents are the same. -/
theorem record?_restocked {r r' : IntentRegistry} (htypes : r'.intentTypes = r.intentTypes)
    (hs : ∀ id type, r.intentTypes.find? id = some type →
      storedIn r'.storages type id = r.stored type id) (id : IntentId) :
    r'.record? id = r.record? id := by
  rw [record?_eq, record?_eq, htypes]
  cases ht : r.intentTypes.find? id with
  | none => rfl
  | some type => exact hs id type ht

/-- Sequences may be drawn and storages filled; the buffer, the transaction and the members
    that are not in the sources do not matter. -/
theorem Coherent.restocked {r : IntentRegistry} (h : r.Coherent)
    {storages : OrdMap ComponentTypeId IntentStorage} {lastSequence : UInt64} {slotWraps : Nat}
    (hs : ∀ id type, r.intentTypes.find? id = some type →
      storedIn storages type id = r.stored type id)
    (hle : r.lastSequence ≤ lastSequence) (hwraps : r.slotWraps ≤ slotWraps)
    (lifecycleRecords : List IntentLifecycleRecord) (transaction : Option IntentTransaction)
    (capacityErrors : Nat) (terminated : Bool) :
    ({ r with
      storages
      lastSequence
      slotWraps
      lifecycleRecords
      transaction
      capacityErrors
      terminated } : IntentRegistry).Coherent := by
  generalize hr' : ({ r with
    storages
    lastSequence
    slotWraps
    lifecycleRecords
    transaction
    capacityErrors
    terminated } : IntentRegistry) = r'
  have hrec : ∀ id, r'.record? id = r.record? id := by
    rw [← hr']
    exact record?_restocked (r := r) rfl hs
  obtain ⟨hidx, hall, hseq, hfilled, horderly⟩ := h
  refine ⟨⟨fun id type ht => ?_, fun b id => ?_, fun t id => ?_, fun b m id => ?_, ?_⟩,
    ⟨fun id i hi => ?_, ?_, ?_⟩, ⟨fun id i hi => ?_, fun id id' i i' hi hi' => ?_⟩, ?_, fun h0 =>
      ⟨fun id i hi => ?_, ?_, fun id i hi => ?_⟩⟩
  · rw [← hr'] at ht ⊢
    obtain ⟨i, hi, hid, htype⟩ := hidx.typed id type ht
    exact ⟨i, (hs id type ht).trans hi, hid, htype⟩
  · simp only [hrec]
    rw [← hr']
    exact hidx.owner b id
  · simp only [hrec]
    rw [← hr']
    exact hidx.target t id
  · simp only [hrec]
    rw [← hr']
    exact hidx.name b m id
  · rw [← hr']
    exact hidx.pools
  · rw [hrec] at hi
    rw [← hr']
    exact hall.live id i hi
  · rw [← hr']
    exact hall.nodup
  · rw [← hr']
    exact hall.sized
  · rw [hrec] at hi
    rw [← hr']
    exact (hseq.issued id i hi).trans hle
  · rw [hrec] at hi hi'
    exact hseq.distinct id id' i i' hi hi'
  · rw [← hr']
    exact hfilled
  all_goals
    rw [← hr'] at h0
    have horderly := horderly (Nat.le_zero.mp (h0 ▸ hwraps))
  · rw [hrec] at hi
    rw [← hr']
    exact horderly.below id i hi
  · rw [← hr']
    exact horderly.free
  · rw [hrec] at hi
    rw [← hr']
    exact horderly.targeted id i hi

/-- Nothing that matters has changed. -/
theorem Coherent.framed {r : IntentRegistry} (h : r.Coherent)
    (lifecycleRecords : List IntentLifecycleRecord) (transaction : Option IntentTransaction)
    (capacityErrors : Nat) (terminated : Bool) :
    ({ r with lifecycleRecords, transaction, capacityErrors, terminated } :
      IntentRegistry).Coherent :=
  h.restocked (fun _ _ _ => rfl) (le_refl _) (le_refl _) _ _ _ _

/-- The id has been handed out. -/
def Past (r : IntentRegistry) (id : IntentId) : Prop :=
  ∃ g, r.generations[id.slot]? = some g ∧
    (id.generation < g ∨
      (id.generation = g ∧ id.slot < r.nextSlot.toNat ∧ id.slot ∉ r.availableSlots))

theorem Coherent.past {r : IntentRegistry} (h : r.Coherent) (h0 : r.slotWraps = 0)
    {id : IntentId} {i : Intent} (hr : r.record? id = some i) : r.Past id := by
  obtain ⟨_, hg, hfree⟩ := h.allocated.live id i hr
  exact ⟨_, hg, Or.inr ⟨rfl, (h.orderly h0).below id i hr, hfree⟩⟩

/-- A live intent is told by its slot. -/
theorem Allocated.eq_of_slot {r : IntentRegistry} (h : r.Allocated) {id id' : IntentId}
    {i : Intent} (hr : r.record? id = some i) (hw : id'.world = r.worldId)
    (hg : r.generations[id'.slot]? = some id'.generation) (hs : id.slot = id'.slot) :
    id = id' := by
  obtain ⟨hw', hg', _⟩ := h.live id i hr
  rw [hs, hg] at hg'
  obtain ⟨w, s, g⟩ := id
  obtain ⟨w', s', g'⟩ := id'
  simp_all

theorem Allocated.slot_inj {r : IntentRegistry} (h : r.Allocated) {id id' : IntentId}
    {i i' : Intent} (hr : r.record? id = some i) (hr' : r.record? id' = some i')
    (hs : id.slot = id'.slot) : id = id' := by
  obtain ⟨hw', hg', _⟩ := h.live id' i' hr'
  exact h.eq_of_slot hr hw' hg' hs

/-- An id that has been taken but is not live yet. -/
structure Reserved (r : IntentRegistry) (id : IntentId) : Prop where
  world : id.world = r.worldId
  generation : r.generations[id.slot]? = some id.generation
  taken : id.slot ∉ r.availableSlots
  vacant : ∀ j i, r.record? j = some i → j.slot ≠ id.slot
  below : r.slotWraps = 0 → id.slot < r.nextSlot.toNat

theorem Reserved.fresh {r : IntentRegistry} {id : IntentId} (h : r.Reserved id) :
    r.record? id = none := by
  cases hr : r.record? id with
  | none => rfl
  | some i => exact absurd rfl (h.vacant id i hr)

/-- An id that `nextSlot`, once it has wrapped, gives out a second time. -/
structure Clashing (r : IntentRegistry) (id : IntentId) : Prop where
  live : ∃ i, r.record? id = some i
  last : UInt32.ofNat id.slot + 1 = r.nextSlot
  wrapped : r.slotWraps ≠ 0

/-- The slot allocation alone has changed. -/
def reslotted (r : IntentRegistry) (availableSlots : List Nat) (nextSlot : UInt32)
    (slotWraps : Nat) : IntentRegistry :=
  { r with availableSlots, nextSlot, slotWraps }

@[simp] theorem record?_reslotted (r : IntentRegistry) (available : List Nat) (next : UInt32)
    (wraps : Nat) (id : IntentId) : (r.reslotted available next wraps).record? id = r.record? id :=
  rfl

theorem Coherent.reslotted {r : IntentRegistry} (h : r.Coherent) {available : List Nat}
    {next : UInt32} {wraps : Nat} (hwraps : r.slotWraps ≤ wraps) (hnodup : available.Nodup)
    (hlive : ∀ id i, r.record? id = some i → id.slot ∉ available)
    (hbelow : wraps = 0 → ∀ id i, r.record? id = some i → id.slot < next.toNat)
    (hfree : wraps = 0 → ∀ s ∈ available, s < next.toNat) :
    (r.reslotted available next wraps).Coherent := by
  obtain ⟨hidx, hall, hseq, hfilled, horderly⟩ := h
  refine ⟨⟨hidx.typed, hidx.owner, hidx.target, hidx.name, hidx.pools⟩,
    ⟨fun id i hr => ?_, hnodup, hall.sized⟩, ⟨hseq.issued, hseq.distinct⟩, hfilled,
    fun h0 => ?_⟩
  · obtain ⟨hw, hg, _⟩ := hall.live id i hr
    exact ⟨hw, hg, hlive id i hr⟩
  · have h0' : wraps = 0 := h0
    exact ⟨hbelow h0', hfree h0', (horderly (by omega)).targeted⟩

/-! ## Counting slots -/

theorem toNat_succ {n : UInt32} (h : n ≠ maxU32) : (n + 1).toNat = n.toNat + 1 := by
  have hlt := n.toNat_lt
  have hne : n.toNat ≠ 4294967295 := fun he => h (UInt32.toNat_inj.mp he)
  rw [UInt32.toNat_add]
  show (n.toNat + 1) % 4294967296 = n.toNat + 1
  omega

/-- A slot below 32 bits that is counted is the one below `nextSlot`. -/
theorem toNat_of_counted {slot : Nat} {next : UInt32} (hlt : slot < next.toNat)
    (h : UInt32.ofNat slot + 1 = next) : next.toNat = slot + 1 ∧ (next - 1).toNat = slot := by
  have hnext := next.toNat_lt
  have hsize : UInt32.size = 4294967296 := rfl
  have hslot : (UInt32.ofNat slot).toNat = slot := UInt32.toNat_ofNat_of_lt' (by omega)
  have hne : UInt32.ofNat slot ≠ maxU32 := by
    intro he
    rw [he] at hslot
    have : maxU32.toNat = 4294967295 := rfl
    omega
  rw [← h, toNat_succ hne, hslot]
  refine ⟨rfl, ?_⟩
  rw [UInt32.add_sub_cancel, hslot]

@[simp] theorem countSlot_eq (r : IntentRegistry) : r.countSlot =
    r.reslotted r.availableSlots (r.nextSlot + 1)
      (if r.nextSlot = maxU32 then r.slotWraps + 1 else r.slotWraps) := rfl

theorem le_countWraps (r : IntentRegistry) :
    r.slotWraps ≤ if r.nextSlot = maxU32 then r.slotWraps + 1 else r.slotWraps := by
  split <;> omega

/-- As long as it has not wrapped, `nextSlot` is one more. -/
theorem toNat_countSlot {r : IntentRegistry}
    (h0 : (if r.nextSlot = maxU32 then r.slotWraps + 1 else r.slotWraps) = 0) :
    (r.nextSlot + 1).toNat = r.nextSlot.toNat + 1 := by
  split at h0
  · cases h0
  · next hne => exact toNat_succ hne

/-! ## Moves -/

/-- The live intents by id. -/
abbrev IntentView := IntentId → Option Intent

end IntentRegistry

/-- A creation is of an intent that was not live, a destruction of one that was. -/
def IntentLifecycleRecord.Fits (entry : IntentLifecycleRecord)
    (view : IntentRegistry.IntentView) : Prop :=
  view entry.intent.id = if entry.created then none else some entry.intent

def IntentLifecycleRecord.apply (entry : IntentLifecycleRecord)
    (view : IntentRegistry.IntentView) : IntentRegistry.IntentView := fun id =>
  if id = entry.intent.id then if entry.created then some entry.intent else none else view id

/-- The same for the records in the typed storages. -/
def IntentLifecycleRecord.applyStored (entry : IntentLifecycleRecord)
    (view : ComponentTypeId → IntentRegistry.IntentView) :
    ComponentTypeId → IntentRegistry.IntentView := fun type id =>
  if type = entry.intent.target.type ∧ id = entry.intent.id then
    if entry.created then some entry.intent else none
  else view type id

namespace IntentRegistry

/-- The entries fit one after the other and lead from `view` to `view'`. -/
def Traces : List IntentLifecycleRecord → IntentView → IntentView → Prop
  | [], view, view' => view' = view
  | entry :: rest, view, view' => entry.Fits view ∧ Traces rest (entry.apply view) view'

theorem Traces.append {l l' : List IntentLifecycleRecord} {v v' v'' : IntentView}
    (h : Traces l v v') (h' : Traces l' v' v'') : Traces (l ++ l') v v'' := by
  induction l generalizing v with
  | nil => exact h ▸ h'
  | cons m l ih => exact ⟨h.1, ih h.2⟩

/-- The storages change with the entries, and nothing is stored over what is there. -/
def Stores : List IntentLifecycleRecord → (ComponentTypeId → IntentView) →
    (ComponentTypeId → IntentView) → Prop
  | [], view, view' => view' = view
  | entry :: rest, view, view' =>
      (entry.created = true → view entry.intent.target.type entry.intent.id = none) ∧
        Stores rest (entry.applyStored view) view'

theorem Stores.append {l l' : List IntentLifecycleRecord}
    {v v' v'' : ComponentTypeId → IntentView} (h : Stores l v v') (h' : Stores l' v' v'') :
    Stores (l ++ l') v v'' := by
  induction l generalizing v with
  | nil => exact h ▸ h'
  | cons m l ih => exact ⟨h.1, ih h.2⟩

/-- What is known until `nextSlot` wraps: the handles that were handed out stay so, and none of
    them comes back to life; the storages change with the entries. -/
structure Lineage (entries : List IntentLifecycleRecord) (r r' : IntentRegistry) : Prop where
  stores : Stores entries r.stored r'.stored
  past : ∀ id, r.Past id → r'.Past id
  fresh : ∀ id i, r'.record? id = some i → r.Past id → r.record? id = some i
  tidy : r.Tidy → r'.Tidy
  terminated : r'.terminated = r.terminated

theorem Lineage.refl (r : IntentRegistry) : Lineage [] r r :=
  ⟨rfl, fun _ hp => hp, fun _ _ hr _ => hr, fun h => h, rfl⟩

theorem Lineage.trans {l l' : List IntentLifecycleRecord} {r r' r'' : IntentRegistry}
    (h : Lineage l r r') (h' : Lineage l' r' r'') : Lineage (l ++ l') r r'' where
  stores := h.stores.append h'.stores
  past id hp := h'.past id (h.past id hp)
  fresh id i hr hp := h.fresh id i (h'.fresh id i hr (h.past id hp)) hp
  tidy ht := h'.tidy (h.tidy ht)
  terminated := h'.terminated.trans h.terminated

/-- The registry has changed as the entries say, and the entries were buffered. -/
structure Moved (entries : List IntentLifecycleRecord) (r r' : IntentRegistry) : Prop where
  coherent : r'.Coherent
  world : r'.worldId = r.worldId
  buffer : r'.lifecycleRecords = r.lifecycleRecords ++ entries
  traces : Traces entries r.record? r'.record?
  pools : ∀ b, r'.byOwner.contains b = r.byOwner.contains b
  storages : ∀ type st, r.storages.find? type = some st →
    ∃ st', r'.storages.find? type = some st' ∧ st'.component = st.component
  transaction : r'.transaction = r.transaction
  capacity : r.capacityErrors ≤ r'.capacityErrors
  wraps : r.slotWraps ≤ r'.slotWraps
  lineage : r'.slotWraps = 0 → Lineage entries r r'

theorem Moved.refl {r : IntentRegistry} (h : r.Coherent) : Moved [] r r :=
  ⟨h, rfl, (List.append_nil _).symm, rfl, fun _ => rfl, fun _ st hst => ⟨st, hst, rfl⟩, rfl,
    le_refl _, le_refl _, fun _ => .refl r⟩

theorem Moved.trans {l l' : List IntentLifecycleRecord} {r r' r'' : IntentRegistry}
    (h : Moved l r r') (h' : Moved l' r' r'') : Moved (l ++ l') r r'' where
  coherent := h'.coherent
  world := h'.world.trans h.world
  buffer := by rw [h'.buffer, h.buffer, List.append_assoc]
  traces := h.traces.append h'.traces
  pools b := (h'.pools b).trans (h.pools b)
  storages type st hst := by
    obtain ⟨st', hst', hc⟩ := h.storages type st hst
    obtain ⟨st'', hst'', hc'⟩ := h'.storages type st' hst'
    exact ⟨st'', hst'', hc'.trans hc⟩
  transaction := h'.transaction.trans h.transaction
  capacity := h.capacity.trans h'.capacity
  wraps := h.wraps.trans h'.wraps
  lineage h0 := (h.lineage (Nat.le_zero.mp (h0 ▸ h'.wraps))).trans (h'.lineage h0)

/-! ## Creating -/

theorem Moved.reslotted {r : IntentRegistry} {available : List Nat} {next : UInt32} {wraps : Nat}
    (h : (r.reslotted available next wraps).Coherent) (hwraps : r.slotWraps ≤ wraps)
    (hp : wraps = 0 → ∀ j, r.Past j → (r.reslotted available next wraps).Past j) :
    Moved [] r (r.reslotted available next wraps) :=
  ⟨h, rfl, (List.append_nil _).symm, rfl, fun _ => rfl, fun _ st hst => ⟨st, hst, rfl⟩, rfl,
    le_refl _, hwraps, fun h0 => ⟨rfl, hp h0, fun _ _ hr _ => hr, fun h => h, rfl⟩⟩

/-- A free slot is taken. -/
theorem Moved.taken {r : IntentRegistry} (h : r.Coherent) {slot : Nat} {rest : List Nat}
    (hav : r.availableSlots = slot :: rest) :
    Moved [] r (r.reslotted rest r.nextSlot r.slotWraps) := by
  have hnd := h.allocated.nodup
  rw [hav, List.nodup_cons] at hnd
  have hsub : ∀ s, s ∈ rest → s ∈ r.availableSlots := fun s hs =>
    hav ▸ List.mem_cons_of_mem _ hs
  refine .reslotted (h.reslotted (le_refl _) hnd.2 (fun id i hr => ?_)
    (fun h0 => (h.orderly h0).below) (fun h0 s hs => (h.orderly h0).free s (hsub s hs)))
    (le_refl _) fun _ j hj => ?_
  · exact fun hm => (h.allocated.live id i hr).2.2 (hsub _ hm)
  · obtain ⟨g, hg, hlt | ⟨heq, hlt, hfree⟩⟩ := hj
    · exact ⟨g, hg, Or.inl hlt⟩
    · exact ⟨g, hg, Or.inr ⟨heq, hlt, fun hm => hfree (hsub _ hm)⟩⟩

/-- A slot is counted when none is free. -/
theorem Moved.counted {r : IntentRegistry} (h : r.Coherent) (hav : r.availableSlots = []) :
    Moved [] r r.countSlot := by
  rw [countSlot_eq, hav]
  have hlt : ∀ {s : Nat}, (if r.nextSlot = maxU32 then r.slotWraps + 1 else r.slotWraps) = 0 →
      s < r.nextSlot.toNat → s < (r.nextSlot + 1).toNat := by
    intro s h0 hs
    rw [toNat_countSlot h0]
    omega
  have hwraps := r.le_countWraps
  refine .reslotted (h.reslotted hwraps List.nodup_nil (fun _ _ _ => List.not_mem_nil)
    (fun h0 id i hr => ?_) (fun _ s hs => absurd hs List.not_mem_nil)) hwraps fun h0 j hj => ?_
  · exact hlt h0 ((h.orderly (Nat.le_zero.mp (h0 ▸ hwraps))).below id i hr)
  · obtain ⟨g, hg, hold | ⟨heq, hold, _⟩⟩ := hj
    · exact ⟨g, hg, Or.inl hold⟩
    · exact ⟨g, hg, Or.inr ⟨heq, hlt h0 hold, List.not_mem_nil⟩⟩

/-- `next_intent_id`: an id that is not live, and was not handed out before unless `nextSlot` has
    wrapped; a live one after the wrap; or an exception that only loses a slot. -/
theorem wp_nextIntentId {r : IntentRegistry} (h : r.Coherent)
    {Q : IntentId → IntentRegistry → Prop} {E : Failure → IntentRegistry → Prop}
    (hok : ∀ id available next wraps, Moved [] r (r.reslotted available next wraps) →
      (r.reslotted available next wraps).Reserved id → (wraps = 0 → ¬r.Past id) →
      Q id (r.reslotted available next wraps))
    (hclash : ∀ id available next wraps, Moved [] r (r.reslotted available next wraps) →
      (r.reslotted available next wraps).Clashing id → Q id (r.reslotted available next wraps))
    (herr : ∀ e available next wraps, Moved [] r (r.reslotted available next wraps) →
      E e (r.reslotted available next wraps)) :
    wp nextIntentId Q E r := by
  unfold nextIntentId
  rw [wp_bind, wp_get]
  cases hav : r.availableSlots with
  | cons slot rest =>
      dsimp only
      have hmoved := Moved.taken h hav
      have hnd := h.allocated.nodup
      rw [hav, List.nodup_cons] at hnd
      have hslot : slot ∈ r.availableSlots := hav ▸ List.mem_cons_self
      rw [wp_bind, wp_set]
      cases hgen : r.generations[slot]? with
      | none => exact (wp_throw _).mpr (herr _ rest r.nextSlot r.slotWraps hmoved)
      | some g =>
          refine (wp_pure _).mpr (hok _ rest r.nextSlot r.slotWraps hmoved
            ⟨rfl, hgen, hnd.1, fun j i hr hs => ?_, fun h0 => (h.orderly h0).free slot hslot⟩
            fun _ => ?_)
          · exact (h.allocated.live j i hr).2.2 (hs ▸ hslot)
          · rintro ⟨g', hg', hlt | ⟨_, _, hfree⟩⟩
            · change r.generations[slot]? = some g' at hg'
              rw [hgen] at hg'
              cases hg'
              exact lt_irrefl _ hlt
            · exact hfree hslot
  | nil =>
      dsimp only
      by_cases hfull : r.intentTypes.size ≥ maxIntents
      · rw [if_pos hfull]
        simp only [wp_bind, wp_throw]
        exact herr _ r.availableSlots r.nextSlot r.slotWraps (.refl h)
      rw [if_neg hfull, wp_bind, wp_set]
      have hmoved := Moved.counted h hav
      rw [countSlot_eq] at hmoved ⊢
      cases hgen : r.generations[r.nextSlot.toNat]? with
      | none => exact (wp_throw _).mpr (herr _ _ _ _ hmoved)
      | some g =>
          refine (wp_pure _).mpr ?_
          by_cases hlive : ∃ j i, r.record? j = some i ∧ j.slot = r.nextSlot.toNat
          · -- the slot is in use, so the id is the one of the live intent
            obtain ⟨j, i, hr, hs⟩ := hlive
            have hid : j = ⟨r.worldId, r.nextSlot.toNat, g⟩ :=
              h.allocated.eq_of_slot hr rfl hgen hs
            refine hclash _ _ _ _ hmoved ⟨⟨i, hid ▸ hr⟩, ?_, fun h0 => ?_⟩
            · show UInt32.ofNat r.nextSlot.toNat + 1 = r.nextSlot + 1
              rw [UInt32.ofNat_toNat]
            · have hbelow := (h.orderly (Nat.le_zero.mp (h0 ▸ r.le_countWraps))).below j i hr
              omega
          · refine hok _ _ _ _ hmoved ⟨rfl, hgen, ?_, fun j i hr hs => hlive ⟨j, i, hr, hs⟩,
              fun h0 => ?_⟩ fun _ => ?_
            · show r.nextSlot.toNat ∉ r.availableSlots
              rw [hav]
              exact List.not_mem_nil
            · show r.nextSlot.toNat < (r.nextSlot + 1).toNat
              rw [toNat_countSlot h0]
              omega
            · rintro ⟨g', hg', hlt | ⟨_, hlt, _⟩⟩
              · change r.generations[r.nextSlot.toNat]? = some g' at hg'
                rw [hgen] at hg'
                cases hg'
                exact lt_irrefl _ hlt
              · exact absurd hlt (lt_irrefl r.nextSlot.toNat)

theorem Moved.sequence {r : IntentRegistry} (h : r.Coherent) {sequence : UInt64}
    (hle : r.lastSequence ≤ sequence) : Moved [] r { r with lastSequence := sequence } :=
  ⟨h.restocked (fun _ _ _ => rfl) hle (le_refl _) _ _ _ _, rfl, (List.append_nil _).symm, rfl,
    fun _ => rfl, fun _ st hst => ⟨st, hst, rfl⟩, rfl, le_refl _, le_refl _, fun _ =>
      ⟨rfl, fun _ hp => hp, fun _ _ hr _ => hr, fun h => h, rfl⟩⟩

/-- A new, empty storage. -/
theorem Moved.newStorage {r : IntentRegistry} (h : r.Coherent) {type : ComponentTypeId}
    (hnone : r.storages.find? type = none) (component : Nat) :
    Moved [] r { r with storages := r.storages.insert type ⟨component, .empty⟩ } := by
  have hstored : ∀ t id,
      storedIn (r.storages.insert type ⟨component, .empty⟩) t id = r.stored t id := by
    intro t id
    unfold storedIn stored
    rw [OrdMap.find?_insert]
    split
    · next ht =>
        rw [ht, hnone]
        rfl
    · rfl
  have hrec : ∀ id, ({ r with storages := r.storages.insert type ⟨component, .empty⟩ } :
      IntentRegistry).record? id = r.record? id :=
    record?_restocked (r := r) rfl fun id t _ => hstored t id
  refine ⟨h.restocked (fun id t _ => hstored t id) (le_refl _) (le_refl _) _ _ _ _, rfl,
    (List.append_nil _).symm, funext hrec, fun _ => rfl, fun t st hst => ?_, rfl, le_refl _,
    le_refl _, fun _ => ⟨funext fun t => funext fun id => hstored t id, fun _ hp => hp,
      fun id i hr _ => ?_, fun h t id i hi => ?_, rfl⟩⟩
  · refine ⟨st, ?_, rfl⟩
    dsimp only
    rw [OrdMap.find?_insert, if_neg]
    · exact hst
    · rintro rfl
      rw [hnone] at hst
      cases hst
  · rw [hrec] at hr
    exact hr
  · exact h t id i ((hstored t id).symm.trans hi)

theorem wp_storageFor {r : IntentRegistry} (h : r.Coherent) {type : ComponentType}
    {Q : Unit → IntentRegistry → Prop} {E : Failure → IntentRegistry → Prop}
    (hok : ∀ r', Moved [] r r' → r'.storages.contains type.id = true →
      r'.byOwnerName = r.byOwnerName → r'.capacityErrors = r.capacityErrors → Q () r')
    (herr : ∀ e, E e r) : wp (storageFor type) Q E r := by
  unfold storageFor
  rw [wp_bind, wp_get]
  cases hs : r.storages.find? type.id with
  | none =>
      dsimp only
      rw [wp_set]
      refine hok _ (.newStorage h hs _) ?_ rfl rfl
      dsimp only
      rw [OrdMap.contains, OrdMap.find?_insert_self]
      rfl
  | some storage =>
      dsimp only
      by_cases hc : storage.component ≠ type.component
      · rw [if_pos hc, wp_throw]
        exact herr _
      · rw [if_neg hc, wp_pure]
        refine hok r (.refl h) ?_ rfl rfl
        rw [OrdMap.contains, hs]
        rfl

/-- The intent carries the last sequence that was drawn. -/
structure Newest (r : IntentRegistry) (i : Intent) : Prop where
  issued : i.sequence ≤ r.lastSequence
  newest : ∀ id j, r.record? id = some j → j.sequence < i.sequence

/-- The new intent is live. -/
theorem Coherent.inserted {r : IntentRegistry} (h : r.Coherent) {i : Intent}
    (hi : r.Insertable i) (hres : r.Reserved i.id) (hnewest : r.Newest i) :
    (r.inserted i).Coherent := by
  have hrec := record?_inserted hi.storage
  refine ⟨h.indexed.inserted hi, ⟨fun id j hr => ?_, h.allocated.nodup, h.allocated.sized⟩,
    ⟨fun id j hr => ?_, fun id id' j j' hr hr' heq => ?_⟩, h.filled.insertTarget _ _, fun h0 =>
      ⟨fun id j hr => ?_, (h.orderly h0).free, fun id j hr => ?_⟩⟩
  · rw [hrec] at hr
    split at hr
    · next hid =>
        cases hr
        rw [hid]
        exact ⟨hres.world, hres.generation, hres.taken⟩
    · exact h.allocated.live id j hr
  · rw [hrec] at hr
    split at hr
    · cases hr
      exact hnewest.issued
    · exact h.sequenced.issued id j hr
  · rw [hrec] at hr hr'
    split at hr
    · next hid =>
        split at hr'
        · next hid' => exact hid.trans hid'.symm
        · cases hr
          have hlt := hnewest.newest id' j' hr'
          rw [heq] at hlt
          exact absurd hlt (lt_irrefl _)
    · split at hr'
      · cases hr'
        have hlt := hnewest.newest id j hr
        rw [heq] at hlt
        exact absurd hlt (lt_irrefl _)
      · exact h.sequenced.distinct id id' j j' hr hr' heq
  · rw [hrec] at hr
    split at hr
    · next hid => exact hid ▸ hres.below h0
    · exact (h.orderly h0).below id j hr
  · rw [hrec] at hr
    show targeted (insertTarget r.byTarget i.target i.id) j.target id = true
    rw [targeted_insertTarget, Bool.or_eq_true, decide_eq_true_eq]
    split at hr
    · next hid =>
        cases hr
        exact Or.inl ⟨rfl, hid⟩
    · exact Or.inr ((h.orderly h0).targeted id j hr)

theorem storages_modify {storages : OrdMap ComponentTypeId IntentStorage}
    (type : ComponentTypeId) (f : OrdMap IntentId Intent → OrdMap IntentId Intent)
    {t : ComponentTypeId} {st : IntentStorage} (h : storages.find? t = some st) :
    ∃ st', (storages.modify type fun storage =>
      { storage with records := f storage.records }).find? t = some st' ∧
      st'.component = st.component := by
  rw [OrdMap.find?_modify]
  split
  · next ht =>
      rw [← ht, h]
      exact ⟨_, rfl, rfl⟩
  · exact ⟨st, h, rfl⟩

theorem contains_modify {K V : Type} [LinearOrder K] (m : OrdMap K V) (j k : K) (f : V → V) :
    (m.modify k f).contains j = m.contains j := by
  unfold OrdMap.contains
  rw [OrdMap.find?_modify]
  split
  · next h =>
      rw [h, Option.isSome_map]
  · rfl

/-- An indexed intent with its record in the buffer. -/
theorem Moved.created {r₀ r : IntentRegistry} {i : Intent} (h₀ : Moved [] r₀ r)
    (hi : r.Insertable i) (hres : r.Reserved i.id) (hnewest : r.Newest i)
    (hvacant : r.stored i.target.type i.id = none) (hnew : r.slotWraps = 0 → ¬r₀.Past i.id) :
    Moved [⟨true, i⟩] r₀ { r.inserted i with
      lifecycleRecords := r.lifecycleRecords ++ [⟨true, i⟩] } := by
  have hcoh := h₀.coherent.inserted hi hres hnewest
  have hrec := record?_inserted hi.storage
  have htr : r.record? = r₀.record? := h₀.traces
  refine ⟨hcoh.framed _ _ _ _, h₀.world, ?_, ⟨?_, ?_⟩, fun b => ?_, fun t st hst => ?_,
    h₀.transaction, h₀.capacity, h₀.wraps, fun h0 => ?_⟩
  · dsimp only
    rw [h₀.buffer, List.append_nil]
  · show r₀.record? i.id = none
    rw [← htr]
    exact hi.fresh
  · rw [← htr]
    funext id
    exact hrec id
  · rw [← h₀.pools b]
    exact contains_modify _ _ _ _
  · obtain ⟨st₁, hst₁, hc₁⟩ := h₀.storages t st hst
    obtain ⟨st₂, hst₂, hc₂⟩ := storages_modify i.target.type
      (fun records => records.insert i.id i) hst₁
    exact ⟨st₂, hst₂, hc₂.trans hc₁⟩
  have hl := h₀.lineage h0
  have hst : r.stored = r₀.stored := hl.stores
  refine ⟨⟨fun _ => ?_, ?_⟩, hl.past, fun id j hr hp => ?_, fun ht => ?_, hl.terminated⟩
  · rw [← hst]
    exact hvacant
  · rw [← hst]
    funext t id
    exact stored_inserted hi.storage t id
  · have hr' := (hrec id).symm.trans hr
    split at hr'
    · next hid => exact absurd (hid ▸ hp) (hnew h0)
    · exact congrFun htr id ▸ hr'
  · exact Tidy.inserted (hl.tidy ht) hi.storage (h₀.coherent.indexed.absent hi.fresh)

/-- An id that is given back was the last to be counted, or its slot is free again. -/
theorem releaseIntentId_eq (r : IntentRegistry) (id : IntentId) :
    (UInt32.ofNat id.slot + 1 = r.nextSlot ∧
      r.releaseIntentId id = r.reslotted r.availableSlots (r.nextSlot - 1) r.slotWraps) ∨
      r.releaseIntentId id = r.reslotted (id.slot :: r.availableSlots) r.nextSlot r.slotWraps := by
  unfold releaseIntentId
  by_cases h : UInt32.ofNat id.slot + 1 = r.nextSlot
  · rw [if_pos h]
    exact Or.inl ⟨h, rfl⟩
  · rw [if_neg h]
    exact Or.inr rfl

theorem Coherent.release {r : IntentRegistry} (h : r.Coherent) {id : IntentId}
    (hres : r.Reserved id) : (r.releaseIntentId id).Coherent := by
  have hall := h.allocated
  rcases r.releaseIntentId_eq id with ⟨hlast, heq⟩ | heq <;> rw [heq]
  · refine h.reslotted (le_refl _) hall.nodup (fun j i hr => (hall.live j i hr).2.2)
      (fun h0 j i hr => ?_) fun h0 s hs => ?_
    · have hlt := (h.orderly h0).below j i hr
      have hne := hres.vacant j i hr
      have hnext := toNat_of_counted (hres.below h0) hlast
      omega
    · have hlt := (h.orderly h0).free s hs
      have hne : s ≠ id.slot := fun he => hres.taken (he ▸ hs)
      have hnext := toNat_of_counted (hres.below h0) hlast
      omega
  · refine h.reslotted (le_refl _) (List.nodup_cons.mpr ⟨hres.taken, hall.nodup⟩)
      (fun j i hr hm => ?_) (fun h0 => (h.orderly h0).below) fun h0 s hs => ?_
    · rcases List.mem_cons.mp hm with he | hm
      · exact hres.vacant j i hr he
      · exact (hall.live j i hr).2.2 hm
    · rcases List.mem_cons.mp hs with he | hs
      · rw [he]
        exact hres.below h0
      · exact (h.orderly h0).free s hs

theorem Past.release {r : IntentRegistry} {id j : IntentId} (h : r.Past j)
    (hne : ¬(j.slot = id.slot ∧ j.generation = id.generation)) (hres : r.Reserved id)
    (h0 : r.slotWraps = 0) : (r.releaseIntentId id).Past j := by
  obtain ⟨g, hg, hlt | ⟨hgen, hlt, hfree⟩⟩ := h
  · rcases r.releaseIntentId_eq id with ⟨_, heq⟩ | heq <;> rw [heq] <;> exact ⟨g, hg, Or.inl hlt⟩
  · have hslot : j.slot ≠ id.slot := by
      intro hs
      rw [hs, hres.generation] at hg
      exact hne ⟨hs, hgen.trans (Option.some.inj hg).symm⟩
    rcases r.releaseIntentId_eq id with ⟨hlast, heq⟩ | heq <;> rw [heq]
    · have hnext := toNat_of_counted (hres.below h0) hlast
      refine ⟨g, hg, Or.inr ⟨hgen, ?_, hfree⟩⟩
      show j.slot < (r.nextSlot - 1).toNat
      omega
    · refine ⟨g, hg, Or.inr ⟨hgen, hlt, fun hm => ?_⟩⟩
      exact (List.mem_cons.mp hm).elim hslot hfree

/-- The `catch` clause of `create_impl`, with everything indexed. -/
theorem withdraw_eq {r : IntentRegistry} {i : Intent}
    (h : targeted r.byTarget i.target i.id = true) :
    withdraw i true true true r = (r.removed i).releaseIntentId i.id := by
  have hsome : ((r.byTarget.find? i.target.type).bind fun slots =>
      slots.find? i.target.slot).isSome = true := by
    unfold targeted at h
    cases hs : (r.byTarget.find? i.target.type).bind fun slots => slots.find? i.target.slot with
    | none =>
        rw [hs] at h
        cases h
    | some ids => rfl
  unfold withdraw removed eraseFromIndexes
  rw [if_pos hsome]
  rfl

/-- The `catch` clause erases a name that is not there. -/
theorem eraseName_unnamed {r : IntentRegistry} {i : Intent}
    (hname : i.name = [] ∨ r.intentNamed i.owner i.name = none) :
    (if i.name.isEmpty then r.byOwnerName
      else r.byOwnerName.modify i.owner fun names => names.erase i.name) = r.byOwnerName := by
  split
  · rfl
  · next hne =>
      have hnone := hname.resolve_left (by simpa using hne)
      refine OrdMap.ext_find? fun b => ?_
      rw [OrdMap.find?_modify]
      split
      · next hb =>
          unfold intentNamed at hnone
          rw [hb]
          cases hf : r.byOwnerName.find? i.owner with
          | none => rfl
          | some names =>
              rw [hf, Option.bind_some] at hnone
              rw [Option.map_some, OrdMap.erase_of_find? hnone]
      · rfl

/-- The `catch` clause of `create_impl`, with nothing indexed. -/
theorem withdraw_unindexed {r : IntentRegistry} (h : r.Coherent) {i : Intent}
    (hi : r.Insertable i) : withdraw i false false false r = r.releaseIntentId i.id := by
  have htarget : targeted r.byTarget i.target i.id = false := by
    rw [← Bool.not_eq_true]
    intro hc
    obtain ⟨j, hj, _⟩ := h.indexed.target i.target i.id hc
    rw [hi.fresh] at hj
    cases hj
  unfold withdraw
  rw [h.filled.eraseTarget_absent htarget, eraseName_unnamed hi.unnamed]
  rfl

/-! ### The id of a live intent -/

/-- What a create leaves behind that was given the id of a live intent. -/
def clashed (r : IntentRegistry) (i : Intent) : IntentRegistry :=
  { r with
    byTarget := eraseTarget r.byTarget i.target i.id
    nextSlot := r.nextSlot - 1 }

theorem withdraw_clashing {r : IntentRegistry} {i : Intent} (hc : r.Clashing i.id)
    (hname : i.name = [] ∨ r.intentNamed i.owner i.name = none) :
    withdraw i false false false r = r.clashed i := by
  unfold withdraw releaseIntentId
  rw [eraseName_unnamed hname]
  dsimp only
  rw [if_pos hc.last]
  rfl

theorem destroyStored_insert {storages : OrdMap ComponentTypeId IntentStorage} {i : Intent}
    (hvacant : storedIn storages i.target.type i.id = none) :
    destroyStored (storages.modify i.target.type fun storage =>
      { storage with records := storage.records.insert i.id i }) i.target.type i.id =
      storages := by
  refine OrdMap.ext_find? fun type => ?_
  unfold destroyStored
  rw [OrdMap.find?_modify, OrdMap.find?_modify, OrdMap.find?_modify]
  by_cases ht : type = i.target.type
  · rw [if_pos ht, if_pos rfl, ht]
    unfold storedIn at hvacant
    cases hs : storages.find? i.target.type with
    | none => rfl
    | some storage =>
        rw [hs, Option.bind_some] at hvacant
        rw [Option.map_some, Option.map_some]
        have herase : (storage.records.insert i.id i).erase i.id = storage.records := by
          refine OrdMap.ext_find? fun id => ?_
          rw [OrdMap.find?_erase, OrdMap.find?_insert]
          by_cases hid : id = i.id
          · rw [if_pos hid, hid, hvacant]
          · rw [if_neg hid, if_neg hid]
        rw [herase]
  · rw [if_neg ht, if_neg ht]

theorem Moved.clashed {r : IntentRegistry} (h : r.Coherent) (hwrapped : r.slotWraps ≠ 0)
    (i : Intent) : Moved [] r (r.clashed i) := by
  obtain ⟨hidx, hall, hseq, hfilled, _⟩ := h
  refine ⟨⟨⟨hidx.typed, hidx.owner, fun t id ht => ?_, hidx.name, hidx.pools⟩,
    ⟨hall.live, hall.nodup, hall.sized⟩, ⟨hseq.issued, hseq.distinct⟩, hfilled.eraseTarget _ _,
    fun h0 => absurd h0 hwrapped⟩, rfl, (List.append_nil _).symm, rfl, fun _ => rfl,
    fun _ st hst => ⟨st, hst, rfl⟩, rfl, le_refl _, le_refl _, fun h0 => absurd h0 hwrapped⟩
  have ht' : targeted (eraseTarget r.byTarget i.target i.id) t id = true := ht
  rw [targeted_eraseTarget, Bool.and_eq_true] at ht'
  exact hidx.target t id ht'.1

/-- The `try` block fails on the id of a live intent: on its record, or on its type. -/
theorem wp_index_clashing {r : IntentRegistry} {i : Intent} (hc : r.Clashing i.id)
    (hname : i.name = [] ∨ r.intentNamed i.owner i.name = none)
    {Q : IntentId → IntentRegistry → Prop} {E : Failure → IntentRegistry → Prop}
    (hE : ∀ e, E e (r.clashed i)) : wp (index i) Q E r := by
  have h1 : ((r.storages.find? i.target.type).any fun storage =>
      storage.records.contains i.id) = (storedIn r.storages i.target.type i.id).isSome := by
    unfold storedIn
    cases r.storages.find? i.target.type with
    | none => rfl
    | some storage => rfl
  have h2 : r.intentTypes.contains i.id = true := by
    obtain ⟨j, hj⟩ := hc.live
    obtain ⟨type, htype, _⟩ := Option.bind_eq_some_iff.mp hj
    rw [OrdMap.contains, htype]
    rfl
  unfold index
  rw [wp_bind, wp_get]
  dsimp only
  rw [h1, h2]
  cases hst : storedIn r.storages i.target.type i.id with
  | some j =>
      simp only [Option.isSome_some, if_true, wp_bind, wp_modify, wp_throw]
      rw [withdraw_clashing hc hname]
      exact hE _
  | none =>
      simp only [Option.isSome_none, Bool.false_eq_true, if_false, if_true, wp_bind, wp_modify,
        wp_throw]
      have hsame : withdraw i true false false { r with
          storages := r.storages.modify i.target.type fun storage =>
            { storage with records := storage.records.insert i.id i } } = r.clashed i := by
        rw [← withdraw_clashing hc hname]
        unfold withdraw releaseIntentId
        dsimp only
        rw [if_pos rfl, destroyStored_insert hst]
        rfl
      rw [hsame]
      exact hE _

/-- A taken id that is given back. -/
theorem Moved.released {r₀ r : IntentRegistry} (h₀ : Moved [] r₀ r) {id : IntentId}
    (hres : r.Reserved id) (hnew : r.slotWraps = 0 → ¬r₀.Past id) :
    Moved [] r₀ (r.releaseIntentId id) := by
  have hcoh := h₀.coherent.release hres
  have hpast : r.slotWraps = 0 → ∀ j, r₀.Past j → (r.releaseIntentId id).Past j := by
    intro h0 j hj
    refine Past.release ((h₀.lineage h0).past j hj) (fun hc => hnew h0 ?_) hres h0
    obtain ⟨g, hg, hor⟩ := hj
    exact ⟨g, hc.1 ▸ hg, hc.1 ▸ hc.2 ▸ hor⟩
  obtain ⟨available, next, heq⟩ : ∃ available next,
      r.releaseIntentId id = r.reslotted available next r.slotWraps :=
    (r.releaseIntentId_eq id).elim (fun h => ⟨_, _, h.2⟩) fun h => ⟨_, _, h⟩
  rw [heq] at hcoh hpast ⊢
  exact ⟨hcoh, h₀.world, h₀.buffer, h₀.traces, h₀.pools, h₀.storages, h₀.transaction,
    h₀.capacity, h₀.wraps, fun h0 => ⟨(h₀.lineage h0).stores, hpast h0, (h₀.lineage h0).fresh,
      (h₀.lineage h0).tidy, (h₀.lineage h0).terminated⟩⟩

/-- Indexing an intent and taking it out again leaves the live intents as they were. -/
theorem Moved.withdrawn {r₀ r : IntentRegistry} {i : Intent} (h₀ : Moved [] r₀ r)
    (hi : r.Insertable i) (hres : r.Reserved i.id) (hnewest : r.Newest i)
    (hvacant : r.stored i.target.type i.id = none) (hnew : r.slotWraps = 0 → ¬r₀.Past i.id) :
    Moved [] r₀ (withdraw i true true true (r.inserted i).countCapacityError) := by
  have h := h₀.coherent
  have hcoh := h.inserted hi hres hnewest
  have hlive : (r.inserted i).record? i.id = some i := by
    rw [record?_inserted hi.storage, if_pos rfl]
  have hinserted : ∀ t id, targeted (r.inserted i).byTarget t id =
      (decide (t = i.target ∧ id = i.id) || targeted r.byTarget t id) := fun t id =>
    targeted_insertTarget _ _ _ _ _
  have htarget : targeted (r.inserted i).byTarget i.target i.id = true := by
    rw [hinserted]
    simp
  rw [withdraw_eq (r := (r.inserted i).countCapacityError) htarget]
  generalize hs : (r.inserted i).countCapacityError = s
  have hs_coh : s.Coherent := by
    rw [← hs]
    exact hcoh.framed _ _ _ _
  have hs_live : s.record? i.id = some i := by
    rw [← hs]
    exact hlive
  have hrec : ∀ id, (s.removed i).record? id = r.record? id := by
    intro id
    rw [record?_removed, ← hs]
    show (if id = i.id then none else (r.inserted i).record? id) = _
    rw [record?_inserted hi.storage]
    by_cases hid : id = i.id
    · rw [if_pos hid, hid, hi.fresh]
    · rw [if_neg hid, if_neg hid]
  have hstored : ∀ t id, (s.removed i).stored t id = r.stored t id := by
    intro t id
    rw [stored_removed, ← hs]
    show (if t = i.target.type ∧ id = i.id then none else (r.inserted i).stored t id) = _
    rw [stored_inserted hi.storage]
    by_cases hc : t = i.target.type ∧ id = i.id
    · rw [if_pos hc, hc.1, hc.2, hvacant]
    · rw [if_neg hc, if_neg hc]
  have hres' : (s.removed i).Reserved i.id := by
    refine ⟨?_, ?_, ?_, fun j k hr => ?_, ?_⟩
    · rw [← hs]; exact hres.world
    · rw [← hs]; exact hres.generation
    · rw [← hs]; exact hres.taken
    · rw [hrec] at hr
      exact hres.vacant j k hr
    · rw [← hs]; exact hres.below
  have hcoh' : (s.removed i).Coherent := by
    refine ⟨hs_coh.indexed.removed hs_live, ⟨fun id j hr => ?_, ?_, ?_⟩,
      ⟨fun id j hr => ?_, fun id id' j j' hr hr' => ?_⟩, hs_coh.filled.removed i, fun h0 =>
        ⟨fun id j hr => ?_, ?_, fun id j hr => ?_⟩⟩
    · rw [hrec] at hr
      rw [← hs]
      exact h.allocated.live id j hr
    · rw [← hs]
      exact h.allocated.nodup
    · rw [← hs]
      exact h.allocated.sized
    · rw [hrec] at hr
      rw [← hs]
      exact h.sequenced.issued id j hr
    · rw [hrec] at hr hr'
      exact h.sequenced.distinct id id' j j' hr hr'
    all_goals
      rw [← hs] at h0
      have horderly := h.orderly h0
    · rw [hrec] at hr
      rw [← hs]
      exact horderly.below id j hr
    · rw [← hs]
      exact horderly.free
    · rw [hrec] at hr
      rw [targeted_removed, ← hs]
      show (targeted (r.inserted i).byTarget j.target id && _) = true
      rw [hinserted, horderly.targeted id j hr, Bool.or_true, Bool.true_and, Bool.not_eq_true',
        decide_eq_false_iff_not]
      rintro ⟨_, rfl⟩
      rw [hi.fresh] at hr
      cases hr
  refine Moved.released ⟨hcoh', ?_, ?_, ?_, fun b => ?_, fun t st hst => ?_, ?_, ?_, ?_,
    fun h0 => ?_⟩ hres' ?_
  · rw [← hs]
    exact h₀.world
  · rw [← hs]
    exact h₀.buffer
  · exact (funext hrec).trans h₀.traces
  · rw [← h₀.pools b, ← hs]
    show ((r.byOwner.modify i.owner _).modify i.owner _).contains b = r.byOwner.contains b
    rw [contains_modify, contains_modify]
  · obtain ⟨st₁, hst₁, hc₁⟩ := h₀.storages t st hst
    obtain ⟨st₂, hst₂, hc₂⟩ := storages_modify i.target.type
      (fun records => records.insert i.id i) hst₁
    obtain ⟨st₃, hst₃, hc₃⟩ := storages_modify i.target.type
      (fun records => records.erase i.id) hst₂
    refine ⟨st₃, ?_, hc₃.trans (hc₂.trans hc₁)⟩
    rw [← hs]
    exact hst₃
  · rw [← hs]
    exact h₀.transaction
  · rw [← hs]
    exact h₀.capacity.trans (Nat.le_succ _)
  · rw [← hs]
    exact h₀.wraps
  · rw [← hs] at h0
    have hl := h₀.lineage h0
    refine ⟨?_, fun j hj => ?_, fun j k hr hp => ?_, fun ht => ?_, ?_⟩
    · exact (funext fun t => funext fun id => hstored t id).trans hl.stores
    · have := hl.past j hj
      rw [← hs]
      exact this
    · rw [hrec] at hr
      exact hl.fresh j k hr hp
    · refine Tidy.removed ?_ (hs_coh.indexed.type_eq hs_live)
      rw [← hs]
      exact Tidy.inserted (hl.tidy ht) hi.storage (h.indexed.absent hi.fresh)
    · rw [← hs]
      exact hl.terminated
  · rw [← hs]
    exact hnew

/-- The `try` block fails on a record left in the storage before anything is written; a full
    buffer takes everything back. No other check fails on an id that is not live. -/
theorem wp_index {r : IntentRegistry} (h : r.Coherent) {i : Intent} (hi : r.Insertable i)
    {Q : IntentId → IntentRegistry → Prop} {E : Failure → IntentRegistry → Prop}
    (hok : r.stored i.target.type i.id = none → r.lifecycleRecords.length < maximumBuffered →
      Q i.id { r.inserted i with lifecycleRecords := r.lifecycleRecords ++ [⟨true, i⟩] })
    (hfull : r.stored i.target.type i.id = none → maximumBuffered ≤ r.lifecycleRecords.length →
      E (.lengthError "intent lifecycle evidence capacity exceeded")
        (withdraw i true true true (r.inserted i).countCapacityError))
    (hstray : r.stored i.target.type i.id ≠ none →
      E (.logicError "intent id already exists in typed storage")
        (withdraw i false false false r)) :
    wp (index i) Q E r := by
  have h1 : ((r.storages.find? i.target.type).any fun storage =>
      storage.records.contains i.id) = (r.stored i.target.type i.id).isSome := by
    unfold stored
    cases r.storages.find? i.target.type with
    | none => rfl
    | some storage => rfl
  have h2 : r.intentTypes.contains i.id = false := by
    rw [OrdMap.contains, h.indexed.absent hi.fresh]
    rfl
  have h3 : ((r.byOwner.find? i.owner).any fun ids => ids.contains i.id) = false := by
    rw [← Bool.not_eq_true]
    intro hc
    obtain ⟨j, hj, _⟩ := (h.indexed.owner i.owner i.id).mp hc
    rw [hi.fresh] at hj
    cases hj
  have h4 : targeted r.byTarget i.target i.id = false := by
    rw [← Bool.not_eq_true]
    intro hc
    obtain ⟨j, hj, _⟩ := h.indexed.target i.target i.id hc
    rw [hi.fresh] at hj
    cases hj
  unfold index
  rw [wp_bind, wp_get]
  dsimp only
  rw [h1, h2, h3, h4]
  cases hst : r.stored i.target.type i.id with
  | some j =>
      simp only [Option.isSome_some, if_true, wp_bind, wp_modify, wp_throw]
      exact hstray (by rw [hst]; simp)
  | none =>
      simp only [Option.isSome_none, Bool.false_eq_true, if_false, wp_bind, wp_modify]
      by_cases hlen : r.lifecycleRecords.length ≥ maximumBuffered
      · rw [if_pos hlen]
        simp only [wp_bind, wp_modify, wp_throw]
        exact hfull hst hlen
      · rw [if_neg hlen]
        simp only [wp_bind, wp_modify, wp_pure]
        exact hok hst (Nat.not_le.mp hlen)

theorem lt_succ_of_ne_maxU64 {n : UInt64} (h : n ≠ maxU64) : n < n + 1 := by
  have hne : n.toNat ≠ 2 ^ 64 - 1 := fun he => h (UInt64.toNat_inj.mp he)
  have hlt := n.toNat_lt
  rw [UInt64.lt_iff_toNat_lt, UInt64.toNat_add]
  have h1 : (1 : UInt64).toNat = 1 := rfl
  omega

section Creating

variable {r : IntentRegistry} {owner : BehaviorId} {type : ComponentType}
  {slot : ComponentSlotId} {lifetime : IntentLifetime} {priority : IntentPriority}
  {encodedValue : Value} {name : Bytes}

/-- The checks leave the registry alone. -/
theorem wp_checkCreate {Q : Unit → IntentRegistry → Prop} {E : Failure → IntentRegistry → Prop}
    (hok : r.byOwner.contains owner = true → (name = [] ∨ r.intentNamed owner name = none) →
      Q () r) (herr : ∀ e, E e r) :
    wp (checkCreate owner type slot lifetime priority name) Q E r := by
  unfold checkCreate
  rw [wp_bind, wp_get]
  by_cases hpool : (!r.byOwner.contains owner) = true
  · rw [if_pos hpool]
    simpa only [wp_bind, wp_throw] using herr _
  rw [if_neg hpool]
  by_cases htype : type.id = invalidComponentTypeId
  · rw [if_pos htype]
    simpa only [wp_bind, wp_throw] using herr _
  rw [if_neg htype]
  by_cases hslot : slot = invalidComponentSlotId
  · rw [if_pos hslot]
    simpa only [wp_bind, wp_throw] using herr _
  rw [if_neg hslot, wp_bind, wp_lift]
  refine ⟨fun _ _ => ?_, fun e _ => herr e⟩
  by_cases hlen : name.length > 128
  · rw [if_pos hlen]
    simpa only [wp_bind, wp_throw] using herr _
  rw [if_neg hlen]
  have hpool' : r.byOwner.contains owner = true := by simpa using hpool
  by_cases hempty : (!name.isEmpty) = true
  · rw [if_pos hempty]
    cases hnames : r.byOwnerName.find? owner with
    | none => exact (wp_throw _).mpr (herr _)
    | some names =>
        dsimp only
        by_cases hin : names.contains name = true
        · rw [if_pos hin, wp_throw]
          exact herr _
        · rw [if_neg hin, wp_pure]
          refine hok hpool' (Or.inr ?_)
          unfold intentNamed
          rw [hnames, Option.bind_some]
          simpa [OrdMap.contains] using hin
  · rw [if_neg hempty, wp_pure]
    exact hok hpool' (Or.inl (by simpa using hempty))

variable {Q : IntentId → IntentRegistry → Prop} {E : Failure → IntentRegistry → Prop}

/-- The part of `create_impl` after its checks. -/
theorem wp_createChecked (h : r.Coherent) (hpool : r.byOwner.contains owner = true)
    (hname : name = [] ∨ r.intentNamed owner name = none)
    (hok : ∀ id sequence r', (r'.slotWraps = 0 → ¬r.Past id) →
      Moved [⟨true, ⟨id, owner, ⟨type.id, slot⟩, lifetime, priority, sequence, encodedValue,
        name⟩⟩] r r' → r'.capacityErrors = r.capacityErrors → Q id r')
    (herr : ∀ e r', Moved [] r r' → (r'.capacityErrors = r.capacityErrors ∨
      maximumBuffered ≤ r.lifecycleRecords.length) → E e r') :
    wp (do
      storageFor type
      let id ← nextIntentId
      let sequence ← nextIntentSequence
      index ⟨id, owner, ⟨type.id, slot⟩, lifetime, priority, sequence, encodedValue, name⟩)
      Q E r := by
  rw [wp_bind]
  refine wp_storageFor h (fun r₁ h₁ hstorage hnames hcap => ?_)
    fun e => herr e r (.refl h) (Or.inl rfl)
  -- with the id, a sequence is drawn and the intent is indexed
  have hrest : ∀ id r₂, Moved [] r r₂ → r₂.storages.contains type.id = true →
      r₂.byOwnerName = r.byOwnerName → r₂.capacityErrors = r.capacityErrors →
      (r₂.Reserved id ∧ (r₂.slotWraps = 0 → ¬r.Past id)) ∨ r₂.Clashing id →
      wp (do
        let sequence ← nextIntentSequence
        index ⟨id, owner, ⟨type.id, slot⟩, lifetime, priority, sequence, encodedValue, name⟩)
        Q E r₂ := by
    intro id r₂ h₂ hstorage₂ hnames₂ hcap₂ hid
    rw [wp_bind]
    unfold nextIntentSequence
    rw [wp_bind, wp_get]
    by_cases hseq : r₂.lastSequence = maxU64
    · rw [if_pos hseq]
      simp only [wp_bind, wp_throw]
      exact herr _ r₂ h₂ (Or.inl hcap₂)
    rw [if_neg hseq]
    simp only [wp_bind, wp_set, wp_pure]
    have hlt := lt_succ_of_ne_maxU64 hseq
    have h₃ := h₂.trans (.sequence h₂.coherent (le_of_lt hlt))
    generalize hr₃ : ({ r₂ with lastSequence := r₂.lastSequence + 1 } : IntentRegistry) = r₃
      at h₃ ⊢
    have hcap₃ : r₃.capacityErrors = r.capacityErrors := by
      rw [← hr₃]
      exact hcap₂
    have hname₃ : name = [] ∨ r₃.intentNamed owner name = none := by
      refine hname.imp (fun hn => hn) fun hn => ?_
      rw [← hr₃]
      show (r₂.byOwnerName.find? owner).bind _ = none
      rw [hnames₂]
      exact hn
    rcases hid with ⟨hres, hnew⟩ | hclash
    swap
    · have hclash₃ : r₃.Clashing id := by
        rw [← hr₃]
        exact ⟨hclash.live, hclash.last, hclash.wrapped⟩
      refine wp_index_clashing hclash₃ hname₃ fun e => herr e _ ?_ (Or.inl hcap₃)
      exact h₃.trans (.clashed h₃.coherent hclash₃.wrapped _)
    have hres₃ : r₃.Reserved id := by
      rw [← hr₃]
      exact ⟨hres.world, hres.generation, hres.taken, hres.vacant, hres.below⟩
    have hnew₃ : r₃.slotWraps = 0 → ¬r.Past id := by
      rw [← hr₃]
      exact hnew
    have hi : r₃.Insertable ⟨id, owner, ⟨type.id, slot⟩, lifetime, priority,
        r₂.lastSequence + 1, encodedValue, name⟩ := by
      refine ⟨hres₃.fresh, ?_, ?_, hname₃⟩
      · rw [← hr₃]
        exact hstorage₂
      · rw [h₃.pools]
        exact hpool
    have hnewest : r₃.Newest ⟨id, owner, ⟨type.id, slot⟩, lifetime, priority,
        r₂.lastSequence + 1, encodedValue, name⟩ := by
      rw [← hr₃]
      exact ⟨le_refl _, fun j k hk =>
        lt_of_le_of_lt (h₂.coherent.sequenced.issued j k hk) hlt⟩
    refine wp_index h₃.coherent hi (fun hvacant hlen => ?_) (fun hvacant hlen => ?_)
      (fun _ => ?_)
    · exact hok id _ _ hnew₃ (.created h₃ hi hres₃ hnewest hvacant hnew₃) hcap₃
    · refine herr _ _ (.withdrawn h₃ hi hres₃ hnewest hvacant hnew₃) (Or.inr ?_)
      rw [h₃.buffer] at hlen
      simpa using hlen
    · rw [withdraw_unindexed h₃.coherent hi]
      refine herr _ _ (.released h₃ hres₃ hnew₃) (Or.inl ?_)
      rcases r₃.releaseIntentId_eq id with ⟨_, heq⟩ | heq <;> rw [heq] <;> exact hcap₃
  rw [wp_bind]
  refine wp_nextIntentId h₁.coherent (fun id available next wraps hm hres hnew => ?_)
    (fun id available next wraps hm hclash => ?_)
    (fun e available next wraps hm => herr e _ (h₁.trans hm) (Or.inl hcap))
  · refine hrest id _ (h₁.trans hm) hstorage hnames hcap (Or.inl ⟨hres, fun h0 hp => ?_⟩)
    exact hnew h0 ((h₁.lineage (Nat.le_zero.mp (h0 ▸ hm.wraps))).past id hp)
  · exact hrest id _ (h₁.trans hm) hstorage hnames hcap (Or.inr hclash)

/-- `create_impl`: a new intent with its record, or no change of the live intents. -/
theorem wp_createImpl (h : r.Coherent)
    (hok : ∀ id sequence r', (r'.slotWraps = 0 → ¬r.Past id) →
      Moved [⟨true, ⟨id, owner, ⟨type.id, slot⟩, lifetime, priority, sequence, encodedValue,
        name⟩⟩] r r' → r'.capacityErrors = r.capacityErrors → Q id r')
    (herr : ∀ e r', Moved [] r r' → (r'.capacityErrors = r.capacityErrors ∨
      maximumBuffered ≤ r.lifecycleRecords.length) → E e r') :
    wp (createImpl owner type slot lifetime priority encodedValue name) Q E r := by
  unfold createImpl
  rw [wp_bind]
  exact wp_checkCreate (fun hpool hname => wp_createChecked h hpool hname hok herr)
    fun e => herr e r (.refl h) (Or.inl rfl)

end Creating

/-! ## Destroying -/

theorem lt_succ_of_ne_max {g : UInt32} (h : g ≠ maxU32) : g < g + 1 := by
  have hlt := g.toNat_lt
  have hne : g.toNat ≠ 4294967295 := fun he => h (UInt32.toNat_inj.mp he)
  rw [UInt32.lt_iff_toNat_lt, UInt32.toNat_add]
  show g.toNat < (g.toNat + 1) % 4294967296
  omega

/-- The slot of a destroyed intent gets the next generation and is free again, unless its
    generations are used up. -/
def retired (r : IntentRegistry) (id : IntentId) : IntentRegistry :=
  if id.generation ≠ maxU32 then
    { r with
      generations := r.generations.set id.slot (id.generation + 1)
      availableSlots := id.slot :: r.availableSlots }
  else r

theorem wp_retireIntentId {r : IntentRegistry} {id : IntentId}
    (hg : r.generations[id.slot]? = some id.generation) {Q : Unit → IntentRegistry → Prop}
    {E : Failure → IntentRegistry → Prop} (hQ : Q () (r.retired id)) :
    wp (retireIntentId id) Q E r := by
  unfold retireIntentId
  rw [wp_bind, wp_get, hg]
  dsimp only
  unfold retired at hQ
  by_cases hmax : id.generation ≠ maxU32
  · rw [if_pos hmax] at hQ ⊢
    rw [wp_set]
    exact hQ
  · rw [if_neg hmax] at hQ ⊢
    rw [wp_pure]
    exact hQ

theorem Past.retired {r : IntentRegistry} {id j : IntentId} (hj : r.Past j)
    (hg : r.generations[id.slot]? = some id.generation) : (r.retired id).Past j := by
  unfold IntentRegistry.retired
  split
  · next hmax =>
      obtain ⟨g, hgj, hor⟩ := hj
      by_cases hs : j.slot = id.slot
      · -- the slot's generation has moved on
        rw [hs, hg] at hgj
        cases hgj
        refine ⟨id.generation + 1, ?_, Or.inl ?_⟩
        · dsimp only
          rw [hs, List.getElem?_set, if_pos rfl, if_pos (List.getElem?_eq_some_iff.mp hg).1]
        · exact lt_of_le_of_lt (hor.elim le_of_lt fun h => h.1.le) (lt_succ_of_ne_max hmax)
      · refine ⟨g, ?_, hor.imp (fun h => h) fun h => ⟨h.1, h.2.1, ?_⟩⟩
        · dsimp only
          rw [List.getElem?_set, if_neg (Ne.symm hs)]
          exact hgj
        · rw [List.mem_cons]
          exact fun hm => hm.elim hs h.2.2
  · exact hj

theorem Coherent.removed {r : IntentRegistry} (h : r.Coherent) {i : Intent}
    (hi : r.record? i.id = some i) : ((r.removed i).retired i.id).Coherent := by
  have hidx := h.indexed.removed hi
  have hfilled := h.filled.removed i
  obtain ⟨_, hg, hfree⟩ := h.allocated.live i.id i hi
  -- the live intents that are left are in other slots
  have hlive : ∀ j k, (r.removed i).record? j = some k →
      r.record? j = some k ∧ j.slot ≠ i.id.slot := by
    intro j k hr
    rw [record?_removed] at hr
    split at hr
    · cases hr
    · next hne => exact ⟨hr, fun hs => hne (h.allocated.slot_inj hr hi hs)⟩
  have hseq : (r.removed i).Sequenced :=
    ⟨fun j k hr => h.sequenced.issued j k (hlive j k hr).1, fun j j' k k' hr hr' =>
      h.sequenced.distinct j j' k k' (hlive j k hr).1 (hlive j' k' hr').1⟩
  have htargeted : r.slotWraps = 0 → ∀ j k, (r.removed i).record? j = some k →
      targeted (r.removed i).byTarget k.target j = true := by
    intro h0 j k hr
    obtain ⟨hr, hs⟩ := hlive j k hr
    rw [targeted_removed, (h.orderly h0).targeted j k hr, Bool.true_and, Bool.not_eq_true',
      decide_eq_false_iff_not]
    exact fun hc => hs (hc.2 ▸ rfl)
  unfold retired
  split
  · refine ⟨⟨hidx.typed, hidx.owner, hidx.target, hidx.name, hidx.pools⟩,
      ⟨fun j k hr => ?_, List.nodup_cons.mpr ⟨hfree, h.allocated.nodup⟩,
        (List.length_set ..).trans h.allocated.sized⟩,
      ⟨hseq.issued, hseq.distinct⟩, hfilled, fun h0 =>
        ⟨fun j k hr => (h.orderly h0).below j k (hlive j k hr).1, fun s hs => ?_, htargeted h0⟩⟩
    · obtain ⟨hr, hs⟩ := hlive j k hr
      obtain ⟨hw, hgj, hfreej⟩ := h.allocated.live j k hr
      refine ⟨hw, ?_, fun hm => ?_⟩
      · dsimp only
        rw [List.getElem?_set, if_neg (Ne.symm hs)]
        exact hgj
      · exact (List.mem_cons.mp hm).elim hs hfreej
    · rcases List.mem_cons.mp hs with rfl | hs
      · exact (h.orderly h0).below i.id i hi
      · exact (h.orderly h0).free s hs
  · refine ⟨hidx, ⟨fun j k hr => ?_, h.allocated.nodup, h.allocated.sized⟩, hseq, hfilled, fun h0 =>
      ⟨fun j k hr => (h.orderly h0).below j k (hlive j k hr).1, (h.orderly h0).free,
        htargeted h0⟩⟩
    exact h.allocated.live j k (hlive j k hr).1

/-- What is left of the registry when an intent is gone. -/
theorem Moved.destroyed {r : IntentRegistry} (h : r.Coherent) {i : Intent}
    (hi : r.record? i.id = some i) :
    Moved [⟨false, i⟩] r { (r.removed i).retired i.id with
      lifecycleRecords := r.lifecycleRecords ++ [⟨false, i⟩] } := by
  obtain ⟨_, hg, _⟩ := h.allocated.live i.id i hi
  have hrest : ∃ generations available, (r.removed i).retired i.id =
      { r.removed i with generations, availableSlots := available } := by
    unfold retired
    split
    · exact ⟨_, _, rfl⟩
    · exact ⟨_, _, rfl⟩
  have hpast : ∀ j, r.Past j → ((r.removed i).retired i.id).Past j := by
    intro j hj
    have hj' : (r.removed i).Past j := hj
    exact hj'.retired hg
  have hcoh := h.removed hi
  obtain ⟨generations, available, heq⟩ := hrest
  rw [heq] at hcoh hpast ⊢
  have hrec := record?_removed r i
  refine ⟨hcoh.framed _ _ _ _, rfl, rfl, ⟨hi, funext hrec⟩, fun b => contains_modify _ _ _ _,
    fun t st hst => storages_modify _ (fun records => records.erase i.id) hst, rfl, le_refl _,
    le_refl _, fun _ => ⟨⟨nofun, ?_⟩, hpast, fun id j hr _ => ?_,
      fun ht => Tidy.removed ht (h.indexed.type_eq hi), rfl⟩⟩
  · funext t id
    exact stored_removed r i t id
  · have hr' := (hrec id).symm.trans hr
    split at hr'
    · cases hr'
    · exact hr'

/-- `forget`, once the destruction is recorded. -/
theorem wp_forget {r : IntentRegistry} (h : r.Coherent) {i : Intent}
    (hi : r.record? i.id = some i) {Q : Unit → IntentRegistry → Prop}
    {E : Failure → IntentRegistry → Prop}
    (hok : ∀ r', Moved [⟨false, i⟩] r r' → r'.capacityErrors = r.capacityErrors → Q () r') :
    wp (forget i i.target.type) Q E
      { r with lifecycleRecords := r.lifecycleRecords ++ [⟨false, i⟩] } := by
  obtain ⟨_, hg, _⟩ := h.allocated.live i.id i hi
  have hmoved := Moved.destroyed h hi
  have hcap : ((r.removed i).retired i.id).capacityErrors = r.capacityErrors := by
    unfold retired
    split <;> rfl
  have heq : ({ r.removed i with
      lifecycleRecords := r.lifecycleRecords ++ [⟨false, i⟩] } : IntentRegistry).retired i.id =
      { (r.removed i).retired i.id with
        lifecycleRecords := r.lifecycleRecords ++ [⟨false, i⟩] } := by
    unfold retired
    split <;> rfl
  unfold forget
  rw [wp_bind, wp_modify]
  refine wp_retireIntentId (r := { r.removed i with
    lifecycleRecords := r.lifecycleRecords ++ [⟨false, i⟩] }) hg ?_
  rw [heq]
  exact hok _ hmoved hcap

theorem wp_recordDestroyed {r : IntentRegistry} {i : Intent} {Q : Unit → IntentRegistry → Prop}
    {E : Failure → IntentRegistry → Prop}
    (hok : r.lifecycleRecords.length < maximumBuffered →
      Q () { r with lifecycleRecords := r.lifecycleRecords ++ [⟨false, i⟩] })
    (hfull : maximumBuffered ≤ r.lifecycleRecords.length →
      E (.lengthError "intent lifecycle evidence capacity exceeded") r.countCapacityError) :
    wp (recordDestroyed i) Q E r := by
  unfold recordDestroyed
  rw [wp_bind, wp_get]
  by_cases h : r.lifecycleRecords.length ≥ maximumBuffered
  · rw [if_pos h]
    simp only [wp_bind, wp_modify, wp_throw]
    exact hfull h
  · rw [if_neg h, wp_modify]
    exact hok (Nat.not_le.mp h)

theorem intent_eq_error {r : IntentRegistry} {id : IntentId} {e : Failure}
    (h : r.intent id = .error e) : r.record? id = none := by
  cases hr : r.record? id with
  | none => rfl
  | some i =>
      rw [intent_eq_ok.mpr hr] at h
      cases h

theorem Coherent.countCapacityError {r : IntentRegistry} (h : r.Coherent) :
    r.countCapacityError.Coherent := h.framed _ _ _ _

theorem Moved.refused {r : IntentRegistry} (h : r.Coherent) : Moved [] r r.countCapacityError :=
  ⟨h.countCapacityError, rfl, (List.append_nil _).symm, rfl, fun _ => rfl,
    fun _ st hst => ⟨st, hst, rfl⟩, rfl, Nat.le_succ _, le_refl _, fun _ =>
      ⟨rfl, fun _ hp => hp, fun _ _ hr _ => hr, fun h => h, rfl⟩⟩

/-- `destroy` outside a transaction. -/
theorem wp_destroy {r : IntentRegistry} (h : r.Coherent) {id : IntentId}
    {Q : Unit → IntentRegistry → Prop} {E : Failure → IntentRegistry → Prop}
    (hok : ∀ i r', r.record? id = some i → r.lifecycleRecords.length < maximumBuffered →
      Moved [⟨false, i⟩] r r' → r'.capacityErrors = r.capacityErrors → Q () r')
    (hfull : ∀ e, maximumBuffered ≤ r.lifecycleRecords.length → E e r.countCapacityError)
    (herr : ∀ e, r.transaction.isSome = true ∨ r.record? id = none → E e r) :
    wp (destroy id) Q E r := by
  unfold destroy ensureNoActiveTransaction
  rw [wp_bind, wp_bind, wp_get]
  by_cases htx : r.transaction.isSome = true
  · rw [if_pos htx, wp_throw]
    exact herr _ (Or.inl htx)
  rw [if_neg htx, wp_pure, wp_bind, wp_get, wp_bind, wp_lift]
  refine ⟨fun i hi => ?_, fun e he => herr e (Or.inr (intent_eq_error he))⟩
  have hrec := intent_eq_ok.mp hi
  have hid := h.indexed.id_eq hrec
  have htype : r.typeOf id = .ok i.target.type := by
    unfold typeOf
    rw [h.indexed.type_eq hrec]
  rw [wp_bind, htype, wp_lift]
  refine ⟨fun type ht => ?_, fun e he => by cases he⟩
  cases ht
  rw [wp_bind]
  refine wp_recordDestroyed (fun hlen => ?_) (fun hlen => hfull _ hlen)
  exact wp_forget h (by rw [hid]; exact hrec) fun r' hr' hcap => hok i r' hrec hlen hr' hcap

/-! ## Destroying several intents -/

/-- Only intents with `D` were destroyed, and nothing else happened. -/
structure Culled (D : Intent → Prop) (r r' : IntentRegistry) : Prop where
  moved : ∃ entries, Moved entries r r' ∧ ∀ e ∈ entries, e.created = false
  back : ∀ id i, r'.record? id = some i → r.record? id = some i
  kept : ∀ id i, r.record? id = some i → ¬D i → r'.record? id = some i

theorem Culled.refl {D : Intent → Prop} {r : IntentRegistry} (h : r.Coherent) : Culled D r r :=
  ⟨⟨[], .refl h, fun _ he => by cases he⟩, fun _ _ hr => hr, fun _ _ hr _ => hr⟩

theorem Culled.refused {D : Intent → Prop} {r : IntentRegistry} (h : r.Coherent) :
    Culled D r r.countCapacityError :=
  ⟨⟨[], .refused h, fun _ he => by cases he⟩, fun _ _ hr => hr, fun _ _ hr _ => hr⟩

theorem Culled.unwrapped {D : Intent → Prop} {r r' : IntentRegistry} (h : Culled D r r')
    (h0 : r'.slotWraps = 0) : r.slotWraps = 0 := by
  obtain ⟨entries, hm, _⟩ := h.moved
  exact Nat.le_zero.mp (h0 ▸ hm.wraps)

theorem Culled.trans {D : Intent → Prop} {r r' r'' : IntentRegistry} (h : Culled D r r')
    (h' : Culled D r' r'') : Culled D r r'' := by
  obtain ⟨entries, hm, hd⟩ := h.moved
  obtain ⟨entries', hm', hd'⟩ := h'.moved
  refine ⟨⟨entries ++ entries', hm.trans hm', fun e he => ?_⟩,
    fun id i hr => h.back id i (h'.back id i hr),
    fun id i hr hn => h'.kept id i (h.kept id i hr hn) hn⟩
  exact (List.mem_append.mp he).elim (hd e) (hd' e)

theorem Culled.mono {D D' : Intent → Prop} {r r' : IntentRegistry} (h : Culled D r r')
    (hD : ∀ id i, r.record? id = some i → D i → D' i) : Culled D' r r' :=
  ⟨h.moved, h.back, fun id i hr hn => h.kept id i hr fun hd => hn (hD id i hr hd)⟩

theorem Moved.record?_destroyed {r r' : IntentRegistry} {i : Intent}
    (h : Moved [⟨false, i⟩] r r') (id : IntentId) :
    r'.record? id = if id = i.id then none else r.record? id := congrFun h.traces.2 id

theorem Moved.record?_created {r r' : IntentRegistry} {i : Intent}
    (h : Moved [⟨true, i⟩] r r') (id : IntentId) :
    r'.record? id = if id = i.id then some i else r.record? id := congrFun h.traces.2 id

theorem Culled.destroyed {D : Intent → Prop} {r r' : IntentRegistry} {i : Intent} (hD : D i)
    (h : Moved [⟨false, i⟩] r r') : Culled D r r' := by
  have hlive : r.record? i.id = some i := h.traces.1
  refine ⟨⟨_, h, fun e he => ?_⟩, fun id j hr => ?_, fun id j hr hn => ?_⟩
  · rw [List.mem_singleton.mp he]
  · rw [h.record?_destroyed] at hr
    split at hr
    · cases hr
    · exact hr
  · rw [h.record?_destroyed, if_neg]
    · exact hr
    · rintro rfl
      rw [hlive] at hr
      cases hr
      exact hn hD

/-- A step that destroys the live intent it is given, if it has `D`. -/
def Sheds (D : Intent → Prop) (step : IntentId → EStateM Failure IntentRegistry Unit) : Prop :=
  ∀ (r : IntentRegistry) (id : IntentId) (i : Intent), r.Coherent → r.transaction = none →
    r.record? id = some i →
    wp (step id)
      (fun _ r' => (D i ∧ Moved [⟨false, i⟩] r r' ∧ r'.capacityErrors = r.capacityErrors) ∨
        (¬D i ∧ r' = r))
      (fun _ r' => D i ∧ maximumBuffered ≤ r.lifecycleRecords.length ∧ r' = r.countCapacityError) r

theorem sheds_destroy : Sheds (fun _ => True) destroy := by
  intro r id i h htx hi
  refine wp_destroy h (fun j r' hj _ hm hcap => ?_) (fun e hlen => ⟨trivial, hlen, rfl⟩)
    (fun e hor => ?_)
  · rw [hi] at hj
    cases hj
    exact Or.inl ⟨trivial, hm, hcap⟩
  · rw [htx, hi] at hor
    rcases hor with hor | hor <;> cases hor

/-- One after the other: all intents of the list with `D` are gone, or the buffer was full. -/
theorem Sheds.forM {D : Intent → Prop} {step : IntentId → EStateM Failure IntentRegistry Unit}
    (hstep : Sheds D step) (ids : List IntentId) (hnd : ids.Nodup) (r : IntentRegistry)
    (h : r.Coherent) (htx : r.transaction = none)
    (hids : ∀ id ∈ ids, ∃ i, r.record? id = some i) :
    wp (forM ids step)
      (fun _ r' => Culled (fun i => D i ∧ i.id ∈ ids) r r' ∧ r'.capacityErrors = r.capacityErrors ∧
        ∀ id ∈ ids, ∀ i, r'.record? id = some i → ¬D i)
      (fun _ r' => Culled (fun i => D i ∧ i.id ∈ ids) r r' ∧ r.capacityErrors < r'.capacityErrors ∧
        ∃ l, l.Sublist ids ∧ l ≠ [] ∧ (∀ id ∈ l, ∃ i, r.record? id = some i ∧ D i) ∧
          maximumBuffered < r.lifecycleRecords.length + l.length) r := by
  induction ids generalizing r with
  | nil =>
      rw [List.forM_nil, wp_pure]
      exact ⟨.refl h, rfl, fun _ hm => by cases hm⟩
  | cons id ids ih =>
      obtain ⟨hnot, hnd⟩ := List.nodup_cons.mp hnd
      obtain ⟨i, hi⟩ := hids id List.mem_cons_self
      have htail : ∀ {r : IntentRegistry} (j : IntentId) (i : Intent), r.record? j = some i →
          D i ∧ i.id ∈ ids → D i ∧ i.id ∈ id :: ids :=
        fun _ _ _ hi => ⟨hi.1, List.mem_cons_of_mem _ hi.2⟩
      rw [List.forM_cons, wp_bind]
      refine wp_mono (hstep r id i h htx hi) (fun _ r₁ h₁ => ?_) (fun _ r₁ h₁ => ?_)
      · rcases h₁ with ⟨hD, hm, hcap⟩ | ⟨hD, rfl⟩
        · have hid : i.id = id := h.indexed.id_eq hi
          have hone := Culled.destroyed (D := fun i => D i ∧ i.id ∈ id :: ids)
            ⟨hD, hid ▸ List.mem_cons_self⟩ hm
          have hrest : ∀ j ∈ ids, r₁.record? j = r.record? j := by
            intro j hj
            rw [hm.record?_destroyed, hid, if_neg]
            rintro rfl
            exact hnot hj
          have hlen : r₁.lifecycleRecords.length = r.lifecycleRecords.length + 1 := by
            rw [hm.buffer, List.length_append]
            rfl
          refine wp_mono (ih hnd r₁ hm.coherent (hm.transaction.trans htx) fun j hj => ?_)
            (fun _ r₂ h₂ => ?_) (fun _ r₂ h₂ => ?_)
          · rw [hrest j hj]
            exact hids j (List.mem_cons_of_mem _ hj)
          · refine ⟨hone.trans (h₂.1.mono htail), h₂.2.1.trans hcap, fun j hj k hk => ?_⟩
            rcases List.mem_cons.mp hj with rfl | hj
            · -- the first one does not come back
              have := h₂.1.back _ _ hk
              rw [hm.record?_destroyed, hid, if_pos rfl] at this
              cases this
            · exact h₂.2.2 j hj k hk
          · obtain ⟨l, hsub, _, hD', hfull⟩ := h₂.2.2
            refine ⟨hone.trans (h₂.1.mono htail), hcap ▸ h₂.2.1, id :: l, hsub.cons_cons id,
              List.cons_ne_nil _ _, fun j hj => ?_, ?_⟩
            · rcases List.mem_cons.mp hj with rfl | hj
              · exact ⟨i, hi, hD⟩
              · obtain ⟨k, hk, hDk⟩ := hD' j hj
                rw [hrest j (hsub.subset hj)] at hk
                exact ⟨k, hk, hDk⟩
            · rw [List.length_cons]
              omega
        · refine wp_mono (ih hnd r₁ h htx fun j hj => hids j (List.mem_cons_of_mem _ hj))
            (fun _ r₂ h₂ => ?_) (fun _ r₂ h₂ => ?_)
          · refine ⟨h₂.1.mono htail, h₂.2.1, fun j hj k hk => ?_⟩
            rcases List.mem_cons.mp hj with rfl | hj
            · have := h₂.1.back _ _ hk
              rw [hi] at this
              cases this
              exact hD
            · exact h₂.2.2 j hj k hk
          · obtain ⟨l, hsub, hne, hD', hfull⟩ := h₂.2.2
            exact ⟨h₂.1.mono htail, h₂.2.1, l, hsub.cons id, hne, hD', hfull⟩
      · obtain ⟨hD, hfull, rfl⟩ := h₁
        refine ⟨.refused h, Nat.lt_succ_self _, [id], List.singleton_sublist.mpr
          List.mem_cons_self, List.cons_ne_nil _ _, fun j hj => ?_, ?_⟩
        · rw [List.mem_singleton.mp hj]
          exact ⟨i, hi, hD⟩
        · rw [List.length_singleton]
          omega

/-! ## The intents of an index -/

theorem mem_intentsFor {r : IntentRegistry} {type : ComponentTypeId} {slot : ComponentSlotId}
    {id : IntentId} : id ∈ r.intentsFor type slot ↔ targeted r.byTarget ⟨type, slot⟩ id = true := by
  unfold intentsFor targeted
  cases (r.byTarget.find? type).bind fun slots => slots.find? slot with
  | none => simp
  | some ids =>
      rw [Option.map_some, Option.getD_some, Option.any_some, OrdMap.mem_keys, OrdMap.contains,
        Option.isSome_iff_exists]

theorem nodup_intentsFor (r : IntentRegistry) (type : ComponentTypeId) (slot : ComponentSlotId) :
    (r.intentsFor type slot).Nodup := by
  unfold intentsFor
  cases (r.byTarget.find? type).bind fun slots => slots.find? slot with
  | none => exact List.nodup_nil
  | some ids => exact ids.nodup_keys

theorem mem_intentsOwnedBy {r : IntentRegistry} {owner : BehaviorId} {id : IntentId} :
    id ∈ r.intentsOwnedBy owner ↔ r.ownedBy owner id = true := by
  unfold intentsOwnedBy ownedBy
  cases r.byOwner.find? owner with
  | none => simp
  | some ids =>
      rw [Option.map_some, Option.getD_some, Option.any_some, OrdMap.mem_keys, OrdMap.contains,
        Option.isSome_iff_exists]

theorem nodup_intentsOwnedBy (r : IntentRegistry) (owner : BehaviorId) :
    (r.intentsOwnedBy owner).Nodup := by
  unfold intentsOwnedBy
  cases r.byOwner.find? owner with
  | none => exact List.nodup_nil
  | some ids => exact ids.nodup_keys

theorem Indexed.of_mem_intentsFor {r : IntentRegistry} (h : r.Indexed) {type : ComponentTypeId}
    {slot : ComponentSlotId} {id : IntentId} (hid : id ∈ r.intentsFor type slot) :
    ∃ i, r.record? id = some i ∧ i.target = ⟨type, slot⟩ :=
  h.target _ id (IntentRegistry.mem_intentsFor.mp hid)

theorem Coherent.mem_intentsFor {r : IntentRegistry} (h : r.Coherent) (h0 : r.slotWraps = 0)
    {type : ComponentTypeId} {slot : ComponentSlotId} {id : IntentId} :
    id ∈ r.intentsFor type slot ↔ ∃ i, r.record? id = some i ∧ i.target = ⟨type, slot⟩ := by
  refine ⟨h.indexed.of_mem_intentsFor, fun hex => IntentRegistry.mem_intentsFor.mpr ?_⟩
  obtain ⟨i, hi, htarget⟩ := hex
  rw [← htarget]
  exact (h.orderly h0).targeted id i hi

theorem Indexed.mem_intentsOwnedBy {r : IntentRegistry} (h : r.Indexed) {owner : BehaviorId}
    {id : IntentId} :
    id ∈ r.intentsOwnedBy owner ↔ ∃ i, r.record? id = some i ∧ i.owner = owner := by
  rw [IntentRegistry.mem_intentsOwnedBy, h.owner]

/-! ## Pools -/

/-- `Moved` without a word about the pools. -/
structure Steps (entries : List IntentLifecycleRecord) (r r' : IntentRegistry) : Prop where
  coherent : r'.Coherent
  world : r'.worldId = r.worldId
  buffer : r'.lifecycleRecords = r.lifecycleRecords ++ entries
  traces : Traces entries r.record? r'.record?
  transaction : r'.transaction = r.transaction
  capacity : r.capacityErrors ≤ r'.capacityErrors
  wraps : r.slotWraps ≤ r'.slotWraps
  lineage : r'.slotWraps = 0 → Lineage entries r r'

theorem Moved.steps {entries : List IntentLifecycleRecord} {r r' : IntentRegistry}
    (h : Moved entries r r') : Steps entries r r' :=
  ⟨h.coherent, h.world, h.buffer, h.traces, h.transaction, h.capacity, h.wraps, h.lineage⟩

theorem Steps.trans {l l' : List IntentLifecycleRecord} {r r' r'' : IntentRegistry}
    (h : Steps l r r') (h' : Steps l' r' r'') : Steps (l ++ l') r r'' where
  coherent := h'.coherent
  world := h'.world.trans h.world
  buffer := by rw [h'.buffer, h.buffer, List.append_assoc]
  traces := h.traces.append h'.traces
  transaction := h'.transaction.trans h.transaction
  capacity := h.capacity.trans h'.capacity
  wraps := h.wraps.trans h'.wraps
  lineage h0 := (h.lineage (Nat.le_zero.mp (h0 ▸ h'.wraps))).trans (h'.lineage h0)

/-- A pool without intents is erased. -/
theorem Coherent.erasePool {r : IntentRegistry} (h : r.Coherent) (owner : BehaviorId)
    (hnone : ∀ id i, r.record? id = some i → i.owner ≠ owner) :
    Steps [] r { r with byOwner := r.byOwner.erase owner } := by
  obtain ⟨hidx, hall, hseq, hfilled, horderly⟩ := h
  refine ⟨⟨⟨hidx.typed, fun b id => ?_, hidx.target, hidx.name, fun b hb => ?_⟩,
    ⟨hall.live, hall.nodup, hall.sized⟩, ⟨hseq.issued, hseq.distinct⟩, hfilled, fun h0 =>
      ⟨(horderly h0).below, (horderly h0).free, (horderly h0).targeted⟩⟩, rfl,
    (List.append_nil _).symm, rfl, rfl, le_refl _, le_refl _, fun _ =>
      ⟨rfl, fun _ hp => hp, fun _ _ hr _ => hr, fun h => h, rfl⟩⟩
  · by_cases hb : b = owner
    · have hfalse : ({ r with byOwner := r.byOwner.erase owner } : IntentRegistry).ownedBy b id =
          false := by
        unfold ownedBy
        dsimp only
        rw [OrdMap.find?_erase, if_pos hb]
        rfl
      rw [hfalse]
      constructor
      · intro hc
        cases hc
      · rintro ⟨i, hi, ho⟩
        exact absurd (ho.trans hb) (hnone id i hi)
    · have hsame : ({ r with byOwner := r.byOwner.erase owner } : IntentRegistry).ownedBy b id =
          r.ownedBy b id := by
        unfold ownedBy
        dsimp only
        rw [OrdMap.find?_erase, if_neg hb]
      rw [hsame]
      exact hidx.owner b id
  · dsimp only at hb
    rw [contains_erase, Bool.and_eq_true] at hb
    exact hidx.pools b hb.1

/-- A pool for a behavior that has none. -/
theorem Coherent.addPool {r : IntentRegistry} (h : r.Coherent) (owner : BehaviorId) :
    Steps [] r { r with
      byOwner := if r.byOwner.contains owner then r.byOwner else r.byOwner.insert owner .empty
      byOwnerName := if r.byOwnerName.contains owner then r.byOwnerName
        else r.byOwnerName.insert owner .empty } := by
  obtain ⟨hidx, hall, hseq, hfilled, horderly⟩ := h
  generalize hr' : ({ r with
      byOwner := if r.byOwner.contains owner then r.byOwner else r.byOwner.insert owner .empty
      byOwnerName := if r.byOwnerName.contains owner then r.byOwnerName
        else r.byOwnerName.insert owner .empty } : IntentRegistry) = r'
  have howned : ∀ b id, r'.ownedBy b id = r.ownedBy b id := by
    intro b id
    rw [← hr']
    unfold ownedBy
    dsimp only
    by_cases hc : r.byOwner.contains owner = true
    · rw [if_pos hc]
    · rw [if_neg hc, OrdMap.find?_insert]
      split
      · next hb =>
          rw [Bool.not_eq_true, OrdMap.contains, Option.isSome_eq_false_iff,
            Option.isNone_iff_eq_none] at hc
          rw [hb, hc]
          rfl
      · rfl
  have hnamed : ∀ b n, r'.intentNamed b n = r.intentNamed b n := by
    intro b n
    rw [← hr']
    unfold intentNamed
    dsimp only
    by_cases hc : r.byOwnerName.contains owner = true
    · rw [if_pos hc]
    · rw [if_neg hc, OrdMap.find?_insert]
      split
      · next hb =>
          rw [Bool.not_eq_true, OrdMap.contains, Option.isSome_eq_false_iff,
            Option.isNone_iff_eq_none] at hc
          rw [hb, hc]
          rfl
      · rfl
  have hrec : ∀ id, r'.record? id = r.record? id := fun id => by rw [← hr']; rfl
  have hpools : ∀ b, r'.byOwner.contains b = true → r'.byOwnerName.contains b = true := by
    intro b hb
    have hnames : r'.byOwnerName.contains b = (r.byOwnerName.contains b || decide (b = owner)) := by
      rw [← hr']
      dsimp only
      split
      · next hc =>
          by_cases hbo : b = owner
          · simp [hbo, hc]
          · simp [hbo]
      · rw [contains_insert]
        by_cases hbo : b = owner <;> simp [hbo]
    rw [hnames]
    by_cases hbo : b = owner
    · simp [hbo]
    · rw [← hr'] at hb
      dsimp only at hb
      split at hb
      · rw [hidx.pools b hb]
        rfl
      · rw [contains_insert] at hb
        simp only [hbo, decide_false, Bool.or_false] at hb
        rw [hidx.pools b hb]
        rfl
  refine ⟨⟨⟨?_, fun b id => ?_, ?_, fun b n id => ?_, hpools⟩, ⟨?_, ?_, ?_⟩, ⟨?_, ?_⟩, ?_,
    fun h0 => ?_⟩, ?_, ?_, funext hrec, ?_, ?_, ?_, fun _ =>
      ⟨?_, ?_, fun id i hr _ => (hrec id).symm.trans hr, ?_, ?_⟩⟩
  · rw [← hr']; exact hidx.typed
  · rw [howned]
    simp only [hrec]
    exact hidx.owner b id
  · rw [← hr']; exact hidx.target
  · rw [hnamed]
    simp only [hrec]
    exact hidx.name b n id
  · rw [← hr']; exact hall.live
  · rw [← hr']; exact hall.nodup
  · rw [← hr']; exact hall.sized
  · rw [← hr']; exact hseq.issued
  · rw [← hr']; exact hseq.distinct
  · rw [← hr']; exact hfilled
  · rw [← hr'] at h0 ⊢
    exact ⟨(horderly h0).below, (horderly h0).free, (horderly h0).targeted⟩
  · rw [← hr']
  · rw [← hr']; exact (List.append_nil _).symm
  · rw [← hr']
  · rw [← hr']
  · rw [← hr']
  · rw [← hr']; rfl
  · rw [← hr']; exact fun _ hp => hp
  · rw [← hr']; exact fun h => h
  · rw [← hr']

/-- `destroy_owned_by`: the intents of the behavior and its pool are gone, or the buffer was
    full. -/
theorem wp_destroyOwnedBy {r : IntentRegistry} (h : r.Coherent) (htx : r.transaction = none)
    (owner : BehaviorId) :
    wp (destroyOwnedBy owner)
      (fun _ r' => (∃ entries, Steps entries r r' ∧ ∀ e ∈ entries, e.created = false) ∧
        r'.capacityErrors = r.capacityErrors ∧
        (∀ id i, r'.record? id = some i ↔ r.record? id = some i ∧ i.owner ≠ owner) ∧
        ∀ b, r'.byOwner.contains b = (r.byOwner.contains b && !decide (b = owner)))
      (fun _ r' => Culled (fun i => i.owner = owner) r r' ∧
        r.capacityErrors < r'.capacityErrors ∧ r.intentsOwnedBy owner ≠ [] ∧
        maximumBuffered < r.lifecycleRecords.length + (r.intentsOwnedBy owner).length) r := by
  unfold destroyOwnedBy ensureNoActiveTransaction
  rw [wp_bind, wp_bind, wp_get, if_neg (by rw [htx]; decide), wp_pure, wp_bind, wp_get]
  by_cases hpool : r.byOwner.contains owner = true
  · rw [if_pos hpool, wp_bind]
    have hmem : ∀ id, id ∈ r.intentsOwnedBy owner ↔ ∃ i, r.record? id = some i ∧
        i.owner = owner := fun id => h.indexed.mem_intentsOwnedBy
    refine wp_mono ((sheds_destroy.forM _ (r.nodup_intentsOwnedBy owner) r h htx fun id hid => by
      obtain ⟨i, hi, _⟩ := (hmem id).mp hid
      exact ⟨i, hi⟩)) (fun _ r₁ h₁ => ?_) (fun _ r₁ h₁ => ?_)
    · obtain ⟨hculled, hcap, hgone⟩ := h₁
      obtain ⟨entries, hmoved, hd⟩ := hculled.moved
      have hlive : ∀ id i, r₁.record? id = some i ↔ r.record? id = some i ∧ i.owner ≠ owner := by
        intro id i
        constructor
        · intro hi
          have hback := hculled.back id i hi
          refine ⟨hback, fun ho => ?_⟩
          exact hgone id ((hmem id).mpr ⟨i, hback, ho⟩) i hi trivial
        · rintro ⟨hi, ho⟩
          refine hculled.kept id i hi fun hc => ?_
          obtain ⟨j, hj, hjo⟩ := (hmem i.id).mp hc.2
          rw [h.indexed.id_eq hi, hi] at hj
          cases hj
          exact ho hjo
      have hpool' := hmoved.coherent.erasePool owner fun id i hi =>
        ((hlive id i).mp hi).2
      rw [wp_modify]
      refine ⟨⟨entries ++ [], hmoved.steps.trans hpool', fun e he => ?_⟩, hcap, hlive,
        fun b => ?_⟩
      · exact hd e (by simpa using he)
      · rw [← hmoved.pools b]
        dsimp only
        rw [contains_erase]
        by_cases hb : b = owner <;> simp [hb]
    · obtain ⟨hculled, hcap, l, hsub, hne, _, hfull⟩ := h₁
      have hlen := hsub.length_le
      have hpos : 0 < l.length := List.length_pos_iff.mpr hne
      refine ⟨hculled.mono fun id i hi hc => ?_, hcap, List.length_pos_iff.mp (by omega),
        by omega⟩
      obtain ⟨j, hj, hjo⟩ := (hmem i.id).mp hc.2
      rw [h.indexed.id_eq hi, hi] at hj
      cases hj
      exact hjo
  · rw [if_neg hpool, wp_pure]
    have hnone : ∀ id i, r.record? id = some i → i.owner ≠ owner := by
      intro id i hi ho
      have := (h.indexed.owner owner id).mpr ⟨i, hi, ho⟩
      unfold ownedBy at this
      rw [Bool.not_eq_true, OrdMap.contains, Option.isSome_eq_false_iff,
        Option.isNone_iff_eq_none] at hpool
      rw [hpool] at this
      cases this
    refine ⟨⟨[], (Moved.refl h).steps, fun _ he => by cases he⟩, rfl, fun id i => ?_, fun b => ?_⟩
    · exact ⟨fun hi => ⟨hi, hnone id i hi⟩, And.left⟩
    · by_cases hb : b = owner
      · simp [hb, hpool]
      · simp [hb]

/-- `create_behavior_pool` for a behavior without a pool. -/
theorem wp_createBehaviorPool {r : IntentRegistry} (h : r.Coherent)
    (htx : r.transaction = none) {owner : BehaviorId} (hnew : r.byOwner.contains owner = false)
    {E : Failure → IntentRegistry → Prop} :
    wp (createBehaviorPool owner)
      (fun _ r' => Steps [] r r' ∧ r'.capacityErrors = r.capacityErrors ∧
        ∀ b, r'.byOwner.contains b = (r.byOwner.contains b || decide (b = owner))) E r := by
  unfold createBehaviorPool destroyOwnedBy ensureNoActiveTransaction
  simp only [wp_bind, wp_get, htx, Option.isSome_none, hnew, Bool.false_eq_true, if_false, wp_pure,
    wp_modify]
  refine ⟨?_, trivial, fun b => ?_⟩
  · have hpool := h.addPool owner
    simpa only [hnew, htx, Bool.false_eq_true, if_false] using hpool
  · rw [contains_insert]
    by_cases hb : b = owner <;> simp [hb]

end IntentRegistry

end LiquidLayer
