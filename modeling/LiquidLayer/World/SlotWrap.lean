/-
  A run that wraps `nextSlot`.

  When an intent of the last generation is destroyed, its slot is lost. From then on all slots
  can be in use and the registry still not be full: a create counts `nextSlot`, finds no
  generation and throws. After enough of them the 32 bits of `nextSlot` wrap, and it comes to
  the slots in use again.

  `Standing s n r`: the slots and the live intents of `r` are as `s` says, and at most `n`
  sequences are drawn. The run goes in strokes, a create or a destroy and then
  `clear_lifecycle_records`; each stroke, and by induction each phase of strokes, has a lemma
  that says what becomes of `s`. `worn_resting` is what the whole of `wearing` leads to.
  `indexes_disagree`: one destroy later a free slot is not below `nextSlot`.
-/
import LiquidLayer.World.IntentRun

namespace LiquidLayer

open Prog

namespace IntentRegistry

/-! ## The slots of a run -/

structure Slots where
  available : List Nat
  next : UInt32
  generation : Nat → Option UInt32
  live : IntentId → Prop
  size : Nat

/-- All intents of the run have this owner and this target. -/
def wornOwner : BehaviorId := ⟨7, 0, 1⟩

def wornType : ComponentType := ⟨0, 0, 7, 1⟩

def wornSlot : ComponentSlotId := ⟨7, 0, 1⟩

structure Standing (s : Slots) (n : Nat) (r : IntentRegistry) : Prop where
  coherent : r.Coherent
  tidy : r.Tidy
  world : r.worldId = 7
  pool : r.byOwner.contains wornOwner = true
  storage : ∃ st, r.storages.find? wornType.id = some st ∧ st.component = wornType.component
  terminated : r.terminated = false
  available : r.availableSlots = s.available
  next : r.nextSlot = s.next
  generation : ∀ slot, r.generations[slot]? = s.generation slot
  live : ∀ id, (∃ i, r.record? id = some i) ↔ s.live id
  uniform : ∀ id i, r.record? id = some i → i.owner = wornOwner ∧ i.target = ⟨0, wornSlot⟩
  size : r.intentTypes.size = s.size
  drawn : r.lastSequence.toNat ≤ n

/-- The id the next intent gets. -/
inductive Slots.Draw (s : Slots) : IntentId → Slots → Prop where
  | taken {slot : Nat} {rest : List Nat} {generation : UInt32} (free : s.available = slot :: rest)
      (current : s.generation slot = some generation) :
      Draw s ⟨7, slot, generation⟩ { s with available := rest }
  | counted (generation : UInt32) (none : s.available = []) (left : s.size < maxIntents)
      (current : s.generation s.next.toNat = some generation)
      (vacant : ∀ id, s.live id → id.slot ≠ s.next.toNat) :
      Draw s ⟨7, s.next.toNat, generation⟩ { s with next := s.next + 1 }

def Slots.plus (s : Slots) (id : IntentId) : Slots :=
  { s with
    live := fun j => j = id ∨ s.live j
    size := s.size + 1 }

def Slots.minus (s : Slots) (id : IntentId) : Slots :=
  { s with
    live := fun j => j ≠ id ∧ s.live j
    size := s.size - 1 }

/-- The slot has this generation, and is free. -/
def Slots.renew (s : Slots) (slot : Nat) (generation : UInt32) : Slots :=
  { s with
    available := slot :: s.available
    generation := fun k => if k = slot then some generation else s.generation k }

/-- The intent is gone, and its slot is free unless the generations are used up. -/
def Slots.retire (s : Slots) (id : IntentId) : Slots :=
  if id.generation ≠ maxU32 then (s.minus id).renew id.slot (id.generation + 1) else s.minus id

theorem Standing.draw {s s' : Slots} {n : Nat} {r : IntentRegistry} (h : Standing s n r)
    {id : IntentId} (hd : s.Draw id s') :
    wp nextIntentId (fun id' r' => id' = id ∧ r'.Coherent ∧ r'.Reserved id ∧
      ∃ wraps, r' = r.reslotted s'.available s'.next wraps) (fun _ _ => False) r := by
  have hexact : wp nextIntentId (fun id' r' => id' = id ∧ (∀ i, r'.record? id ≠ some i) ∧
      ∃ wraps, r' = r.reslotted s'.available s'.next wraps) (fun _ _ => False) r := by
    unfold nextIntentId
    rw [wp_bind, wp_get, h.available, h.next]
    cases hd with
    | taken free current =>
        rw [free]
        dsimp only
        rw [wp_bind, wp_set, h.generation, current]
        refine (wp_pure _).mpr ⟨by rw [h.world], fun i hi => ?_, r.slotWraps, by rw [← h.next]; rfl⟩
        refine (h.coherent.allocated.live _ i hi).2.2 ?_
        rw [h.available, free]
        exact List.mem_cons_self
    | counted generation none left current vacant =>
        rw [none]
        dsimp only
        rw [if_neg (by rw [h.size]; omega), wp_bind, wp_set, h.generation, current]
        refine (wp_pure _).mpr ⟨by rw [h.world], fun i hi => ?_,
          if r.nextSlot = maxU32 then r.slotWraps + 1 else r.slotWraps, ?_⟩
        · exact vacant _ ((h.live _).mp ⟨i, hi⟩) rfl
        · rw [countSlot_eq, h.available, none, h.next]
  refine wp_mono (wp_and hexact (wp_nextIntentId h.coherent
    (Q := fun id' r' => r'.Coherent ∧ (r'.Reserved id' ∨ r'.Clashing id')) (E := fun _ _ => True)
    (fun _ _ _ _ hm hres _ => ⟨hm.coherent, Or.inl hres⟩)
    (fun _ _ _ _ hm hclash => ⟨hm.coherent, Or.inr hclash⟩) fun _ _ _ _ _ => trivial))
    (fun id' r' h' => ?_) fun _ _ h' => h'.1
  obtain ⟨⟨rfl, hfresh, hr'⟩, hcoherent, hres | hclash⟩ := h'
  · exact ⟨rfl, hcoherent, hres, hr'⟩
  · obtain ⟨i, hi⟩ := hclash.live
    exact absurd hi (hfresh i)

/-! ## Making and destroying -/

theorem Standing.inserted {s : Slots} {n : Nat} {r : IntentRegistry} (h : Standing s n r)
    {i : Intent} (hi : r.Insertable i) (hres : r.Reserved i.id) (hnewest : r.Newest i)
    (howner : i.owner = wornOwner) (htarget : i.target = ⟨0, wornSlot⟩)
    (records : List IntentLifecycleRecord) :
    Standing (s.plus i.id) n { r.inserted i with lifecycleRecords := records } := by
  have hrec := record?_inserted hi.storage
  have hlive : ∀ id, ({ r.inserted i with lifecycleRecords := records } :
      IntentRegistry).record? id = if id = i.id then some i else r.record? id := hrec
  have habsent := h.coherent.indexed.absent hi.fresh
  exact
    { coherent := (h.coherent.inserted hi hres hnewest).framed _ _ _ _
      tidy := Tidy.inserted h.tidy hi.storage habsent
      world := h.world
      pool := (contains_modify _ _ _ _).trans h.pool
      storage := by
        obtain ⟨st, hst, hc⟩ := h.storage
        obtain ⟨st', hst', hc'⟩ := storages_modify i.target.type
          (fun records => records.insert i.id i) hst
        exact ⟨st', hst', hc'.trans hc⟩
      terminated := h.terminated
      available := h.available
      next := h.next
      generation := h.generation
      live := fun id => by
        rw [hlive]
        by_cases hid : id = i.id
        · simp [Slots.plus, hid]
        · simp [Slots.plus, hid, h.live]
      uniform := fun id j hj => by
        rw [hlive] at hj
        split at hj
        · cases hj
          exact ⟨howner, htarget⟩
        · exact h.uniform id j hj
      size := by
        show (r.intentTypes.insert i.id i.target.type).size = s.size + 1
        rw [OrdMap.size_insert, if_neg (by simp [OrdMap.contains, habsent]), h.size]
      drawn := h.drawn }

theorem Standing.drew {s s' : Slots} {n : Nat} {r : IntentRegistry} (h : Standing s n r)
    {id : IntentId} (hd : s.Draw id s') {wraps : Nat}
    (hcoherent : (r.reslotted s'.available s'.next wraps).Coherent) :
    Standing s' n (r.reslotted s'.available s'.next wraps) := by
  have hsame : s'.generation = s.generation ∧ s'.live = s.live ∧ s'.size = s.size := by
    cases hd <;> exact ⟨rfl, rfl, rfl⟩
  obtain ⟨hgen, hlive, hsize⟩ := hsame
  exact
    { coherent := hcoherent
      tidy := h.tidy
      world := h.world
      pool := h.pool
      storage := h.storage
      terminated := h.terminated
      available := rfl
      next := rfl
      generation := fun slot => hgen ▸ h.generation slot
      live := fun id => hlive ▸ h.live id
      uniform := h.uniform
      size := hsize ▸ h.size
      drawn := h.drawn }

section Make

variable {s s' : Slots} {n : Nat} {r : IntentRegistry}

theorem Standing.last_ne (h : Standing s n r) (hn : n + 1 < 2 ^ 64) : r.lastSequence ≠ maxU64 := by
  intro hmax
  have hdrawn := h.drawn
  rw [hmax] at hdrawn
  have hval : maxU64.toNat = 18446744073709551615 := rfl
  omega

theorem Standing.sequence (h : Standing s n r) (hn : n + 1 < 2 ^ 64) :
    Standing s (n + 1) { r with lastSequence := r.lastSequence + 1 } := by
  have hlt := lt_succ_of_ne_maxU64 (h.last_ne hn)
  have hone : (1 : UInt64).toNat = 1 := rfl
  have hdrawn := h.drawn
  exact
    { coherent := (Moved.sequence h.coherent (le_of_lt hlt)).coherent
      tidy := h.tidy
      world := h.world
      pool := h.pool
      storage := h.storage
      terminated := h.terminated
      available := h.available
      next := h.next
      generation := h.generation
      live := h.live
      uniform := h.uniform
      size := h.size
      drawn := by
        show (r.lastSequence + 1).toNat ≤ n + 1
        rw [UInt64.toNat_add, hone]
        omega }

/-- Where the checks of `create_impl` pass. -/
theorem Standing.checkCreate (h : Standing s n r) {Q : Unit → IntentRegistry → Prop}
    {E : Failure → IntentRegistry → Prop} (hQ : Q () r) :
    wp (do
      checkCreate wornOwner wornType wornSlot ⟨.persistent, 0⟩ .low []
      storageFor wornType) Q E r := by
  obtain ⟨st, hst, hc⟩ := h.storage
  unfold IntentRegistry.checkCreate storageFor
  rw [wp_bind, wp_bind, wp_get, h.pool, if_neg (by decide), if_neg (by decide),
    if_neg (by decide), wp_bind, wp_lift]
  refine ⟨fun _ _ => ?_, fun e he => by cases he⟩
  rw [if_neg (by decide), if_neg (by decide), wp_pure, wp_bind, wp_get, hst]
  dsimp only
  rw [if_neg (by simpa using hc), wp_pure]
  exact hQ

/-- Where the id of the new intent is known. -/
theorem Standing.createImpl (h : Standing s n r) {id : IntentId} (hd : s.Draw id s')
    (hn : n + 1 < 2 ^ 64) (hbuffer : r.lifecycleRecords.length < maximumBuffered) :
    wp (createImpl wornOwner wornType wornSlot ⟨.persistent, 0⟩ .low .null [])
      (fun id' r' => id' = id ∧ Standing (s'.plus id) (n + 1) r' ∧
        r'.transaction = r.transaction) (fun _ _ => False) r := by
  unfold IntentRegistry.createImpl
  rw [← bind_assoc, wp_bind]
  refine h.checkCreate ?_
  rw [wp_bind]
  refine wp_mono (h.draw hd) (fun id' r₁ h₁ => ?_) fun _ _ h₁ => h₁
  obtain ⟨rfl, hcoherent, hres, wraps, rfl⟩ := h₁
  have h₂ := (h.drew hd hcoherent).sequence hn
  have hmax : (r.reslotted s'.available s'.next wraps).lastSequence ≠ maxU64 := h.last_ne hn
  have hlt := lt_succ_of_ne_maxU64 hmax
  rw [wp_bind]
  unfold nextIntentSequence
  rw [wp_bind, wp_get, if_neg hmax, wp_bind, wp_set, wp_pure]
  generalize hr₂ : ({ r.reslotted s'.available s'.next wraps with
    lastSequence := (r.reslotted s'.available s'.next wraps).lastSequence + 1 } :
      IntentRegistry) = r₂ at h₂ ⊢
  obtain ⟨st, hst, _⟩ := h₂.storage
  have hi : r₂.Insertable ⟨id', wornOwner, ⟨wornType.id, wornSlot⟩, ⟨.persistent, 0⟩, .low,
      (r.reslotted s'.available s'.next wraps).lastSequence + 1, .null, []⟩ := by
    refine ⟨?_, ?_, h₂.pool, Or.inl rfl⟩
    · rw [← hr₂]
      exact hres.fresh
    · rw [OrdMap.contains, hst]
      rfl
  have hres₂ : r₂.Reserved id' := by
    rw [← hr₂]
    exact ⟨hres.world, hres.generation, hres.taken, hres.vacant, hres.below⟩
  have hnewest : r₂.Newest ⟨id', wornOwner, ⟨wornType.id, wornSlot⟩, ⟨.persistent, 0⟩, .low,
      (r.reslotted s'.available s'.next wraps).lastSequence + 1, .null, []⟩ := by
    rw [← hr₂]
    exact ⟨le_refl _, fun j k hk =>
      lt_of_le_of_lt (hcoherent.sequenced.issued j k hk) hlt⟩
  refine wp_index h₂.coherent hi (fun _ _ => ?_) (fun _ hfull => ?_) (fun hstray => ?_)
  · exact ⟨rfl, h₂.inserted hi hres₂ hnewest rfl rfl _, by rw [← hr₂]; rfl⟩
  · rw [← hr₂] at hfull
    exact absurd hbuffer (Nat.not_lt.mpr hfull)
  · -- nothing is stored under an id that is not live
    obtain ⟨i, hstored⟩ := Option.ne_none_iff_exists'.mp hstray
    have hlive := h₂.tidy _ _ _ hstored
    rw [h₂.coherent.indexed.absent hi.fresh] at hlive
    cases hlive

end Make

section Destroy

variable {s : Slots} {n : Nat} {r : IntentRegistry}

theorem Standing.framed (h : Standing s n r) (lifecycleRecords : List IntentLifecycleRecord)
    (transaction : Option IntentTransaction) :
    Standing s n { r with lifecycleRecords, transaction } :=
  { coherent := h.coherent.framed _ _ r.capacityErrors r.terminated
    tidy := h.tidy
    world := h.world
    pool := h.pool
    storage := h.storage
    terminated := h.terminated
    available := h.available
    next := h.next
    generation := h.generation
    live := h.live
    uniform := h.uniform
    size := h.size
    drawn := h.drawn }

theorem Standing.removed (h : Standing s n r) {i : Intent} (hi : r.record? i.id = some i) :
    Standing (s.retire i.id) n ((r.removed i).retired i.id) := by
  have hcoherent := h.coherent.removed hi
  have htype := h.coherent.indexed.type_eq hi
  have htidy : (r.removed i).Tidy := Tidy.removed h.tidy htype
  have hrec := record?_removed r i
  have hpool : (r.removed i).byOwner.contains wornOwner = true :=
    (contains_modify _ _ _ _).trans h.pool
  have hstorage : ∃ st, (r.removed i).storages.find? wornType.id = some st ∧
      st.component = wornType.component := by
    obtain ⟨st, hst, hc⟩ := h.storage
    obtain ⟨st', hst', hc'⟩ := storages_modify i.target.type
      (fun records => records.erase i.id) hst
    exact ⟨st', hst', hc'.trans hc⟩
  have hlive : ∀ id, (∃ j, (r.removed i).record? id = some j) ↔ id ≠ i.id ∧ s.live id := by
    intro id
    rw [hrec]
    by_cases hid : id = i.id <;> simp [hid, h.live]
  have huniform : ∀ id j, (r.removed i).record? id = some j →
      j.owner = wornOwner ∧ j.target = ⟨0, wornSlot⟩ := by
    intro id j hj
    rw [hrec] at hj
    split at hj
    · cases hj
    · exact h.uniform id j hj
  have hsize : (r.removed i).intentTypes.size = s.size - 1 := by
    have herase := OrdMap.size_erase_of_find? htype
    rw [h.size] at herase
    show (r.intentTypes.erase i.id).size = s.size - 1
    omega
  obtain ⟨_, hgen, _⟩ := h.coherent.allocated.live _ _ hi
  unfold retired Slots.retire at *
  by_cases hmax : i.id.generation ≠ maxU32
  · rw [if_pos hmax] at hcoherent
    rw [if_pos hmax, if_pos hmax]
    refine ⟨hcoherent, htidy, h.world, hpool, hstorage, h.terminated,
      congrArg (i.id.slot :: ·) h.available, h.next, fun slot => ?_, hlive, huniform, hsize,
      h.drawn⟩
    show (r.generations.set i.id.slot (i.id.generation + 1))[slot]? =
      if slot = i.id.slot then some (i.id.generation + 1) else s.generation slot
    rw [List.getElem?_set]
    by_cases hslot : slot = i.id.slot
    · rw [if_pos hslot.symm, if_pos hslot, if_pos (List.getElem?_eq_some_iff.mp hgen).1]
    · rw [if_neg (Ne.symm hslot), if_neg hslot, h.generation]
  · rw [if_neg hmax] at hcoherent
    rw [if_neg hmax, if_neg hmax]
    exact ⟨hcoherent, htidy, h.world, hpool, hstorage, h.terminated, h.available, h.next,
      h.generation, hlive, huniform, hsize, h.drawn⟩

theorem Standing.found (h : Standing s n r) {id : IntentId} (hid : s.live id) :
    ∃ i, r.record? id = some i ∧ i.id = id ∧ r.intent id = .ok i ∧
      r.typeOf id = .ok i.target.type := by
  obtain ⟨i, hi⟩ := (h.live id).mpr hid
  refine ⟨i, hi, h.coherent.indexed.id_eq hi, intent_eq_ok.mpr hi, ?_⟩
  unfold typeOf
  rw [h.coherent.indexed.type_eq hi]

theorem Standing.forget (h : Standing s n r) {i : Intent} (hi : r.record? i.id = some i) :
    wp (forget i i.target.type) (fun _ r' => Standing (s.retire i.id) n r' ∧
      r'.transaction = r.transaction ∧ r'.lifecycleRecords = r.lifecycleRecords)
      (fun _ _ => False) r := by
  obtain ⟨_, hgen, _⟩ := h.coherent.allocated.live _ _ hi
  have hremoved := h.removed hi
  unfold IntentRegistry.forget
  rw [wp_bind, wp_modify]
  refine wp_retireIntentId (r := r.removed i) hgen ⟨hremoved, ?_⟩
  unfold retired
  split <;> exact ⟨rfl, rfl⟩

end Destroy

/-! ## Strokes -/

/-- Between two calls of the run. -/
structure Resting (s : Slots) (n : Nat) (r : IntentRegistry) : Prop extends Standing s n r where
  closed : r.transaction = none
  cleared : r.lifecycleRecords = []

/-- An intent is made or destroyed, and the evidence of it taken away. -/
inductive Stroke where
  | make
  | destroy (id : IntentId)

def Stroke.call : Stroke → Call
  | .make => .create wornOwner wornType wornSlot ⟨.persistent, 0⟩ .low .null []
  | .destroy id => .destroy id

def Stroke.step (stroke : Stroke) (r : IntentRegistry) : IntentRegistry :=
  Call.clearLifecycleRecords.step (stroke.call.step r)

def strike (strokes : List Stroke) (r : IntentRegistry) : IntentRegistry :=
  strokes.foldl (fun r stroke => stroke.step r) r

theorem strike_nil (r : IntentRegistry) : strike [] r = r := rfl

theorem strike_cons (stroke : Stroke) (strokes : List Stroke) (r : IntentRegistry) :
    strike (stroke :: strokes) r = strike strokes (stroke.step r) := rfl

theorem strike_append (strokes strokes' : List Stroke) (r : IntentRegistry) :
    strike (strokes ++ strokes') r = strike strokes' (strike strokes r) := List.foldl_append

def Stroke.calls (stroke : Stroke) : List Call := [stroke.call, .clearLifecycleRecords]

theorem foldl_calls (strokes : List Stroke) (r : IntentRegistry) :
    (strokes.flatMap Stroke.calls).foldl (fun r call => call.step r) r = strike strokes r := by
  induction strokes generalizing r with
  | nil => rfl
  | cons stroke strokes ih =>
      rw [List.flatMap_cons, List.foldl_append, ih]
      rfl

section Strokes

variable {s s' : Slots} {n : Nat} {r : IntentRegistry}

theorem Standing.clear (h : Standing s n r) (htx : r.transaction = none) :
    Resting s n (Call.clearLifecycleRecords.step r) := by
  have hclear : Call.clearLifecycleRecords.step r = { r with lifecycleRecords := [] } := by
    refine (wp_after (P := fun r' => r' = { r with lifecycleRecords := [] })).mp ?_
    unfold Call.program IntentRegistry.clearLifecycleRecords ensureNoActiveTransaction
    rw [wp_map, wp_bind, wp_bind, wp_get, if_neg (by simp [htx]), wp_pure, wp_modify]
  rw [hclear]
  exact ⟨h.framed [] r.transaction, htx, rfl⟩

/-- A create with an id to be had. -/
theorem Resting.make (h : Resting s n r) {id : IntentId} (hd : s.Draw id s')
    (hn : n + 1 < 2 ^ 64) : Resting (s'.plus id) (n + 1) (Stroke.make.step r) := by
  have hcall : Standing (s'.plus id) (n + 1) (Stroke.make.call.step r) ∧
      (Stroke.make.call.step r).transaction = none := by
    refine (wp_after (P := fun r' => Standing (s'.plus id) (n + 1) r' ∧
      r'.transaction = none)).mp ?_
    unfold Stroke.call Call.program IntentRegistry.create ensureNoActiveTransaction
    rw [wp_map, wp_bind, wp_bind, wp_get, h.closed, if_neg (by decide), wp_pure]
    refine wp_mono (h.createImpl hd hn (by rw [h.cleared]; decide)) (fun _ r' h' => ?_)
      fun _ _ h' => h'.elim
    exact ⟨h'.2.1, h'.2.2.trans h.closed⟩
  exact hcall.1.clear hcall.2

/-- A create that finds no generation counts the slot nevertheless. -/
theorem Resting.overrun (h : Resting s n r) (hav : s.available = []) (hsize : s.size < maxIntents)
    (hgen : s.generation s.next.toNat = none) :
    Resting { s with next := s.next + 1 } n (Stroke.make.step r) := by
  have hcounted := (Moved.counted h.coherent (h.available.trans hav)).coherent
  have hcall : Stroke.make.call.step r = r.countSlot := by
    refine (wp_after (P := fun r' => r' = r.countSlot)).mp ?_
    unfold Stroke.call Call.program IntentRegistry.create ensureNoActiveTransaction
    rw [wp_map, wp_bind, wp_bind, wp_get, h.closed, if_neg (by decide), wp_pure]
    unfold IntentRegistry.createImpl
    rw [← bind_assoc, wp_bind]
    refine h.checkCreate ?_
    unfold nextIntentId
    rw [wp_bind, wp_bind, wp_get, h.available, hav]
    dsimp only
    rw [if_neg (by rw [h.size]; omega), wp_bind, wp_set, h.generation, h.next, hgen, wp_throw]
  have hstanding : Standing { s with next := s.next + 1 } n r.countSlot :=
    { coherent := hcounted
      tidy := h.tidy
      world := h.world
      pool := h.pool
      storage := h.storage
      terminated := h.terminated
      available := h.available
      next := congrArg (· + 1) h.next
      generation := h.generation
      live := h.live
      uniform := h.uniform
      size := h.size
      drawn := h.drawn }
  unfold Stroke.step
  rw [hcall]
  exact hstanding.clear h.closed

theorem Resting.destroy (h : Resting s n r) (id : IntentId) (hid : s.live id) :
    Resting (s.retire id) n ((Stroke.destroy id).step r) := by
  obtain ⟨i, hi, heq, hintent, htype⟩ := h.found hid
  have hcall : Standing (s.retire id) n ((Stroke.destroy id).call.step r) ∧
      ((Stroke.destroy id).call.step r).transaction = none := by
    refine (wp_after (P := fun r' => Standing (s.retire id) n r' ∧ r'.transaction = none)).mp ?_
    unfold Stroke.call Call.program IntentRegistry.destroy ensureNoActiveTransaction
    rw [wp_map, wp_bind, wp_bind, wp_get, h.closed, if_neg (by decide), wp_pure, wp_bind, wp_get,
      wp_bind, hintent, wp_lift]
    refine ⟨fun j hj => ?_, fun e he => by cases he⟩
    cases hj
    rw [wp_bind, htype, wp_lift]
    refine ⟨fun type ht => ?_, fun e he => by cases he⟩
    cases ht
    rw [wp_bind]
    refine wp_recordDestroyed (fun _ => ?_) fun hfull => ?_
    · have hrecorded := h.framed (r.lifecycleRecords ++ [⟨false, i⟩]) r.transaction
      refine wp_mono (hrecorded.forget (heq.symm ▸ hi)) (fun _ r' h' => ?_) fun _ _ h' => h'.elim
      rw [heq] at h'
      exact ⟨h'.1, h'.2.1.trans h.closed⟩
    · rw [h.cleared] at hfull
      exact absurd hfull (by decide)
  exact hcall.1.clear hcall.2

end Strokes

/-! ## The run -/

/-- An intent is made and destroyed `count` times, from a generation of the slot on. -/
def cycles (slot generation count : Nat) : List Stroke :=
  (List.range count).flatMap fun k =>
    [.make, .destroy ⟨7, slot, UInt32.ofNat (generation + k)⟩]

theorem ofNat_add_one (n : Nat) : UInt32.ofNat n + 1 = UInt32.ofNat (n + 1) :=
  (UInt32.ofNat_add n 1).symm

section Phases

variable {s : Slots} {n : Nat} {r : IntentRegistry}

theorem Resting.congr (h : Resting s n r) {s' : Slots} {n' : Nat}
    (hav : s.available = s'.available) (hnext : s.next = s'.next)
    (hgen : ∀ slot, s.generation slot = s'.generation slot)
    (hlive : ∀ id, s.live id ↔ s'.live id) (hsize : s.size = s'.size) (hn : n ≤ n') :
    Resting s' n' r := by
  have heq : s = s' := by
    obtain ⟨_, _, _, _, _⟩ := s
    obtain ⟨_, _, _, _, _⟩ := s'
    simp only [Slots.mk.injEq]
    exact ⟨hav, hnext, funext hgen, funext fun id => propext (hlive id), hsize⟩
  rw [← heq]
  exact ⟨{ h.toStanding with drawn := h.drawn.trans hn }, h.closed, h.cleared⟩

/-- A free slot ages with each intent made in it. -/
theorem Resting.cycles (h : Resting s n r) {slot generation : Nat} {rest : List Nat}
    (hav : s.available = slot :: rest) (hgen : s.generation slot = some (UInt32.ofNat generation))
    (count : Nat) (hlast : generation + count < 4294967296) (hn : n + count < 2 ^ 64) :
    Resting { s with generation := fun k =>
      if k = slot then some (UInt32.ofNat (generation + count)) else s.generation k } (n + count)
      (strike (cycles slot generation count) r) := by
  induction count with
  | zero =>
      refine h.congr rfl rfl (fun k => ?_) (fun _ => Iff.rfl) rfl (le_refl _)
      by_cases hk : k = slot <;> simp [hk, hgen]
  | succ count ih =>
      have hbefore := ih (by omega) (by omega)
      unfold IntentRegistry.cycles at hbefore ⊢
      rw [List.range_succ, List.flatMap_append, strike_append]
      have hnew : ¬s.live ⟨7, slot, UInt32.ofNat (generation + count)⟩ := by
        intro hlive
        obtain ⟨i, hi⟩ := (hbefore.live _).mpr hlive
        refine (hbefore.coherent.allocated.live _ i hi).2.2 ?_
        rw [hbefore.available, hav]
        exact List.mem_cons_self
      have hne : UInt32.ofNat (generation + count) ≠ maxU32 := by
        intro hmax
        have hvalue := congrArg UInt32.toNat hmax
        rw [UInt32.toNat_ofNat_of_lt' (by show generation + count < 4294967296; omega)] at hvalue
        have hval : maxU32.toNat = 4294967295 := rfl
        omega
      have hmade := hbefore.make (.taken hav (if_pos rfl)) (by omega)
      have hgone := hmade.destroy _ (Or.inl rfl)
      unfold Slots.retire at hgone
      rw [if_pos hne] at hgone
      refine hgone.congr hav.symm rfl (fun k => ?_) (fun id => ?_) rfl (by omega)
      · show (if k = slot then some (UInt32.ofNat (generation + count) + 1)
            else if k = slot then _ else s.generation k) =
          if k = slot then some (UInt32.ofNat (generation + (count + 1))) else s.generation k
        by_cases hk : k = slot
        · rw [if_pos hk, if_pos hk, ofNat_add_one]
          rfl
        · rw [if_neg hk, if_neg hk, if_neg hk]
      · show (id ≠ _ ∧ (id = _ ∨ s.live id)) ↔ s.live id
        constructor
        · rintro ⟨hid, rfl | hlive⟩
          · exact absurd rfl hid
          · exact hlive
        · intro hlive
          exact ⟨fun hid => hnew (hid ▸ hlive), Or.inr hlive⟩

/-- Slots that have a generation are counted. -/
theorem Resting.fill (h : Resting s n r) (first : Nat) (hav : s.available = [])
    (hnext : s.next = UInt32.ofNat first) (hlive : ∀ id, s.live id → id.slot < first)
    (count : Nat) (hgen : ∀ k, first ≤ k → k < first + count → s.generation k = some 1)
    (hsize : s.size + count ≤ maxIntents) (hlast : first + count < 4294967296)
    (hn : n + count < 2 ^ 64) :
    Resting { s with
      next := UInt32.ofNat (first + count)
      live := fun id => s.live id ∨ ∃ k, first ≤ k ∧ k < first + count ∧ id = ⟨7, k, 1⟩
      size := s.size + count } (n + count) (strike (List.replicate count .make) r) := by
  induction count with
  | zero =>
      refine h.congr rfl hnext (fun _ => rfl) (fun id => ?_) rfl (le_refl _)
      constructor
      · exact Or.inl
      · rintro (hid | ⟨k, hfirst, hk, rfl⟩)
        · exact hid
        · omega
  | succ count ih =>
      have hbefore := ih (fun k hk hlt => hgen k hk (by omega)) (by omega) (by omega) (by omega)
      rw [List.replicate_succ', strike_append]
      have htoNat : (UInt32.ofNat (first + count)).toNat = first + count :=
        UInt32.toNat_ofNat_of_lt' (by show first + count < 4294967296; omega)
      have hmade := hbefore.make (.counted 1 hav
        (by show s.size + count < maxIntents; omega)
        (by rw [htoNat]; exact hgen _ (by omega) (by omega)) fun id hid => by
          rw [htoNat]
          rcases hid with hid | ⟨k, _, hk, rfl⟩
          · have := hlive id hid
            omega
          · show k ≠ first + count
            omega) (by omega)
      refine hmade.congr rfl (ofNat_add_one _) (fun _ => rfl) (fun id => ?_) (Nat.add_assoc ..)
        (by omega)
      · show (id = ⟨7, _, 1⟩ ∨ s.live id ∨ _) ↔ _
        rw [htoNat]
        constructor
        · rintro (rfl | hid | ⟨k, hfirst, hk, rfl⟩)
          · exact Or.inr ⟨_, by omega, by omega, rfl⟩
          · exact Or.inl hid
          · exact Or.inr ⟨k, hfirst, by omega, rfl⟩
        · rintro (hid | ⟨k, hfirst, hk, rfl⟩)
          · exact Or.inr (Or.inl hid)
          · by_cases hlast : k = first + count
            · exact Or.inl (by rw [hlast])
            · exact Or.inr (Or.inr ⟨k, hfirst, by omega, rfl⟩)

/-- Behind the last generation, `nextSlot` counts by itself. -/
theorem Resting.overruns (h : Resting s n r) (first : Nat) (hav : s.available = [])
    (hnext : s.next = UInt32.ofNat first) (count : Nat)
    (hgen : ∀ k, first ≤ k → k < first + count → s.generation k = none)
    (hsize : s.size < maxIntents) (hlast : first + count ≤ 4294967296) :
    Resting { s with next := UInt32.ofNat (first + count) } n
      (strike (List.replicate count .make) r) := by
  induction count with
  | zero => exact h.congr rfl hnext (fun _ => rfl) (fun _ => Iff.rfl) rfl (le_refl _)
  | succ count ih =>
      have hbefore := ih (fun k hk hlt => hgen k hk (by omega)) (by omega)
      rw [List.replicate_succ', strike_append]
      have htoNat : (UInt32.ofNat (first + count)).toNat = first + count :=
        UInt32.toNat_ofNat_of_lt' (by show first + count < 4294967296; omega)
      have hcounted := hbefore.overrun hav hsize (by
        rw [htoNat]
        exact hgen _ (by omega) (by omega))
      exact hcounted.congr rfl (ofNat_add_one _) (fun _ => rfl) (fun _ => Iff.rfl) rfl (le_refl _)

end Phases

/-- The generations of the slots, but for the first two slots the one they have at first. -/
def ages (first second : UInt32) (slot : Nat) : Option UInt32 :=
  if slot = 1 then some first else if slot = 2 then some second
  else if slot < 5001 then some 1 else none

theorem ages_first (first second generation : UInt32) (k : Nat) :
    (if k = 1 then some generation else ages first second k) = ages generation second k := by
  unfold ages
  split <;> rfl

theorem ages_second (first second generation : UInt32) (k : Nat) :
    (if k = 2 then some generation else ages first second k) = ages first generation k := by
  unfold ages
  by_cases h1 : k = 1
  · rw [if_pos h1, if_pos h1, if_neg (by omega)]
  · rw [if_neg h1, if_neg h1]
    split <;> rfl

theorem ofNat_last : UInt32.ofNat (2 + 4294967293) = maxU32 := by decide

/-- The registry of a world with one behavior. -/
def pooled : IntentRegistry := (Call.createBehaviorPool wornOwner).step (initial 7)

def beginning : List Stroke := [.make, .destroy ⟨7, 1, 1⟩]

/-- One intent has come and gone. -/
def begun : IntentRegistry := strike beginning pooled

theorem begun_resting : Resting ⟨[1], 2, ages 2 1, fun _ => False, 0⟩ 1 begun := by
  have hrun : Reaches Call.step (fun call r => call ≠ .rollback ∧ call.wraps r = false)
      (initial 7) ((.createBehaviorPool wornOwner :: beginning.flatMap Stroke.calls).foldl
        (fun r call => call.step r) (initial 7)) := by
    refine Reaches.obeys .start ⟨⟨nofun, ?_⟩, ⟨nofun, ?_⟩, ⟨nofun, ?_⟩, ⟨nofun, ?_⟩, ⟨nofun, ?_⟩,
      trivial⟩ <;> decide +kernel
  rw [List.foldl_cons, foldl_calls] at hrun
  have hall : begun.Coherent ∧ begun.Tidy ∧ begun.slotWraps = 0 := coherent_of_run hrun
  obtain ⟨hcoherent, htidy, _⟩ := hall
  have htypes : begun.intentTypes.entries = [] := by decide +kernel
  have hfind : ∀ id, begun.intentTypes.find? id = none := by
    intro id
    unfold OrdMap.find?
    rw [htypes]
    rfl
  have hnone : ∀ id, begun.record? id = none := by
    intro id
    rw [record?_eq, hfind, Option.bind_none]
  have hgen : begun.generations = (List.replicate 5001 1).set 1 2 := rfl
  have hworld : begun.worldId = 7 := by decide +kernel
  have hpool : begun.byOwner.contains wornOwner = true := by decide +kernel
  have hterminated : begun.terminated = false := by decide +kernel
  have hav : begun.availableSlots = [1] := by decide +kernel
  have hnext : begun.nextSlot = 2 := by decide +kernel
  have hsize : begun.intentTypes.size = 0 := by decide +kernel
  have hdrawn : begun.lastSequence.toNat = 1 := by decide +kernel
  have hclosed : begun.transaction.isNone = true := by decide +kernel
  have hcleared : begun.lifecycleRecords = [] := by decide +kernel
  have hstorage : (begun.storages.find? wornType.id).map IntentStorage.component =
      some wornType.component := by decide +kernel
  generalize begun = r at *
  have hstanding : Standing ⟨[1], 2, ages 2 1, fun _ => False, 0⟩ 1 r :=
    { coherent := hcoherent
      tidy := htidy
      world := hworld
      pool := hpool
      storage := Option.map_eq_some_iff.mp hstorage
      terminated := hterminated
      available := hav
      next := hnext
      generation := fun k => by
        show r.generations[k]? = ages 2 1 k
        rw [hgen, List.getElem?_set, List.length_replicate, List.getElem?_replicate]
        unfold ages
        by_cases hk : k = 1
        · simp [hk]
        · rw [if_neg (Ne.symm hk), if_neg hk]
          by_cases hk' : k = 2 <;> simp [hk']
      live := fun id => by simp [hnone]
      uniform := fun id i hi => by
        rw [hnone] at hi
        cases hi
      size := hsize
      drawn := hdrawn.le }
  exact ⟨hstanding, Option.isNone_iff_eq_none.mp hclosed, hcleared⟩

/-- The intent that stays in slot 1. -/
def lastOfFirst : IntentId := ⟨7, 1, maxU32⟩

/-- Slot 1 comes to its last generation, and an intent stays in it. -/
def ripening : List Stroke := cycles 1 2 4294967293 ++ [.make]

/-- Slot 2 is lost with an intent of its last generation. -/
def losing : List Stroke :=
  .make :: .destroy ⟨7, 2, 1⟩ :: (cycles 2 2 4294967293 ++ [.make, .destroy ⟨7, 2, maxU32⟩])

/-- The other slots are filled, and `nextSlot` counts on until it wraps. -/
def wrapping : List Stroke :=
  List.replicate 4998 .make ++ List.replicate 4294962295 .make

section Wear

variable {n : Nat} {r : IntentRegistry}

theorem Resting.ripen (h : Resting ⟨[1], 2, ages 2 1, fun _ => False, 0⟩ n r)
    (hn : n + 4294967294 < 2 ^ 64) :
    Resting ⟨[], 2, ages maxU32 1, (· = lastOfFirst), 1⟩ (n + 4294967294) (strike ripening r) := by
  unfold ripening
  rw [strike_append, strike_cons, strike_nil]
  have haged : Resting ⟨[1], 2, ages maxU32 1, fun _ => False, 0⟩ (n + 4294967293)
      (strike (IntentRegistry.cycles 1 2 4294967293) r) := by
    refine (h.cycles rfl rfl 4294967293 (by decide) (by omega)).congr rfl rfl (fun k => ?_)
      (fun _ => Iff.rfl) rfl (le_refl _)
    rw [ofNat_last]
    exact ages_first 2 1 maxU32 k
  exact (haged.make (.taken rfl rfl) (by omega)).congr rfl rfl (fun _ => rfl)
    (fun id => iff_of_eq (or_false _)) rfl (by omega)

theorem Resting.lose (h : Resting ⟨[], 2, ages maxU32 1, (· = lastOfFirst), 1⟩ n r)
    (hn : n + 4294967296 < 2 ^ 64) :
    Resting ⟨[], 3, ages maxU32 maxU32, (· = lastOfFirst), 1⟩ (n + 4294967295)
      (strike losing r) := by
  unfold losing
  rw [strike_cons, strike_cons, strike_append, strike_cons, strike_cons, strike_nil]
  have hother : ∀ g : UInt32, (⟨7, 2, g⟩ : IntentId) ≠ lastOfFirst := by
    intro g hg
    cases hg
  have hgone : ∀ (g : UInt32) id, (id ≠ ⟨7, 2, g⟩ ∧ (id = ⟨7, 2, g⟩ ∨ id = lastOfFirst)) ↔
      id = lastOfFirst := by
    intro g id
    constructor
    · rintro ⟨hne, heq | heq⟩
      · exact absurd heq hne
      · exact heq
    · rintro rfl
      exact ⟨(hother g).symm, Or.inr rfl⟩
  have hmade := h.make (.counted 1 rfl (by decide) rfl fun id hid => by
    rw [hid]
    decide) (by omega)
  have hfreed : Resting ⟨[2], 3, ages maxU32 2, (· = lastOfFirst), 1⟩ (n + 1)
      ((Stroke.destroy ⟨7, 2, 1⟩).step (Stroke.make.step r)) :=
    (hmade.destroy ⟨7, 2, 1⟩ (Or.inl rfl)).congr rfl rfl
      (fun k => ages_second maxU32 1 2 k) (hgone 1) rfl (le_refl _)
  have haged : Resting ⟨[2], 3, ages maxU32 maxU32, (· = lastOfFirst), 1⟩ (n + 1 + 4294967293)
      (strike (IntentRegistry.cycles 2 2 4294967293)
        ((Stroke.destroy ⟨7, 2, 1⟩).step (Stroke.make.step r))) := by
    refine (hfreed.cycles rfl rfl 4294967293 (by decide) (by omega)).congr rfl rfl (fun k => ?_)
      (fun _ => Iff.rfl) rfl (le_refl _)
    rw [ofNat_last]
    exact ages_second maxU32 2 maxU32 k
  have hlast := haged.make (.taken rfl rfl) (by omega)
  exact (hlast.destroy ⟨7, 2, maxU32⟩ (Or.inl rfl)).congr rfl rfl (fun _ => rfl)
    (hgone maxU32) rfl (by omega)
/-- Slots 3 to 5000 are in use, and slot 1 for ever. -/
def wornOut (id : IntentId) : Prop := id = lastOfFirst ∨ ∃ k, 3 ≤ k ∧ k < 5001 ∧ id = ⟨7, k, 1⟩

theorem Resting.wrap (h : Resting ⟨[], 3, ages maxU32 maxU32, (· = lastOfFirst), 1⟩ n r)
    (hn : n + 4998 < 2 ^ 64) :
    Resting ⟨[], 0, ages maxU32 maxU32, wornOut, 4999⟩ (n + 4998) (strike wrapping r) := by
  unfold wrapping
  rw [strike_append]
  have hgen : ∀ k, 3 ≤ k → ages maxU32 maxU32 k = if k < 5001 then some 1 else none := by
    intro k hk
    unfold ages
    rw [if_neg (by omega), if_neg (by omega)]
  have hfilled : Resting ⟨[], 5001, ages maxU32 maxU32, wornOut, 4999⟩ (n + 4998)
      (strike (List.replicate 4998 .make) r) := by
    refine (h.fill 3 rfl rfl (fun id hid => ?_) 4998 (fun k hk hlt => ?_) (by decide)
      (by decide) hn).congr rfl rfl (fun _ => rfl) (fun _ => Iff.rfl) rfl (le_refl _)
    · rw [hid]
      decide
    · exact (hgen k hk).trans (if_pos hlt)
  refine (hfilled.overruns 5001 rfl rfl 4294962295 (fun k hk _ => ?_) (by decide)
    (by decide)).congr rfl rfl (fun _ => rfl) (fun _ => Iff.rfl) rfl (le_refl _)
  exact (hgen k (by omega)).trans (if_neg (by omega))

end Wear

def wearing : List Stroke := ripening ++ losing ++ wrapping

theorem worn_resting :
    Resting ⟨[], 0, ages maxU32 maxU32, wornOut, 4999⟩ 8589939588 (strike wearing begun) := by
  unfold wearing
  rw [strike_append, strike_append]
  exact (((begun_resting.ripen (by decide)).lose (by decide)).wrap (by decide)).congr rfl rfl
    (fun _ => rfl) (fun _ => Iff.rfl) rfl (by decide)

/-- The intent of slot 3 is destroyed in the end. -/
def wrappedCalls : List Call :=
  .createBehaviorPool wornOwner ::
    (beginning ++ wearing ++ [Stroke.destroy ⟨7, 3, 1⟩]).flatMap Stroke.calls

/-- Its slot is free, and not below `nextSlot`. -/
theorem indexes_disagree : (∀ call ∈ wrappedCalls, call ≠ .rollback) ∧
    ¬(wrappedCalls.foldl (fun r call => call.step r) (initial 7)).Agreement := by
  constructor
  · intro call hcall
    unfold wrappedCalls at hcall
    rcases List.mem_cons.mp hcall with rfl | hcall
    · nofun
    · obtain ⟨stroke, _, hcall⟩ := List.mem_flatMap.mp hcall
      rcases List.mem_cons.mp hcall with rfl | hcall
      · cases stroke <;> nofun
      · rw [List.mem_singleton.mp hcall]
        nofun
  · unfold wrappedCalls
    rw [List.foldl_cons, foldl_calls, strike_append, strike_append, strike_cons, strike_nil]
    have hbegun : strike beginning ((Call.createBehaviorPool wornOwner).step (initial 7)) =
        begun := rfl
    have hlast := worn_resting.destroy ⟨7, 3, 1⟩ (Or.inr ⟨3, by decide, by decide, rfl⟩)
    rw [hbegun]
    generalize (Stroke.destroy ⟨7, 3, 1⟩).step (strike wearing begun) = r at hlast ⊢
    intro hagree
    have hbelow := (hagree.free 3 (hlast.available ▸ List.mem_cons_self)).1
    rw [hlast.next] at hbelow
    exact absurd hbelow (by decide)

/-! ## A transaction after the wrap -/

section Transaction

variable {s s' : Slots} {n : Nat} {r : IntentRegistry} {t : IntentTransaction}

theorem Standing.cancel (h : Standing s n r) (htx : r.transaction = some t) {id : IntentId}
    (hid : s.live id) (hbuffer : r.lifecycleRecords.length < maximumBuffered) :
    wp (cancel id) (fun _ r' => Standing (s.retire id) n r' ∧
      r'.lifecycleRecords.length = r.lifecycleRecords.length + 1 ∧ ∃ i, i.id = id ∧
        r'.transaction = some { t with cancelled := t.cancelled ++ [(i.target.type, i)] } ∧
        i.target.type = wornType.id) (fun _ _ => False) r := by
  obtain ⟨i, hi, heq, hintent, htype⟩ := h.found hid
  unfold IntentRegistry.cancel ensureActive
  rw [wp_bind, wp_bind, wp_get, if_neg (by simp [htx]), wp_pure, wp_bind, wp_get, wp_bind, hintent,
    wp_lift]
  refine ⟨fun j hj => ?_, fun e he => by cases he⟩
  cases hj
  rw [wp_bind, htype, wp_lift]
  refine ⟨fun type ht => ?_, fun e he => by cases he⟩
  cases ht
  rw [wp_bind]
  refine wp_recordDestroyed (fun _ => ?_) fun hfull => absurd hbuffer (Nat.not_lt.mpr hfull)
  rw [wp_bind, wp_modify]
  have hnoted := h.framed (r.lifecycleRecords ++ [⟨false, i⟩])
    (some { t with cancelled := t.cancelled ++ [(i.target.type, i)] })
  rw [htx]
  refine wp_mono (hnoted.forget (heq.symm ▸ hi)) (fun _ r' h' => ?_) fun _ _ h' => h'.elim
  obtain ⟨hr', htx', hrecords⟩ := h'
  rw [heq] at hr'
  refine ⟨hr', by rw [hrecords]; simp, i, heq, htx', ?_⟩
  rw [(h.uniform id i hi).2]
  rfl

/-- A create in a full registry. -/
theorem Standing.full (h : Standing s n r) (hav : s.available = []) (hsize : s.size = maxIntents) :
    wp (IntentRegistry.createImpl wornOwner wornType wornSlot ⟨.persistent, 0⟩ .low .null [])
      (fun _ _ => False) (fun _ r' => r' = r) r := by
  unfold IntentRegistry.createImpl
  rw [← bind_assoc, wp_bind]
  refine h.checkCreate ?_
  unfold nextIntentId
  rw [wp_bind, wp_bind, wp_get, h.available, hav]
  dsimp only
  rw [if_pos (by rw [h.size]; omega)]
  simp only [wp_bind, wp_throw]

/-- The id of a cancelled intent has been used again: its record has no place to go back to. -/
theorem rollback_terminates {r₀ : IntentRegistry} (htx : r.transaction = some t)
    (htypes : t.intentTypes = r₀.intentTypes) {i : Intent}
    (hcancelled : t.cancelled = [(i.target.type, i)])
    (hlive : r₀.intentTypes.contains i.id = true)
    (hstored : r.stored i.target.type i.id ≠ none) : r.rollback.terminated = true := by
  have hnone : r.rolledBackStorages t = none := by
    have hunmade := storedIn_unmade r₀ r i.target.type i.id
    rw [if_neg (fun hc => by rw [hlive] at hc; cases hc.2)] at hunmade
    unfold rolledBackStorages
    rw [hcancelled, htypes]
    show Option.map _ (List.foldlM restoreStored (unmade r₀ r) [(i.target.type, i)]) = none
    rw [List.foldlM_cons, restoreStored_eq, if_neg (by rw [hunmade]; exact hstored)]
    rfl
  unfold rollback
  rw [htx]
  dsimp only
  rw [hnone]

/-- After the wrap one more intent is made, in slot 0. -/
def colliding : List Stroke := beginning ++ wearing ++ [.make]

/-- The registry is full, and the next slot is the one of `lastOfFirst`. -/
def crowded : Slots :=
  ⟨[], 1, ages maxU32 maxU32, fun id => id = ⟨7, 0, 1⟩ ∨ wornOut id, maxIntents⟩

theorem crowded_resting : Resting crowded 8589939589 (strike colliding pooled) := by
  unfold colliding
  rw [strike_append, strike_append, strike_cons, strike_nil]
  have hvacant : ∀ id, wornOut id → id.slot ≠ 0 := by
    rintro id (rfl | ⟨k, hk, _, rfl⟩)
    · decide
    · show k ≠ 0
      omega
  exact worn_resting.make (.counted 1 rfl (by decide) rfl hvacant) (by decide)

/-- Without `lastOfFirst`, its id is the next one. -/
theorem draw_lastOfFirst : (crowded.retire lastOfFirst).Draw lastOfFirst
    { crowded.minus lastOfFirst with next := 2 } := by
  have hminus : crowded.retire lastOfFirst = crowded.minus lastOfFirst := rfl
  rw [hminus]
  refine .counted maxU32 rfl (by decide) rfl ?_
  rintro id ⟨hne, rfl | rfl | ⟨k, hk, _, rfl⟩⟩
  · decide
  · exact absurd rfl hne
  · show k ≠ 1
    omega

end Transaction

end IntentRegistry

end LiquidLayer
