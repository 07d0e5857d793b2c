/-
  Transactions of `IntentRegistry`.

  `During r₀ entries r`: `r` was reached from `r₀` inside a transaction that so far has
  cancelled and created intents, and `entries` are its records. `Tracked r₀ entries r` is what
  more is known until `nextSlot` wraps: no id is handed out twice, so the place of a cancelled
  record stays empty. `During.rollback`: a rollback then gives `r₀` back, except that the records
  of intents that were both created and cancelled in the transaction stay in their storages
  (`strays`). After a wrap it may end the process; `During.coherent_rollback` holds in any case.
  `During.wp_commit`: a commit is a move.
-/
import LiquidLayer.World.IntentMoves

namespace LiquidLayer

open Prog

namespace IntentRegistry

/-! ## Storages -/

/-- Storages with the same types, the same components and the same records are the same. -/
theorem storages_ext {s s' : OrdMap ComponentTypeId IntentStorage}
    (hc : ∀ type, (s.find? type).map IntentStorage.component =
      (s'.find? type).map IntentStorage.component)
    (hr : ∀ type id, ((s.find? type).bind fun st => st.records.find? id) =
      (s'.find? type).bind fun st => st.records.find? id) : s = s' := by
  refine OrdMap.ext_find? fun type => ?_
  have hc := hc type
  have hr := hr type
  cases h : s.find? type with
  | none =>
      rw [h] at hc
      cases h' : s'.find? type with
      | none => rfl
      | some st' =>
          rw [h'] at hc
          cases hc
  | some st =>
      rw [h] at hc hr
      cases h' : s'.find? type with
      | none =>
          rw [h'] at hc
          cases hc
      | some st' =>
          rw [h'] at hc hr
          obtain ⟨c, m⟩ := st
          obtain ⟨c', m'⟩ := st'
          have hm : m = m' := OrdMap.ext_find? hr
          cases hc
          rw [hm]

theorem storedIn_destroyStored (storages : OrdMap ComponentTypeId IntentStorage)
    (type type' : ComponentTypeId) (id id' : IntentId) :
    storedIn (destroyStored storages type id) type' id' =
      if type' = type ∧ id' = id then none else storedIn storages type' id' := by
  unfold storedIn destroyStored
  rw [OrdMap.find?_modify]
  by_cases ht : type' = type
  · subst ht
    rw [if_pos rfl]
    cases storages.find? type' with
    | none => simp
    | some storage =>
        rw [Option.map_some, Option.bind_some, Option.bind_some, OrdMap.find?_erase]
        by_cases hid : id' = id <;> simp [hid]
  · rw [if_neg ht, if_neg (fun hc => ht hc.1)]

theorem component_modify (storages : OrdMap ComponentTypeId IntentStorage)
    (type type' : ComponentTypeId) (f : OrdMap IntentId Intent → OrdMap IntentId Intent) :
    ((storages.modify type fun storage =>
      { storage with records := f storage.records }).find? type').map IntentStorage.component =
      (storages.find? type').map IntentStorage.component := by
  rw [OrdMap.find?_modify]
  split
  · next h =>
      rw [h]
      cases storages.find? type <;> rfl
  · rfl

theorem storedIn_putBack {storages : OrdMap ComponentTypeId IntentStorage}
    {c : ComponentTypeId × Intent} (hc : storages.contains c.1 = true)
    (type : ComponentTypeId) (id : IntentId) :
    storedIn (putBack storages c) type id =
      if type = c.1 ∧ id = c.2.id then some c.2 else storedIn storages type id := by
  obtain ⟨storage, hstorage⟩ := Option.isSome_iff_exists.mp hc
  unfold storedIn putBack
  rw [OrdMap.find?_modify]
  by_cases ht : type = c.1
  · subst ht
    rw [if_pos rfl, hstorage, Option.map_some, Option.bind_some, Option.bind_some,
      OrdMap.find?_insert]
    by_cases hid : id = c.2.id <;> simp [hid]
  · rw [if_neg ht, if_neg (fun h => ht h.1)]

theorem component_putBack (storages : OrdMap ComponentTypeId IntentStorage)
    (c : ComponentTypeId × Intent) (type : ComponentTypeId) :
    ((putBack storages c).find? type).map IntentStorage.component =
      (storages.find? type).map IntentStorage.component :=
  component_modify storages c.1 type fun records => records.insert c.2.id c.2

theorem contains_putBack (storages : OrdMap ComponentTypeId IntentStorage)
    (c : ComponentTypeId × Intent) (type : ComponentTypeId) :
    (putBack storages c).contains type = storages.contains type := by
  unfold OrdMap.contains
  rw [← Option.isSome_map (f := IntentStorage.component), component_putBack, Option.isSome_map]

/-- A record is put back exactly when its place is free. -/
theorem restoreStored_eq (storages : OrdMap ComponentTypeId IntentStorage)
    (c : ComponentTypeId × Intent) : restoreStored storages c =
      if storedIn storages c.1 c.2.id = none then some (putBack storages c) else none := by
  have hany : ((storages.find? c.1).any fun storage => storage.records.contains c.2.id) =
      (storedIn storages c.1 c.2.id).isSome := by
    unfold storedIn
    cases storages.find? c.1 with
    | none => rfl
    | some storage => rfl
  unfold restoreStored
  rw [hany]
  cases storedIn storages c.1 c.2.id <;> simp

/-- Destroying a list of records. -/
theorem foldl_destroyStored (l : List (IntentId × ComponentTypeId))
    (storages : OrdMap ComponentTypeId IntentStorage) :
    (∀ type, ((l.foldl (fun s e => destroyStored s e.2 e.1) storages).find? type).map
        IntentStorage.component = (storages.find? type).map IntentStorage.component) ∧
      ∀ type id, storedIn (l.foldl (fun s e => destroyStored s e.2 e.1) storages) type id =
        if (id, type) ∈ l then none else storedIn storages type id := by
  induction l generalizing storages with
  | nil => exact ⟨fun _ => rfl, fun _ _ => by simp⟩
  | cons e l ih =>
      obtain ⟨hc, hs⟩ := ih (destroyStored storages e.2 e.1)
      refine ⟨fun type => ?_, fun type id => ?_⟩
      · rw [List.foldl_cons, hc]
        exact component_modify storages e.2 type fun records => records.erase e.1
      · rw [List.foldl_cons, hs, storedIn_destroyStored]
        obtain ⟨j, t⟩ := e
        by_cases hl : (id, type) ∈ l
        · simp [hl]
        · by_cases he : type = t ∧ id = j
          · simp [he.1, he.2]
          · have hne : (id, type) ∉ (j, t) :: l := by
              rw [List.mem_cons]
              rintro (h | h)
              · cases h
                exact he ⟨rfl, rfl⟩
              · exact hl h
            rw [if_neg hl, if_neg he, if_neg hne]

/-- Putting a list of records back, no two of them under the same id. -/
theorem foldl_putBack (l : List (ComponentTypeId × Intent))
    (storages : OrdMap ComponentTypeId IntentStorage)
    (hin : ∀ c ∈ l, storages.contains c.1 = true) :
    (∀ type, ((l.foldl putBack storages).find? type).map IntentStorage.component =
        (storages.find? type).map IntentStorage.component) ∧
      (∀ type id i, (type, i) ∈ l → i.id = id →
        (∀ j, (type, j) ∈ l → j.id = id → j = i) →
        storedIn (l.foldl putBack storages) type id = some i) ∧
      ∀ type id, (∀ i, (type, i) ∈ l → i.id ≠ id) →
        storedIn (l.foldl putBack storages) type id = storedIn storages type id := by
  induction l generalizing storages with
  | nil =>
      refine ⟨fun _ => rfl, fun type id i hm => ?_, fun _ _ _ => rfl⟩
      cases hm
  | cons c l ih =>
      have hc := hin c List.mem_cons_self
      have hin' : ∀ c' ∈ l, (putBack storages c).contains c'.1 = true := by
        intro c' hc'
        rw [contains_putBack]
        exact hin c' (List.mem_cons_of_mem _ hc')
      obtain ⟨h1, h2, h3⟩ := ih (putBack storages c) hin'
      refine ⟨fun type => (h1 type).trans (component_putBack storages c type),
        fun type id i hm hid huniq => ?_, fun type id hnone => ?_⟩
      · rw [List.foldl_cons]
        by_cases hl : ∃ j, (type, j) ∈ l ∧ j.id = id
        · obtain ⟨j, hj, hjid⟩ := hl
          have hji := huniq j (List.mem_cons_of_mem _ hj) hjid
          subst hji
          exact h2 type id j hj hjid fun k hk => huniq k (List.mem_cons_of_mem _ hk)
        · rw [h3 type id fun k hk hkid => hl ⟨k, hk, hkid⟩, storedIn_putBack hc]
          rcases List.mem_cons.mp hm with he | hm
          · rw [← he, if_pos ⟨rfl, hid.symm⟩]
          · exact absurd ⟨i, hm, hid⟩ hl
      · rw [List.foldl_cons, h3 type id fun k hk => hnone k (List.mem_cons_of_mem _ hk),
          storedIn_putBack hc, if_neg]
        rintro ⟨rfl, rfl⟩
        exact hnone c.2 List.mem_cons_self rfl

/-- What the restored storages keep: what they kept, and the restored records. -/
theorem foldlM_restoreStored (l : List (ComponentTypeId × Intent))
    {storages storages' : OrdMap ComponentTypeId IntentStorage}
    (hin : ∀ c ∈ l, storages.contains c.1 = true)
    (h : l.foldlM restoreStored storages = some storages') :
    (∀ type, (storages'.find? type).map IntentStorage.component =
        (storages.find? type).map IntentStorage.component) ∧
      (∀ type id i, storedIn storages type id = some i → storedIn storages' type id = some i) ∧
      ∀ c ∈ l, storedIn storages' c.1 c.2.id = some c.2 := by
  induction l generalizing storages with
  | nil =>
      cases h
      exact ⟨fun _ => rfl, fun _ _ _ hi => hi, fun c hc => absurd hc List.not_mem_nil⟩
  | cons c l ih =>
      rw [List.foldlM_cons, restoreStored_eq] at h
      by_cases hvacant : storedIn storages c.1 c.2.id = none
      swap
      · rw [if_neg hvacant] at h
        cases h
      rw [if_pos hvacant] at h
      have hput := storedIn_putBack (hin c List.mem_cons_self)
      have hin' : ∀ c' ∈ l, (putBack storages c).contains c'.1 = true := by
        intro c' hc'
        rw [contains_putBack]
        exact hin c' (List.mem_cons_of_mem _ hc')
      obtain ⟨hcomp, hold, hnew⟩ := ih hin' h
      refine ⟨fun type => (hcomp type).trans (component_putBack storages c type),
        fun type id i hi => hold type id i ?_, fun c' hc' => ?_⟩
      · rw [hput, if_neg]
        · exact hi
        · rintro ⟨rfl, rfl⟩
          rw [hvacant] at hi
          cases hi
      · rcases List.mem_cons.mp hc' with rfl | hc'
        · exact hold _ _ _ (by rw [hput, if_pos ⟨rfl, rfl⟩])
        · exact hnew c' hc'

/-- Records with different ids go back to places that are free. -/
theorem foldlM_restoreStored_eq (l : List (ComponentTypeId × Intent))
    (storages : OrdMap ComponentTypeId IntentStorage)
    (hin : ∀ c ∈ l, storages.contains c.1 = true) (hnd : (l.map fun c => c.2.id).Nodup)
    (hvacant : ∀ c ∈ l, storedIn storages c.1 c.2.id = none) :
    l.foldlM restoreStored storages = some (l.foldl putBack storages) := by
  induction l generalizing storages with
  | nil => rfl
  | cons c l ih =>
      rw [List.map_cons, List.nodup_cons] at hnd
      rw [List.foldlM_cons, restoreStored_eq, if_pos (hvacant c List.mem_cons_self)]
      refine ih (putBack storages c) (fun c' hc' => ?_) hnd.2 fun c' hc' => ?_
      · rw [contains_putBack]
        exact hin c' (List.mem_cons_of_mem _ hc')
      · rw [storedIn_putBack (hin c List.mem_cons_self), if_neg]
        · exact hvacant c' (List.mem_cons_of_mem _ hc')
        · rintro ⟨_, hid⟩
          exact hnd.1 (hid ▸ List.mem_map_of_mem hc')

theorem find?_storagesOf (types : List ComponentTypeId)
    (storages : OrdMap ComponentTypeId IntentStorage) (type : ComponentTypeId) :
    (storagesOf types storages).find? type = if type ∈ types then storages.find? type else none := by
  cases hf : storages.find? type with
  | none =>
      rw [ite_self]
      cases hf' : (storagesOf types storages).find? type with
      | none => rfl
      | some st =>
          have := OrdMap.mem_entries.mpr hf'
          rw [OrdMap.mem_entries.mp (List.mem_of_mem_filter this)] at hf
          cases hf
  | some st =>
      split
      · next hp =>
          exact OrdMap.mem_entries.mp
            (List.mem_filter.mpr ⟨OrdMap.mem_entries.mpr hf, decide_eq_true hp⟩)
      · next hp =>
          cases hf' : (storagesOf types storages).find? type with
          | none => rfl
          | some st' =>
              have hin := (List.mem_filter.mp (OrdMap.mem_entries.mpr hf')).2
              exact absurd (of_decide_eq_true hin) hp

/-! ## Inside a transaction -/

/-- The open transaction does not matter for a move. -/
theorem Moved.withTransaction {entries : List IntentLifecycleRecord} {r r' : IntentRegistry}
    (h : Moved entries r r') (transaction : Option IntentTransaction) :
    Moved entries { r with transaction } { r' with transaction } :=
  ⟨h.coherent.framed _ _ _ _, h.world, h.buffer, h.traces, h.pools, h.storages, rfl, h.capacity,
    h.wraps, fun h0 => ⟨(h.lineage h0).stores, (h.lineage h0).past, (h.lineage h0).fresh,
      (h.lineage h0).tidy, (h.lineage h0).terminated⟩⟩

/-- The cancelled intents, with their types, as the transaction notes them. -/
def cancelledOf (entries : List IntentLifecycleRecord) : List (ComponentTypeId × Intent) :=
  entries.filterMap fun entry =>
    if entry.created then none else some (entry.intent.target.type, entry.intent)

theorem mem_cancelledOf {entries : List IntentLifecycleRecord} {c : ComponentTypeId × Intent} :
    c ∈ cancelledOf entries ↔ ⟨false, c.2⟩ ∈ entries ∧ c.1 = c.2.target.type := by
  unfold cancelledOf
  rw [List.mem_filterMap]
  constructor
  · rintro ⟨⟨created, i⟩, hm, hc⟩
    cases created with
    | true => cases hc
    | false =>
        cases hc
        exact ⟨hm, rfl⟩
  · rintro ⟨hm, ht⟩
    refine ⟨_, hm, ?_⟩
    rw [← ht]
    rfl

/-- The transaction opened at `r₀`, once it has noted these entries. -/
def noted (r₀ : IntentRegistry) (entries : List IntentLifecycleRecord) : IntentTransaction :=
  { r₀.saved with cancelled := cancelledOf entries }

/-- No id has been handed out twice: the cancelled intents are gone, and what the storages keep
    of the others is what they kept. -/
structure Tracked (r₀ : IntentRegistry) (entries : List IntentLifecycleRecord)
    (r : IntentRegistry) : Prop where
  gone : ∀ i, ⟨false, i⟩ ∈ entries → r.record? i.id = none ∧ r.Past i.id
  emptied : ∀ i, ⟨false, i⟩ ∈ entries → r.stored i.target.type i.id = none
  nodup : ((cancelledOf entries).map fun c => c.2.id).Nodup
  origin : ∀ i, ⟨false, i⟩ ∈ entries → r₀.record? i.id = some i ∨
    (r₀.record? i.id = none ∧ r₀.stored i.target.type i.id = none)
  made : ∀ id i, r.record? id = some i → r₀.record? id = some i ∨
    (r₀.record? id = none ∧ r₀.stored i.target.type id = none)
  kept : ∀ type id, r.intentTypes.find? id ≠ some type →
    (∀ i, ⟨false, i⟩ ∈ entries → i.target.type = type → i.id ≠ id) →
    r.stored type id = r₀.stored type id

structure During (r₀ : IntentRegistry) (entries : List IntentLifecycleRecord)
    (r : IntentRegistry) : Prop where
  start : r₀.Coherent
  moved : Moved entries r₀ { r with transaction := r₀.transaction }
  transaction : r.transaction = some (r₀.noted entries)
  held : ∀ i, ⟨false, i⟩ ∈ entries → r.storages.contains i.target.type = true
  live : ∀ id i, r₀.record? id = some i → r.record? id = some i ∨ ⟨false, i⟩ ∈ entries
  tracked : r.slotWraps = 0 → Tracked r₀ entries r

theorem During.coherent {r₀ r : IntentRegistry} {entries : List IntentLifecycleRecord}
    (h : During r₀ entries r) : r.Coherent := h.moved.coherent.framed _ r.transaction _ _

/-- Two cancelled intents have different ids. -/
theorem Tracked.once {r₀ r : IntentRegistry} {entries : List IntentLifecycleRecord}
    (h : Tracked r₀ entries r) {i j : Intent} (hi : ⟨false, i⟩ ∈ entries)
    (hj : ⟨false, j⟩ ∈ entries) (hid : i.id = j.id) : i = j := by
  have hci : (i.target.type, i) ∈ cancelledOf entries := mem_cancelledOf.mpr ⟨hi, rfl⟩
  have hcj : (j.target.type, j) ∈ cancelledOf entries := mem_cancelledOf.mpr ⟨hj, rfl⟩
  exact congrArg Prod.snd (List.inj_on_of_nodup_map h.nodup hci hcj hid)

theorem During.begin {r₀ : IntentRegistry} (h : r₀.Coherent) :
    During r₀ [] { r₀ with transaction := some r₀.saved } :=
  ⟨h, .refl h, rfl, fun _ hm => absurd hm List.not_mem_nil, fun _ _ hr => Or.inl hr, fun _ =>
    ⟨fun _ hm => absurd hm List.not_mem_nil, fun _ hm => absurd hm List.not_mem_nil,
      List.nodup_nil, fun _ hm => absurd hm List.not_mem_nil, fun _ _ hr => Or.inl hr,
      fun _ _ _ _ => rfl⟩⟩

theorem contains_of_moved {l : List IntentLifecycleRecord} {r r' : IntentRegistry}
    (h : Moved l r r') {type : ComponentTypeId} (ht : r.storages.contains type = true) :
    r'.storages.contains type = true := by
  obtain ⟨st, hst⟩ := Option.isSome_iff_exists.mp ht
  obtain ⟨st', hst', _⟩ := h.storages type st hst
  rw [OrdMap.contains, hst']
  rfl

/-- The type of an id that stays live stays. -/
theorem Coherent.typed_of_record {r r' : IntentRegistry} (h : r.Coherent) (h' : r'.Coherent)
    {id : IntentId} (hr : r'.record? id = r.record? id) {type : ComponentTypeId}
    (ht : r.intentTypes.find? id = some type) : r'.intentTypes.find? id = some type := by
  obtain ⟨i, hi, _⟩ := h.indexed.typed id type ht
  have hrec : r.record? id = some i := by rw [record?_eq, ht, Option.bind_some, hi]
  have htype := h.indexed.type_eq hrec
  rw [ht] at htype
  rw [h'.indexed.type_eq (hr.trans hrec), htype]

/-- What changes no live intent. -/
theorem During.still {r₀ r r' : IntentRegistry} {entries : List IntentLifecycleRecord}
    (h : During r₀ entries r) (hm : Moved [] r r') : During r₀ entries r' := by
  have hrec : ∀ id, r'.record? id = r.record? id := congrFun hm.traces
  have hmoved := h.moved.trans (hm.withTransaction r₀.transaction)
  rw [List.append_nil] at hmoved
  refine ⟨h.start, hmoved, hm.transaction.trans h.transaction,
    fun i hi => contains_of_moved hm (h.held i hi), fun id i hi => ?_, fun h0 => ?_⟩
  · rw [hrec]
    exact h.live id i hi
  have hl := hm.lineage h0
  have hstored : ∀ t id, r'.stored t id = r.stored t id := congrFun₂ hl.stores
  have ht := h.tracked (Nat.le_zero.mp (h0 ▸ hm.wraps))
  refine ⟨fun i hi => ?_, fun i hi => ?_, ht.nodup, ht.origin, fun id i hi => ?_,
    fun type id htype hno => ?_⟩
  · rw [hrec]
    exact ⟨(ht.gone i hi).1, hl.past _ (ht.gone i hi).2⟩
  · rw [hstored]
    exact ht.emptied i hi
  · rw [hrec] at hi
    exact ht.made id i hi
  · rw [hstored]
    refine ht.kept type id (fun hc => htype ?_) hno
    exact h.coherent.typed_of_record hm.coherent (hrec id) hc

theorem During.refuse {r₀ r : IntentRegistry} {entries : List IntentLifecycleRecord}
    (h : During r₀ entries r) : During r₀ entries r.countCapacityError :=
  h.still (.refused h.coherent)

theorem mem_false_append_true {entries : List IntentLifecycleRecord} {i j : Intent} :
    (⟨false, j⟩ : IntentLifecycleRecord) ∈ entries ++ [⟨true, i⟩] ↔ ⟨false, j⟩ ∈ entries := by
  simp

theorem mem_false_append_false {entries : List IntentLifecycleRecord} {i j : Intent} :
    (⟨false, j⟩ : IntentLifecycleRecord) ∈ entries ++ [⟨false, i⟩] ↔
      ⟨false, j⟩ ∈ entries ∨ j = i := by
  simp

theorem cancelledOf_append_true (entries : List IntentLifecycleRecord) (i : Intent) :
    cancelledOf (entries ++ [⟨true, i⟩]) = cancelledOf entries := by
  unfold cancelledOf
  rw [List.filterMap_append]
  simp

theorem cancelledOf_append_false (entries : List IntentLifecycleRecord) (i : Intent) :
    cancelledOf (entries ++ [⟨false, i⟩]) = cancelledOf entries ++ [(i.target.type, i)] := by
  unfold cancelledOf
  rw [List.filterMap_append]
  simp

/-- A new intent, with an id that was not handed out before. -/
theorem Tracked.create {r₀ r r' : IntentRegistry} {entries : List IntentLifecycleRecord}
    (h : During r₀ entries r) {i : Intent} (hm : Moved [⟨true, i⟩] r r') (h0 : r'.slotWraps = 0)
    (hnew : ¬r.Past i.id) : Tracked r₀ (entries ++ [⟨true, i⟩]) r' := by
  have h0r : r.slotWraps = 0 := Nat.le_zero.mp (h0 ▸ hm.wraps)
  have ht := h.tracked h0r
  have hrec := hm.record?_created
  have hfresh : r.record? i.id = none := hm.traces.1
  have hl := hm.lineage h0
  have hvacant : r.stored i.target.type i.id = none := hl.stores.1 rfl
  have hstored : ∀ t id, r'.stored t id =
      if t = i.target.type ∧ id = i.id then some i else r.stored t id := congrFun₂ hl.stores.2
  -- what was known before is another intent
  have hne : ∀ id, r.Past id → id ≠ i.id := fun id hp hid => hnew (hid ▸ hp)
  have hpast₀ : ∀ id j, r₀.record? id = some j → r.Past id := fun id j hj =>
    (h.moved.lineage h0r).past id (h.start.past (Nat.le_zero.mp (h0r ▸ h.moved.wraps)) hj)
  have hmem : ∀ j, (⟨false, j⟩ : IntentLifecycleRecord) ∈ entries ++ [⟨true, i⟩] ↔
      ⟨false, j⟩ ∈ entries := fun _ => mem_false_append_true
  refine ⟨fun j hj => ?_, fun j hj => ?_, ?_, fun j hj => ?_, fun id j hj => ?_,
    fun type id htype hno => ?_⟩
  · obtain ⟨hg, hp⟩ := ht.gone j ((hmem j).mp hj)
    rw [hrec, if_neg (hne _ hp)]
    exact ⟨hg, hl.past _ hp⟩
  · have hj' := (hmem j).mp hj
    rw [hstored, if_neg fun hc => hne _ (ht.gone j hj').2 hc.2]
    exact ht.emptied j hj'
  · rw [cancelledOf_append_true]
    exact ht.nodup
  · exact ht.origin j ((hmem j).mp hj)
  · rw [hrec] at hj
    split at hj
    · next hid =>
        cases hj
        refine Or.inr ⟨?_, ?_⟩
        · cases hr : r₀.record? id with
          | none => rfl
          | some k => exact absurd hid (hne _ (hpast₀ id k hr))
        · rw [hid, ← ht.kept i.target.type i.id ?_ fun k hk _ hki => ?_]
          · exact hvacant
          · rw [h.coherent.indexed.absent hfresh]
            simp
          · exact hne _ (ht.gone k hk).2 hki
    · exact ht.made id j hj
  · rw [hstored]
    split
    · next hc =>
        refine absurd ?_ htype
        rw [hc.1, hc.2]
        exact hm.coherent.indexed.type_eq (by rw [hrec, if_pos rfl])
    · next hc =>
        refine ht.kept type id (fun hold => htype ?_) fun k hk => hno k ((hmem k).mpr hk)
        refine h.coherent.typed_of_record hm.coherent ?_ hold
        rw [hrec, if_neg]
        rintro rfl
        rw [h.coherent.indexed.absent hfresh] at hold
        cases hold

/-- A new intent. -/
theorem During.create {r₀ r r' : IntentRegistry} {entries : List IntentLifecycleRecord}
    (h : During r₀ entries r) {i : Intent} (hm : Moved [⟨true, i⟩] r r')
    (hnew : r'.slotWraps = 0 → ¬r.Past i.id) : During r₀ (entries ++ [⟨true, i⟩]) r' := by
  have hfresh : r.record? i.id = none := hm.traces.1
  have hsaved : r₀.noted (entries ++ [⟨true, i⟩]) = r₀.noted entries := by
    unfold noted
    rw [cancelledOf_append_true]
  refine ⟨h.start, h.moved.trans (hm.withTransaction r₀.transaction), ?_, fun j hj => ?_,
    fun id j hj => ?_, fun h0 => .create h hm h0 (hnew h0)⟩
  · rw [hsaved]
    exact hm.transaction.trans h.transaction
  · exact contains_of_moved hm (h.held j (mem_false_append_true.mp hj))
  · rw [mem_false_append_true]
    refine (h.live id j hj).imp (fun hl => ?_) fun hc => hc
    rw [hm.record?_created, if_neg]
    · exact hl
    · rintro rfl
      rw [hfresh] at hl
      cases hl

/-- One live intent less. -/
theorem Tracked.cancel {r₀ r r' : IntentRegistry} {entries : List IntentLifecycleRecord}
    (h : During r₀ entries r) {i : Intent} (hi : r.record? i.id = some i)
    (hm : Moved [⟨false, i⟩]
      { r with transaction := some (r₀.noted (entries ++ [⟨false, i⟩])) } r')
    (h0 : r'.slotWraps = 0) : Tracked r₀ (entries ++ [⟨false, i⟩]) r' := by
  have h0r : r.slotWraps = 0 := Nat.le_zero.mp (h0 ▸ hm.wraps)
  have ht := h.tracked h0r
  have hrec : ∀ id, r'.record? id = if id = i.id then none else r.record? id :=
    hm.record?_destroyed
  have hl := hm.lineage h0
  have hstored : ∀ t id, r'.stored t id =
      if t = i.target.type ∧ id = i.id then none else r.stored t id := congrFun₂ hl.stores.2
  obtain ⟨htype, hst, _⟩ := h.coherent.indexed.live hi
  have hmem : ∀ j, (⟨false, j⟩ : IntentLifecycleRecord) ∈ entries ++ [⟨false, i⟩] ↔
      ⟨false, j⟩ ∈ entries ∨ j = i := fun _ => mem_false_append_false
  -- what was cancelled before is another intent
  have hne : ∀ j, ⟨false, j⟩ ∈ entries → j.id ≠ i.id := by
    intro j hj hid
    have hg := (ht.gone j hj).1
    rw [hid, hi] at hg
    cases hg
  refine ⟨fun j hj => ?_, fun j hj => ?_, ?_, fun j hj => ?_, fun id j hj => ?_,
    fun type id hother hno => ?_⟩
  · rcases (hmem j).mp hj with hj | rfl
    · obtain ⟨hg, hp⟩ := ht.gone j hj
      rw [hrec, if_neg (hne j hj)]
      exact ⟨hg, hl.past _ hp⟩
    · rw [hrec, if_pos rfl]
      exact ⟨rfl, hl.past _ (h.coherent.past h0r hi)⟩
  · rw [hstored]
    split
    · rfl
    · next hself =>
        rcases (hmem j).mp hj with hj | rfl
        · exact ht.emptied j hj
        · exact absurd ⟨rfl, rfl⟩ hself
  · rw [cancelledOf_append_false, List.map_append]
    refine List.nodup_append'.mpr ⟨ht.nodup, List.nodup_singleton _, fun id hold hid => ?_⟩
    obtain ⟨c, hc, rfl⟩ := List.mem_map.mp hold
    exact hne c.2 (mem_cancelledOf.mp hc).1 (List.mem_singleton.mp hid)
  · rcases (hmem j).mp hj with hj | rfl
    · exact ht.origin j hj
    · exact ht.made _ _ hi
  · rw [hrec] at hj
    split at hj
    · cases hj
    · exact ht.made id j hj
  · have hself : ¬(type = i.target.type ∧ id = i.id) := fun hc =>
      hno i ((hmem i).mpr (Or.inr rfl)) hc.1.symm hc.2.symm
    rw [hstored, if_neg hself]
    refine ht.kept type id (fun hc => ?_) fun k hk => hno k ((hmem k).mpr (Or.inl hk))
    by_cases hid : id = i.id
    · rw [hid, htype] at hc
      exact hself ⟨(Option.some.inj hc).symm, hid⟩
    · refine hother (h.coherent.typed_of_record hm.coherent ?_ hc)
      rw [hrec, if_neg hid]

/-- One live intent less, which the transaction has noted. -/
theorem During.cancel {r₀ r r' : IntentRegistry} {entries : List IntentLifecycleRecord}
    (h : During r₀ entries r) {i : Intent} (hi : r.record? i.id = some i)
    (hm : Moved [⟨false, i⟩]
      { r with transaction := some (r₀.noted (entries ++ [⟨false, i⟩])) } r') :
    During r₀ (entries ++ [⟨false, i⟩]) r' := by
  have hheld : ∀ type, r.storages.contains type = true → r'.storages.contains type = true :=
    fun type ht => contains_of_moved hm ht
  refine ⟨h.start, h.moved.trans (hm.withTransaction r₀.transaction), hm.transaction,
    fun j hj => hheld _ ?_, fun id j hj => ?_, fun h0 => .cancel h hi hm h0⟩
  · rcases mem_false_append_false.mp hj with hj | rfl
    · exact h.held j hj
    · obtain ⟨storage, hs, _⟩ :=
        Option.bind_eq_some_iff.mp (h.coherent.indexed.live hi).2.1
      rw [OrdMap.contains, hs]
      rfl
  · rw [hm.record?_destroyed, mem_false_append_false]
    rcases h.live id j hj with hl | hc
    · by_cases hid : id = i.id
      · rw [hid, hi] at hl
        exact Or.inr (Or.inr (Option.some.inj hl).symm)
      · rw [if_neg hid]
        exact Or.inl hl
    · exact Or.inr (Or.inl hc)

/-- Creating through the transaction. -/
theorem During.wp_createIn {r₀ r : IntentRegistry} {entries : List IntentLifecycleRecord}
    (h : During r₀ entries r) {owner : BehaviorId} {type : ComponentType}
    {slot : ComponentSlotId} {lifetime : IntentLifetime} {priority : IntentPriority}
    {encodedValue : Value} {name : Bytes} {Q : IntentId → IntentRegistry → Prop}
    {E : Failure → IntentRegistry → Prop}
    (hok : ∀ id sequence r', During r₀ (entries ++ [⟨true, ⟨id, owner, ⟨type.id, slot⟩, lifetime,
      priority, sequence, encodedValue, name⟩⟩]) r' → Q id r')
    (herr : ∀ e r', During r₀ entries r' → E e r') :
    wp (createIn owner type slot lifetime priority encodedValue name) Q E r := by
  unfold createIn ensureActive
  rw [wp_bind, wp_bind, wp_get, if_neg (by simp [h.transaction]), wp_pure]
  refine wp_createImpl h.coherent (fun id sequence r' hnew hm _ => ?_) (fun e r' hm _ => ?_)
  · exact hok id sequence r' (h.create hm hnew)
  · exact herr e r' (h.still hm)

/-- Cancelling through a transaction, which notes the intent. -/
theorem wp_cancel {r : IntentRegistry} (h : r.Coherent) {t : IntentTransaction}
    (ht : r.transaction = some t) {id : IntentId} {Q : Unit → IntentRegistry → Prop}
    {E : Failure → IntentRegistry → Prop}
    (hok : ∀ i r', r.record? id = some i → r.lifecycleRecords.length < maximumBuffered →
      Moved [⟨false, i⟩] { r with transaction := some { t with
        cancelled := t.cancelled ++ [(i.target.type, i)] } } r' → Q () r')
    (hfull : ∀ e, maximumBuffered ≤ r.lifecycleRecords.length → E e r.countCapacityError)
    (herr : ∀ e, r.record? id = none → E e r) : wp (IntentRegistry.cancel id) Q E r := by
  unfold IntentRegistry.cancel ensureActive
  rw [wp_bind, wp_bind, wp_get, if_neg (by simp [ht]), wp_pure, wp_bind, wp_get, wp_bind, wp_lift]
  refine ⟨fun i hi => ?_, fun e he => herr e (intent_eq_error he)⟩
  have hrec := intent_eq_ok.mp hi
  have htype : r.typeOf id = .ok i.target.type := by
    unfold typeOf
    rw [h.indexed.type_eq hrec]
  rw [wp_bind, htype, wp_lift]
  refine ⟨fun type ht => ?_, fun e he => by cases he⟩
  cases ht
  rw [wp_bind]
  refine wp_recordDestroyed (fun hlen => ?_) (fun hlen => hfull _ hlen)
  -- the cancelled record is noted before it is taken out
  rw [wp_bind, wp_modify, ht, Option.map_some]
  have hself : r.record? i.id = some i := by rw [h.indexed.id_eq hrec]; exact hrec
  exact wp_forget (r := { r with transaction := some { t with
      cancelled := t.cancelled ++ [(i.target.type, i)] } })
    (h.framed _ _ _ _) hself fun r' hm _ => hok i r' hrec hlen hm

theorem During.wp_cancel {r₀ r : IntentRegistry} {entries : List IntentLifecycleRecord}
    (h : During r₀ entries r) {id : IntentId} {Q : Unit → IntentRegistry → Prop}
    {E : Failure → IntentRegistry → Prop}
    (hok : ∀ i r', r.record? id = some i → r.lifecycleRecords.length < maximumBuffered →
      During r₀ (entries ++ [⟨false, i⟩]) r' → Q () r')
    (herr : ∀ e r', (r.record? id = none ∨ maximumBuffered ≤ r.lifecycleRecords.length) →
      During r₀ entries r' → E e r') : wp (IntentRegistry.cancel id) Q E r := by
  refine IntentRegistry.wp_cancel h.coherent h.transaction (fun i r' hi hlen hm => ?_)
    (fun e hlen => herr e _ (Or.inr hlen) h.refuse) (fun e hi => herr e r (Or.inl hi) h)
  have hself : r.record? i.id = some i := by rw [h.coherent.indexed.id_eq hi]; exact hi
  have hnoted : ({ r₀.noted entries with
      cancelled := (r₀.noted entries).cancelled ++ [(i.target.type, i)] } : IntentTransaction) =
      r₀.noted (entries ++ [⟨false, i⟩]) := by
    unfold noted
    rw [cancelledOf_append_false]
  rw [hnoted] at hm
  exact hok i r' hi hlen (h.cancel hself hm)

/-! ## Rollback and commit -/

/-- The cancelled intents that were made in the transaction itself, and whose storage was there
    before: a rollback puts their records back too. -/
def strays (r₀ : IntentRegistry) (entries : List IntentLifecycleRecord) :
    List (ComponentTypeId × Intent) :=
  (cancelledOf entries).filter fun c =>
    !r₀.intentTypes.contains c.2.id && r₀.storages.contains c.1

/-- The records made in the transaction are taken out first. -/
def unmade (r₀ r : IntentRegistry) : OrdMap ComponentTypeId IntentStorage :=
  (r.intentTypes.entries.filter fun entry => !r₀.intentTypes.contains entry.1).foldl
    (fun storages entry => destroyStored storages entry.2 entry.1) r.storages

theorem During.rolledBackStorages_eq (r₀ r : IntentRegistry)
    (entries : List IntentLifecycleRecord) : r.rolledBackStorages (r₀.noted entries) =
      ((cancelledOf entries).foldlM restoreStored (unmade r₀ r)).map
        (storagesOf r₀.storages.keys) := rfl

theorem During.held_unmade {r₀ r : IntentRegistry} {entries : List IntentLifecycleRecord}
    (h : During r₀ entries r) (c : ComponentTypeId × Intent) (hc : c ∈ cancelledOf entries) :
    (unmade r₀ r).contains c.1 = true := by
  obtain ⟨hm, ht⟩ := mem_cancelledOf.mp hc
  have hheld := h.held c.2 hm
  rw [← ht] at hheld
  unfold OrdMap.contains at hheld ⊢
  rw [← Option.isSome_map (f := IntentStorage.component)]
  unfold unmade
  rw [(foldl_destroyStored _ r.storages).1, Option.isSome_map]
  exact hheld

theorem During.kept_unmade {r₀ r : IntentRegistry} {entries : List IntentLifecycleRecord}
    (h : During r₀ entries r) {type : ComponentTypeId} {st : IntentStorage}
    (hst : r₀.storages.find? type = some st) :
    ((unmade r₀ r).find? type).map IntentStorage.component = some st.component := by
  obtain ⟨st', hst', hcomp⟩ := h.moved.storages type st hst
  unfold unmade
  rw [(foldl_destroyStored _ r.storages).1]
  change r.storages.find? type = some st' at hst'
  rw [hst', Option.map_some, hcomp]

theorem storedIn_unmade (r₀ r : IntentRegistry) (type : ComponentTypeId) (id : IntentId) :
    storedIn (unmade r₀ r) type id =
      if r.intentTypes.find? id = some type ∧ r₀.intentTypes.contains id = false then none
      else r.stored type id := by
  unfold unmade
  rw [(foldl_destroyStored _ r.storages).2]
  congr 1
  rw [List.mem_filter, OrdMap.mem_entries, Bool.not_eq_true']

/-- The saved storages come back, with the strays, as long as no id has been used twice. -/
theorem During.storages {r₀ r : IntentRegistry} {entries : List IntentLifecycleRecord}
    (h : During r₀ entries r) (h0 : r.slotWraps = 0) :
    r.rolledBackStorages (r₀.noted entries) =
      some ((strays r₀ entries).foldl putBack r₀.storages) := by
  have hidx₀ := h.start.indexed
  have hidx := h.coherent.indexed
  have htracked := h.tracked h0
  have hin := h.held_unmade
  have hstored₁ := storedIn_unmade r₀ r
  rw [During.rolledBackStorages_eq, foldlM_restoreStored_eq _ _ hin htracked.nodup fun c hc => ?_,
    Option.map_some, Option.some.injEq]
  swap
  · -- the place of a cancelled record has stayed empty
    obtain ⟨hm, htype⟩ := mem_cancelledOf.mp hc
    have hempty := htracked.emptied c.2 hm
    rw [← htype] at hempty
    rw [hstored₁, hempty, ite_self]
  have honce : ∀ type i j, (type, i) ∈ cancelledOf entries → (type, j) ∈ cancelledOf entries →
      j.id = i.id → j = i := by
    intro type i j hi hj hid
    exact htracked.once (mem_cancelledOf.mp hj).1 (mem_cancelledOf.mp hi).1 hid
  have hstray : ∀ {c}, c ∈ strays r₀ entries ↔ c ∈ cancelledOf entries ∧
      r₀.intentTypes.contains c.2.id = false ∧ r₀.storages.contains c.1 = true := by
    intro c
    unfold strays
    rw [List.mem_filter, Bool.and_eq_true, Bool.not_eq_true']
  obtain ⟨hcomp₂, hrestored, hother⟩ := foldl_putBack (cancelledOf entries) (unmade r₀ r) hin
  obtain ⟨hcomp₃, hrestored₀, hother₀⟩ := foldl_putBack (strays r₀ entries) r₀.storages
    fun c hc => (hstray.mp hc).2.2
  have hnone : ∀ type, type ∉ r₀.storages.keys →
      ((strays r₀ entries).foldl putBack r₀.storages).find? type = none := by
    intro type hk
    have hc := hcomp₃ type
    cases hst : r₀.storages.find? type with
    | some st => exact absurd (OrdMap.mem_keys.mpr ⟨st, hst⟩) hk
    | none =>
        rw [hst] at hc
        exact Option.map_eq_none_iff.mp hc
  refine storages_ext (fun type => ?_) (fun type id => ?_)
  all_goals rw [find?_storagesOf]
  · by_cases hk : type ∈ r₀.storages.keys
    · obtain ⟨st, hst⟩ := OrdMap.mem_keys.mp hk
      rw [if_pos hk, hcomp₂, h.kept_unmade hst, hcomp₃, hst]
      rfl
    · rw [if_neg hk, hnone type hk]
  by_cases hk : type ∈ r₀.storages.keys
  swap
  · rw [if_neg hk, hnone type hk]
  rw [if_pos hk]
  show storedIn ((cancelledOf entries).foldl putBack (unmade r₀ r)) type id =
    storedIn ((strays r₀ entries).foldl putBack r₀.storages) type id
  have hcontains : r₀.storages.contains type = true := by
    obtain ⟨st, hst⟩ := OrdMap.mem_keys.mp hk
    rw [OrdMap.contains, hst]
    rfl
  by_cases hc : ∃ i, (type, i) ∈ cancelledOf entries ∧ i.id = id
  · obtain ⟨i, hi, hid⟩ := hc
    obtain ⟨hm, ht⟩ := mem_cancelledOf.mp hi
    rw [hrestored type id i hi hid fun j hj hj' => honce type i j hi hj (hj'.trans hid.symm)]
    symm
    rcases htracked.origin i hm with hlive | ⟨hlive, _⟩
    · -- cancelled from the start: the record is the one that was saved
      obtain ⟨htype, hst, _⟩ := hidx₀.live hlive
      rw [hother₀ type id fun j hj hj' => ?_]
      · dsimp only at ht
        rw [← hid, ht]
        exact hst
      · obtain ⟨hj, hno, _⟩ := hstray.mp hj
        dsimp only at hno
        rw [hj', ← hid, OrdMap.contains, htype] at hno
        cases hno
    · refine hrestored₀ type id i (hstray.mpr ⟨hi, ?_, hcontains⟩) hid fun j hj hj' => ?_
      · rw [OrdMap.contains, hidx₀.absent hlive]
        rfl
      · exact honce type i j hi (hstray.mp hj).1 (hj'.trans hid.symm)
  · have hno : ∀ i, (type, i) ∈ cancelledOf entries → i.id ≠ id := fun i hi hid => hc ⟨i, hi, hid⟩
    rw [hother type id hno, hother₀ type id fun i hi => hno i (hstray.mp hi).1, hstored₁]
    have hno' : ∀ i, ⟨false, i⟩ ∈ entries → i.target.type = type → i.id ≠ id := fun i hi ht =>
      hno i (mem_cancelledOf.mpr ⟨hi, ht.symm⟩)
    show (if _ then none else r.stored type id) = r₀.stored type id
    by_cases htype : r.intentTypes.find? id = some type
    · obtain ⟨i, hst, _, ht⟩ := hidx.typed id type htype
      have hrec : r.record? id = some i := by rw [record?_eq, htype, Option.bind_some, hst]
      rcases htracked.made id i hrec with hlive | ⟨hlive, hvacant⟩
      · -- live all the time
        obtain ⟨htype₀, hst₀, _⟩ := hidx₀.live hlive
        rw [if_neg, hst, ← ht, hst₀]
        rintro ⟨_, hno⟩
        rw [OrdMap.contains, htype₀] at hno
        cases hno
      · rw [ht] at hvacant
        rw [hvacant, if_pos]
        refine ⟨htype, ?_⟩
        rw [OrdMap.contains, hidx₀.absent hlive]
        rfl
    · rw [if_neg, htracked.kept type id htype hno']
      exact fun hc => htype hc.1

/-- What a rollback gives back, with these storages. -/
def reverted (r₀ r : IntentRegistry) (storages : OrdMap ComponentTypeId IntentStorage) :
    IntentRegistry :=
  { r₀ with
    storages
    capacityErrors := r.capacityErrors
    slotWraps := r.slotWraps
    terminated := r.terminated }

theorem During.rollback_eq {r₀ r : IntentRegistry} {entries : List IntentLifecycleRecord}
    (h : During r₀ entries r) (htx₀ : r₀.transaction = none) : r.rollback =
      match r.rolledBackStorages (r₀.noted entries) with
      | none =>
          { r with
            transaction := none
            terminated := true }
      | some storages => reverted r₀ r storages := by
  have hworld : r.worldId = r₀.worldId := h.moved.world
  have hbuffer : r.lifecycleRecords = r₀.lifecycleRecords ++ entries := h.moved.buffer
  unfold IntentRegistry.rollback
  rw [h.transaction]
  dsimp only
  cases r.rolledBackStorages (r₀.noted entries) with
  | none => rfl
  | some storages =>
      dsimp only
      rw [hworld, hbuffer]
      dsimp only [noted, saved, reverted]
      rw [List.take_left, ← htx₀]

/-- A rollback gives the registry back as it was, with the strays in its storages, and but for
    the refused records it counts. -/
theorem During.rollback {r₀ r : IntentRegistry} {entries : List IntentLifecycleRecord}
    (h : During r₀ entries r) (htx₀ : r₀.transaction = none) (h0 : r.slotWraps = 0) :
    r.rollback = { r₀ with
      storages := (strays r₀ entries).foldl putBack r₀.storages
      capacityErrors := r.capacityErrors } := by
  have hwraps : r.slotWraps = r₀.slotWraps := by
    have hle : r₀.slotWraps ≤ r.slotWraps := h.moved.wraps
    omega
  have hterminated : r.terminated = r₀.terminated := (h.moved.lineage h0).terminated
  rw [h.rollback_eq htx₀, h.storages h0]
  dsimp only [reverted]
  rw [hwraps, hterminated]

/-- The slot allocation is taken back, whatever became of it. -/
theorem During.rollback_reslotted {r₀ r : IntentRegistry} {entries : List IntentLifecycleRecord}
    (h : During r₀ entries r) (htx₀ : r₀.transaction = none) (h0 : r.slotWraps = 0)
    (available : List Nat) (next : UInt32) (wraps : Nat) :
    (r.reslotted available next wraps).rollback = { r₀ with
      storages := (strays r₀ entries).foldl putBack r₀.storages
      capacityErrors := r.capacityErrors
      slotWraps := wraps } := by
  have hback := h.rollback htx₀ h0
  have hstorages : (r.reslotted available next wraps).rolledBackStorages (r₀.noted entries) =
      some ((strays r₀ entries).foldl putBack r₀.storages) := h.storages h0
  unfold IntentRegistry.rollback at hback ⊢
  rw [h.transaction] at hback
  rw [show (r.reslotted available next wraps).transaction = _ from h.transaction]
  dsimp only at hback ⊢
  rw [h.storages h0] at hback
  rw [hstorages]
  exact congrArg (fun s => { s with slotWraps := wraps }) hback

/-- Whatever ids were used, the restored storages have the records of the saved intents. -/
theorem During.restored {r₀ r : IntentRegistry} {entries : List IntentLifecycleRecord}
    (h : During r₀ entries r) {storages : OrdMap ComponentTypeId IntentStorage}
    (hs : r.rolledBackStorages (r₀.noted entries) = some storages) {id : IntentId}
    {type : ComponentTypeId} (ht : r₀.intentTypes.find? id = some type) :
    storedIn storages type id = r₀.stored type id := by
  rw [During.rolledBackStorages_eq] at hs
  obtain ⟨restored, hrestored, rfl⟩ := Option.map_eq_some_iff.mp hs
  obtain ⟨_, hold, hnew⟩ := foldlM_restoreStored _ h.held_unmade hrestored
  obtain ⟨i, hi, hid, rfl⟩ := h.start.indexed.typed id type ht
  have hrec : r₀.record? id = some i := by rw [record?_eq, ht, Option.bind_some, hi]
  have hkeys : i.target.type ∈ r₀.storages.keys := by
    obtain ⟨st, hst, _⟩ := Option.bind_eq_some_iff.mp hi
    exact OrdMap.mem_keys.mpr ⟨st, hst⟩
  have hback : storedIn restored i.target.type id = some i := by
    rcases h.live id i hrec with hlive | hcancelled
    · refine hold _ _ _ ?_
      rw [storedIn_unmade, if_neg]
      · exact (h.coherent.indexed.live hlive).2.1
      · rintro ⟨_, hno⟩
        rw [OrdMap.contains, ht] at hno
        cases hno
    · have := hnew (i.target.type, i) (mem_cancelledOf.mpr ⟨hcancelled, rfl⟩)
      rwa [hid] at this
  rw [hi, ← hback]
  unfold storedIn
  rw [find?_storagesOf, if_pos hkeys]

/-- A rollback leads to a coherent registry. -/
theorem During.coherent_rollback {r₀ r : IntentRegistry} {entries : List IntentLifecycleRecord}
    (h : During r₀ entries r) (htx₀ : r₀.transaction = none) :
    r.rollback.Coherent ∧ r.rollback.transaction = none := by
  rw [h.rollback_eq htx₀]
  cases hs : r.rolledBackStorages (r₀.noted entries) with
  | none => exact ⟨h.coherent.framed _ _ _ _, rfl⟩
  | some storages =>
      exact ⟨h.start.restocked (fun _ _ ht => h.restored hs ht) (le_refl _) h.moved.wraps _ _ _ _,
        htx₀⟩

/-- A rollback that leaves no stray behind is no move of the live intents; where it ends the
    process, the transaction stays a move. -/
theorem During.moved_rollback {r₀ r : IntentRegistry} {entries : List IntentLifecycleRecord}
    (h : During r₀ entries r) (htx₀ : r₀.transaction = none) (hstrays : strays r₀ entries = []) :
    Moved [] r₀ r.rollback ∨ Moved entries r₀ r.rollback := by
  have hm := h.moved
  cases hs : r.rolledBackStorages (r₀.noted entries) with
  | none =>
      have heq := h.rollback_eq htx₀
      rw [hs] at heq
      rw [heq]
      refine Or.inr ⟨h.coherent.framed _ _ _ _, hm.world, hm.buffer, hm.traces, hm.pools,
        hm.storages, htx₀.symm, hm.capacity, hm.wraps, fun h0 => ?_⟩
      -- nothing is in the way of a cancelled record
      rw [h.storages h0] at hs
      cases hs
  | some storages =>
      have hcoherent := (h.coherent_rollback htx₀).1
      have heq := h.rollback_eq htx₀
      rw [hs] at heq
      have hstored : ∀ id type, r₀.intentTypes.find? id = some type →
          storedIn storages type id = r₀.stored type id := fun _ _ ht => h.restored hs ht
      have hrec : (reverted r₀ r storages).record? = r₀.record? :=
        funext (record?_restocked (r := r₀) rfl hstored)
      refine Or.inl ⟨hcoherent, by rw [heq]; rfl, by rw [heq]; exact (List.append_nil _).symm,
        by rw [heq]; exact hrec, fun b => by rw [heq]; rfl, fun type st hst => ?_,
        by rw [heq]; rfl, by rw [heq]; exact hm.capacity, by rw [heq]; exact hm.wraps,
        fun h0 => ?_⟩
      · rw [During.rolledBackStorages_eq] at hs
        obtain ⟨restored, hrestored, rfl⟩ := Option.map_eq_some_iff.mp hs
        have hcomp := (foldlM_restoreStored _ h.held_unmade hrestored).1 type
        rw [h.kept_unmade hst] at hcomp
        rw [heq]
        show ∃ st', (storagesOf r₀.storages.keys restored).find? type = some st' ∧ _
        rw [find?_storagesOf, if_pos (OrdMap.mem_keys.mpr ⟨st, hst⟩)]
        exact Option.map_eq_some_iff.mp hcomp
      · rw [heq] at h0
        rw [h.rollback htx₀ h0, hstrays]
        exact ⟨rfl, fun _ hp => hp, fun _ _ hr _ => hr, fun h => h, rfl⟩

/-- When only intents of the start were cancelled, nothing is left behind. -/
theorem strays_eq_nil {r₀ : IntentRegistry} {entries : List IntentLifecycleRecord}
    (h : ∀ i, ⟨false, i⟩ ∈ entries → r₀.intentTypes.contains i.id = true ∨
      r₀.storages.contains i.target.type = false) : strays r₀ entries = [] := by
  unfold strays
  rw [List.filter_eq_nil_iff]
  intro c hc
  obtain ⟨hm, ht⟩ := mem_cancelledOf.mp hc
  rcases h c.2 hm with hlive | hnone
  · simp [hlive]
  · simp [ht, hnone]

/-- A commit closes the transaction. -/
theorem During.wp_commit {r₀ r : IntentRegistry} {entries : List IntentLifecycleRecord}
    (h : During r₀ entries r) (htx₀ : r₀.transaction = none) {Q : Unit → IntentRegistry → Prop}
    {E : Failure → IntentRegistry → Prop}
    (hok : Moved entries r₀ { r with transaction := none } →
      Q () { r with transaction := none }) : wp commit Q E r := by
  unfold commit ensureActive
  rw [wp_bind, wp_bind, wp_get, if_neg (by simp [h.transaction]), wp_pure, wp_modify]
  have hmoved := h.moved
  rw [htx₀] at hmoved
  exact hok hmoved

end IntentRegistry

end LiquidLayer
