/-
  The indexes of `IntentRegistry` and its ids.

  `record? r id`: the live intent with this id. `Indexed r`: the type index, the storages, the
  owner and name indexes speak about the same intents, and the target index speaks about no
  others. `Tidy r`: the storages keep nothing else. `Filled index`: the target index keeps no
  empty set. `inserted` and `removed` are the changes the programs make to the indexes, one
  intent at a time.
-/
import LiquidLayer.World.Intents

namespace LiquidLayer

namespace IntentRegistry

/-! ## Lookups -/

def record? (r : IntentRegistry) (id : IntentId) : Option Intent :=
  (r.intentTypes.find? id).bind fun type =>
    (r.storages.find? type).bind fun storage => storage.records.find? id

def ownedBy (r : IntentRegistry) (owner : BehaviorId) (id : IntentId) : Bool :=
  (r.byOwner.find? owner).any fun ids => ids.contains id

theorem intent_eq_ok {r : IntentRegistry} {id : IntentId} {i : Intent} :
    r.intent id = .ok i ↔ r.record? id = some i := by
  unfold intent record?
  cases r.intentTypes.find? id with
  | none => simp
  | some type =>
      cases hs : r.storages.find? type with
      | none => simp [hs]
      | some storage => cases hr : storage.records.find? id <;> simp [hs, hr]

theorem targeted_insertTarget (index : IntentTargetIndex) (target target' : ComponentTarget)
    (id id' : IntentId) : targeted (insertTarget index target id) target' id' =
      (decide (target' = target ∧ id' = id) || targeted index target' id') := by
  obtain ⟨type, slot⟩ := target
  obtain ⟨type', slot'⟩ := target'
  unfold targeted insertTarget
  dsimp only
  rw [OrdMap.find?_insert]
  by_cases ht : type' = type
  · subst ht
    rw [if_pos rfl, Option.bind_some, OrdMap.find?_insert]
    by_cases hs : slot' = slot
    · subst hs
      rw [if_pos rfl, Option.any_some, OrdMap.contains, OrdMap.find?_insert]
      by_cases hi : id' = id
      · simp [hi]
      · simp only [hi, if_false, and_false, decide_false, Bool.false_or]
        cases h1 : index.find? type' with
        | none => rfl
        | some slots =>
            cases h2 : slots.find? slot' with
            | none => simp [h2]
            | some ids => simp [h2, OrdMap.contains]
    · rw [if_neg hs]
      have hne : ¬((⟨type', slot'⟩ : ComponentTarget) = ⟨type', slot⟩ ∧ id' = id) := by
        rintro ⟨h, _⟩
        exact hs (ComponentTarget.mk.inj h).2
      rw [decide_eq_false hne, Bool.false_or]
      cases h1 : index.find? type' <;> simp
  · rw [if_neg ht]
    have hne : ¬((⟨type', slot'⟩ : ComponentTarget) = ⟨type, slot⟩ ∧ id' = id) := by
      rintro ⟨h, _⟩
      exact ht (ComponentTarget.mk.inj h).1
    rw [decide_eq_false hne, Bool.false_or]

theorem find?_eq_none_of_isEmpty {K V : Type} [LinearOrder K] {m : OrdMap K V}
    (h : m.entries.isEmpty = true) (k : K) : m.find? k = none := by
  unfold OrdMap.find?
  rw [List.isEmpty_iff.mp h]
  rfl

theorem contains_erase {K V : Type} [LinearOrder K] (m : OrdMap K V) (j k : K) :
    (m.erase k).contains j = (m.contains j && !decide (j = k)) := by
  unfold OrdMap.contains
  rw [OrdMap.find?_erase]
  by_cases h : j = k <;> simp [h]

theorem contains_insert {K V : Type} [LinearOrder K] (m : OrdMap K V) (j k : K) (v : V) :
    (m.insert k v).contains j = (m.contains j || decide (j = k)) := by
  unfold OrdMap.contains
  rw [OrdMap.find?_insert]
  by_cases h : j = k <;> simp [h]

theorem contains_eraseSlot (slots : OrdMap ComponentSlotId IntentSet)
    (slot s : ComponentSlotId) (id j : IntentId) :
    (((eraseSlot slots slot id).find? s).any fun ids => ids.contains j) =
      (((slots.find? s).any fun ids => ids.contains j) && !decide (s = slot ∧ j = id)) := by
  unfold eraseSlot
  cases hf : slots.find? slot with
  | none =>
      by_cases hs : s = slot
      · subst hs
        simp [hf]
      · simp [hs]
  | some ids =>
      dsimp only
      have herase := contains_erase ids j id
      by_cases hs : s = slot
      · subst hs
        split
        · next hempty =>
            rw [OrdMap.contains, find?_eq_none_of_isEmpty hempty] at herase
            rw [OrdMap.find?_erase, if_pos rfl, hf]
            by_cases hj : j = id
            · simp [hj]
            · simpa [hj] using herase
        · rw [OrdMap.find?_insert, if_pos rfl, hf]
          by_cases hj : j = id <;> simpa [hj] using herase
      · simp only [hs, false_and, decide_false, Bool.not_false, Bool.and_true]
        split
        · rw [OrdMap.find?_erase, if_neg hs]
        · rw [OrdMap.find?_insert, if_neg hs]

theorem targeted_eraseTarget (index : IntentTargetIndex) (target target' : ComponentTarget)
    (id id' : IntentId) : targeted (eraseTarget index target id) target' id' =
      (targeted index target' id' && !decide (target' = target ∧ id' = id)) := by
  obtain ⟨type, slot⟩ := target
  obtain ⟨type', slot'⟩ := target'
  unfold targeted eraseTarget
  dsimp only
  by_cases ht : type' = type
  swap
  · have hne : ¬((⟨type', slot'⟩ : ComponentTarget) = ⟨type, slot⟩ ∧ id' = id) := by
      rintro ⟨h, _⟩
      exact ht (ComponentTarget.mk.inj h).1
    rw [decide_eq_false hne, Bool.not_false, Bool.and_true]
    split
    · rfl
    · split
      · rw [OrdMap.find?_erase, if_neg ht]
      · rw [OrdMap.find?_insert, if_neg ht]
  subst ht
  cases h1 : index.find? type' with
  | none => simp [h1]
  | some slots =>
      dsimp only
      have hslots := contains_eraseSlot slots slot slot' id id'
      rw [Option.bind_some]
      simp only [ComponentTarget.mk.injEq, true_and]
      rw [← hslots]
      split
      · next hempty =>
          rw [OrdMap.find?_erase, if_pos rfl, find?_eq_none_of_isEmpty hempty]
          rfl
      · rw [OrdMap.find?_insert, if_pos rfl, Option.bind_some]

/-! ## Coherence of the indexes -/

/-- The record under an id in the storage of a type. -/
def storedIn (storages : OrdMap ComponentTypeId IntentStorage) (type : ComponentTypeId)
    (id : IntentId) : Option Intent :=
  (storages.find? type).bind fun storage => storage.records.find? id

/-- The record a typed storage keeps under an id. -/
def stored (r : IntentRegistry) (type : ComponentTypeId) (id : IntentId) : Option Intent :=
  (r.storages.find? type).bind fun storage => storage.records.find? id

theorem record?_eq (r : IntentRegistry) (id : IntentId) :
    r.record? id = (r.intentTypes.find? id).bind fun type => r.stored type id := rfl

/-- A storage may keep more than the live intents: a rollback can leave a record behind. The
    target index may keep less: a create that is given the id of a live intent takes it out. -/
structure Indexed (r : IntentRegistry) : Prop where
  typed : ∀ id type, r.intentTypes.find? id = some type →
    ∃ i, r.stored type id = some i ∧ i.id = id ∧ i.target.type = type
  owner : ∀ b id, r.ownedBy b id = true ↔ ∃ i, r.record? id = some i ∧ i.owner = b
  target : ∀ t id, targeted r.byTarget t id = true → ∃ i, r.record? id = some i ∧ i.target = t
  name : ∀ b n id, r.intentNamed b n = some id ↔
    n ≠ [] ∧ ∃ i, r.record? id = some i ∧ i.owner = b ∧ i.name = n
  pools : ∀ b, r.byOwner.contains b = true → r.byOwnerName.contains b = true

/-- The storages keep live intents only. -/
def Tidy (r : IntentRegistry) : Prop :=
  ∀ type id i, r.stored type id = some i → r.intentTypes.find? id = some type

/-- What the indexes say about the id of a live intent. -/
theorem Indexed.live {r : IntentRegistry} (h : r.Indexed) {id : IntentId} {i : Intent}
    (hr : r.record? id = some i) :
    r.intentTypes.find? id = some i.target.type ∧ r.stored i.target.type id = some i ∧
      i.id = id := by
  rw [record?_eq] at hr
  obtain ⟨type, ht, hs⟩ := Option.bind_eq_some_iff.mp hr
  obtain ⟨j, hj, hid, htype⟩ := h.typed id type ht
  rw [hs] at hj
  cases hj
  rw [htype]
  exact ⟨ht, hs, hid⟩

theorem Indexed.id_eq {r : IntentRegistry} (h : r.Indexed) {id : IntentId} {i : Intent}
    (hr : r.record? id = some i) : i.id = id := (h.live hr).2.2

theorem Indexed.type_eq {r : IntentRegistry} (h : r.Indexed) {id : IntentId} {i : Intent}
    (hr : r.record? id = some i) : r.intentTypes.find? id = some i.target.type := (h.live hr).1

/-- An id without a record has no type. -/
theorem Indexed.absent {r : IntentRegistry} (h : r.Indexed) {id : IntentId}
    (hr : r.record? id = none) : r.intentTypes.find? id = none := by
  cases ht : r.intentTypes.find? id with
  | none => rfl
  | some type =>
      obtain ⟨i, hi, _⟩ := h.typed id type ht
      rw [record?_eq, ht, Option.bind_some, hi] at hr
      cases hr

/-! ### Empty sets -/

def Filled (index : IntentTargetIndex) : Prop :=
  ∀ type slots, index.find? type = some slots → slots.entries.isEmpty = false ∧
    ∀ slot ids, slots.find? slot = some ids → ids.entries.isEmpty = false

theorem isEmpty_insert {K V : Type} [LinearOrder K] (m : OrdMap K V) (k : K) (v : V) :
    (m.insert k v).entries.isEmpty = false := by
  cases he : (m.insert k v).entries.isEmpty with
  | false => rfl
  | true =>
      have := find?_eq_none_of_isEmpty he k
      rw [OrdMap.find?_insert_self] at this
      cases this

theorem Filled.insertTarget {index : IntentTargetIndex} (h : Filled index)
    (target : ComponentTarget) (id : IntentId) : Filled (insertTarget index target id) := by
  intro type slots hs
  unfold IntentRegistry.insertTarget at hs
  dsimp only at hs
  rw [OrdMap.find?_insert] at hs
  split at hs
  · cases hs
    refine ⟨isEmpty_insert _ _ _, fun slot ids hids => ?_⟩
    rw [OrdMap.find?_insert] at hids
    split at hids
    · cases hids
      exact isEmpty_insert _ _ _
    · cases hf : index.find? target.type with
      | none =>
          rw [hf] at hids
          cases hids
      | some slots =>
          rw [hf] at hids
          exact (h _ slots hf).2 slot ids hids
  · exact h type slots hs

theorem Filled.eraseSlot {slots : OrdMap ComponentSlotId IntentSet}
    (h : ∀ slot ids, slots.find? slot = some ids → ids.entries.isEmpty = false)
    (slot : ComponentSlotId) (id : IntentId) : ∀ s ids,
    (eraseSlot slots slot id).find? s = some ids → ids.entries.isEmpty = false := by
  intro s ids hf
  unfold IntentRegistry.eraseSlot at hf
  cases hslot : slots.find? slot with
  | none =>
      rw [hslot] at hf
      exact h s ids hf
  | some old =>
      rw [hslot] at hf
      dsimp only at hf
      split at hf
      · rw [OrdMap.find?_erase] at hf
        split at hf
        · cases hf
        · exact h s ids hf
      · next hne =>
          rw [OrdMap.find?_insert] at hf
          split at hf
          · cases hf
            simpa using hne
          · exact h s ids hf

theorem Filled.eraseTarget {index : IntentTargetIndex} (h : Filled index)
    (target : ComponentTarget) (id : IntentId) : Filled (eraseTarget index target id) := by
  unfold IntentRegistry.eraseTarget
  cases hf : index.find? target.type with
  | none => exact h
  | some slots =>
      dsimp only
      split
      · intro type slots' hs
        rw [OrdMap.find?_erase] at hs
        split at hs
        · cases hs
        · exact h type slots' hs
      · next hne =>
          intro type slots' hs
          rw [OrdMap.find?_insert] at hs
          split at hs
          · cases hs
            exact ⟨by simpa using hne, Filled.eraseSlot (h _ slots hf).2 target.slot id⟩
          · exact h type slots' hs

/-- Erasing an id that is not there. -/
theorem Filled.eraseTarget_absent {index : IntentTargetIndex} (h : Filled index)
    {target : ComponentTarget} {id : IntentId} (hid : targeted index target id = false) :
    IntentRegistry.eraseTarget index target id = index := by
  unfold IntentRegistry.eraseTarget
  unfold targeted at hid
  cases hf : index.find? target.type with
  | none => rfl
  | some slots =>
      obtain ⟨hne, hids⟩ := h _ slots hf
      have hslots : IntentRegistry.eraseSlot slots target.slot id = slots := by
        unfold IntentRegistry.eraseSlot
        cases hs : slots.find? target.slot with
        | none => rfl
        | some ids =>
            rw [hf, Option.bind_some, hs, Option.any_some] at hid
            have hsame : ids.erase id = ids := by
              refine OrdMap.ext_find? fun j => ?_
              rw [OrdMap.find?_erase]
              split
              · next hj =>
                  rw [OrdMap.contains, Option.isSome_eq_false_iff,
                    Option.isNone_iff_eq_none] at hid
                  rw [hj, hid]
              · rfl
            dsimp only
            rw [hsame, if_neg (by simp [hids _ ids hs])]
            refine OrdMap.ext_find? fun s => ?_
            rw [OrdMap.find?_insert]
            split
            · next hs' => rw [hs', hs]
            · rfl
      dsimp only
      rw [hslots, if_neg (by simp [hne])]
      refine OrdMap.ext_find? fun t => ?_
      rw [OrdMap.find?_insert]
      split
      · next ht => rw [ht, hf]
      · rfl

/-! ### One intent more -/

/-- The index changes of `create_impl`. -/
def inserted (r : IntentRegistry) (i : Intent) : IntentRegistry :=
  { r with
    storages := r.storages.modify i.target.type fun storage =>
      { storage with records := storage.records.insert i.id i }
    intentTypes := r.intentTypes.insert i.id i.target.type
    byOwner := r.byOwner.modify i.owner fun ids => ids.insert i.id ()
    byOwnerName := if i.name.isEmpty then r.byOwnerName
      else r.byOwnerName.modify i.owner fun names => names.insert i.name i.id
    byTarget := insertTarget r.byTarget i.target i.id }

theorem stored_inserted {r : IntentRegistry} {i : Intent}
    (hs : r.storages.contains i.target.type = true) (type : ComponentTypeId) (id : IntentId) :
    (r.inserted i).stored type id =
      if type = i.target.type ∧ id = i.id then some i else r.stored type id := by
  obtain ⟨storage, hstorage⟩ := Option.isSome_iff_exists.mp hs
  unfold stored inserted
  dsimp only
  rw [OrdMap.find?_modify]
  by_cases ht : type = i.target.type
  · subst ht
    rw [if_pos rfl, hstorage, Option.map_some, Option.bind_some, Option.bind_some,
      OrdMap.find?_insert]
    by_cases hid : id = i.id <;> simp [hid]
  · rw [if_neg ht, if_neg (fun hc => ht hc.1)]

theorem record?_inserted {r : IntentRegistry} {i : Intent}
    (hs : r.storages.contains i.target.type = true) (id : IntentId) :
    (r.inserted i).record? id = if id = i.id then some i else r.record? id := by
  rw [record?_eq, record?_eq]
  show ((r.intentTypes.insert i.id i.target.type).find? id).bind _ = _
  rw [OrdMap.find?_insert]
  by_cases hid : id = i.id
  · rw [if_pos hid, if_pos hid, Option.bind_some, stored_inserted hs, if_pos ⟨rfl, hid⟩]
  · rw [if_neg hid, if_neg hid]
    congr 1
    funext type
    rw [stored_inserted hs, if_neg (fun hc => hid hc.2)]

theorem ownedBy_inserted {r : IntentRegistry} {i : Intent}
    (hpool : r.byOwner.contains i.owner = true) (b : BehaviorId) (id : IntentId) :
    (r.inserted i).ownedBy b id = (r.ownedBy b id || decide (b = i.owner ∧ id = i.id)) := by
  obtain ⟨ids, hids⟩ := Option.isSome_iff_exists.mp hpool
  unfold ownedBy inserted
  dsimp only
  rw [OrdMap.find?_modify]
  by_cases hb : b = i.owner
  · subst hb
    rw [if_pos rfl, hids, Option.map_some, Option.any_some, Option.any_some, contains_insert]
    by_cases hid : id = i.id <;> simp [hid]
  · simp [hb]

theorem intentNamed_inserted {r : IntentRegistry} {i : Intent}
    (hpool : r.byOwnerName.contains i.owner = true) (b : BehaviorId) (n : Bytes) :
    (r.inserted i).intentNamed b n =
      if b = i.owner ∧ n = i.name ∧ i.name ≠ [] then some i.id else r.intentNamed b n := by
  obtain ⟨names, hnames⟩ := Option.isSome_iff_exists.mp hpool
  unfold intentNamed inserted
  dsimp only
  by_cases hempty : i.name = []
  · simp [hempty]
  · rw [if_neg (by simpa using hempty), OrdMap.find?_modify]
    by_cases hb : b = i.owner
    · subst hb
      rw [if_pos rfl, hnames, Option.map_some, Option.bind_some, Option.bind_some,
        OrdMap.find?_insert]
      by_cases hn : n = i.name <;> simp [hn, hempty]
    · simp [hb]

/-- What `create_impl` has checked of the intent it is about to index. -/
structure Insertable (r : IntentRegistry) (i : Intent) : Prop where
  fresh : r.record? i.id = none
  storage : r.storages.contains i.target.type = true
  pool : r.byOwner.contains i.owner = true
  unnamed : i.name = [] ∨ r.intentNamed i.owner i.name = none

theorem Indexed.inserted {r : IntentRegistry} (h : r.Indexed) {i : Intent}
    (hi : r.Insertable i) : (r.inserted i).Indexed := by
  have hrec := record?_inserted hi.storage
  -- the live records are the old ones and the new one
  have hlive : ∀ (p : Intent → Prop) id, (∃ j, (r.inserted i).record? id = some j ∧ p j) ↔
      (id = i.id ∧ p i) ∨ ∃ j, r.record? id = some j ∧ p j := by
    intro p id
    rw [hrec]
    by_cases hid : id = i.id
    · rw [if_pos hid, hid, hi.fresh]
      simp
    · simp [hid]
  refine ⟨fun id type ht => ?_, fun b id => ?_, fun t id => ?_, fun b n id => ?_, fun b hb => ?_⟩
  · rw [stored_inserted hi.storage]
    change (r.intentTypes.insert i.id i.target.type).find? id = some type at ht
    rw [OrdMap.find?_insert] at ht
    split at ht
    · next hid =>
        cases ht
        exact ⟨i, if_pos ⟨rfl, hid⟩, hid.symm, rfl⟩
    · next hid =>
        obtain ⟨j, hj, hrest⟩ := h.typed id type ht
        exact ⟨j, by rw [if_neg (fun hc => hid hc.2), hj], hrest⟩
  · rw [ownedBy_inserted hi.pool, hlive, Bool.or_eq_true, h.owner, decide_eq_true_eq, or_comm,
      and_comm, eq_comm (a := b)]
  · show targeted (insertTarget r.byTarget i.target i.id) t id = true → _
    rw [targeted_insertTarget, hlive, Bool.or_eq_true, decide_eq_true_eq]
    rintro (⟨rfl, hid⟩ | htargeted)
    · exact Or.inl ⟨hid, rfl⟩
    · exact Or.inr (h.target t id htargeted)
  · rw [intentNamed_inserted (h.pools _ hi.pool), hlive]
    by_cases hc : b = i.owner ∧ n = i.name ∧ i.name ≠ []
    · obtain ⟨rfl, rfl, hne⟩ := hc
      have hnone := hi.unnamed.resolve_left hne
      have hold : ¬∃ j, r.record? id = some j ∧ j.owner = i.owner ∧ j.name = i.name := by
        intro hex
        rw [(h.name i.owner i.name id).mpr ⟨hne, hex⟩] at hnone
        cases hnone
      simp only [and_self, hne, ne_eq, not_false_eq_true, if_true, Option.some.injEq, hold,
        or_false, and_true, true_and]
      exact eq_comm
    · rw [if_neg hc, h.name]
      constructor
      · rintro ⟨hne, hex⟩
        exact ⟨hne, Or.inr hex⟩
      · rintro ⟨hne, ⟨_, ho, hn⟩ | hex⟩
        · exact absurd ⟨ho.symm, hn.symm, hn ▸ hne⟩ hc
        · exact ⟨hne, hex⟩
  · have hb' : r.byOwner.contains b = true := by
      unfold IntentRegistry.inserted at hb
      dsimp only at hb
      rw [OrdMap.contains, OrdMap.find?_modify] at hb
      split at hb
      · next he =>
          rw [he]
          exact hi.pool
      · exact hb
    have hp := h.pools b hb'
    unfold IntentRegistry.inserted
    dsimp only
    split
    · exact hp
    · rw [OrdMap.contains, OrdMap.find?_modify]
      split
      · next he =>
          rw [Option.isSome_map, ← he]
          exact hp
      · exact hp

/-! ### One intent less -/

/-- The index changes of `destroy` and `cancel`. -/
def removed (r : IntentRegistry) (i : Intent) : IntentRegistry :=
  { r.eraseFromIndexes i with
    storages := destroyStored r.storages i.target.type i.id
    intentTypes := r.intentTypes.erase i.id }

theorem stored_removed (r : IntentRegistry) (i : Intent) (type : ComponentTypeId)
    (id : IntentId) : (r.removed i).stored type id =
      if type = i.target.type ∧ id = i.id then none else r.stored type id := by
  unfold stored removed destroyStored
  dsimp only
  rw [OrdMap.find?_modify]
  by_cases ht : type = i.target.type
  · subst ht
    rw [if_pos rfl]
    cases r.storages.find? i.target.type with
    | none => simp
    | some storage =>
        rw [Option.map_some, Option.bind_some, Option.bind_some, OrdMap.find?_erase]
        by_cases hid : id = i.id <;> simp [hid]
  · rw [if_neg ht, if_neg (fun hc => ht hc.1)]

theorem record?_removed (r : IntentRegistry) (i : Intent) (id : IntentId) :
    (r.removed i).record? id = if id = i.id then none else r.record? id := by
  rw [record?_eq, record?_eq]
  show ((r.intentTypes.erase i.id).find? id).bind _ = _
  rw [OrdMap.find?_erase]
  by_cases hid : id = i.id
  · rw [if_pos hid, if_pos hid]
    rfl
  · rw [if_neg hid, if_neg hid]
    congr 1
    funext type
    rw [stored_removed, if_neg (fun hc => hid hc.2)]

theorem ownedBy_removed (r : IntentRegistry) (i : Intent) (b : BehaviorId) (id : IntentId) :
    (r.removed i).ownedBy b id = (r.ownedBy b id && !decide (b = i.owner ∧ id = i.id)) := by
  unfold ownedBy removed eraseFromIndexes
  dsimp only
  rw [OrdMap.find?_modify]
  by_cases hb : b = i.owner
  · subst hb
    rw [if_pos rfl]
    cases r.byOwner.find? i.owner with
    | none => rfl
    | some ids =>
        rw [Option.map_some, Option.any_some, Option.any_some, contains_erase]
        by_cases hid : id = i.id <;> simp [hid]
  · simp [hb]

theorem intentNamed_removed (r : IntentRegistry) (i : Intent) (b : BehaviorId) (n : Bytes) :
    (r.removed i).intentNamed b n =
      if b = i.owner ∧ n = i.name ∧ i.name ≠ [] then none else r.intentNamed b n := by
  unfold intentNamed removed eraseFromIndexes
  dsimp only
  by_cases hempty : i.name = []
  · simp [hempty]
  · rw [if_neg (by simpa using hempty), OrdMap.find?_modify]
    by_cases hb : b = i.owner
    · subst hb
      rw [if_pos rfl]
      cases r.byOwnerName.find? i.owner with
      | none => simp
      | some names =>
          rw [Option.map_some, Option.bind_some, Option.bind_some, OrdMap.find?_erase]
          by_cases hn : n = i.name <;> simp [hn, hempty]
    · simp [hb]

theorem targeted_removed (r : IntentRegistry) (i : Intent) (t : ComponentTarget)
    (id : IntentId) : targeted (r.removed i).byTarget t id =
      (targeted r.byTarget t id && !decide (t = i.target ∧ id = i.id)) := by
  unfold removed eraseFromIndexes
  dsimp only
  split
  · rw [targeted_eraseTarget]
  · next hnone =>
      by_cases hc : t = i.target ∧ id = i.id
      · -- there is no set for the target, so the id is not in it
        rw [Bool.not_eq_true, Option.isSome_eq_false_iff, Option.isNone_iff_eq_none] at hnone
        rw [hc.1]
        unfold targeted
        rw [hnone]
        rfl
      · rw [decide_eq_false hc, Bool.not_false, Bool.and_true]

theorem Indexed.removed {r : IntentRegistry} (h : r.Indexed) {i : Intent}
    (hi : r.record? i.id = some i) : (r.removed i).Indexed := by
  have hlive : ∀ (p : Intent → Prop) id, (∃ j, (r.removed i).record? id = some j ∧ p j) ↔
      id ≠ i.id ∧ ∃ j, r.record? id = some j ∧ p j := by
    intro p id
    rw [record?_removed]
    by_cases hid : id = i.id <;> simp [hid]
  -- of the records with the intent's id there is only the intent itself
  have hself : ∀ (p : Intent → Prop) id, id = i.id → (∃ j, r.record? id = some j ∧ p j) → p i := by
    rintro p id rfl ⟨j, hj, hp⟩
    rw [hi] at hj
    cases hj
    exact hp
  refine ⟨fun id type ht => ?_, fun b id => ?_, fun t id => ?_, fun b n id => ?_, fun b hb => ?_⟩
  · change (r.intentTypes.erase i.id).find? id = some type at ht
    rw [OrdMap.find?_erase] at ht
    split at ht
    · cases ht
    · next hid =>
        obtain ⟨j, hj, hrest⟩ := h.typed id type ht
        exact ⟨j, by rw [stored_removed, if_neg (fun hc => hid hc.2), hj], hrest⟩
  · rw [ownedBy_removed, hlive, Bool.and_eq_true, h.owner, Bool.not_eq_true', decide_eq_false_iff_not]
    constructor
    · rintro ⟨hex, hne⟩
      exact ⟨fun hid => hne ⟨(hself _ id hid hex).symm, hid⟩, hex⟩
    · rintro ⟨hid, hex⟩
      exact ⟨hex, fun hc => hid hc.2⟩
  · rw [targeted_removed, hlive, Bool.and_eq_true, Bool.not_eq_true', decide_eq_false_iff_not]
    rintro ⟨htargeted, hne⟩
    have hex := h.target t id htargeted
    exact ⟨fun hid => hne ⟨(hself _ id hid hex).symm, hid⟩, hex⟩
  · rw [intentNamed_removed, hlive]
    by_cases hc : b = i.owner ∧ n = i.name ∧ i.name ≠ []
    · obtain ⟨rfl, rfl, hne⟩ := hc
      rw [if_pos ⟨rfl, rfl, hne⟩]
      simp only [reduceCtorEq, false_iff, not_and, not_exists]
      intro _ hid j hj ho hn
      -- a name is live once for an owner
      have hthis := (h.name i.owner i.name i.id).mpr ⟨hne, i, hi, rfl, rfl⟩
      rw [(h.name i.owner i.name id).mpr ⟨hne, j, hj, ho, hn⟩] at hthis
      exact hid (Option.some.inj hthis)
    · rw [if_neg hc, h.name]
      constructor
      · rintro ⟨hne, hex⟩
        refine ⟨hne, fun hid => ?_, hex⟩
        obtain ⟨ho, hn⟩ := hself _ id hid hex
        exact hc ⟨ho.symm, hn.symm, hn ▸ hne⟩
      · rintro ⟨hne, _, hex⟩
        exact ⟨hne, hex⟩
  · have hb' : r.byOwner.contains b = true := by
      unfold IntentRegistry.removed eraseFromIndexes at hb
      dsimp only at hb
      rw [OrdMap.contains, OrdMap.find?_modify] at hb
      split at hb
      · next he =>
          rw [he]
          simpa [OrdMap.contains] using hb
      · exact hb
    have hp := h.pools b hb'
    unfold IntentRegistry.removed eraseFromIndexes
    dsimp only
    split
    · exact hp
    · rw [OrdMap.contains, OrdMap.find?_modify]
      split
      · next he =>
          rw [Option.isSome_map, ← he]
          exact hp
      · exact hp

theorem Tidy.inserted {r : IntentRegistry} (h : r.Tidy) {i : Intent}
    (hs : r.storages.contains i.target.type = true) (hnew : r.intentTypes.find? i.id = none) :
    (r.inserted i).Tidy := by
  intro type id j hj
  show (r.intentTypes.insert i.id i.target.type).find? id = some type
  rw [OrdMap.find?_insert]
  rw [stored_inserted hs] at hj
  split at hj
  · next hc => rw [if_pos hc.2, hc.1]
  · have hlive := h type id j hj
    rw [if_neg]
    · exact hlive
    · rintro rfl
      rw [hnew] at hlive
      cases hlive

theorem Tidy.removed {r : IntentRegistry} (h : r.Tidy) {i : Intent}
    (hi : r.intentTypes.find? i.id = some i.target.type) : (r.removed i).Tidy := by
  intro type id j hj
  show (r.intentTypes.erase i.id).find? id = some type
  rw [OrdMap.find?_erase]
  rw [stored_removed] at hj
  split at hj
  · cases hj
  · next hc =>
      have hlive := h type id j hj
      rw [if_neg]
      · exact hlive
      · rintro rfl
        rw [hi] at hlive
        exact hc ⟨(Option.some.inj hlive).symm, rfl⟩

theorem Filled.removed {r : IntentRegistry} (h : Filled r.byTarget) (i : Intent) :
    Filled (r.removed i).byTarget := by
  unfold IntentRegistry.removed eraseFromIndexes
  dsimp only
  split
  · exact h.eraseTarget _ _
  · exact h

end IntentRegistry

end LiquidLayer
