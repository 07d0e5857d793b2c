/-
  Resolution: which intent speaks for a component.

  The runtime asks for the targets of all live intents (`resolutionTargets`), lets the host's
  requests add to them, and selects one intent for each. `Chosen w type name id`: the intent
  ranks highest among all live intents for the component of this type and name. A selection that
  returns is `Chosen` for every component, whatever was requested (`selected_iff`).
-/
import LiquidLayer.Lib.Nested
import LiquidLayer.World.Run

namespace LiquidLayer

/-- Components by type and name. -/
abbrev Resolutions := OrdMap ComponentTypeId (OrdMap Bytes ComponentSlotId)

/-- Intents by the type and name of their components. -/
abbrev Selections := OrdMap ComponentTypeId (OrdMap Bytes IntentId)

namespace ComponentRegistry

variable {C : Type}

/-! ## Components by slot -/

/-- `typeNames` is as long as there have been types. -/
def componentTypeExists (r : ComponentRegistry C) (type : ComponentTypeId) : Bool :=
  decide (type < r.nextComponentType) && r.types.contains type

def componentMatches (r : ComponentRegistry C) (type : ComponentTypeId) (name : Bytes)
    (slot : ComponentSlotId) : Bool :=
  match r.validateSlot type slot with
  | .error _ => false
  | .ok _ => ((r.types.find? type).bind fun t => t.names.find? name) == some slot

def componentName (r : ComponentRegistry C) (type : ComponentTypeId) (slot : ComponentSlotId) :
    Except Failure Bytes := do
  let _ ← r.validateSlot type slot
  match r.types.find? type with
  | none => .error (.runtimeError "component type not registered")
  | some t =>
      match t.slotNames.find? slot with
      | none => .error (.runtimeError "component slot has no stable name")
      | some name => .ok name

/-- The component of this type and name is in this slot. -/
def Named (r : ComponentRegistry C) (type : ComponentTypeId) (name : Bytes)
    (slot : ComponentSlotId) : Prop :=
  ∃ t, r.types.find? type = some t ∧ t.names.find? name = some slot

theorem Named.slot_unique {r : ComponentRegistry C} {type : ComponentTypeId} {name : Bytes}
    {slot slot' : ComponentSlotId} (h : r.Named type name slot) (h' : r.Named type name slot') :
    slot = slot' := by
  obtain ⟨t, ht, hname⟩ := h
  obtain ⟨t', ht', hname'⟩ := h'
  rw [ht] at ht'
  cases ht'
  rw [hname] at hname'
  exact Option.some.inj hname'

theorem Ok.name_unique {r : ComponentRegistry C} (hok : r.Ok) {type : ComponentTypeId}
    {name name' : Bytes} {slot : ComponentSlotId} (h : r.Named type name slot)
    (h' : r.Named type name' slot) : name = name' := by
  obtain ⟨t, ht, hname⟩ := h
  obtain ⟨t', ht', hname'⟩ := h'
  rw [ht] at ht'
  cases ht'
  have hinv := (hok.types type t ht).inverse
  rw [hinv] at hname hname'
  rw [hname] at hname'
  exact Option.some.inj hname'

theorem Ok.named_of_componentName {r : ComponentRegistry C} (hok : r.Ok) {type : ComponentTypeId}
    {slot : ComponentSlotId} {name : Bytes} (h : r.componentName type slot = .ok name) :
    r.Named type name slot := by
  unfold componentName at h
  cases hv : r.validateSlot type slot with
  | error e => rw [hv] at h; cases h
  | ok raw =>
      rw [hv, ok_bind] at h
      cases ht : r.types.find? type with
      | none => rw [ht] at h; cases h
      | some t =>
          rw [ht] at h
          dsimp only at h
          cases hname : t.slotNames.find? slot with
          | none => rw [hname] at h; cases h
          | some name' =>
              rw [hname] at h
              cases h
              exact ⟨t, ht, ((hok.types type t ht).inverse name slot).mpr hname⟩

theorem named_of_componentMatches {r : ComponentRegistry C} {type : ComponentTypeId}
    {slot : ComponentSlotId} {name : Bytes} (h : r.componentMatches type name slot = true) :
    r.Named type name slot := by
  unfold componentMatches at h
  split at h
  · cases h
  · exact Option.bind_eq_some_iff.mp (beq_iff_eq.mp h)

end ComponentRegistry

namespace IntentRegistry

/-! ## Selecting one intent -/

/-- By priority, then by sequence. -/
def rank (i : Intent) : Nat ×ₗ UInt64 := toLex (i.priority.value, i.sequence)

theorem priority_value_inj {p q : IntentPriority} : p.value = q.value ↔ p = q := by
  cases p <;> cases q <;> decide

theorem better_iff (candidate selected : Intent) :
    better candidate (some selected) = true ↔ rank selected < rank candidate := by
  unfold better rank
  rw [Prod.Lex.toLex_lt_toLex]
  simp only [Bool.or_eq_true, decide_eq_true_eq, Bool.and_eq_true, beq_iff_eq, gt_iff_lt,
    ← priority_value_inj]
  rw [@eq_comm Nat candidate.priority.value]

/-- The live intents for a component. -/
def intentsAt (r : IntentRegistry) (type : ComponentTypeId) (slot : ComponentSlotId) :
    List Intent := (r.intentsFor type slot).filterMap r.record?

theorem Coherent.mem_intentsAt {r : IntentRegistry} (h : r.Coherent) (h0 : r.slotWraps = 0)
    {type : ComponentTypeId} {slot : ComponentSlotId} {i : Intent} :
    i ∈ r.intentsAt type slot ↔ r.record? i.id = some i ∧ i.target = ⟨type, slot⟩ := by
  unfold intentsAt
  rw [List.mem_filterMap]
  constructor
  · rintro ⟨id, hid, hrec⟩
    obtain ⟨j, hj, htarget⟩ := (h.mem_intentsFor h0).mp hid
    rw [hrec] at hj
    cases hj
    rw [h.indexed.id_eq hrec]
    exact ⟨hrec, htarget⟩
  · rintro ⟨hrec, htarget⟩
    exact ⟨i.id, (h.mem_intentsFor h0).mpr ⟨i, hrec, htarget⟩, hrec⟩

/-- The scan keeps an intent of the highest rank. -/
theorem Indexed.selectOne_eq {r : IntentRegistry} (h : r.Indexed) (type : ComponentTypeId)
    (slot : ComponentSlotId) :
    r.selectOne type slot = .ok (List.argmax rank (r.intentsAt type slot)) := by
  have key : ∀ ids : List IntentId, (∀ id ∈ ids, ∃ i, r.record? id = some i) →
      ids.foldlM (fun selected id => do
        let candidate ← r.intent id
        return if better candidate selected then some candidate else selected) none =
        (.ok (List.argmax rank (ids.filterMap r.record?)) : Except Failure (Option Intent)) := by
    intro ids
    induction ids using List.reverseRecOn with
    | nil => exact fun _ => rfl
    | append_singleton ids id ih =>
        intro hids
        obtain ⟨i, hi⟩ := hids id (List.mem_append_right _ List.mem_cons_self)
        rw [List.foldlM_append, ih fun id hid => hids id (List.mem_append_left _ hid), ok_bind,
          List.foldlM_cons, intent_eq_ok.mpr hi, ok_bind, List.filterMap_append]
        simp only [List.filterMap_cons, hi, List.filterMap_nil, List.argmax_concat]
        cases List.argmax rank (ids.filterMap r.record?) with
        | none => rfl
        | some selected =>
            show (Except.ok _ : Except Failure (Option Intent)) = Except.ok _
            congr 1
            dsimp only [Option.casesOn]
            by_cases hb : rank selected < rank i
            · rw [if_pos ((better_iff i selected).mpr hb)]
              exact (if_pos hb).symm
            · rw [if_neg fun hbetter => hb ((better_iff i selected).mp hbetter)]
              exact (if_neg hb).symm
  refine key _ fun id hid => ?_
  obtain ⟨i, hi, _⟩ := h.of_mem_intentsFor hid
  exact ⟨i, hi⟩

end IntentRegistry

namespace World

variable {C : Type}

/-! ## Requests and targets -/

def resolutionRequestIsCurrent (w : World C) (type : ComponentTypeId)
    (components : OrdMap Bytes ComponentSlotId) : Bool :=
  w.components.componentTypeExists type &&
    components.entries.all fun entry => w.components.componentMatches type entry.1 entry.2

/-- One slot of the target index, once its name is known. -/
def addTarget (w : World C) (type : ComponentTypeId) (targets : Resolutions)
    (entry : ComponentSlotId × IntentSet) : Except Failure Resolutions :=
  if entry.2.entries.isEmpty then .ok targets
  else do return targets.emplaceAt type (← w.components.componentName type entry.1) entry.1

/-- The components that some live intent is for. -/
def resolutionTargets (w : World C) : Except Failure Resolutions :=
  w.intents.byTarget.entries.foldlM
    (fun targets entry => entry.2.entries.foldlM (w.addTarget entry.1) targets) .empty

/-- `World::resolve_intents`. -/
def resolveIntents (w : World C) (type : ComponentTypeId)
    (components : OrdMap Bytes ComponentSlotId) : Except Failure (OrdMap Bytes IntentId) :=
  if !w.resolutionRequestIsCurrent type components then
    .error (.invalidArgument "intent resolution request contains a stale component target")
  else w.intents.select type components

/-- The targets are the named components among the slots in `S`, and every slot in `S` is one. -/
structure Covers (w : World C) (S : ComponentTypeId → ComponentSlotId → Prop)
    (targets : Resolutions) : Prop where
  at_iff : ∀ type name slot, targets.at? type name = some slot ↔
    w.components.Named type name slot ∧ S type slot
  named : ∀ type slot, S type slot → ∃ name, w.components.Named type name slot

theorem Covers.congr {w : World C} {S S' : ComponentTypeId → ComponentSlotId → Prop}
    {targets : Resolutions} (h : Covers w S targets)
    (hS : ∀ type slot, S type slot ↔ S' type slot) : Covers w S' targets :=
  ⟨fun type name slot => by rw [h.at_iff, hS], fun type slot hs =>
    h.named type slot ((hS type slot).mpr hs)⟩

theorem Covers.add {w : World C} (hok : w.components.Ok)
    {S : ComponentTypeId → ComponentSlotId → Prop} {targets targets' : Resolutions}
    (h : Covers w S targets) {type : ComponentTypeId} {entry : ComponentSlotId × IntentSet}
    (hadd : w.addTarget type targets entry = .ok targets') :
    Covers w (fun type' slot => S type' slot ∨
      type' = type ∧ slot = entry.1 ∧ entry.2.entries.isEmpty = false) targets' := by
  unfold addTarget at hadd
  cases hempty : entry.2.entries.isEmpty with
  | true =>
      rw [hempty] at hadd
      cases hadd
      exact h.congr fun type' slot => ⟨Or.inl, fun hs => hs.resolve_right fun hr => nomatch hr.2.2⟩
  | false =>
      rw [hempty] at hadd
      cases hname : w.components.componentName type entry.1 with
      | error e => rw [hname] at hadd; cases hadd
      | ok name =>
          rw [hname] at hadd
          cases hadd
          have hnamed := hok.named_of_componentName hname
          refine ⟨fun type' name' slot => ?_, fun type' slot hs => ?_⟩
          · rw [OrdMap.at?_emplaceAt]
            by_cases hkey : type' = type ∧ name' = name
            · obtain ⟨rfl, rfl⟩ := hkey
              rw [if_pos ⟨rfl, rfl⟩]
              cases hat : targets.at? type' name' with
              | some slot' =>
                  -- the name is taken by this very slot
                  obtain ⟨hnamed', hS⟩ := (h.at_iff type' name' slot').mp hat
                  obtain rfl := hnamed.slot_unique hnamed'
                  rw [Option.some_or, Option.some.injEq]
                  constructor
                  · rintro rfl
                    exact ⟨hnamed, .inl hS⟩
                  · exact fun hs => hnamed.slot_unique hs.1
              | none =>
                  rw [Option.none_or, Option.some.injEq]
                  constructor
                  · rintro rfl
                    exact ⟨hnamed, .inr ⟨rfl, rfl, rfl⟩⟩
                  · exact fun hs => hnamed.slot_unique hs.1
            · rw [if_neg hkey, Option.or_none, h.at_iff]
              constructor
              · exact fun hs => ⟨hs.1, .inl hs.2⟩
              · rintro ⟨hnamed', hs | ⟨rfl, rfl, _⟩⟩
                · exact ⟨hnamed', hs⟩
                · exact absurd ⟨rfl, hok.name_unique hnamed' hnamed⟩ hkey
          · rcases hs with hs | ⟨rfl, rfl, _⟩
            · exact h.named type' slot hs
            · exact ⟨name, hnamed⟩

/-- The slots with live intents. -/
def Targeted (w : World C) (type : ComponentTypeId) (slot : ComponentSlotId) : Prop :=
  ∃ id i, w.intents.record? id = some i ∧ i.target = ⟨type, slot⟩

theorem covers_resolutionTargets {w : World C} (hok : w.components.Ok)
    (hintents : w.intents.Coherent) (h0 : w.intents.slotWraps = 0) {targets : Resolutions}
    (h : w.resolutionTargets = .ok targets) : Covers w (Targeted w) targets := by
  unfold resolutionTargets at h
  rw [foldlM_nested] at h
  have hcovers := foldlM_induct (P := fun done targets => Covers w (fun type slot =>
      ∃ p ∈ done, type = p.1.1 ∧ slot = p.2.1 ∧ p.2.2.entries.isEmpty = false) targets) h
    ⟨fun _ _ _ => ⟨nofun, fun hs => nomatch hs.2⟩, fun _ _ hs => nomatch hs⟩
    fun done p targets targets' _ hdone hadd => (hdone.add hok hadd).congr fun type slot => by
      simp only [List.mem_append, List.mem_singleton, or_and_right, exists_or, exists_eq_left]
  refine hcovers.congr fun type slot => ?_
  simp only [List.mem_flatMap, List.mem_map]
  constructor
  · rintro ⟨_, ⟨entry, hentry, e, he, rfl⟩, rfl, rfl, hfilled⟩
    obtain ⟨⟨id, u⟩, hmem⟩ := List.exists_mem_of_ne_nil _ (List.isEmpty_eq_false_iff.mp hfilled)
    have htargeted : IntentRegistry.targeted w.intents.byTarget ⟨entry.1, e.1⟩ id = true := by
      unfold IntentRegistry.targeted
      rw [OrdMap.mem_entries.mp hentry, Option.bind_some, OrdMap.mem_entries.mp he,
        Option.any_some, OrdMap.contains, OrdMap.mem_entries.mp hmem]
      rfl
    exact ⟨id, hintents.indexed.target _ _ htargeted⟩
  · rintro ⟨id, i, hrec, htarget⟩
    have htargeted := (hintents.orderly h0).targeted id i hrec
    rw [htarget] at htargeted
    unfold IntentRegistry.targeted at htargeted
    rw [Option.any_eq_true] at htargeted
    obtain ⟨ids, hids, hcontains⟩ := htargeted
    obtain ⟨slots, hslots, hids⟩ := Option.bind_eq_some_iff.mp hids
    obtain ⟨u, hu⟩ := OrdMap.contains_iff.mp hcontains
    refine ⟨⟨(type, slots), (slot, ids)⟩, ⟨(type, slots), OrdMap.mem_entries.mpr hslots,
      (slot, ids), OrdMap.mem_entries.mpr hids, rfl⟩, rfl, rfl, ?_⟩
    exact List.isEmpty_eq_false_iff.mpr (List.ne_nil_of_mem (OrdMap.mem_entries.mpr hu))

/-! ## What is selected -/

/-- The intent ranks highest among the live intents for the component. -/
def Chosen (w : World C) (type : ComponentTypeId) (name : Bytes) (id : IntentId) : Prop :=
  ∃ slot i, w.components.Named type name slot ∧ w.intents.record? id = some i ∧
    i.target = ⟨type, slot⟩ ∧ ∀ id' j, w.intents.record? id' = some j → j.target = ⟨type, slot⟩ →
      id' ≠ id → IntentRegistry.rank j < IntentRegistry.rank i

theorem selectOne_some_iff {r : IntentRegistry} (h : r.Coherent) (h0 : r.slotWraps = 0)
    {type : ComponentTypeId} {slot : ComponentSlotId} {i : Intent} :
    r.selectOne type slot = .ok (some i) ↔
      r.record? i.id = some i ∧ i.target = ⟨type, slot⟩ ∧
        ∀ id' j, r.record? id' = some j → j.target = ⟨type, slot⟩ → id' ≠ i.id →
          IntentRegistry.rank j < IntentRegistry.rank i := by
  have same : ∀ a, r.record? a.id = some a → r.record? i.id = some i → a.id = i.id → a = i := by
    intro a ha hi hid
    rw [hid, hi] at ha
    exact (Option.some.inj ha).symm
  rw [h.indexed.selectOne_eq, Except.ok.injEq, List.argmax_eq_some_iff]
  simp only [h.mem_intentsAt h0]
  constructor
  · rintro ⟨⟨hrec, htarget⟩, hle, _⟩
    refine ⟨hrec, htarget, fun id' j hj hjt hne => ?_⟩
    have hjid := h.indexed.id_eq hj
    have hrank := hle j ⟨hjid ▸ hj, hjt⟩
    refine lt_of_le_of_ne hrank fun heq => hne ?_
    have hseq : j.sequence = i.sequence := congrArg (fun p => (ofLex p).2) heq
    exact h.sequenced.distinct id' i.id j i hj hrec hseq
  · rintro ⟨hrec, htarget, hlt⟩
    have hbelow : ∀ a, r.record? a.id = some a ∧ a.target = ⟨type, slot⟩ →
        a = i ∨ IntentRegistry.rank a < IntentRegistry.rank i := by
      intro a ha
      by_cases hid : a.id = i.id
      · exact .inl (same a ha.1 hrec hid)
      · exact .inr (hlt a.id a ha.1 ha.2 hid)
    refine ⟨⟨hrec, htarget⟩, fun a ha => ?_, fun a ha hle => ?_⟩
    · rcases hbelow a ha with rfl | hrank
      · exact le_rfl
      · exact hrank.le
    · rcases hbelow a ha with rfl | hrank
      · exact le_rfl
      · exact absurd hle (not_le.mpr hrank)

theorem selected_find? {r : IntentRegistry} {type : ComponentTypeId}
    {components : OrdMap Bytes ComponentSlotId} {selected : OrdMap Bytes IntentId}
    (hs : r.select type components = .ok selected) (name : Bytes) (id : IntentId) :
    selected.find? name = some id ↔ ∃ slot i, components.find? name = some slot ∧
      r.selectOne type slot = .ok (some i) ∧ i.id = id := by
  have hnone : ∀ id, (OrdMap.empty : OrdMap Bytes IntentId).find? name = some id ↔ ∃ slot i,
      (name, slot) ∈ ([] : List (Bytes × ComponentSlotId)) ∧
        r.selectOne type slot = .ok (some i) ∧ i.id = id := by
    intro id
    simp
  have key := foldlM_induct (P := fun done selected => ∀ id, selected.find? name = some id ↔
      ∃ slot i, (name, slot) ∈ done ∧ r.selectOne type slot = .ok (some i) ∧ i.id = id) hs
    hnone fun done entry s s' hbegins hdone hstep id => by
      obtain ⟨n, slot⟩ := entry
      have hbefore : ∀ e ∈ done, e.1 < n := fun e he =>
        (List.pairwise_append.mp (components.sorted.sublist hbegins.sublist)).2.2 e he _
          List.mem_cons_self
      -- the names seen before this one are other names
      have hsplit : (∃ slot' i, (name, slot') ∈ done ++ [(n, slot)] ∧
          r.selectOne type slot' = .ok (some i) ∧ i.id = id) ↔ if name = n then
            ∃ i, r.selectOne type slot = .ok (some i) ∧ i.id = id
          else ∃ slot' i, (name, slot') ∈ done ∧ r.selectOne type slot' = .ok (some i) ∧
            i.id = id := by
        simp only [List.mem_append, List.mem_singleton, Prod.mk.injEq]
        split
        · next hname =>
            subst hname
            constructor
            · rintro ⟨slot', i, he | ⟨_, rfl⟩, hi⟩
              · exact absurd (hbefore _ he) (lt_irrefl _)
              · exact ⟨i, hi⟩
            · rintro ⟨i, hi⟩
              exact ⟨slot, i, .inr ⟨rfl, rfl⟩, hi⟩
        · next hname => simp only [hname, false_and, or_false]
      rw [hsplit]
      cases hone : r.selectOne type slot with
      | error e => rw [hone] at hstep; cases hstep
      | ok best =>
          rw [hone] at hstep
          cases best with
          | none =>
              cases hstep
              rw [hdone]
              split
              · next hname =>
                  subst hname
                  constructor
                  · rintro ⟨slot', _, he, _⟩
                    exact absurd (hbefore _ he) (lt_irrefl _)
                  · rintro ⟨i, hi, _⟩
                    cases hi
              · exact Iff.rfl
          | some i =>
              cases hstep
              rw [OrdMap.find?_insert]
              split
              · simp only [Option.some.injEq, Except.ok.injEq, exists_eq_left']
              · exact hdone id
  rw [key]
  simp only [OrdMap.mem_entries]

/-- A request that is current names components by their slots. -/
theorem named_of_current {w : World C} {type : ComponentTypeId}
    {components : OrdMap Bytes ComponentSlotId}
    (hcurrent : w.resolutionRequestIsCurrent type components = true) {name : Bytes}
    {slot : ComponentSlotId} (hslot : components.find? name = some slot) :
    w.components.Named type name slot := by
  unfold resolutionRequestIsCurrent at hcurrent
  rw [Bool.and_eq_true, List.all_eq_true] at hcurrent
  exact ComponentRegistry.named_of_componentMatches
    (hcurrent.2 (name, slot) (OrdMap.mem_entries.mpr hslot))

section Merged

variable {w : World C} {targets requests : Resolutions}

/-- Whatever is requested, the component of a live intent is among the targets. -/
theorem merged_of_chosen (requests : Resolutions) (hok : w.components.Ok)
    (hintents : w.intents.Coherent) (h0 : w.intents.slotWraps = 0)
    (h : w.resolutionTargets = .ok targets) {type : ComponentTypeId} {name : Bytes}
    {id : IntentId} (hchosen : Chosen w type name id) :
    ∃ components slot, (targets.mergeAll requests).find? type = some components ∧
      components.find? name = some slot := by
  obtain ⟨slot, i, hnamed, hrec, htarget, _⟩ := hchosen
  have hat := ((covers_resolutionTargets hok hintents h0 h).at_iff type name slot).mpr
    ⟨hnamed, id, i, hrec, htarget⟩
  have hmerged : ((targets.mergeAll requests).at? type name).isSome = true := by
    rw [OrdMap.at?_mergeAll, hat]
    cases requests.at? type name <;> rfl
  obtain ⟨slot', hslot'⟩ := Option.isSome_iff_exists.mp hmerged
  obtain ⟨components, hcomponents, hfind⟩ := Option.bind_eq_some_iff.mp hslot'
  exact ⟨components, slot', hcomponents, hfind⟩

/-- For each type of the merged targets, exactly what is chosen is selected. -/
theorem resolveIntents_find? (hok : w.components.Ok) (hintents : w.intents.Coherent)
    (h0 : w.intents.slotWraps = 0) (h : w.resolutionTargets = .ok targets) {type : ComponentTypeId}
    {components : OrdMap Bytes ComponentSlotId}
    (hmerged : (targets.mergeAll requests).find? type = some components)
    {selected : OrdMap Bytes IntentId} (hs : w.resolveIntents type components = .ok selected)
    (name : Bytes) (id : IntentId) :
    selected.find? name = some id ↔ Chosen w type name id := by
  unfold resolveIntents at hs
  split at hs
  · cases hs
  · next hcurrent =>
      have hcurrent : w.resolutionRequestIsCurrent type components = true := by
        simpa using hcurrent
      rw [selected_find? hs]
      constructor
      · rintro ⟨slot, i, hslot, hone, rfl⟩
        obtain ⟨hrec, htarget, hlt⟩ := (selectOne_some_iff hintents h0).mp hone
        exact ⟨slot, i, named_of_current hcurrent hslot, hrec, htarget, hlt⟩
      · intro hchosen
        obtain ⟨components', slot', hcomponents', hslot'⟩ :=
          merged_of_chosen requests hok hintents h0 h hchosen
        rw [hmerged] at hcomponents'
        cases hcomponents'
        obtain ⟨slot, i, hnamed, hrec, htarget, hlt⟩ := hchosen
        obtain rfl := hnamed.slot_unique (named_of_current hcurrent hslot')
        have hid := hintents.indexed.id_eq hrec
        subst hid
        exact ⟨slot, i, hslot', (selectOne_some_iff hintents h0).mpr ⟨hrec, htarget, hlt⟩, rfl⟩

end Merged

end World

end LiquidLayer
