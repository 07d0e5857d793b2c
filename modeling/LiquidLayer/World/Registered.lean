/-
  The representation of the component registry.

  `TypeRecord.Ok world t`: the name indexes of a type are inverse to each other, the named
  slots are the occupied ones and current, the free list holds the vacated slots whose
  generation is not exhausted, and an access refers to a named slot, once for a behavior.
  Every operation of the registry preserves it, and under it every operation either completes
  or throws before its first write (`wp_addComponent`, `wp_removeComponent`, `wp_grantAccess`,
  `wp_revokeAccess`). `Added`, `Removed` and `Reaccessed` say what a completed one has done.
-/
import LiquidLayer.World.Components

namespace LiquidLayer

open Prog

variable {C : Type}

namespace TypeRecord

/-! ## Accesses -/

/-- Whether the behavior has an access to the slot whose mode is one of `f`. -/
def allows (t : TypeRecord C) (f : ComponentAccessMode → Bool) (behavior : BehaviorId)
    (slot : ComponentSlotId) : Bool :=
  (t.accessesOf behavior).any fun access => access.slot = slot ∧ f access.mode

theorem reads_eq (t : TypeRecord C) : t.reads = t.allows ComponentAccessMode.reads := rfl

theorem writes_eq (t : TypeRecord C) : t.writes = t.allows ComponentAccessMode.writes := rfl

/-- The accesses of one behavior: to named slots, one for a slot. -/
structure AccessesOk (slotNames : OrdMap ComponentSlotId Bytes)
    (accesses : List ComponentSlotAccess) : Prop where
  known : ∀ a ∈ accesses, slotNames.contains a.slot = true ∧ a.mode ≠ .unknown
  once : (accesses.map ComponentSlotAccess.slot).Nodup
  nonempty : accesses ≠ []

structure Ok (world : UInt64) (t : TypeRecord C) : Prop where
  lengths : t.generations.length = t.components.length
  inverse : ∀ n s, t.names.find? n = some s ↔ t.slotNames.find? s = some n
  live : ∀ s n, t.slotNames.find? s = some n →
    ComponentRegistry.current world t s = true ∧ t.has s.slot = true
  named : ∀ k, t.has k = true → ∃ s n, s.slot = k ∧ t.slotNames.find? s = some n
  free : ∀ k, k ∈ t.availableSlots ↔
    k < t.components.length ∧ t.has k = false ∧ t.generations[k]? ≠ some 0
  nodup : t.availableSlots.Nodup
  accesses : ∀ b l, t.accesses.find? b = some l → AccessesOk t.slotNames l

theorem any_filter_ne (l : List ComponentSlotAccess) (f : ComponentAccessMode → Bool)
    (slot s : ComponentSlotId) :
    ((l.filter fun a => decide (a.slot ≠ slot)).any fun a => decide (a.slot = s ∧ f a.mode)) =
      ((l.any fun a => decide (a.slot = s ∧ f a.mode)) && !decide (s = slot)) := by
  rw [List.any_filter]
  by_cases hs : s = slot
  · subst hs
    simp only [decide_true, Bool.not_true, Bool.and_false, List.any_eq_false]
    intro a _
    by_cases ha : a.slot = s <;> simp [ha]
  · simp only [hs, decide_false, Bool.not_false, Bool.and_true]
    congr 1
    funext a
    by_cases ha : a.slot = s
    · simp [ha, hs]
    · simp [ha]

/-- The accesses of a behavior are looked up in the map, and a missing list allows nothing. -/
theorem allows_eq (t : TypeRecord C) (f : ComponentAccessMode → Bool) (b : BehaviorId)
    (s : ComponentSlotId) : t.allows f b s =
      (t.accesses.find? b).any fun l => l.any fun a => decide (a.slot = s ∧ f a.mode) := by
  unfold allows accessesOf
  cases t.accesses.find? b <;> rfl

theorem allows_removeAccess (t : TypeRecord C) (f : ComponentAccessMode → Bool)
    (b b' : BehaviorId) (slot s : ComponentSlotId) :
    (t.removeAccess b slot).allows f b' s =
      (t.allows f b' s && !decide (b' = b ∧ s = slot)) := by
  simp only [allows_eq]
  unfold removeAccess
  cases hl : t.accesses.find? b with
  | none =>
      by_cases hb : b' = b
      · subst hb; simp [hl]
      · simp [hb]
  | some l =>
      dsimp only
      by_cases hb : b' = b
      · subst hb
        have hany := any_filter_ne l f slot s
        split
        · next hempty =>
            rw [List.isEmpty_iff.mp hempty] at hany
            rw [OrdMap.find?_erase, if_pos rfl, hl]
            simpa using hany
        · rw [OrdMap.find?_insert, if_pos rfl, hl]
          simpa using hany
      · simp only [hb, false_and, decide_false, Bool.not_false, Bool.and_true]
        split
        · rw [OrdMap.find?_erase, if_neg hb]
        · rw [OrdMap.find?_insert, if_neg hb]

theorem allows_removeAccessesOf (t : TypeRecord C) (f : ComponentAccessMode → Bool)
    (b b' : BehaviorId) (s : ComponentSlotId) :
    (t.removeAccessesOf b).allows f b' s = (t.allows f b' s && !decide (b' = b)) := by
  simp only [allows_eq]
  unfold removeAccessesOf
  dsimp only
  rw [OrdMap.find?_erase]
  by_cases hb : b' = b <;> simp [hb]

theorem allows_removeAccessesTo (t : TypeRecord C) (f : ComponentAccessMode → Bool)
    (b : BehaviorId) (slot s : ComponentSlotId) :
    (t.removeAccessesTo slot).allows f b s = (t.allows f b s && !decide (s = slot)) := by
  simp only [allows_eq]
  unfold removeAccessesTo
  dsimp only
  rw [OrdMap.find?_filterMap]
  cases hl : t.accesses.find? b with
  | none => rfl
  | some l =>
      have hany := any_filter_ne l f slot s
      rw [Option.bind_some, Option.any_some]
      split
      · next hempty =>
          rw [List.isEmpty_iff.mp hempty] at hany
          simpa using hany
      · simpa using hany

/-! ## Changes of the accesses -/

/-- Dropping accesses from a list keeps it in order. -/
theorem AccessesOk.filter {slotNames : OrdMap ComponentSlotId Bytes}
    {l : List ComponentSlotAccess} (h : AccessesOk slotNames l)
    (p : ComponentSlotAccess → Bool) (hne : (l.filter p).isEmpty = false) :
    AccessesOk slotNames (l.filter p) where
  known a ha := h.known a (List.mem_of_mem_filter ha)
  once := h.once.sublist ((List.filter_sublist).map _)
  nonempty he := by rw [he] at hne; cases hne

theorem Ok.withAccesses {world : UInt64} {t : TypeRecord C} (h : t.Ok world)
    (accesses : OrdMap BehaviorId (List ComponentSlotAccess))
    (ha : ∀ b l, accesses.find? b = some l → AccessesOk t.slotNames l) :
    ({ t with accesses } : TypeRecord C).Ok world where
  lengths := h.lengths
  inverse := h.inverse
  live := h.live
  named := h.named
  free := h.free
  nodup := h.nodup
  accesses := ha

theorem Ok.removeAccess {world : UInt64} {t : TypeRecord C} (h : t.Ok world) (b : BehaviorId)
    (slot : ComponentSlotId) : (t.removeAccess b slot).Ok world := by
  unfold TypeRecord.removeAccess
  cases hl : t.accesses.find? b with
  | none => exact h
  | some l =>
      refine h.withAccesses _ fun b' l' hl' => ?_
      split at hl'
      · rw [OrdMap.find?_erase] at hl'
        split at hl'
        · cases hl'
        · exact h.accesses b' l' hl'
      · next hne =>
          rw [OrdMap.find?_insert] at hl'
          split at hl'
          · cases hl'
            exact (h.accesses b l hl).filter _ (by simpa using hne)
          · exact h.accesses b' l' hl'

theorem Ok.removeAccessesOf {world : UInt64} {t : TypeRecord C} (h : t.Ok world)
    (b : BehaviorId) : (t.removeAccessesOf b).Ok world := by
  refine h.withAccesses _ fun b' l hl => ?_
  rw [OrdMap.find?_erase] at hl
  split at hl
  · cases hl
  · exact h.accesses b' l hl

theorem Ok.removeAccessesTo {world : UInt64} {t : TypeRecord C} (h : t.Ok world)
    (slot : ComponentSlotId) : (t.removeAccessesTo slot).Ok world := by
  refine h.withAccesses _ fun b l hl => ?_
  rw [OrdMap.find?_filterMap] at hl
  obtain ⟨l', hl', hsome⟩ := Option.bind_eq_some_iff.mp hl
  dsimp only at hsome
  split at hsome
  · cases hsome
  · next hne =>
      cases hsome
      exact (h.accesses b l' hl').filter _ (by simpa using hne)

/-- The behavior's access to the slot is now `mode`, or gone; everything else is as it was. -/
structure Reaccessed (world : UInt64) (t : TypeRecord C) (behavior : BehaviorId)
    (slot : ComponentSlotId) (mode : Option ComponentAccessMode) (t' : TypeRecord C) :
    Prop where
  rest : t' = { t with accesses := t'.accesses }
  allows : ∀ f b s, t'.allows f b s =
    if b = behavior ∧ s = slot then mode.any f else t.allows f b s
  holders : ∀ b, t'.accesses.contains b = true →
    (b = behavior ∧ mode.isSome = true) ∨ t.accesses.contains b = true
  ok : t'.Ok world

theorem contains_removeAccess {t : TypeRecord C} {b b' : BehaviorId} {slot : ComponentSlotId}
    (h : (t.removeAccess b slot).accesses.contains b' = true) :
    t.accesses.contains b' = true := by
  unfold removeAccess at h
  split at h
  · exact h
  · next l hl =>
      dsimp only at h
      by_cases hb : b' = b
      · rw [hb, OrdMap.contains, hl]
        rfl
      · split at h <;>
          simpa [OrdMap.contains, OrdMap.find?_erase, OrdMap.find?_insert, hb] using h

theorem Ok.revoked {world : UInt64} {t : TypeRecord C} (h : t.Ok world) (b : BehaviorId)
    (slot : ComponentSlotId) : Reaccessed world t b slot none (t.removeAccess b slot) where
  rest := by
    unfold TypeRecord.removeAccess
    split <;> rfl
  allows f b' s := by
    rw [allows_removeAccess]
    by_cases hc : b' = b ∧ s = slot <;> simp [hc]
  holders b' hb' := Or.inr (contains_removeAccess hb')
  ok := h.removeAccess b slot

theorem Ok.granted {world : UInt64} {t t' : TypeRecord C} (h : t.Ok world) {b : BehaviorId}
    {slot : ComponentSlotId} {mode : ComponentAccessMode}
    (hslot : t.slotNames.contains slot = true) (hmode : mode ≠ .unknown)
    (hadd : (t.removeAccess b slot).addAccess b mode slot = .ok t') :
    Reaccessed world t b slot (some mode) t' := by
  have hrev := h.revoked b slot
  have hnames : (t.removeAccess b slot).slotNames = t.slotNames := by rw [hrev.rest]
  generalize ht0 : t.removeAccess b slot = t₀ at hadd hrev hnames
  unfold addAccess at hadd
  split at hadd
  · cases hadd
  · cases hadd
    have hold : ∀ f s, t₀.allows f b s =
        ((t₀.accessesOf b).any fun a => decide (a.slot = s ∧ f a.mode)) := fun f s => rfl
    refine ⟨?_, fun f b' s => ?_, fun b' hb' => ?_, ?_⟩
    · rw [hrev.rest]
    · by_cases hb : b' = b
      · subst hb
        rw [allows_eq]
        dsimp only
        rw [OrdMap.find?_insert, if_pos rfl, Option.any_some, List.any_append, ← hold,
          hrev.allows]
        by_cases hs : s = slot
        · subst hs; simp
        · simp [hs, Ne.symm hs]
      · rw [if_neg (fun hc => hb hc.1), allows_eq]
        dsimp only
        rw [OrdMap.find?_insert, if_neg hb, ← allows_eq, hrev.allows, if_neg (fun hc => hb hc.1)]
    · rw [OrdMap.contains, OrdMap.find?_insert] at hb'
      split at hb'
      · next hb => exact Or.inl ⟨hb, rfl⟩
      · exact Or.inr ((hrev.holders b' hb').elim (fun hc => by cases hc.2) id)
    · refine hrev.ok.withAccesses _ fun b' l hl => ?_
      rw [OrdMap.find?_insert] at hl
      split at hl
      · cases hl
        -- the slot's old access is gone, so the new one is its only one
        have hgone : ∀ a ∈ t₀.accessesOf b, a.slot ≠ slot := by
          intro a ha hs
          have := hrev.allows (fun _ => true) b slot
          rw [hold] at this
          simp only [and_self, if_true, Option.any_none, List.any_eq_false] at this
          exact this a ha (by simp [hs])
        have hold' : (∀ a ∈ t₀.accessesOf b, t₀.slotNames.contains a.slot = true ∧
            a.mode ≠ .unknown) ∧
            ((t₀.accessesOf b).map ComponentSlotAccess.slot).Nodup := by
          unfold accessesOf
          cases hl : t₀.accesses.find? b with
          | none => simp
          | some l => exact ⟨(hrev.ok.accesses b l hl).known, (hrev.ok.accesses b l hl).once⟩
        refine ⟨fun a ha => ?_, ?_, by simp⟩
        · rcases List.mem_append.mp ha with ha | ha
          · exact hold'.1 a ha
          · rw [List.mem_singleton.mp ha, hnames]
            exact ⟨hslot, hmode⟩
        · rw [List.map_append, List.map_singleton]
          refine List.Nodup.append hold'.2 (List.nodup_singleton _) ?_
          intro s hs hs'
          obtain ⟨a, ha, rfl⟩ := List.mem_map.mp hs
          exact hgone a ha (List.mem_singleton.mp hs')
      · exact hrev.ok.accesses b' l hl

/-! ## Components added and removed -/

/-- A component was stored in a vacant slot and named. -/
structure Added (world : UInt64) (t : TypeRecord C) (name : Bytes) (component : C)
    (slot : ComponentSlotId) (t' : TypeRecord C) : Prop where
  fresh : t.names.find? name = none
  unnamed : t.slotNames.find? slot = none
  vacant : t.has slot.slot = false
  names : t'.names = t.names.insert name slot
  slotNames : t'.slotNames = t.slotNames.insert slot name
  accesses : t'.accesses = t.accesses
  get : ∀ k, t'.get? k = if k = slot.slot then some component else t.get? k
  schema : t'.component = t.component ∧ t'.name = t.name ∧ t'.version = t.version ∧
    t'.codec = t.codec
  ok : t'.Ok world

/-- A named component was taken out with every access to it. -/
structure Removed (world : UInt64) (t : TypeRecord C) (name : Bytes) (slot : ComponentSlotId)
    (t' : TypeRecord C) : Prop where
  names : t'.names = t.names.erase name
  slotNames : t'.slotNames = t.slotNames.erase slot
  allows : ∀ f b s, t'.allows f b s = (t.allows f b s && !decide (s = slot))
  holders : ∀ b, t'.accesses.contains b = true → t.accesses.contains b = true
  get : ∀ k, t'.get? k = if k = slot.slot then none else t.get? k
  schema : t'.component = t.component ∧ t'.name = t.name ∧ t'.version = t.version ∧
    t'.codec = t.codec
  ok : t'.Ok world

theorem Ok.unnamed {world : UInt64} {t : TypeRecord C} (h : t.Ok world)
    {slot : ComponentSlotId} (hvacant : t.has slot.slot = false) :
    t.slotNames.find? slot = none := by
  cases hn : t.slotNames.find? slot with
  | none => rfl
  | some n =>
      have := (h.live slot n hn).2
      rw [hvacant] at this
      cases this

theorem current_iff {world : UInt64} {t : TypeRecord C} {s : ComponentSlotId} :
    ComponentRegistry.current world t s = true ↔
      s.generation ≠ 0 ∧ s.world = world ∧ t.generations[s.slot]? = some s.generation := by
  unfold ComponentRegistry.current Handle.valid
  rw [Bool.and_eq_true, Bool.and_eq_true, bne_iff_ne, beq_iff_eq, beq_iff_eq, and_assoc]

/-- What has to be true of a record for it to be the old one with one component more. -/
theorem Ok.added {world : UInt64} {t t' : TypeRecord C} (h : t.Ok world) {name : Bytes}
    {component : C} {slot : ComponentSlotId} (hw : slot.world = world)
    (hg : slot.generation ≠ 0) (hfresh : t.names.find? name = none)
    (hvacant : t.has slot.slot = false)
    (hlen : t'.generations.length = t'.components.length)
    (hgen : ∀ k, t'.generations[k]? =
      if k = slot.slot then some slot.generation else t.generations[k]?)
    (hget : ∀ k, t'.get? k = if k = slot.slot then some component else t.get? k)
    (hlt : ∀ k, k < t'.components.length ↔ k = slot.slot ∨ k < t.components.length)
    (hfree : ∀ k, k ∈ t'.availableSlots ↔ k ∈ t.availableSlots ∧ k ≠ slot.slot)
    (hnodup : t'.availableSlots.Nodup) (hnames : t'.names = t.names.insert name slot)
    (hslots : t'.slotNames = t.slotNames.insert slot name) (hacc : t'.accesses = t.accesses)
    (hschema : t'.component = t.component ∧ t'.name = t.name ∧ t'.version = t.version ∧
      t'.codec = t.codec) : Added world t name component slot t' := by
  have hunnamed := h.unnamed hvacant
  have hother : ∀ {s n}, t.slotNames.find? s = some n → s.slot ≠ slot.slot := by
    intro s n hs heq
    have := (h.live s n hs).2
    rw [heq, hvacant] at this
    cases this
  refine ⟨hfresh, hunnamed, hvacant, hnames, hslots, hacc, hget, hschema, ?_⟩
  refine ⟨hlen, fun n s => ?_, fun s n hs => ?_, fun k hk => ?_, fun k => ?_, hnodup,
    fun b l hl => ?_⟩
  · rw [hnames, hslots, OrdMap.find?_insert, OrdMap.find?_insert]
    by_cases hn : n = name <;> by_cases hs : s = slot
    · simp [hn, hs]
    · rw [if_pos hn, if_neg hs, hn, ← h.inverse, hfresh]
      simp [Ne.symm hs]
    · rw [if_neg hn, if_pos hs, hs, h.inverse, hunnamed]
      simp [Ne.symm hn]
    · rw [if_neg hn, if_neg hs, h.inverse]
  · rw [hslots, OrdMap.find?_insert] at hs
    rw [current_iff, has, hget, hgen]
    split at hs
    · next hs' => subst hs'; exact ⟨⟨hg, hw, by rw [if_pos rfl]⟩, by rw [if_pos rfl]; rfl⟩
    · have hlive := h.live s n hs
      rw [current_iff] at hlive
      rw [if_neg (hother hs), if_neg (hother hs)]
      exact hlive
  · rw [has, hget] at hk
    by_cases hks : k = slot.slot
    · exact ⟨slot, name, hks.symm, by rw [hslots, OrdMap.find?_insert_self]⟩
    · rw [if_neg hks] at hk
      obtain ⟨s, n, hsk, hs⟩ := h.named k hk
      refine ⟨s, n, hsk, ?_⟩
      rw [hslots, OrdMap.find?_insert_ne _ (fun heq => ?_), hs]
      rw [heq] at hsk
      exact hks hsk.symm
  · have hhas : t'.has k = if k = slot.slot then true else t.has k := by
      unfold has
      rw [hget]
      split <;> rfl
    rw [hfree, h.free, hlt, hhas, hgen]
    by_cases hks : k = slot.slot <;> simp [hks]
  · rw [hacc] at hl
    have hok := h.accesses b l hl
    refine ⟨fun a ha => ⟨?_, (hok.known a ha).2⟩, hok.once, hok.nonempty⟩
    have hc := (hok.known a ha).1
    rw [OrdMap.contains, hslots, OrdMap.find?_insert]
    split
    · rfl
    · exact hc

theorem get?_set (t : TypeRecord C) (i k : Nat) (c : Option C) (hi : i < t.components.length) :
    (t.components.set i c)[k]?.join = if k = i then c else t.get? k := by
  rw [List.getElem?_set]
  by_cases hk : i = k
  · rw [if_pos hk, if_pos hi, if_pos hk.symm]
    rfl
  · rw [if_neg hk, if_neg (Ne.symm hk)]
    rfl

/-- `add` finds a vacant slot with a usable generation. -/
theorem Ok.add {world : UInt64} {t : TypeRecord C} (h : t.Ok world) {name : Bytes}
    {component : C} (hfresh : t.names.find? name = none) {raw : Nat} {t₁ : TypeRecord C}
    (hadd : t.add component = .ok (raw, t₁)) :
    ∃ g, (ComponentRegistry.resized t₁.generations (raw + 1))[raw]? = some g ∧ g ≠ 0 ∧
      t₁.slotNames.find? ⟨world, raw, g⟩ = none ∧
      Added world t name component ⟨world, raw, g⟩ { t₁ with
        generations := ComponentRegistry.resized t₁.generations (raw + 1)
        names := t₁.names.insert name ⟨world, raw, g⟩
        slotNames := t₁.slotNames.insert ⟨world, raw, g⟩ name } := by
  unfold TypeRecord.add at hadd
  split at hadd
  · next id rest hav =>
      -- a vacated slot
      cases hadd
      obtain ⟨hlt, hhas, hgen⟩ := (h.free raw).mp (hav ▸ List.mem_cons_self)
      obtain ⟨g, hg⟩ : ∃ g, t.generations[raw]? = some g :=
        ⟨_, List.getElem?_eq_getElem (h.lengths ▸ hlt)⟩
      have hres : ComponentRegistry.resized t.generations (raw + 1) = t.generations := by
        unfold ComponentRegistry.resized
        rw [h.lengths, Nat.sub_eq_zero_of_le hlt, List.replicate_zero, List.append_nil]
      have hnd := h.nodup
      rw [hav, List.nodup_cons] at hnd
      dsimp only
      rw [hres]
      have hne : g ≠ 0 := fun he => hgen (by rw [hg, he])
      have hadded : Added world t name component ⟨world, raw, g⟩ { t with
          components := t.components.set raw (some component)
          availableSlots := rest
          names := t.names.insert name ⟨world, raw, g⟩
          slotNames := t.slotNames.insert ⟨world, raw, g⟩ name } := by
        refine h.added rfl hne hfresh hhas ?_ (fun k => ?_)
          (fun k => get?_set t raw k (some component) hlt) (fun k => ?_) (fun k => ?_) hnd.2
          rfl rfl rfl ⟨rfl, rfl, rfl, rfl⟩
        · rw [List.length_set]
          exact h.lengths
        · by_cases hk : k = raw
          · rw [if_pos hk, hk, hg]
          · rw [if_neg hk]
        · rw [List.length_set]
          exact ⟨Or.inr, fun hor => hor.elim (fun hk => hk ▸ hlt) id⟩
        · rw [hav, List.mem_cons]
          constructor
          · intro hk
            exact ⟨Or.inr hk, fun he => hnd.1 (by rwa [he] at hk)⟩
          · rintro ⟨hk | hk, hne⟩
            · exact absurd hk hne
            · exact hk
      exact ⟨g, hg, hne, hadded.unnamed, hadded⟩
  · split at hadd
    · cases hadd
    · next hav hfull =>
        -- a new slot at the end
        cases hadd
        have hres : ComponentRegistry.resized t.generations (t.components.length + 1) =
            t.generations ++ [1] := by
          unfold ComponentRegistry.resized
          rw [h.lengths, Nat.add_sub_cancel_left]
          rfl
        have hnew : ∀ k, (t.generations ++ [1])[k]? =
            if k = t.components.length then some 1 else t.generations[k]? := by
          intro k
          rw [List.getElem?_append, h.lengths]
          split
          · next hk => rw [if_neg (Nat.ne_of_lt hk)]
          · split
            · next hk => rw [hk, Nat.sub_self]; rfl
            · next hk hne =>
                rw [List.getElem?_eq_none (by simp; omega),
                  List.getElem?_eq_none (by rw [h.lengths]; omega)]
        have hvacant : t.has t.components.length = false := by
          unfold has get?
          rw [List.getElem?_eq_none (le_refl _)]
          rfl
        dsimp only
        rw [hres]
        have hadded : Added world t name component ⟨world, t.components.length, 1⟩ { t with
            components := t.components ++ [some component]
            generations := t.generations ++ [1]
            names := t.names.insert name ⟨world, t.components.length, 1⟩
            slotNames := t.slotNames.insert ⟨world, t.components.length, 1⟩ name } := by
          refine h.added rfl (by simp) hfresh hvacant ?_ hnew (fun k => ?_) (fun k => ?_)
            (fun k => ?_) h.nodup rfl rfl rfl ⟨rfl, rfl, rfl, rfl⟩
          · rw [List.length_append, List.length_append, h.lengths]
            rfl
          · unfold get?
            rw [List.getElem?_append]
            split
            · next hk => rw [if_neg (Nat.ne_of_lt hk)]
            · split
              · next hk => rw [hk, Nat.sub_self]; rfl
              · next hk hne =>
                  dsimp only at hne
                  rw [List.getElem?_eq_none (by simp; omega),
                    List.getElem?_eq_none (by omega)]
          · rw [List.length_append, List.length_singleton]
            dsimp only
            omega
          · refine ⟨fun hk => ⟨hk, fun he => ?_⟩, fun hk => hk.1⟩
            have := ((h.free k).mp hk).1
            dsimp only at he
            omega
        exact ⟨1, by rw [hnew, if_pos rfl], by decide, hadded.unnamed, hadded⟩

/-- A raw slot has one named handle. -/
theorem Ok.slot_inj {world : UInt64} {t : TypeRecord C} (h : t.Ok world)
    {s s' : ComponentSlotId} {n n' : Bytes} (hs : t.slotNames.find? s = some n)
    (hs' : t.slotNames.find? s' = some n') (heq : s.slot = s'.slot) : s = s' := by
  obtain ⟨_, hw, hg⟩ := current_iff.mp (h.live s n hs).1
  obtain ⟨_, hw', hg'⟩ := current_iff.mp (h.live s' n' hs').1
  rw [heq, hg'] at hg
  obtain ⟨w, k, g⟩ := s
  obtain ⟨w', k', g'⟩ := s'
  simp_all

theorem advanced_eq (g : UInt32) :
    ((ComponentRegistry.advanced g).1 = true ∧ (ComponentRegistry.advanced g).2 ≠ 0) ∨
      ((ComponentRegistry.advanced g).1 = false ∧ (ComponentRegistry.advanced g).2 = 0) := by
  unfold ComponentRegistry.advanced
  by_cases hg : g = maxU32
  · rw [if_pos hg]
    exact Or.inr ⟨rfl, rfl⟩
  · rw [if_neg hg]
    refine Or.inl ⟨rfl, fun h0 => hg ?_⟩
    have h0' := congrArg UInt32.toNat h0
    have hlt := g.toNat_lt
    rw [UInt32.toNat_add] at h0'
    apply UInt32.toNat_inj.mp
    show g.toNat = 4294967295
    change (g.toNat + 1) % 4294967296 = 0 at h0'
    omega

/-- An access goes to a named slot. -/
theorem Ok.allows_named {world : UInt64} {t : TypeRecord C} (h : t.Ok world)
    {f : ComponentAccessMode → Bool} {b : BehaviorId} {s : ComponentSlotId}
    (ha : t.allows f b s = true) : t.slotNames.contains s = true := by
  rw [allows_eq] at ha
  cases hl : t.accesses.find? b with
  | none =>
      rw [hl] at ha
      cases ha
  | some l =>
      rw [hl, Option.any_some, List.any_eq_true] at ha
      obtain ⟨a, hmem, hdec⟩ := ha
      obtain ⟨rfl, _⟩ := of_decide_eq_true hdec
      exact ((h.accesses b l hl).known a hmem).1

theorem contains_removeAccessesTo {t : TypeRecord C} {b : BehaviorId} {slot : ComponentSlotId}
    (h : (t.removeAccessesTo slot).accesses.contains b = true) :
    t.accesses.contains b = true := by
  unfold removeAccessesTo at h
  rw [OrdMap.contains, OrdMap.find?_filterMap] at h
  rw [OrdMap.contains]
  cases hl : t.accesses.find? b with
  | none =>
      rw [hl] at h
      cases h
  | some l => rfl

/-- What has to be true of a record for it to be the old one without a component. -/
theorem Ok.taken {world : UInt64} {t t' : TypeRecord C} (h : t.Ok world) {name : Bytes}
    {slot : ComponentSlotId} (hname : t.names.find? name = some slot) {g : UInt32}
    (hlen : t'.generations.length = t'.components.length)
    (hgen : ∀ k, t'.generations[k]? = if k = slot.slot then some g else t.generations[k]?)
    (hget : ∀ k, t'.get? k = if k = slot.slot then none else t.get? k)
    (hlt : t'.components.length = t.components.length)
    (hfree : ∀ k, k ∈ t'.availableSlots ↔ (k = slot.slot ∧ g ≠ 0) ∨ k ∈ t.availableSlots)
    (hnodup : t'.availableSlots.Nodup) (hnames : t'.names = t.names.erase name)
    (hslots : t'.slotNames = t.slotNames.erase slot)
    (hallows : ∀ f b s, t'.allows f b s = (t.allows f b s && !decide (s = slot)))
    (hholders : ∀ b, t'.accesses.contains b = true → t.accesses.contains b = true)
    (hacc : ∀ b l, t'.accesses.find? b = some l → AccessesOk t.slotNames l)
    (hschema : t'.component = t.component ∧ t'.name = t.name ∧ t'.version = t.version ∧
      t'.codec = t.codec) : Removed world t name slot t' := by
  have hslot := (h.inverse name slot).mp hname
  obtain ⟨hcur, hhas⟩ := h.live slot name hslot
  have hother : ∀ {s n}, s ≠ slot → t.slotNames.find? s = some n → s.slot ≠ slot.slot :=
    fun hne hs heq => hne (h.slot_inj hs hslot heq)
  refine ⟨hnames, hslots, hallows, hholders, hget, hschema, ?_⟩
  refine ⟨hlen, fun n s => ?_, fun s n hs => ?_, fun k hk => ?_, fun k => ?_, hnodup,
    fun b l hl => ?_⟩
  · rw [hnames, hslots, OrdMap.find?_erase, OrdMap.find?_erase]
    by_cases hn : n = name <;> by_cases hs : s = slot
    · simp [hn, hs]
    · rw [if_pos hn, if_neg hs, hn, ← h.inverse, hname]
      simp [Ne.symm hs]
    · rw [if_neg hn, if_pos hs, hs, h.inverse, hslot]
      simp [Ne.symm hn]
    · rw [if_neg hn, if_neg hs, h.inverse]
  · rw [hslots, OrdMap.find?_erase] at hs
    split at hs
    · cases hs
    · next hne =>
        have hlive := h.live s n hs
        rw [current_iff] at hlive
        rw [current_iff, has, hget, hgen, if_neg (hother hne hs), if_neg (hother hne hs)]
        exact hlive
  · rw [has, hget] at hk
    split at hk
    · cases hk
    · next hne =>
        obtain ⟨s, n, hsk, hs⟩ := h.named k hk
        refine ⟨s, n, hsk, ?_⟩
        rw [hslots, OrdMap.find?_erase, if_neg (fun heq => hne (by rw [← hsk, heq])), hs]
  · have hhas' : t'.has k = if k = slot.slot then false else t.has k := by
      unfold has
      rw [hget]
      split <;> rfl
    have hlt' : slot.slot < t.components.length := by
      rw [← h.lengths]
      exact (List.getElem?_eq_some_iff.mp (current_iff.mp hcur).2.2).1
    rw [hfree, h.free, hlt, hhas', hgen]
    by_cases hks : k = slot.slot
    · simp [hks, hlt', hhas]
    · simp [hks]
  · -- what is left of the accesses does not go to the slot
    have hne : ∀ a ∈ l, a.slot ≠ slot := by
      intro a ha hs
      have := hallows (fun _ => true) b slot
      rw [decide_eq_true rfl, Bool.not_true, Bool.and_false, allows_eq, hl, Option.any_some,
        List.any_eq_false] at this
      exact this a ha (by simp [hs])
    have hok := hacc b l hl
    refine ⟨fun a ha => ⟨?_, (hok.known a ha).2⟩, hok.once, hok.nonempty⟩
    rw [hslots, OrdMap.contains, OrdMap.find?_erase, if_neg (hne a ha)]
    exact (hok.known a ha).1

/-- `remove_component` on one type: the access records, the generation, the storage and the
    name indexes in turn. -/
theorem Ok.removed {world : UInt64} {t : TypeRecord C} (h : t.Ok world) {name : Bytes}
    {slot : ComponentSlotId} (hname : t.names.find? name = some slot) :
    ∃ t₂, ({ t.removeAccessesTo slot with
        generations := t.generations.set slot.slot
          (ComponentRegistry.advanced slot.generation).2 } : TypeRecord C).remove slot.slot
        (ComponentRegistry.advanced slot.generation).1 = .ok t₂ ∧
      Removed world t name slot
        { t₂ with names := t₂.names.erase name, slotNames := t₂.slotNames.erase slot } := by
  have hslot := (h.inverse name slot).mp hname
  obtain ⟨hcur, hhas⟩ := h.live slot name hslot
  obtain ⟨hg, hw, hgen⟩ := current_iff.mp hcur
  have hlt' : slot.slot < t.generations.length := (List.getElem?_eq_some_iff.mp hgen).1
  have hlt : slot.slot < t.components.length := h.lengths ▸ hlt'
  have hcases := advanced_eq slot.generation
  generalize (ComponentRegistry.advanced slot.generation).1 = recycle at hcases ⊢
  generalize (ComponentRegistry.advanced slot.generation).2 = g at hcases ⊢
  generalize ht₁ : ({ t.removeAccessesTo slot with
    generations := t.generations.set slot.slot g } : TypeRecord C) = t₁
  have hhas₁ : t₁.has slot.slot = true := by rw [← ht₁]; exact hhas
  have hlen₁ : t₁.components = t.components := by rw [← ht₁]; rfl
  have hallows₁ : ∀ f b s, t₁.allows f b s = (t.allows f b s && !decide (s = slot)) := by
    intro f b s
    rw [← ht₁, ← allows_removeAccessesTo]
    rfl
  have hok₁ := h.removeAccessesTo slot
  refine ⟨({ t₁ with
      availableSlots := if recycle then slot.slot :: t₁.availableSlots else t₁.availableSlots
      components := t₁.components.set slot.slot none } : TypeRecord C).removeAccessesTo
        ⟨0, slot.slot, 0⟩, ?_, ?_⟩
  · unfold TypeRecord.remove
    rw [if_neg (by rw [hlen₁]; exact Nat.not_le.mpr hlt), if_neg (by rw [hhas₁]; decide)]
  subst ht₁
  have hnot : slot.slot ∉ t.availableSlots := by
    intro hm
    have := ((h.free _).mp hm).2.1
    rw [hhas] at this
    cases this
  refine h.taken hname (g := g) ?_ (fun k => ?_) (fun k => get?_set t slot.slot k none hlt)
    List.length_set (fun k => ?_) ?_ rfl rfl (fun f b s => ?_) (fun b hb => ?_) ?_
    ⟨rfl, rfl, rfl, rfl⟩
  · show (t.generations.set slot.slot g).length = (t.components.set slot.slot none).length
    rw [List.length_set, List.length_set, h.lengths]
  · show (t.generations.set slot.slot g)[k]? = _
    rw [List.getElem?_set]
    by_cases hk : slot.slot = k
    · rw [if_pos hk, if_pos hlt', if_pos hk.symm]
    · rw [if_neg hk, if_neg (Ne.symm hk)]
  · show (k ∈ if recycle then slot.slot :: t.availableSlots else t.availableSlots) ↔ _
    rcases hcases with ⟨hr, hne⟩ | ⟨hr, hz⟩
    · rw [if_pos hr, List.mem_cons]
      exact or_congr_left ⟨fun hk => ⟨hk, hne⟩, And.left⟩
    · rw [hr, if_neg Bool.false_ne_true]
      exact ⟨Or.inr, fun hor => hor.elim (fun hk => absurd hz hk.2) id⟩
  · show (if recycle then slot.slot :: t.availableSlots else t.availableSlots).Nodup
    split
    · exact List.nodup_cons.mpr ⟨hnot, h.nodup⟩
    · exact h.nodup
  · -- the second sweep of the accesses goes to a handle nothing has access to
    have hinvalid : t.allows f b ⟨0, slot.slot, 0⟩ = false := by
      cases ha : t.allows f b ⟨0, slot.slot, 0⟩ with
      | false => rfl
      | true =>
          obtain ⟨n, hn⟩ := Option.isSome_iff_exists.mp (h.allows_named ha)
          exact absurd rfl (current_iff.mp (h.live _ n hn).1).1
    refine (allows_removeAccessesTo _ f b ⟨0, slot.slot, 0⟩ s).trans ?_
    refine (congrArg (· && !decide (s = ⟨0, slot.slot, 0⟩)) (hallows₁ f b s)).trans ?_
    by_cases hs : s = ⟨0, slot.slot, 0⟩
    · rw [hs, hinvalid]
      rfl
    · simp [hs]
  · have h1 := contains_removeAccessesTo hb
    exact @contains_removeAccessesTo _ t _ slot h1
  · exact ((hok₁).removeAccessesTo ⟨0, slot.slot, 0⟩).accesses

end TypeRecord

/-! ## The registry -/

theorem wp_lift {σ α : Type} {Q : α → σ → Prop} {E : Failure → σ → Prop} {s : σ}
    {x : Except Failure α} : wp (lift x) Q E s ↔
      (∀ a, x = .ok a → Q a s) ∧ (∀ e, x = .error e → E e s) := by
  cases x with
  | ok a =>
      unfold lift
      rw [wp_pure]
      refine ⟨fun h => ⟨fun _ ha => ?_, fun _ he => ?_⟩, fun h => h.1 a rfl⟩
      · cases ha
        exact h
      · cases he
  | error e =>
      unfold lift
      rw [wp_throw]
      refine ⟨fun h => ⟨fun _ ha => ?_, fun _ he => ?_⟩, fun h => h.2 e rfl⟩
      · cases ha
      · cases he
        exact h

namespace ComponentRegistry

/-- The registry with one type's record replaced. -/
def put (r : ComponentRegistry C) (type : ComponentTypeId) (t : TypeRecord C) :
    ComponentRegistry C :=
  { r with types := r.types.insert type t }

structure Ok (r : ComponentRegistry C) : Prop where
  types : ∀ id t, r.types.find? id = some t → t.Ok r.worldId
  below : ∀ id t, r.types.find? id = some t → id < r.nextComponentType
  limit : r.nextComponentType ≤ maxComponentTypes

@[simp] theorem put_put (r : ComponentRegistry C) (type : ComponentTypeId)
    (t t' : TypeRecord C) : (r.put type t).put type t' = r.put type t' := by
  unfold put
  rw [OrdMap.insert_insert]

theorem typeRecord_eq_ok {r : ComponentRegistry C} {type : ComponentType} {t : TypeRecord C}
    (h : r.typeRecord type = .ok t) : r.types.find? type.id = some t := by
  unfold typeRecord at h
  split at h
  · cases h
  · split at h
    · cases h
    · split at h
      · cases h
      · next t' ht =>
          split at h
          · cases h
          · cases h
            exact ht

theorem namedSlot_eq_ok {t : TypeRecord C} {name : Bytes} {slot : ComponentSlotId} :
    namedSlot t name = .ok slot ↔ t.names.find? name = some slot := by
  unfold namedSlot
  cases t.names.find? name <;> simp

theorem Ok.put {r : ComponentRegistry C} (h : r.Ok) {type : ComponentType} {t t' : TypeRecord C}
    (ht : r.typeRecord type = .ok t) (ht' : t'.Ok r.worldId) : (r.put type.id t').Ok where
  types id t₁ h₁ := by
    rw [ComponentRegistry.put, OrdMap.find?_insert] at h₁
    split at h₁
    · cases h₁
      exact ht'
    · exact h.types id t₁ h₁
  below id t₁ h₁ := by
    rw [ComponentRegistry.put, OrdMap.find?_insert] at h₁
    split at h₁
    · next hid =>
        rw [hid]
        exact h.below _ t (typeRecord_eq_ok ht)
    · exact h.below id t₁ h₁
  limit := h.limit

/-- A named slot passes the check of its handle. -/
theorem Ok.validateSlot {r : ComponentRegistry C} (h : r.Ok) {type : ComponentTypeId}
    {t : TypeRecord C} (ht : r.types.find? type = some t) {name : Bytes}
    {slot : ComponentSlotId} (hname : t.names.find? name = some slot) :
    r.validateSlot type slot = .ok slot.slot := by
  have hok := h.types type t ht
  have hcur := (hok.live slot name ((hok.inverse name slot).mp hname)).1
  obtain ⟨hg, hw, _⟩ := TypeRecord.current_iff.mp hcur
  have hvalid : slot.valid = true := bne_iff_ne.mpr hg
  have hslot : r.slotIsCurrent type slot = true := by
    unfold slotIsCurrent
    rw [ht]
    exact hcur
  unfold ComponentRegistry.validateSlot
  rw [if_neg (by simp [hvalid, hw]), if_neg (by simp [hslot])]

/-- What `add_component` checks: the type, the name, and that there is room. -/
def Addable (r : ComponentRegistry C) (type : ComponentType) (name : Bytes) : Prop :=
  ∃ t, r.typeRecord type = .ok t ∧ name.isEmpty = false ∧ t.names.find? name = none ∧
    (t.availableSlots ≠ [] ∨ t.components.length < maxComponentSlots)

section Programs

variable {r : ComponentRegistry C} {type : ComponentType} {name : Bytes}
  {Q : Unit → ComponentRegistry C → Prop} {E : Failure → ComponentRegistry C → Prop}

theorem wp_setType {id : ComponentTypeId} {t : TypeRecord C} :
    wp (setType id t) Q E r ↔ Q () (r.put id t) := wp_modify _

/-- `add_component` completes, or throws before its first write. -/
theorem wp_addComponentSlot (h : r.Ok) {component : C}
    (hok : ∀ t slot t', r.typeRecord type = .ok t → r.Addable type name →
      TypeRecord.Added r.worldId t name component slot t' →
      t'.generations = resized t.generations (slot.slot + 1) → Q () (r.put type.id t'))
    (herr : ∀ e, ¬r.Addable type name → E e r) :
    wp (addComponent type name component) Q E r := by
  unfold addComponent
  rw [wp_bind, wp_get]
  by_cases hempty : name.isEmpty = true
  · rw [if_pos hempty]
    have hnot : ¬r.Addable type name := by
      rintro ⟨_, _, hn, _⟩
      simp [hempty] at hn
    simpa using herr _ hnot
  rw [if_neg hempty, wp_bind, wp_lift]
  refine ⟨fun t ht => ?_, fun e he => herr e ?_⟩
  swap
  · rintro ⟨t, ht, -⟩
    rw [he] at ht
    cases ht
  by_cases hnamed : t.names.contains name = true
  · rw [if_pos hnamed]
    have hnot : ¬r.Addable type name := by
      rintro ⟨t₁, ht₁, _, hf, _⟩
      rw [ht] at ht₁
      cases ht₁
      rw [OrdMap.contains, hf] at hnamed
      cases hnamed
    simpa using herr _ hnot
  rw [if_neg hnamed, wp_bind, wp_lift]
  have hfresh : t.names.find? name = none := by
    simpa [OrdMap.contains] using hnamed
  refine ⟨fun p hp => ?_, fun e he => herr e ?_⟩
  swap
  · rintro ⟨t₁, ht₁, -, -, hroom⟩
    rw [ht] at ht₁
    cases ht₁
    unfold TypeRecord.add at he
    split at he
    · cases he
    · next hav =>
        split at he
        · next hge => exact hroom.elim (fun hne => hne hav) fun hlt => by omega
        · cases he
  have haddable : r.Addable type name := by
    refine ⟨t, ht, by simpa using hempty, hfresh, ?_⟩
    unfold TypeRecord.add at hp
    split at hp
    · next hav =>
        rw [hav]
        exact Or.inl (List.cons_ne_nil _ _)
    · split at hp
      · cases hp
      · next hlt => exact Or.inr (Nat.not_le.mp hlt)
  obtain ⟨raw, t₁⟩ := p
  obtain ⟨g, hg, hg0, hnew, hadded⟩ :=
    (h.types _ t (typeRecord_eq_ok ht)).add (hfresh : t.names.find? name = none) hp
  dsimp only
  rw [wp_bind, wp_setType, hg]
  dsimp only
  rw [if_neg hg0, if_neg (by simp [OrdMap.contains, hnew]), wp_setType, put_put]
  refine hok t _ _ ht haddable hadded ?_
  have hgen : t₁.generations = t.generations := by
    unfold TypeRecord.add at hp
    split at hp
    · cases hp
      rfl
    · split at hp
      · cases hp
      · cases hp
        rfl
  rw [← hgen]

theorem wp_addComponent (h : r.Ok) {component : C}
    (hok : ∀ t slot t', r.typeRecord type = .ok t → r.Addable type name →
      TypeRecord.Added r.worldId t name component slot t' → Q () (r.put type.id t'))
    (herr : ∀ e, ¬r.Addable type name → E e r) :
    wp (addComponent type name component) Q E r :=
  wp_addComponentSlot h (fun t slot t' ht haddable hadded _ => hok t slot t' ht haddable hadded) herr

/-- `remove_component` completes, or throws before its first write. -/
theorem wp_removeComponentSlot (h : r.Ok)
    (hok : ∀ t slot t', r.typeRecord type = .ok t → t.names.find? name = some slot →
      TypeRecord.Removed r.worldId t name slot t' →
      t'.generations = t.generations.set slot.slot (advanced slot.generation).2 →
      Q () (r.put type.id t'))
    (herr : ∀ e, (∀ t, r.typeRecord type = .ok t → t.names.find? name = none) → E e r) :
    wp (removeComponent type name) Q E r := by
  unfold removeComponent
  rw [wp_bind, wp_get, wp_bind, wp_lift]
  refine ⟨fun t ht => ?_, fun e he => herr e fun t ht => ?_⟩
  swap
  · rw [he] at ht
    cases ht
  rw [wp_bind, wp_lift]
  refine ⟨fun slot hslot => ?_, fun e he => herr e fun t' ht' => ?_⟩
  swap
  · rw [ht] at ht'
    cases ht'
    cases hn : t.names.find? name with
    | none => rfl
    | some slot =>
        rw [namedSlot_eq_ok.mpr hn] at he
        cases he
  have hname := namedSlot_eq_ok.mp hslot
  have htok := h.types _ t (typeRecord_eq_ok ht)
  have hgen := (TypeRecord.current_iff.mp
    (htok.live slot name ((htok.inverse name slot).mp hname)).1).2.2
  obtain ⟨t₂, ht₂, hremoved⟩ := htok.removed hname
  dsimp only
  rw [wp_bind, wp_setType, wp_bind, wp_lift]
  refine ⟨fun raw hraw => ?_, fun e he => ?_⟩
  swap
  · rw [h.validateSlot (typeRecord_eq_ok ht) hname] at he
    cases he
  rw [h.validateSlot (typeRecord_eq_ok ht) hname] at hraw
  cases hraw
  have hgen' : (t.removeAccessesTo slot).generations[slot.slot]? = some slot.generation := hgen
  rw [hgen']
  dsimp only
  rw [wp_bind, wp_setType, wp_bind, wp_lift]
  refine ⟨fun t₃ ht₃ => ?_, fun e he => ?_⟩
  · have heq : t₃ = t₂ := Except.ok.inj (ht₃.symm.trans ht₂)
    rw [wp_setType, put_put, put_put, heq]
    refine hok t slot _ ht hname hremoved ?_
    unfold TypeRecord.remove at ht₂
    split at ht₂
    · cases ht₂
    · split at ht₂
      · cases ht₂
      · cases ht₂
        rfl
  · have hcontra := he.symm.trans ht₂
    cases hcontra

theorem wp_removeComponent (h : r.Ok)
    (hok : ∀ t slot t', r.typeRecord type = .ok t → t.names.find? name = some slot →
      TypeRecord.Removed r.worldId t name slot t' → Q () (r.put type.id t'))
    (herr : ∀ e, (∀ t, r.typeRecord type = .ok t → t.names.find? name = none) → E e r) :
    wp (removeComponent type name) Q E r :=
  wp_removeComponentSlot h (fun t slot t' ht hname hremoved _ => hok t slot t' ht hname hremoved)
    herr

/-- `grant_access` completes, or throws before its first write. -/
theorem wp_grantAccess (h : r.Ok) {behavior : BehaviorId} {mode : ComponentAccessMode}
    (hok : ∀ t slot t', r.typeRecord type = .ok t → t.names.find? name = some slot →
      mode ≠ .unknown → TypeRecord.Reaccessed r.worldId t behavior slot (some mode) t' →
      Q () (r.put type.id t'))
    (herr : ∀ e, (∀ t slot, r.typeRecord type = .ok t → t.names.find? name = some slot →
      mode = .unknown) → E e r) :
    wp (grantAccess type behavior name mode) Q E r := by
  unfold grantAccess
  rw [wp_bind, wp_get, wp_bind, wp_lift]
  refine ⟨fun t ht => ?_, fun e he => herr e fun t slot ht => ?_⟩
  swap
  · rw [he] at ht
    cases ht
  rw [wp_bind, wp_lift]
  refine ⟨fun slot hslot => ?_, fun e he => herr e fun t' slot ht' hn => ?_⟩
  swap
  · rw [ht] at ht'
    cases ht'
    rw [namedSlot_eq_ok.mpr hn] at he
    cases he
  have hname := namedSlot_eq_ok.mp hslot
  have htok := h.types _ t (typeRecord_eq_ok ht)
  have hslotNamed := (htok.inverse name slot).mp hname
  by_cases hmode : mode = .unknown
  · rw [if_pos hmode]
    simpa using herr _ fun _ _ _ _ => hmode
  rw [if_neg hmode, wp_bind, wp_setType, wp_bind, wp_lift]
  have hhas : (t.removeAccess behavior slot).has slot.slot = true := by
    have := (htok.live slot name hslotNamed).2
    rw [(htok.revoked behavior slot).rest]
    exact this
  refine ⟨fun t' ht' => ?_, fun e he => ?_⟩
  · rw [wp_setType, put_put]
    exact hok t slot t' ht hname hmode (htok.granted (by simp [OrdMap.contains, hslotNamed])
      hmode ht')
  · unfold TypeRecord.addAccess at he
    rw [if_neg (by rw [hhas]; decide), if_neg hmode] at he
    cases he

/-- `revoke_access` completes, or throws before its first write. -/
theorem wp_revokeAccess (h : r.Ok) {behavior : BehaviorId}
    (hok : ∀ t slot t', r.typeRecord type = .ok t → t.names.find? name = some slot →
      TypeRecord.Reaccessed r.worldId t behavior slot none t' → Q () (r.put type.id t'))
    (herr : ∀ e, (∀ t, r.typeRecord type = .ok t → t.names.find? name = none) → E e r) :
    wp (revokeAccess type behavior name) Q E r := by
  unfold revokeAccess
  rw [wp_bind, wp_get, wp_bind, wp_lift]
  refine ⟨fun t ht => ?_, fun e he => herr e fun t ht => ?_⟩
  swap
  · rw [he] at ht
    cases ht
  rw [wp_bind, wp_lift]
  refine ⟨fun slot hslot => ?_, fun e he => herr e fun t' ht' => ?_⟩
  swap
  · rw [ht] at ht'
    cases ht'
    cases hn : t.names.find? name with
    | none => rfl
    | some slot =>
        rw [namedSlot_eq_ok.mpr hn] at he
        cases he
  rw [wp_setType]
  exact hok t slot _ ht (namedSlot_eq_ok.mp hslot)
    ((h.types _ t (typeRecord_eq_ok ht)).revoked behavior slot)

end Programs

end ComponentRegistry

end LiquidLayer
