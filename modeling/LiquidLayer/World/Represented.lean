/-
  What the component registry represents.

  `TypeRecord.Represented world t`: the storage cells of a type are of three kinds, those under
  a name, those that are free and those whose generation is exhausted, and each cell is of
  exactly one kind (`cells`). The two indexes are inverse bijections between the names and the
  current handles of occupied cells, and each behavior sees, of the named slots, exactly those
  it has an access to.

  It holds of every type in every state of a world, whatever has thrown
  (`components_represented`).
-/
import LiquidLayer.Scripting.Capabilities

namespace LiquidLayer

open Prog

variable {C : Type}

namespace TypeRecord

/-- The cells that hold a component. -/
def occupied (t : TypeRecord C) : List Nat := (List.range t.components.length).filter t.has

/-- The vacated cells that are not given out again. -/
def exhausted (t : TypeRecord C) : List Nat :=
  (List.range t.components.length).filter fun k => t.generations[k]? == some 0

structure Represented (world : UInt64) (t : TypeRecord C) : Prop where
  inverse : ∀ name slot, t.names.find? name = some slot ↔ t.slotNames.find? slot = some name
  named : ∀ slot, t.slotNames.contains slot = true ↔
    ComponentRegistry.current world t slot = true ∧ t.has slot.slot = true
  bijective : (t.slotNames.keys.map Handle.slot).Perm t.occupied
  free : t.availableSlots.Nodup ∧ ∀ k, k ∈ t.availableSlots ↔
    k < t.components.length ∧ t.has k = false ∧ k ∉ t.exhausted
  cells : t.components.length = t.names.size + t.availableSlots.length + t.exhausted.length
  known : ∀ behavior, ∀ access ∈ t.accessesOf behavior,
    t.slotNames.contains access.slot = true ∧ access.mode ≠ .unknown
  once : ∀ behavior, ((t.accessesOf behavior).map ComponentSlotAccess.slot).Nodup
  visible : ∀ behavior name slot, (t.componentsOf behavior).find? name = some slot ↔
    t.names.find? name = some slot ∧ ∃ access ∈ t.accessesOf behavior, access.slot = slot

section Cells

variable {world : UInt64} {t : TypeRecord C}

theorem has_lt {k : Nat} (h : t.has k = true) : k < t.components.length := by
  unfold has get? at h
  by_contra hge
  rw [List.getElem?_eq_none (not_lt.mp hge)] at h
  cases h

theorem mem_occupied {k : Nat} : k ∈ t.occupied ↔ t.has k = true := by
  unfold occupied
  rw [List.mem_filter, List.mem_range, and_iff_right_iff_imp]
  exact has_lt

theorem mem_exhausted {k : Nat} :
    k ∈ t.exhausted ↔ k < t.components.length ∧ t.generations[k]? = some 0 := by
  unfold exhausted
  rw [List.mem_filter, List.mem_range, beq_iff_eq]

theorem Ok.slotNames_iff (h : t.Ok world) (slot : ComponentSlotId) :
    t.slotNames.contains slot = true ↔
      ComponentRegistry.current world t slot = true ∧ t.has slot.slot = true := by
  rw [OrdMap.contains_iff]
  constructor
  · rintro ⟨name, hname⟩
    exact h.live slot name hname
  · rintro ⟨hcurrent, hhas⟩
    obtain ⟨slot', name, hslot, hname⟩ := h.named slot.slot hhas
    -- a cell has one current handle
    obtain ⟨_, hw, hg⟩ := current_iff.mp hcurrent
    obtain ⟨_, hw', hg'⟩ := current_iff.mp (h.live slot' name hname).1
    rw [hslot, hg, Option.some.injEq] at hg'
    have heq : slot' = slot := by
      obtain ⟨w, k, g⟩ := slot
      obtain ⟨w', k', g'⟩ := slot'
      simp only at hslot hw hw' hg'
      rw [hslot, hw, hw', hg']
    exact ⟨name, heq ▸ hname⟩

theorem Ok.keys_perm (h : t.Ok world) : (t.slotNames.keys.map Handle.slot).Perm t.occupied := by
  refine (List.perm_ext_iff_of_nodup ?_ (List.nodup_range.filter _)).mpr fun k => ?_
  · refine (OrdMap.nodup_keys t.slotNames).map_on fun slot hslot slot' hslot' heq => ?_
    obtain ⟨name, hname⟩ := OrdMap.mem_keys.mp hslot
    obtain ⟨name', hname'⟩ := OrdMap.mem_keys.mp hslot'
    exact h.slot_inj hname hname' heq
  · change _ ↔ k ∈ t.occupied
    rw [mem_occupied, List.mem_map]
    constructor
    · rintro ⟨slot, hslot, rfl⟩
      obtain ⟨name, hname⟩ := OrdMap.mem_keys.mp hslot
      exact (h.live slot name hname).2
    · intro hk
      obtain ⟨slot, name, hslot, hname⟩ := h.named k hk
      exact ⟨slot, OrdMap.mem_keys.mpr ⟨name, hname⟩, hslot⟩

/-- The two indexes have the same size. -/
theorem Ok.size_eq (h : t.Ok world) : t.names.size = t.slotNames.size := by
  have hkeys : (t.names.entries.map Prod.snd).Perm t.slotNames.keys := by
    refine (List.perm_ext_iff_of_nodup ?_ (OrdMap.nodup_keys _)).mpr fun slot => ?_
    · refine List.Nodup.map_on (fun p hp q hq heq => ?_) ?_
      · obtain ⟨name, slot⟩ := p
        obtain ⟨name', slot'⟩ := q
        dsimp only at heq
        subst heq
        have hfind := (h.inverse name slot).mp (OrdMap.mem_entries.mp hp)
        rw [(h.inverse name' slot).mp (OrdMap.mem_entries.mp hq)] at hfind
        rw [Option.some.inj hfind]
      · exact List.Nodup.of_map Prod.fst (OrdMap.nodup_keys t.names)
    · rw [List.mem_map, OrdMap.mem_keys]
      constructor
      · rintro ⟨⟨name, slot⟩, hp, rfl⟩
        exact ⟨name, (h.inverse name slot).mp (OrdMap.mem_entries.mp hp)⟩
      · rintro ⟨name, hname⟩
        exact ⟨(name, slot), OrdMap.mem_entries.mpr ((h.inverse name slot).mpr hname), rfl⟩
  have hlen := hkeys.length_eq
  rw [List.length_map] at hlen
  unfold OrdMap.size
  rw [hlen]
  unfold OrdMap.keys
  rw [List.length_map]

theorem Ok.free_iff (h : t.Ok world) (k : Nat) : k ∈ t.availableSlots ↔
    k < t.components.length ∧ t.has k = false ∧ k ∉ t.exhausted := by
  rw [h.free, mem_exhausted]
  constructor
  · rintro ⟨hlt, hhas, hgen⟩
    exact ⟨hlt, hhas, fun hex => hgen hex.2⟩
  · rintro ⟨hlt, hhas, hex⟩
    exact ⟨hlt, hhas, fun hgen => hex ⟨hlt, hgen⟩⟩

/-- An exhausted cell is vacant. -/
theorem Ok.not_exhausted (h : t.Ok world) {k : Nat} (hk : t.has k = true) : k ∉ t.exhausted := by
  intro hex
  obtain ⟨slot, name, hslot, hname⟩ := h.named k hk
  obtain ⟨hne, _, hgen⟩ := current_iff.mp (h.live slot name hname).1
  rw [hslot, (mem_exhausted.mp hex).2, Option.some.injEq] at hgen
  exact hne hgen.symm

/-- Each cell is under a name, free or exhausted. -/
theorem Ok.cells (h : t.Ok world) :
    t.components.length = t.names.size + t.availableSlots.length + t.exhausted.length := by
  have hdisjoint : (t.occupied ++ t.availableSlots ++ t.exhausted).Nodup := by
    refine List.nodup_append'.mpr ⟨List.nodup_append'.mpr ⟨List.nodup_range.filter _, h.nodup,
      fun k hk hfree => ?_⟩, List.nodup_range.filter _, fun k hk hex => ?_⟩
    · have hvacant := ((h.free_iff k).mp hfree).2.1
      rw [mem_occupied.mp hk] at hvacant
      cases hvacant
    · rcases List.mem_append.mp hk with hk | hk
      · exact h.not_exhausted (mem_occupied.mp hk) hex
      · exact ((h.free_iff k).mp hk).2.2 hex
  have hcells : (List.range t.components.length).Perm
      (t.occupied ++ t.availableSlots ++ t.exhausted) := by
    refine (List.perm_ext_iff_of_nodup List.nodup_range hdisjoint).mpr fun k => ?_
    rw [List.mem_range, List.mem_append, List.mem_append, mem_occupied, h.free_iff, mem_exhausted]
    constructor
    · intro hlt
      by_cases hhas : t.has k = true
      · exact .inl (.inl hhas)
      by_cases hgen : t.generations[k]? = some 0
      · exact .inr ⟨hlt, hgen⟩
      · exact .inl (.inr ⟨hlt, Bool.not_eq_true _ ▸ hhas, fun hex => hgen hex.2⟩)
    · rintro ((hhas | ⟨hlt, _⟩) | ⟨hlt, _⟩)
      · exact has_lt hhas
      · exact hlt
      · exact hlt
  have hlen := hcells.length_eq
  have hnames := h.keys_perm.length_eq
  have hsize : t.slotNames.keys.length = t.names.size := by
    rw [h.size_eq]
    unfold OrdMap.keys OrdMap.size
    rw [List.length_map]
  simp only [List.length_range, List.length_append, List.length_map] at hlen hnames
  omega

theorem Ok.accessesOf (h : t.Ok world) (behavior : BehaviorId) :
    (∀ access ∈ t.accessesOf behavior,
      t.slotNames.contains access.slot = true ∧ access.mode ≠ .unknown) ∧
    ((t.accessesOf behavior).map ComponentSlotAccess.slot).Nodup := by
  unfold TypeRecord.accessesOf
  cases hfind : t.accesses.find? behavior with
  | none => exact ⟨fun _ hmem => absurd hmem List.not_mem_nil, List.nodup_nil⟩
  | some l => exact ⟨(h.accesses behavior l hfind).known, (h.accesses behavior l hfind).once⟩

theorem reads_or_writes {mode : ComponentAccessMode} (h : mode ≠ .unknown) :
    mode.reads = true ∨ mode.writes = true := by
  cases mode with
  | unknown => exact absurd rfl h
  | read => exact .inl rfl
  | write => exact .inr rfl
  | readWrite => exact .inl rfl

/-- A behavior sees the named slots it has an access to. -/
theorem Ok.visible (h : t.Ok world) (behavior : BehaviorId) (name : Bytes)
    (slot : ComponentSlotId) : (t.componentsOf behavior).find? name = some slot ↔
      t.names.find? name = some slot ∧ ∃ access ∈ t.accessesOf behavior, access.slot = slot := by
  have hrights : ∀ s, (t.reads behavior s || t.writes behavior s) = true ↔
      ∃ access ∈ t.accessesOf behavior, access.slot = s := by
    intro s
    unfold TypeRecord.reads TypeRecord.writes
    simp only [Bool.or_eq_true, List.any_eq_true, decide_eq_true_eq]
    constructor
    · rintro (⟨access, hmem, hslot, _⟩ | ⟨access, hmem, hslot, _⟩) <;> exact ⟨access, hmem, hslot⟩
    · rintro ⟨access, hmem, hslot⟩
      have hmode := ((h.accessesOf behavior).1 access hmem).2
      exact (reads_or_writes hmode).imp (fun hreads => ⟨access, hmem, hslot, hreads⟩)
        fun hwrites => ⟨access, hmem, hslot, hwrites⟩
  rw [h.find?_componentsOf]
  cases hname : t.names.find? name with
  | none => simp [TypeRecord.accessNamed, hname]
  | some slot' =>
      rw [World.accessNamed_isSome hname]
      by_cases haccess : (t.reads behavior slot' || t.writes behavior slot') = true
      · rw [if_pos haccess, Option.some.injEq]
        refine ⟨fun heq => ⟨heq, (hrights slot).mp (heq ▸ haccess)⟩, fun hs => hs.1⟩
      · rw [if_neg haccess]
        constructor
        · intro hnone
          cases hnone
        · intro hs
          obtain rfl := Option.some.inj hs.1
          exact absurd ((hrights slot').mpr hs.2) haccess

theorem Ok.represented (h : t.Ok world) : t.Represented world where
  inverse := h.inverse
  named := h.slotNames_iff
  bijective := h.keys_perm
  free := ⟨h.nodup, h.free_iff⟩
  cells := h.cells
  known behavior := (h.accessesOf behavior).1
  once behavior := (h.accessesOf behavior).2
  visible := h.visible

end Cells

end TypeRecord

namespace World

/-- In every state of a world, whatever throws: each type is represented, and accesses belong to
    live behaviors. -/
theorem components_represented {instanceId : UInt64} {w : World C} (run : Run instanceId w)
    {type : ComponentTypeId} {t : TypeRecord C} (hfind : w.components.types.find? type = some t) :
    t.Represented w.components.worldId ∧
      ∀ behavior, t.accessesOf behavior ≠ [] → w.behaviors.exist behavior = true := by
  refine ⟨(run.ok.held.ready.components.types type t hfind).represented, fun behavior h => ?_⟩
  refine run.ok.held.holders type t behavior hfind ?_
  unfold TypeRecord.accessesOf at h
  unfold OrdMap.contains
  cases haccess : t.accesses.find? behavior with
  | none =>
      rw [haccess] at h
      exact absurd rfl h
  | some l => rfl

/-- Two components, the first of which is removed while a behavior has access to both. -/
def vacatingOps : List (Op Unit) :=
  [.registerComponent 0 [67] 1 (some fun _ => .ok .null) (some fun _ => .ok ()),
    .addComponent unitType [108] (), .addComponent unitType [109] (), .createBehavior silent,
    .grantComponentAccess silent unitType firstBehavior [108] .readWrite,
    .grantComponentAccess silent unitType firstBehavior [109] .read,
    .removeComponent silent unitType [108]]

def vacated : World Unit := vacatingOps.foldl (fun w op => op.step w) (initial 7)

theorem vacated_run : Run 7 vacated := .along .start vacatingOps fun _ _ _ => trivial

theorem components_represented_vacated : ∃ t, vacated.components.types.find? 0 = some t ∧
    t.Represented vacated.components.worldId ∧ t.components.length = 2 ∧ t.names.size = 1 ∧
    t.availableSlots = [0] ∧ (t.componentsOf firstBehavior).keys = [[109]] := by
  have hparts : (vacated.components.types.find? 0).map (fun t => (t.components.length,
      t.names.size, t.availableSlots, (t.componentsOf firstBehavior).keys)) =
      some (2, 1, [0], [[109]]) := by decide +kernel
  cases hfind : vacated.components.types.find? 0 with
  | none =>
      rw [hfind] at hparts
      cases hparts
  | some t =>
      rw [hfind, Option.map_some, Option.some.injEq, Prod.mk.injEq, Prod.mk.injEq,
        Prod.mk.injEq] at hparts
      obtain ⟨hlength, hsize, hfree, hvisible⟩ := hparts
      exact ⟨t, rfl, (components_represented vacated_run hfind).1, hlength, hsize, hfree, hvisible⟩

end World

end LiquidLayer
