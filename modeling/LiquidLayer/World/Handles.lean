/-
  Handles of behaviors, components and intents over whole runs.

  Three allocators hand out slots with generations. `BehaviorRegistry` takes slots from a list
  that is full at the start, `ComponentRegistry` grows a vector for each type and marks a slot
  whose generations are used up with generation zero, `IntentRegistry` does both and can give a
  slot back unused. `Past`: the handle has been handed out. Each operation keeps what is past,
  and brings nothing past back to life (`Kept`), until the 32 bits of `nextSlot` wrap: then the
  handles of slots whose generations are used up are handed out again. A `Run` is one in which
  they do not.

  A component slot is told apart by its type: every type counts its own slots, so two components
  of different types can have the same `ComponentSlotId` (`slots_shared`). `handles_not_reused`
  therefore speaks about the pair of type and slot.
-/
import LiquidLayer.World.ComponentOps
import LiquidLayer.World.IntentExact

namespace LiquidLayer

open Prog

/-! ## Behaviors -/

namespace BehaviorRegistry

def Past (r : BehaviorRegistry) (id : BehaviorId) : Prop :=
  ∃ g, r.generations[id.slot]? = some g ∧
    (id.generation < g ∨ (id.generation = g ∧ id.slot ∉ r.availableSlots))

structure Kept (r r' : BehaviorRegistry) : Prop where
  ok : r'.Ok
  past : ∀ id, r.Past id → r'.Past id
  fresh : ∀ id, r'.exist id = true → r.Past id → r.exist id = true

theorem Kept.refl {r : BehaviorRegistry} (h : r.Ok) : Kept r r :=
  ⟨h, fun _ hp => hp, fun _ he _ => he⟩

theorem Ok.past {r : BehaviorRegistry} (h : r.Ok) {id : BehaviorId} (hid : r.exist id = true) :
    r.Past id := by
  obtain ⟨_, hg, hfree⟩ := h.active id hid
  exact ⟨_, hg, Or.inr ⟨rfl, hfree⟩⟩

/-- Active handles are told apart by their slots. -/
theorem Ok.slot_inj {r : BehaviorRegistry} (h : r.Ok) {id id' : BehaviorId}
    (hid : r.exist id = true) (hid' : r.exist id' = true) (hs : id.slot = id'.slot) :
    id = id' := by
  obtain ⟨hw, hg, _⟩ := h.active id hid
  obtain ⟨hw', hg', _⟩ := h.active id' hid'
  rw [hs, hg'] at hg
  obtain ⟨w, s, g⟩ := id
  obtain ⟨w', s', g'⟩ := id'
  simp_all

/-- `create` takes a slot of the list, with a generation it was not handed out with. -/
theorem wp_create_past {r : BehaviorRegistry} :
    wp create (fun id r' => ¬r.Past id ∧ ∀ j, r.Past j → r'.Past j)
      (fun _ r' => ∀ j, r.Past j → r'.Past j) r := by
  unfold create
  rw [wp_bind, wp_get]
  cases hav : r.availableSlots with
  | nil =>
      rw [wp_throw]
      exact fun _ hp => hp
  | cons slot rest =>
      have hkeep : ∀ active j, r.Past j →
          ({ r with availableSlots := rest, active } : BehaviorRegistry).Past j := by
        rintro active j ⟨g, hg, hlt | ⟨heq, hfree⟩⟩
        · exact ⟨g, hg, Or.inl hlt⟩
        · exact ⟨g, hg, Or.inr ⟨heq, fun hm => hfree (hav ▸ List.mem_cons_of_mem _ hm)⟩⟩
      dsimp only
      rw [wp_bind, wp_set]
      cases hg : r.generations[slot]? with
      | none =>
          rw [wp_throw]
          exact hkeep r.active
      | some generation =>
          dsimp only
          by_cases hactive : r.active.contains ⟨r.worldId, slot, generation⟩ = true
          · rw [if_pos hactive]
            simpa only [wp_bind, wp_set, wp_throw] using fun _ hp => hp
          · rw [if_neg hactive, wp_bind, wp_set, wp_pure]
            refine ⟨?_, hkeep _⟩
            rintro ⟨g, hg', hlt | ⟨_, hfree⟩⟩
            · dsimp only at hg' hlt
              rw [hg] at hg'
              cases hg'
              exact absurd hlt (UInt32.lt_irrefl _)
            · exact hfree (hav ▸ List.mem_cons_self)

theorem wp_create_kept {r : BehaviorRegistry} (h : r.Ok) :
    wp create (fun id r' => Kept r r' ∧ r'.exist id = true) (fun _ r' => Kept r r') r := by
  refine wp_mono (wp_and wp_create_past (wp_create h
    (Q := fun id r' => r'.Ok ∧ ∀ j, r'.exist j = if j = id then true else r.exist j)
    (E := fun _ r' => r' = r) (fun id r' _ hok hexist => ⟨hok, hexist⟩) fun _ _ => rfl))
    (fun id r' h' => ?_) (fun _ r' h' => ?_)
  · obtain ⟨⟨hnew, hpast⟩, hok, hexist⟩ := h'
    refine ⟨⟨hok, hpast, fun j hj hp => ?_⟩, by rw [hexist, if_pos rfl]⟩
    rw [hexist, if_neg] at hj
    · exact hj
    · rintro rfl
      exact hnew hp
  · rw [h'.2]
    exact .refl h

theorem wp_destroy_past {r : BehaviorRegistry} (id : BehaviorId) :
    wp (destroy id) (fun _ r' => ∀ j, r.Past j → r'.Past j)
      (fun _ r' => ∀ j, r.Past j → r'.Past j) r := by
  unfold destroy
  rw [wp_bind, wp_get]
  by_cases hid : (!r.exist id) = true
  · rw [if_pos hid]
    simpa only [wp_bind, wp_throw] using fun _ hp => hp
  rw [if_neg hid]
  dsimp only
  rw [wp_bind, wp_set]
  cases hg : r.generations[id.slot]? with
  | none =>
      rw [wp_throw]
      exact fun _ hp => hp
  | some generation =>
      dsimp only
      by_cases hmax : generation ≠ maxU32
      · rw [if_pos hmax, wp_set]
        rintro j ⟨g, hgj, hor⟩
        have hlt := (List.getElem?_eq_some_iff.mp hg).1
        by_cases hs : j.slot = id.slot
        · -- whatever this slot was handed out with is below the next generation
          rw [hs, hg] at hgj
          cases hgj
          refine ⟨generation + 1, ?_, Or.inl ?_⟩
          · dsimp only
            rw [hs, List.getElem?_set, if_pos rfl, if_pos hlt]
          · have hnext := IntentRegistry.lt_succ_of_ne_max hmax
            rcases hor with hlt' | ⟨heq, _⟩
            · exact UInt32.lt_trans hlt' hnext
            · rw [heq]
              exact hnext
        · refine ⟨g, ?_, hor.imp (fun hl => hl) fun hr => ⟨hr.1, fun hm => ?_⟩⟩
          · dsimp only
            rw [List.getElem?_set, if_neg (Ne.symm hs)]
            exact hgj
          · exact (List.mem_cons.mp hm).elim hs hr.2
      · rw [if_neg hmax, wp_pure]
        exact fun _ hp => hp

theorem wp_destroy_kept {r : BehaviorRegistry} (h : r.Ok) (id : BehaviorId) :
    wp (destroy id) (fun _ r' => Kept r r') (fun _ r' => Kept r r') r := by
  cases hid : r.exist id with
  | false =>
      unfold destroy
      rw [wp_bind, wp_get, if_pos (by rw [hid]; rfl)]
      simpa only [wp_bind, wp_throw] using Kept.refl h
  | true =>
      refine wp_mono (wp_and (wp_destroy_past id) (wp_destroy h hid
        (Q := fun _ r' => r'.Ok ∧ ∀ j, r'.exist j = if j = id then false else r.exist j)
        (E := fun _ _ => False) fun r' hok hexist => ⟨hok, hexist⟩))
        (fun _ r' h' => ?_) (fun _ _ h' => h'.2.elim)
      obtain ⟨hpast, hok, hexist⟩ := h'
      refine ⟨hok, hpast, fun j hj _ => ?_⟩
      rw [hexist] at hj
      split at hj
      · cases hj
      · exact hj

end BehaviorRegistry

/-! ## Components -/

namespace TypeRecord

variable {C : Type}

/-- A generation of zero marks a slot whose generations are used up. -/
def Past (t : TypeRecord C) (s : ComponentSlotId) : Prop :=
  ∃ g, t.generations[s.slot]? = some g ∧ s.generation ≠ 0 ∧
    (g = 0 ∨ s.generation < g ∨ (s.generation = g ∧ t.has s.slot = true))

structure Kept (t t' : TypeRecord C) : Prop where
  past : ∀ s, t.Past s → t'.Past s
  fresh : ∀ s, t'.slotNames.contains s = true → t.Past s → t.slotNames.contains s = true

theorem Kept.refl (t : TypeRecord C) : Kept t t := ⟨fun _ hp => hp, fun _ hc _ => hc⟩

theorem Ok.past {world : UInt64} {t : TypeRecord C} (h : t.Ok world) {s : ComponentSlotId}
    (hs : t.slotNames.contains s = true) : t.Past s := by
  obtain ⟨n, hn⟩ := Option.isSome_iff_exists.mp hs
  obtain ⟨hcur, hhas⟩ := h.live s n hn
  obtain ⟨hg, _, hgen⟩ := current_iff.mp hcur
  exact ⟨_, hgen, hg, Or.inr (Or.inr ⟨rfl, hhas⟩)⟩

theorem Kept.of_slots {t t' : TypeRecord C} (hgen : t'.generations = t.generations)
    (hhas : ∀ k, t'.has k = t.has k) (hnames : t'.slotNames = t.slotNames) : Kept t t' := by
  refine ⟨fun s hp => ?_, fun s hc _ => hnames ▸ hc⟩
  unfold Past
  rw [hgen, hhas]
  exact hp

theorem getElem?_resized (l : List UInt32) (n k : Nat) {g : UInt32} (h : l[k]? = some g) :
    (ComponentRegistry.resized l n)[k]? = some g := by
  unfold ComponentRegistry.resized
  rw [List.getElem?_append_left (List.getElem?_eq_some_iff.mp h).1]
  exact h

theorem Added.kept {world : UInt64} {t t' : TypeRecord C} {name : Bytes} {component : C}
    {slot : ComponentSlotId} (h : Added world t name component slot t')
    (hgen : t'.generations = ComponentRegistry.resized t.generations (slot.slot + 1)) :
    Kept t t' := by
  have hhas : ∀ k, t'.has k = (decide (k = slot.slot) || t.has k) := by
    intro k
    unfold has
    rw [h.get]
    by_cases hk : k = slot.slot <;> simp [hk]
  refine ⟨?_, fun s hc hp => ?_⟩
  · rintro s ⟨g, hg, hne, hor⟩
    refine ⟨g, by rw [hgen]; exact getElem?_resized _ _ _ hg, hne, ?_⟩
    refine hor.imp (fun h0 => h0) fun hor => hor.imp (fun hlt => hlt) fun heq => ⟨heq.1, ?_⟩
    rw [hhas, heq.2, Bool.or_true]
  · have hname : t'.slotNames.find? slot = some name := by
      rw [h.slotNames, OrdMap.find?_insert_self]
    obtain ⟨hg0, _, hcur⟩ := current_iff.mp (h.ok.live slot name hname).1
    by_cases hs : s = slot
    · -- a vacant slot has a generation no handle has
      subst hs
      obtain ⟨g, hg, _, hor⟩ := hp
      rw [hgen, getElem?_resized _ _ _ hg] at hcur
      rw [Option.some.inj hcur] at hor
      rcases hor with h0 | hlt | ⟨_, hhas'⟩
      · exact absurd h0 hg0
      · exact absurd hlt (UInt32.lt_irrefl _)
      · rw [h.vacant] at hhas'
        cases hhas'
    · rw [h.slotNames, OrdMap.contains, OrdMap.find?_insert, if_neg hs] at hc
      exact hc

theorem Removed.kept {world : UInt64} {t t' : TypeRecord C} (hok : t.Ok world) {name : Bytes}
    {slot : ComponentSlotId} (hname : t.names.find? name = some slot)
    (h : Removed world t name slot t')
    (hgen : t'.generations =
      t.generations.set slot.slot (ComponentRegistry.advanced slot.generation).2) :
    Kept t t' := by
  obtain ⟨_, _, hcur⟩ := current_iff.mp (hok.live slot name ((hok.inverse name slot).mp hname)).1
  have hlt := (List.getElem?_eq_some_iff.mp hcur).1
  refine ⟨?_, fun s hc _ => ?_⟩
  · rintro s ⟨g, hg, hne, hor⟩
    by_cases hs : s.slot = slot.slot
    · -- what was handed out of this slot is below its next generation, or none is left
      refine ⟨_, by rw [hgen, hs, List.getElem?_set_self hlt], hne, ?_⟩
      rw [hs, hcur] at hg
      cases hg
      unfold ComponentRegistry.advanced
      by_cases hmax : slot.generation = maxU32
      · rw [if_pos hmax]
        exact Or.inl rfl
      · rw [if_neg hmax]
        have hnext := IntentRegistry.lt_succ_of_ne_max hmax
        obtain ⟨h0, _, _⟩ :=
          current_iff.mp (hok.live slot name ((hok.inverse name slot).mp hname)).1
        rcases hor with hz | hlt' | ⟨heq, _⟩
        · exact absurd hz h0
        · exact Or.inr (Or.inl (UInt32.lt_trans hlt' hnext))
        · rw [heq]
          exact Or.inr (Or.inl hnext)
    · refine ⟨g, by rw [hgen, List.getElem?_set_ne (Ne.symm hs)]; exact hg, hne, ?_⟩
      refine hor.imp (fun h0 => h0) fun hor => hor.imp (fun hlt => hlt) fun heq => ⟨heq.1, ?_⟩
      unfold has
      rw [h.get, if_neg hs]
      exact heq.2
  · rw [h.slotNames, OrdMap.contains, OrdMap.find?_erase] at hc
    split at hc
    · cases hc
    · exact hc

end TypeRecord

namespace ComponentRegistry

variable {C : Type}

/-- The handle names a component: it is the current one of its slot, and the slot is filled. -/
def liveSlot (r : ComponentRegistry C) (type : ComponentTypeId) (slot : ComponentSlotId) : Bool :=
  match r.types.find? type with
  | none => false
  | some t => current r.worldId t slot && t.has slot.slot

def Past (r : ComponentRegistry C) (type : ComponentTypeId) (slot : ComponentSlotId) : Prop :=
  ∃ t, r.types.find? type = some t ∧ t.Past slot

structure Kept (r r' : ComponentRegistry C) : Prop where
  ok : r'.Ok
  types : ∀ type t, r.types.find? type = some t →
    ∃ t', r'.types.find? type = some t' ∧ TypeRecord.Kept t t'

theorem Kept.refl {r : ComponentRegistry C} (h : r.Ok) : Kept r r :=
  ⟨h, fun _ t ht => ⟨t, ht, .refl t⟩⟩

theorem Ok.liveSlot_iff {r : ComponentRegistry C} (h : r.Ok) {type : ComponentTypeId}
    {slot : ComponentSlotId} : r.liveSlot type slot = true ↔
      ∃ t, r.types.find? type = some t ∧ t.slotNames.contains slot = true := by
  unfold liveSlot
  cases ht : r.types.find? type with
  | none => simp
  | some t =>
      have hok := h.types type t ht
      simp only [Bool.and_eq_true, Option.some.injEq, exists_eq_left']
      constructor
      · rintro ⟨hcur, hhas⟩
        -- the slot has a name, under its current handle
        obtain ⟨s, n, hs, hn⟩ := hok.named slot.slot hhas
        obtain ⟨_, hw, hg⟩ := TypeRecord.current_iff.mp hcur
        obtain ⟨_, hw', hg'⟩ := TypeRecord.current_iff.mp (hok.live s n hn).1
        rw [hs, hg] at hg'
        have heq : s = slot := by
          obtain ⟨w, k, g⟩ := slot
          obtain ⟨w', k', g'⟩ := s
          simp_all
        rw [OrdMap.contains, ← heq, hn]
        rfl
      · intro hc
        obtain ⟨n, hn⟩ := Option.isSome_iff_exists.mp hc
        exact hok.live slot n hn

theorem Kept.past {r r' : ComponentRegistry C} (h : Kept r r') {type : ComponentTypeId}
    {slot : ComponentSlotId} (hp : r.Past type slot) : r'.Past type slot := by
  obtain ⟨t, ht, hpt⟩ := hp
  obtain ⟨t', ht', hk⟩ := h.types type t ht
  exact ⟨t', ht', hk.past slot hpt⟩

theorem Kept.fresh {r r' : ComponentRegistry C} (hr : r.Ok) (h : Kept r r')
    {type : ComponentTypeId} {slot : ComponentSlotId} (hl : r'.liveSlot type slot = true)
    (hp : r.Past type slot) : r.liveSlot type slot = true := by
  obtain ⟨t, ht, hpt⟩ := hp
  obtain ⟨t', ht', hk⟩ := h.types type t ht
  obtain ⟨t₁, ht₁, hc⟩ := h.ok.liveSlot_iff.mp hl
  rw [ht'] at ht₁
  cases ht₁
  exact hr.liveSlot_iff.mpr ⟨t, ht, hk.fresh slot hc hpt⟩

theorem Kept.put {r : ComponentRegistry C} (h : r.Ok) {type : ComponentType} {t t' : TypeRecord C}
    (ht : r.typeRecord type = .ok t) (hok : t'.Ok r.worldId) (hk : TypeRecord.Kept t t') :
    Kept r (r.put type.id t') := by
  refine ⟨h.put ht hok, fun id t₁ ht₁ => ?_⟩
  unfold ComponentRegistry.put
  dsimp only
  rw [OrdMap.find?_insert]
  split
  · next hid =>
      rw [hid, typeRecord_eq_ok ht] at ht₁
      cases ht₁
      exact ⟨t', rfl, hk⟩
  · exact ⟨t₁, ht₁, .refl t₁⟩

end ComponentRegistry

namespace ComponentRegistry

variable {C : Type}

/-! ### Operations -/

inductive Call (C : Type) where
  | registerComponent (component : Nat) (name : Bytes) (version : UInt32)
      (encode : Option (C → Except Failure Value)) (decode : Option (Value → Except Failure C))
  | addComponent (type : ComponentType) (name : Bytes) (component : C)
  | removeComponent (type : ComponentType) (name : Bytes)
  | removeBehavior (behavior : BehaviorId)
  | grantAccess (type : ComponentType) (behavior : BehaviorId) (name : Bytes)
      (mode : ComponentAccessMode)
  | revokeAccess (type : ComponentType) (behavior : BehaviorId) (name : Bytes)
  | replaceComponent (type : ComponentType) (name : Bytes) (component : C)
  | replaceTarget (target : ComponentTarget) (value : Value)

def Call.program : Call C → EStateM Failure (ComponentRegistry C) Unit
  | .registerComponent component name version encode decode => do
      let (_, r) ← lift ((← get).registerComponent component name version encode decode)
      set r
  | .addComponent type name component => ComponentRegistry.addComponent type name component
  | .removeComponent type name => ComponentRegistry.removeComponent type name
  | .removeBehavior behavior => modify fun r => r.removeBehavior behavior
  | .grantAccess type behavior name mode =>
      ComponentRegistry.grantAccess type behavior name mode
  | .revokeAccess type behavior name => ComponentRegistry.revokeAccess type behavior name
  | .replaceComponent type name component =>
      ComponentRegistry.replaceComponent type name component
  | .replaceTarget target value => do
      let (_, r) ← lift ((← get).replaceTarget target.type target.slot value)
      set r

/-- Only accesses have changed. -/
theorem Kept.reaccessed {r : ComponentRegistry C} (h : r.Ok) {type : ComponentType}
    {t t' : TypeRecord C} (ht : r.typeRecord type = .ok t) {b : BehaviorId}
    {slot : ComponentSlotId} {mode : Option ComponentAccessMode}
    (hre : TypeRecord.Reaccessed r.worldId t b slot mode t') : Kept r (r.put type.id t') := by
  refine .put h ht hre.ok (.of_slots ?_ (fun k => ?_) ?_)
  all_goals rw [hre.rest]
  rfl

/-- Only values of components have changed. -/
theorem Kept.revalued {r r' : ComponentRegistry C} (h : r.Ok) (hre : Revalued r r') :
    Kept r r' := by
  refine ⟨hre.ok h, fun type t ht => ?_⟩
  obtain ⟨t', ht', htt⟩ := hre.types type t ht
  refine ⟨t', ht', .of_slots ?_ htt.has ?_⟩
  all_goals rw [htt.rest]

theorem replaceTarget_revalued {r r' : ComponentRegistry C} {type : ComponentTypeId}
    {slot : ComponentSlotId} {value after : Value}
    (h : r.replaceTarget type slot value = .ok (after, r')) : Revalued r r' := by
  unfold replaceTarget at h
  obtain ⟨⟨raw, t, codec⟩, htarget, h⟩ := bind_eq_ok h
  obtain ⟨_, _, h⟩ := bind_eq_ok h
  obtain ⟨decoded, _, h⟩ := bind_eq_ok h
  obtain ⟨canonical, _, h⟩ := bind_eq_ok h
  have ht : r.types.find? type = some t := by
    unfold targetCodec at htarget
    obtain ⟨_, _, htarget⟩ := bind_eq_ok htarget
    cases hf : r.types.find? type with
    | none =>
        rw [hf] at htarget
        cases htarget
    | some t₁ =>
        rw [hf] at htarget
        dsimp only at htarget
        split at htarget
        · cases htarget
        · cases htarget
          rfl
  by_cases hne : canonical ≠ value
  · rw [if_pos hne] at h
    cases h
  rw [if_neg hne] at h
  obtain ⟨t', ht', h⟩ := bind_eq_ok h
  cases h
  unfold TypeRecord.replace at ht'
  split at ht'
  · cases ht'
  · next hhas =>
      cases ht'
      exact Revalued.put ht (revalued_set (by simpa using hhas) decoded).1

theorem Call.wp_program (call : Call C) {r : ComponentRegistry C} (h : r.Ok) :
    wp call.program (fun _ r' => Kept r r') (fun _ r' => Kept r r') r := by
  have hsame := Kept.refl h
  cases call with
  | registerComponent component name version encode decode =>
      unfold Call.program
      rw [wp_bind, wp_get, wp_bind, wp_lift]
      refine ⟨fun p hp => ?_, fun _ _ => hsame⟩
      obtain ⟨type, r'⟩ := p
      have hreg := h.registered hp
      dsimp only
      rw [wp_set]
      refine ⟨hreg.ok, fun id t ht => ⟨t, ?_, .refl t⟩⟩
      rcases hreg.find? id with ⟨_, hs⟩ | ⟨_, hnone, _⟩
      · exact hs.trans ht
      · rw [hnone] at ht
        cases ht
  | addComponent type name component =>
      refine wp_addComponentSlot h (fun t slot t' ht _ hadded hgen => ?_) (fun _ _ => hsame)
      exact .put h ht hadded.ok (hadded.kept hgen)
  | removeComponent type name =>
      refine wp_removeComponentSlot h (fun t slot t' ht hname hremoved hgen => ?_)
        (fun _ _ => hsame)
      exact .put h ht hremoved.ok (hremoved.kept (h.types _ t (typeRecord_eq_ok ht)) hname hgen)
  | removeBehavior behavior =>
      unfold Call.program
      rw [wp_modify]
      have hfind : ∀ id, (r.removeBehavior behavior).types.find? id =
          (r.types.find? id).map (TypeRecord.removeAccessesOf · behavior) := by
        intro id
        unfold ComponentRegistry.removeBehavior
        dsimp only
        rw [OrdMap.find?_filterMap]
        cases r.types.find? id <;> rfl
      refine ⟨⟨fun id t ht => ?_, fun id t ht => ?_, h.limit⟩, fun id t ht => ?_⟩
      · rw [hfind] at ht
        obtain ⟨t₀, ht₀, rfl⟩ := Option.map_eq_some_iff.mp ht
        exact (h.types id t₀ ht₀).removeAccessesOf behavior
      · rw [hfind] at ht
        obtain ⟨t₀, ht₀, rfl⟩ := Option.map_eq_some_iff.mp ht
        exact h.below id t₀ ht₀
      · rw [hfind, ht]
        exact ⟨_, rfl, .of_slots rfl (fun _ => rfl) rfl⟩
  | grantAccess type behavior name mode =>
      exact wp_grantAccess h (fun t slot t' ht _ _ hre => .reaccessed h ht hre) (fun _ _ => hsame)
  | revokeAccess type behavior name =>
      exact wp_revokeAccess h (fun t slot t' ht _ hre => .reaccessed h ht hre) (fun _ _ => hsame)
  | replaceComponent type name component =>
      show wp (ComponentRegistry.replaceComponent type name component) _ _ r
      cases ht : r.typeRecord type with
      | error e =>
          unfold ComponentRegistry.replaceComponent
          rw [wp_bind, wp_get, ht, wp_bind, wp_lift]
          exact ⟨fun _ hc => (by cases hc), fun _ _ => hsame⟩
      | ok t =>
          cases hname : t.names.find? name with
          | none =>
              unfold ComponentRegistry.replaceComponent namedSlot
              rw [wp_bind, wp_get, ht, wp_bind, wp_lift]
              refine ⟨fun t' ht' => ?_, fun _ _ => hsame⟩
              cases ht'
              rw [hname, wp_bind, wp_lift]
              exact ⟨fun _ hc => (by cases hc), fun _ _ => hsame⟩
          | some slot =>
              refine h.wp_replaceComponent ht hname (.revalued h ?_)
              have htok := h.types _ t (typeRecord_eq_ok ht)
              have hhas := (htok.live slot name ((htok.inverse name slot).mp hname)).2
              exact Revalued.put (typeRecord_eq_ok ht) (revalued_set hhas component).1
  | replaceTarget target value =>
      unfold Call.program
      rw [wp_bind, wp_get, wp_bind, wp_lift]
      refine ⟨fun p hp => ?_, fun _ _ => hsame⟩
      obtain ⟨after, r'⟩ := p
      dsimp only
      rw [wp_set]
      exact .revalued h (replaceTarget_revalued hp)

end ComponentRegistry

/-! ## Intents -/

namespace IntentRegistry

/-- Inside a transaction nothing is settled yet: what a rollback would lead back to is. -/
theorem During.past_rollback {r₀ r : IntentRegistry} {entries : List IntentLifecycleRecord}
    (h : During r₀ entries r) (htx : r₀.transaction = none) (h0 : r.slotWraps = 0)
    (id : IntentId) : r.rollback.Past id ↔ r₀.Past id := by
  rw [h.rollback htx h0]
  exact Iff.rfl

theorem During.record?_rollback {r₀ r : IntentRegistry} {entries : List IntentLifecycleRecord}
    (h : During r₀ entries r) (htx : r₀.transaction = none) (h0 : r.slotWraps = 0)
    (id : IntentId) : r.rollback.record? id = r₀.record? id := by
  rw [h.rollback htx h0]
  refine record?_restocked (r := r₀) ?_ (fun _ _ ht => ?_) id
  · rfl
  · exact h.restored (h.storages h0) ht

/-- Without an open transaction there is nothing to lead back to. -/
theorem rollback_of_closed {r : IntentRegistry} (htx : r.transaction = none) :
    r.rollback = { r with terminated := true } := by
  unfold rollback
  rw [htx]

theorem past_of_closed {r : IntentRegistry} (htx : r.transaction = none) (id : IntentId) :
    r.rollback.Past id ↔ r.Past id := by
  rw [rollback_of_closed htx]
  exact Iff.rfl

theorem record?_of_closed {r : IntentRegistry} (htx : r.transaction = none) (id : IntentId) :
    r.rollback.record? id = r.record? id := by
  rw [rollback_of_closed htx]
  rfl

/-- What a call does to the settled handles. -/
structure Settles (r r' : IntentRegistry) : Prop where
  past : ∀ id, r.rollback.Past id → r'.rollback.Past id
  fresh : ∀ id i, r'.rollback.record? id = some i → r.rollback.Past id →
    r.rollback.record? id = some i

theorem Settles.of_kept {r r' : IntentRegistry} (h : Kept r r') (htx : r.transaction = none)
    (htx' : r'.transaction = none) (h0 : r'.slotWraps = 0) : Settles r r' := by
  refine ⟨fun id hp => ?_, fun id i hr hp => ?_⟩
  · rw [past_of_closed htx] at hp
    exact (past_of_closed htx' id).mpr (h.past h0 id hp)
  · rw [record?_of_closed htx'] at hr
    rw [past_of_closed htx] at hp
    rw [record?_of_closed htx]
    exact h.fresh h0 id i hr hp

/-- Before and after, a rollback leads back to the same state, but for strays. -/
theorem Settles.of_during {r₀ r r' : IntentRegistry} {l l' : List IntentLifecycleRecord}
    (h : During r₀ l r) (h' : During r₀ l' r') (htx : r₀.transaction = none)
    (h0 : r.slotWraps = 0) (h0' : r'.slotWraps = 0) : Settles r r' := by
  refine ⟨fun id hp => ?_, fun id i hr _ => ?_⟩
  · exact (h'.past_rollback htx h0' id).mpr ((h.past_rollback htx h0 id).mp hp)
  · rw [h'.record?_rollback htx h0'] at hr
    rw [h.record?_rollback htx h0]
    exact hr

theorem Running.settles {r : IntentRegistry} (h : Running r) (call : Call) (h0 : r.slotWraps = 0)
    (h0' : (call.step r).slotWraps = 0) : Settles r (call.step r) := by
  cases htx : r.transaction with
  | none =>
      have hdid := call.did h.coherent
      generalize call.step r = r' at hdid h0'
      cases hdid with
      | ordinary kept transaction => exact .of_kept kept htx (transaction.trans htx) h0'
      | began _ =>
          have hbegin := During.begin h.coherent
          refine ⟨fun id hp => ?_, fun id i hr _ => ?_⟩
          · rw [hbegin.past_rollback htx h0']
            rwa [past_of_closed htx] at hp
          · rw [hbegin.record?_rollback htx h0'] at hr
            rwa [record?_of_closed htx]
      | cancelled opened _ _ =>
          rw [htx] at opened
          cases opened
      | committed opened =>
          rw [htx] at opened
          cases opened
      | rolledBack opened =>
          rw [htx] at opened
          cases opened
  | some t =>
      obtain ⟨r₀, entries, htx₀, hduring⟩ := h.opened (by rw [htx]; rfl)
      by_cases hcall : call.inside = true
      · obtain ⟨_, hmore, _⟩ := hduring.step hcall
        exact .of_during hduring hmore htx₀ h0 h0'
      · cases call with
        | commit =>
            -- what the transaction did is settled now
            rw [step_commit htx]
            have hmoved := hduring.moved
            rw [htx₀] at hmoved
            have hl := hmoved.lineage h0
            refine ⟨fun id hp => ?_, fun id i hr hp => ?_⟩
            · rw [past_of_closed rfl]
              exact hl.past id ((hduring.past_rollback htx₀ h0 id).mp hp)
            · rw [record?_of_closed rfl] at hr
              rw [hduring.record?_rollback htx₀ h0]
              exact hl.fresh id i hr ((hduring.past_rollback htx₀ h0 id).mp hp)
        | rollback =>
            have hclosed : (Call.rollback.step r).transaction = none := by
              rw [step_rollback]
              exact (hduring.coherent_rollback htx₀).2
            refine ⟨fun id hp => ?_, fun id i hr _ => ?_⟩
            · rw [past_of_closed hclosed]
              exact hp
            · rw [record?_of_closed hclosed] at hr
              exact hr
        | _ => exact absurd rfl hcall

/-- A settled handle that is live is live in the settled state. -/
theorem Running.settled_live {r : IntentRegistry} (h : Running r) (h0 : r.slotWraps = 0)
    {id : IntentId} {i : Intent} (hi : r.record? id = some i) (hp : r.rollback.Past id) :
    r.rollback.record? id = some i := by
  cases htx : r.transaction with
  | none => rwa [record?_of_closed htx]
  | some t =>
      obtain ⟨r₀, entries, htx₀, hduring⟩ := h.opened (by rw [htx]; rfl)
      rw [hduring.record?_rollback htx₀ h0]
      exact (hduring.moved.lineage h0).fresh id i hi
        ((hduring.past_rollback htx₀ h0 id).mp hp)

end IntentRegistry

/-! ## Runs over the three registries -/

inductive Handed where
  | behavior (id : BehaviorId)
  | component (type : ComponentTypeId) (slot : ComponentSlotId)
  | intent (id : IntentId)
deriving DecidableEq

/-- The registries of a world, with the handles they have handed out: those for good, and those
    of the open intent transaction. -/
structure History (C : Type) where
  behaviors : BehaviorRegistry
  components : ComponentRegistry C
  intents : IntentRegistry
  issued : List Handed
  pending : List IntentId

namespace History

variable {C : Type}

def initial (world : UInt64) : History C where
  behaviors := .initial world
  components := .initial world
  intents := .initial world
  issued := []
  pending := []

/-- The handle names a live behavior, component or intent. -/
def names (h : History C) : Handed → Bool
  | .behavior id => h.behaviors.exist id
  | .component type slot => h.components.liveSlot type slot
  | .intent id => h.intents.exist id

inductive Op (C : Type) where
  | createBehavior
  | destroyBehavior (id : BehaviorId)
  | components (call : ComponentRegistry.Call C)
  | intents (call : IntentRegistry.Call)

def createBehavior (h : History C) : History C :=
  match BehaviorRegistry.create h.behaviors with
  | .ok id r =>
      { h with
        behaviors := r
        issued := .behavior id :: h.issued }
  | .error _ r => { h with behaviors := r }

/-- `add_component` returns nothing; its handle is found under the name. -/
def addedSlot (r : ComponentRegistry C) : ComponentRegistry.Call C → List Handed
  | .addComponent type name _ =>
      match r.componentSlot type name with
      | .ok slot => [.component type.id slot]
      | .error _ => []
  | _ => []

def callComponents (call : ComponentRegistry.Call C) (h : History C) : History C :=
  match call.program h.components with
  | .ok _ r =>
      { h with
        components := r
        issued := addedSlot r call ++ h.issued }
  | .error _ r => { h with components := r }

def callIntents (call : IntentRegistry.Call) (h : History C) : History C :=
  match call.program h.intents with
  | .error _ r => { h with intents := r }
  | .ok reply r =>
      match call, reply with
      | .commit, _ =>
          { h with
            intents := r
            issued := h.pending.map .intent ++ h.issued
            pending := [] }
      | .rollback, _ =>
          { h with
            intents := r
            pending := [] }
      | _, .id id =>
          if h.intents.transaction.isSome then
            { h with
              intents := r
              pending := id :: h.pending }
          else
            { h with
              intents := r
              issued := .intent id :: h.issued }
      | _, _ => { h with intents := r }

def step : Op C → History C → History C
  | .createBehavior, h => h.createBehavior
  | .destroyBehavior id, h => { h with behaviors := after (BehaviorRegistry.destroy id) h.behaviors }
  | .components call, h => h.callComponents call
  | .intents call, h => h.callIntents call

/-- The handle has been handed out for good. -/
def Past (h : History C) : Handed → Prop
  | .behavior id => h.behaviors.Past id
  | .component type slot => h.components.Past type slot
  | .intent id => h.intents.rollback.Past id

/-- It names something that no rollback takes away. -/
def Lasting (h : History C) : Handed → Prop
  | .behavior id => h.behaviors.exist id = true
  | .component type slot => h.components.liveSlot type slot = true
  | .intent id => ∃ i, h.intents.rollback.record? id = some i

structure Inv (h : History C) : Prop where
  behaviors : h.behaviors.Ok
  components : h.components.Ok
  intents : h.intents.Running
  unwrapped : h.intents.slotWraps = 0
  issued : ∀ x ∈ h.issued, h.Past x
  pending : ∀ id ∈ h.pending, h.intents.Past id

/-- What is past stays past, and does not come back. -/
structure Onward (h h' : History C) : Prop where
  past : ∀ x, h.Past x → h'.Past x
  fresh : ∀ x, h'.Lasting x → h.Past x → h.Lasting x

theorem Onward.refl (h : History C) : Onward h h := ⟨fun _ hp => hp, fun _ hl _ => hl⟩

theorem Onward.trans {h h' h'' : History C} (a : Onward h h') (b : Onward h' h'') :
    Onward h h'' :=
  ⟨fun x hp => b.past x (a.past x hp), fun x hl hp => a.fresh x (b.fresh x hl (a.past x hp)) hp⟩

/-- A step that leaves the other two registries alone. -/
theorem Onward.of_behaviors {h : History C} {r : BehaviorRegistry}
    (hk : BehaviorRegistry.Kept h.behaviors r) : Onward h { h with behaviors := r } := by
  refine ⟨fun x hp => ?_, fun x hl hp => ?_⟩
  · cases x with
    | behavior id => exact hk.past id hp
    | component type slot => exact hp
    | intent id => exact hp
  · cases x with
    | behavior id => exact hk.fresh id hl hp
    | component type slot => exact hl
    | intent id => exact hl

theorem Onward.of_components {h : History C} (hi : h.components.Ok) {r : ComponentRegistry C}
    (hk : ComponentRegistry.Kept h.components r) : Onward h { h with components := r } := by
  refine ⟨fun x hp => ?_, fun x hl hp => ?_⟩
  · cases x with
    | behavior id => exact hp
    | component type slot => exact hk.past hp
    | intent id => exact hp
  · cases x with
    | behavior id => exact hl
    | component type slot => exact hk.fresh hi hl hp
    | intent id => exact hl

theorem Onward.of_intents {h : History C} {r : IntentRegistry}
    (hk : IntentRegistry.Settles h.intents r) : Onward h { h with intents := r } := by
  refine ⟨fun x hp => ?_, fun x hl hp => ?_⟩
  · cases x with
    | behavior id => exact hp
    | component type slot => exact hp
    | intent id => exact hk.past id hp
  · cases x with
    | behavior id => exact hl
    | component type slot => exact hl
    | intent id =>
        obtain ⟨i, hl⟩ := hl
        exact ⟨i, hk.fresh id i hl hp⟩

/-- What has been handed out does not matter for the registries. -/
theorem Onward.noted {h h' : History C} (ho : Onward h h') (issued : List Handed)
    (pending : List IntentId) :
    Onward h
      { h' with
        issued
        pending } :=
  ⟨fun x hp => by cases x <;> exact ho.past _ hp, fun x hl hp => by
    cases x <;> exact ho.fresh _ hl hp⟩

theorem Inv.createBehavior {h : History C} (hi : Inv h) :
    Inv h.createBehavior ∧ Onward h h.createBehavior := by
  have hwp := BehaviorRegistry.wp_create_kept hi.behaviors
  unfold History.createBehavior
  cases hc : BehaviorRegistry.create h.behaviors with
  | ok id r =>
      obtain ⟨hk, hid⟩ := wp_ok hwp hc
      have ho := (Onward.of_behaviors hk).noted (.behavior id :: h.issued) h.pending
      refine ⟨⟨hk.ok, hi.components, hi.intents, hi.unwrapped, fun x hx => ?_, hi.pending⟩, ho⟩
      rcases List.mem_cons.mp hx with rfl | hx
      · exact hk.ok.past hid
      · exact ho.past x (hi.issued x hx)
  | error e r =>
      have hk := wp_error hwp hc
      have ho := Onward.of_behaviors hk
      exact ⟨⟨hk.ok, hi.components, hi.intents, hi.unwrapped,
        fun x hx => ho.past x (hi.issued x hx), hi.pending⟩, ho⟩

theorem Inv.destroyBehavior {h : History C} (hi : Inv h) (id : BehaviorId) :
    Inv (step (.destroyBehavior id) h) ∧ Onward h (step (.destroyBehavior id) h) := by
  have hk := wp_after.mp (BehaviorRegistry.wp_destroy_kept hi.behaviors id)
  have ho := Onward.of_behaviors hk
  exact ⟨⟨hk.ok, hi.components, hi.intents, hi.unwrapped,
    fun x hx => ho.past x (hi.issued x hx), hi.pending⟩, ho⟩

theorem past_addedSlot {r : ComponentRegistry C} (hr : r.Ok) {call : ComponentRegistry.Call C}
    {x : Handed} (hx : x ∈ addedSlot r call) :
    ∃ type slot, x = .component type slot ∧ r.Past type slot := by
  cases call with
  | addComponent type name component =>
      unfold addedSlot at hx
      dsimp only at hx
      cases hs : r.componentSlot type name with
      | error e =>
          rw [hs] at hx
          cases hx
      | ok slot =>
          rw [hs] at hx
          obtain ⟨t, ht, hname⟩ := ComponentRegistry.componentSlot_eq_ok hs
          have hfind := ComponentRegistry.typeRecord_eq_ok ht
          refine ⟨_, slot, List.mem_singleton.mp hx, t, hfind, ?_⟩
          have hok := hr.types _ t hfind
          exact hok.past (by rw [OrdMap.contains, (hok.inverse name slot).mp hname]; rfl)
  | _ => cases hx

theorem Inv.callComponents {h : History C} (hi : Inv h) (call : ComponentRegistry.Call C) :
    Inv (h.callComponents call) ∧ Onward h (h.callComponents call) := by
  have hwp := call.wp_program hi.components
  unfold History.callComponents
  cases hc : call.program h.components with
  | ok _ r =>
      have hk := wp_ok hwp hc
      have ho := (Onward.of_components hi.components hk).noted (addedSlot r call ++ h.issued) h.pending
      refine ⟨⟨hi.behaviors, hk.ok, hi.intents, hi.unwrapped, fun x hx => ?_, hi.pending⟩, ho⟩
      rcases List.mem_append.mp hx with hx | hx
      · obtain ⟨type, slot, rfl, hp⟩ := past_addedSlot hk.ok hx
        exact hp
      · exact ho.past x (hi.issued x hx)
  | error e r =>
      have hk := wp_error hwp hc
      have ho := Onward.of_components hi.components hk
      exact ⟨⟨hi.behaviors, hk.ok, hi.intents, hi.unwrapped,
        fun x hx => ho.past x (hi.issued x hx), hi.pending⟩, ho⟩

theorem commit_eq_ok {r r' : IntentRegistry} {reply : IntentRegistry.Reply}
    (h : IntentRegistry.Call.commit.program r = .ok reply r') :
    r' = { r with transaction := none } := by
  have hwp : wp IntentRegistry.Call.commit.program
      (fun _ r' => r' = { r with transaction := none }) (fun _ _ => True) r :=
    (wp_map _ _).mpr (IntentRegistry.wp_ensureActive (fun _ _ => trivial) fun _ _ =>
      (wp_modify _).mpr rfl)
  have hr := wp_ok hwp h
  exact hr

/-- A handle returned outside a transaction is handed out for good. -/
theorem past_returned {r : IntentRegistry} (hr : r.Running) {call : IntentRegistry.Call}
    (htx : r.transaction = none) (h0 : (call.step r).slotWraps = 0) {id : IntentId} {i : Intent}
    (hi : (call.step r).record? id = some i) : (call.step r).rollback.Past id := by
  have hdid := call.did hr.coherent
  have hrun := hr.step call
  generalize call.step r = r' at hdid hrun hi h0
  cases hdid with
  | ordinary kept transaction =>
      rw [IntentRegistry.past_of_closed (transaction.trans htx)]
      exact hrun.coherent.past h0 hi
  | began _ =>
      rw [(IntentRegistry.During.begin hr.coherent).past_rollback htx h0]
      exact hr.coherent.past h0 hi
  | cancelled opened _ _ =>
      rw [htx] at opened
      cases opened
  | committed opened =>
      rw [htx] at opened
      cases opened
  | rolledBack opened =>
      rw [htx] at opened
      cases opened

theorem Inv.callIntents {h : History C} (hi : Inv h) {call : IntentRegistry.Call}
    (hcall : call.wraps h.intents = false) :
    Inv (h.callIntents call) ∧ Onward h (h.callIntents call) := by
  have hcoh := hi.intents.coherent
  have hwp := call.wp_program hcoh
  have hrun := hi.intents.step call
  have h0 : (call.step h.intents).slotWraps = 0 :=
    Eq.trans (IntentRegistry.Call.sameWraps hcall) hi.unwrapped
  have hsettles := hi.intents.settles call hi.unwrapped h0
  have hkept := fun hcall => (call.kept hcoh hcall).past h0
  have hnew := fun htx id i => @past_returned _ hi.intents call htx h0 id i
  unfold History.callIntents
  cases hc : call.program h.intents with
  | error e r =>
      have hstep : call.step h.intents = r := by
        unfold IntentRegistry.Call.step after
        rw [hc]
      rw [hstep] at hrun h0 hsettles hkept
      have ho := Onward.of_intents hsettles
      refine ⟨⟨hi.behaviors, hi.components, hrun, h0, fun x hx => ho.past x (hi.issued x hx),
        fun id hid => ?_⟩, ho⟩
      refine hkept ?_ id (hi.pending id hid)
      rintro rfl
      cases hc
  | ok reply r =>
      have hstep : call.step h.intents = r := by
        unfold IntentRegistry.Call.step after
        rw [hc]
      rw [hstep] at hrun h0 hsettles hkept hnew
      obtain ⟨_, hreturned⟩ := wp_ok hwp hc
      have ho := Onward.of_intents hsettles
      have hissued := fun x hx => ho.past x (hi.issued x hx)
      dsimp only
      split
      · refine ⟨⟨hi.behaviors, hi.components, hrun, h0, fun x hx => ?_,
          fun id hid => (by cases hid)⟩, ho.noted _ _⟩
        rcases List.mem_append.mp hx with hx | hx
        · -- what the transaction handed out is settled by its commit
          obtain ⟨id, hid, rfl⟩ := List.mem_map.mp hx
          have hr := commit_eq_ok hc
          have hpast := hkept nofun id (hi.pending id hid)
          show r.rollback.Past id
          rwa [IntentRegistry.past_of_closed (by rw [hr])]
        · exact hissued x hx
      · exact ⟨⟨hi.behaviors, hi.components, hrun, h0, hissued, fun id hid => (by cases hid)⟩,
          ho.noted _ _⟩
      · next id hcommit hrollback =>
          obtain ⟨i, hid⟩ := hreturned id rfl
          have hpending := fun j hj => hkept hrollback j (hi.pending j hj)
          split
          · refine ⟨⟨hi.behaviors, hi.components, hrun, h0, hissued, fun j hj => ?_⟩,
              ho.noted _ _⟩
            rcases List.mem_cons.mp hj with rfl | hj
            · exact hrun.coherent.past h0 hid
            · exact hpending j hj
          · next htx =>
              refine ⟨⟨hi.behaviors, hi.components, hrun, h0, fun x hx => ?_, hpending⟩,
                ho.noted _ _⟩
              rcases List.mem_cons.mp hx with rfl | hx
              · exact hnew (by simpa using htx) id i hid
              · exact hissued x hx
      · next hcommit hrollback _ =>
          exact ⟨⟨hi.behaviors, hi.components, hrun, h0, hissued,
            fun j hj => hkept hrollback j (hi.pending j hj)⟩, ho⟩

/-- The operation does not make `nextSlot` wrap. -/
def Op.Unwrapping : Op C → History C → Prop
  | .intents call, h => call.wraps h.intents = false
  | _, _ => True

theorem Inv.step {h : History C} (hi : Inv h) {op : Op C} (hop : op.Unwrapping h) :
    Inv (step op h) ∧ Onward h (step op h) := by
  cases op with
  | createBehavior => exact hi.createBehavior
  | destroyBehavior id => exact hi.destroyBehavior id
  | components call => exact hi.callComponents call
  | intents call => exact hi.callIntents hop

theorem initial_inv (world : UInt64) : Inv (initial world : History C) := by
  refine ⟨BehaviorRegistry.initial_ok world, ⟨fun id t ht => ?_, fun id t ht => ?_, Nat.zero_le _⟩,
    .closed (IntentRegistry.initial_coherent world) rfl, rfl, fun x hx => ?_, fun id hid => ?_⟩
  · cases ht
  · cases ht
  · cases hx
  · cases hid

/-- The runs in which `nextSlot` does not wrap. -/
abbrev Run (h h' : History C) : Prop := Reaches step Op.Unwrapping h h'

theorem Run.inv {world : UInt64} {h : History C} (hr : Run (initial world) h) : Inv h :=
  hr.induct (initial_inv world) fun _ _ hi hop => (hi.step hop).1

theorem Run.onward {h h' : History C} (hi : Inv h) (hr : Run h h') : Inv h' ∧ Onward h h' :=
  hr.induct (P := fun h' => Inv h' ∧ Onward h h') ⟨hi, .refl h⟩ fun _ _ hs hop =>
    ⟨(hs.1.step hop).1, hs.2.trans (hs.1.step hop).2⟩

/-! ## No handle is used again -/

/-- No transaction is open that could still take the change back. -/
def settled (h : History C) : Handed → Prop
  | .intent _ => h.intents.transaction = none
  | _ => True

/-- Live handles of one kind, and for components of one type, have different slots. -/
structure Distinct (h : History C) : Prop where
  behaviors : ∀ id id', h.names (.behavior id) = true → h.names (.behavior id') = true →
    id.slot = id'.slot → id = id'
  components : ∀ type s s', h.names (.component type s) = true →
    h.names (.component type s') = true → s.slot = s'.slot → s = s'
  intents : ∀ id id', h.names (.intent id) = true → h.names (.intent id') = true →
    id.slot = id'.slot → id = id'

theorem exist_iff {r : IntentRegistry} (hr : r.Coherent) {id : IntentId} :
    r.exist id = true ↔ ∃ i, r.record? id = some i := by
  rw [← hr.indexed.mem_liveIntentIds]
  unfold IntentRegistry.exist IntentRegistry.liveIntentIds
  rw [OrdMap.mem_keys, OrdMap.contains, Option.isSome_iff_exists]

theorem Inv.distinct {h : History C} (hi : Inv h) : h.Distinct := by
  refine ⟨fun id id' hid hid' hs => hi.behaviors.slot_inj hid hid' hs,
    fun type s s' hl hl' hs => ?_, fun id id' hid hid' hs => ?_⟩
  · obtain ⟨t, ht, hc⟩ := hi.components.liveSlot_iff.mp hl
    obtain ⟨t', ht', hc'⟩ := hi.components.liveSlot_iff.mp hl'
    rw [ht] at ht'
    cases ht'
    obtain ⟨n, hn⟩ := Option.isSome_iff_exists.mp hc
    obtain ⟨n', hn'⟩ := Option.isSome_iff_exists.mp hc'
    exact (hi.components.types type t ht).slot_inj hn hn' hs
  · obtain ⟨i, hi₁⟩ := (exist_iff hi.intents.coherent).mp hid
    obtain ⟨i', hi₂⟩ := (exist_iff hi.intents.coherent).mp hid'
    exact hi.intents.coherent.allocated.slot_inj hi₁ hi₂ hs

/-- A handle that names something for good. -/
theorem Inv.lasting {h : History C} (hi : Inv h) {x : Handed} (hp : h.Past x)
    (hn : h.names x = true) : h.Lasting x := by
  cases x with
  | behavior id => exact hn
  | component type slot => exact hn
  | intent id =>
      obtain ⟨i, hid⟩ := (exist_iff hi.intents.coherent).mp hn
      exact ⟨i, hi.intents.settled_live hi.unwrapped hid hp⟩

theorem Inv.not_lasting {h : History C} (hi : Inv h) {x : Handed} (hs : h.settled x)
    (hn : h.names x = false) : ¬h.Lasting x := by
  intro hl
  cases x with
  | behavior id => exact Bool.false_ne_true (hn.symm.trans hl)
  | component type slot => exact Bool.false_ne_true (hn.symm.trans hl)
  | intent id =>
      obtain ⟨i, hl⟩ := hl
      rw [IntentRegistry.record?_of_closed hs] at hl
      have hlive := (exist_iff hi.intents.coherent).mpr ⟨i, hl⟩
      exact Bool.false_ne_true (hn.symm.trans hlive)

/-- **Handles.** After any run that does not wrap `nextSlot`, a handle that was handed out and
    names nothing any more will never name anything again as long as `nextSlot` does not wrap,
    and live handles have different slots. -/
theorem handles_not_reused {world : UInt64} {h : History C} (hr : Run (initial world) h) :
    (∀ h', Run h h' → ∀ x ∈ h.issued, h.settled x → h.names x = false → h'.names x = false) ∧
      h.Distinct := by
  have hi := hr.inv
  refine ⟨fun h' hr' x hx hs hn => ?_, hi.distinct⟩
  obtain ⟨hi', ho⟩ := Run.onward hi hr'
  have hp := hi.issued x hx
  cases hn' : h'.names x with
  | false => rfl
  | true =>
      exact absurd (ho.fresh x (hi'.lasting (ho.past x hp) hn') hp) (hi.not_lasting hs hn)

/-! ### One slot id for two types -/

/-- Two types, and a component of each. -/
def oneOfEach : List (Op Unit) :=
  [.components (.registerComponent 0 [65] 1 (some fun _ => .ok .null) (some fun _ => .ok ())),
    .components (.registerComponent 1 [66] 1 (some fun _ => .ok .null) (some fun _ => .ok ())),
    .components (.addComponent ⟨0, 0, 7, 1⟩ [67] ()),
    .components (.addComponent ⟨1, 1, 7, 1⟩ [67] ())]

def twoTypes : History Unit := oneOfEach.foldl (fun h op => step op h) (initial 7)

def removal : Op Unit := .components (.removeComponent ⟨0, 0, 7, 1⟩ [67])

theorem twoTypes_run : Run (initial 7) twoTypes :=
  .obeys .start ⟨trivial, trivial, trivial, trivial, trivial⟩

theorem handles_not_reused_twoTypes :
    (∀ h', Run twoTypes h' → ∀ x ∈ twoTypes.issued, twoTypes.settled x →
      twoTypes.names x = false → h'.names x = false) ∧ twoTypes.Distinct :=
  handles_not_reused twoTypes_run

/-- One slot id is handed out for both, and removed for one of them it is live for the other. -/
theorem slots_shared : Run (initial 7) twoTypes ∧ Run twoTypes (step removal twoTypes) ∧
    twoTypes.issued.take 2 = [.component 1 ⟨7, 0, 1⟩, .component 0 ⟨7, 0, 1⟩] ∧
    twoTypes.names (.component 0 ⟨7, 0, 1⟩) = true ∧
    twoTypes.names (.component 1 ⟨7, 0, 1⟩) = true ∧
    (step removal twoTypes).names (.component 0 ⟨7, 0, 1⟩) = false ∧
    (step removal twoTypes).names (.component 1 ⟨7, 0, 1⟩) = true :=
  ⟨twoTypes_run, .next removal .start trivial, by decide +kernel, by decide +kernel,
    by decide +kernel, by decide +kernel, by decide +kernel⟩

end History

end LiquidLayer
