/-
  The capability cache of a Lua runner (LuaBehaviorRunner.cpp, LuaBehaviorRunner.hpp).

  A runner describes what a behavior can do by asking every binding, and keeps the answer under
  the behavior's access revision. `describe_congr`: what a binding describes depends only on the
  behavior's accesses and the slots it has access to. `Revised`, which every operation of the
  world keeps to, says that these change only together with the revision, so an entry whose
  revision is the current one is right (`Fresh`), whatever happened in between.
  `capabilities_coherent` is the law for every process: any number of worlds, any operations on
  them, and any calls of the runner, between operations and while the systems of a world run.
  Calls of the runner that a membership callback makes in the middle of one operation are not
  among the steps of a process.
-/
import LiquidLayer.World.Run

namespace LiquidLayer

open Prog

variable {C : Type}

/-! ## Descriptions -/

/-- `can_read` by name. -/
def ComponentRegistry.canReadNamed (r : ComponentRegistry C) (type : ComponentType)
    (behavior : BehaviorId) (name : Bytes) : Bool :=
  match r.componentSlot type name with
  | .error _ => false
  | .ok slot => r.canRead type behavior slot

structure CapabilityDescription where
  binding : Nat
  name : Bytes
  slot : ComponentSlotId
  readable : Bool
  writable : Bool
deriving DecidableEq

namespace World

def behaviorAccessRevision (w : World C) (id : BehaviorId) : Except Failure UInt64 :=
  if !w.behaviors.exist id then .error (.runtimeError "behavior id not found")
  else
    match w.behaviorAccessRevisions.find? id with
    | none => .error (.logicError "behavior access revision not found")
    | some revision => .ok revision

/-- The `describe` of `make_binding`. -/
def describe (type : ComponentType) (w : World C) (owner : BehaviorId) (bindingIndex : Nat) :
    Except Failure (List CapabilityDescription) := do
  let components ← w.getComponents type owner
  return components.entries.filterMap fun entry =>
    let readable := w.components.canReadNamed type owner entry.1
    let writable := w.components.canWriteNamed type owner entry.1
    if readable || writable then some ⟨bindingIndex, entry.1, entry.2, readable, writable⟩
    else none

/-- Every binding from the given index on, one after the other. -/
def describeFrom (w : World C) (owner : BehaviorId) :
    List ComponentType → Nat → Except Failure (List CapabilityDescription)
  | [], _ => .ok []
  | type :: rest, i => do
      let descriptions ← describe type w owner i
      return descriptions ++ (← describeFrom w owner rest (i + 1))

/-- The concatenation of every binding's `describe`. -/
def describeAll (w : World C) (owner : BehaviorId) (bindings : List ComponentType) :
    Except Failure (List CapabilityDescription) := w.describeFrom owner bindings 0

end World

/-! ## The runner -/

def maximumCachedCapabilityEntries : Nat := 256

structure CachedCapabilities where
  revision : UInt64
  descriptions : List CapabilityDescription

/-- A `LuaBehaviorRunner` as far as its cache goes; a binding is the type its `describe` was
    made for. -/
structure LuaBehaviorRunner where
  bindings : List ComponentType
  cache : OrdMap (UInt64 ×ₗ BehaviorId) CachedCapabilities
  cachedWorld : Option UInt64

namespace LuaBehaviorRunner

def initial (bindings : List ComponentType) : LuaBehaviorRunner := ⟨bindings, .empty, none⟩

abbrev RunnerM := EStateM Failure LuaBehaviorRunner

/-- The entries of behaviors that exist. -/
def existing (w : World C) (cache : OrdMap (UInt64 ×ₗ BehaviorId) CachedCapabilities) :
    OrdMap (UInt64 ×ₗ BehaviorId) CachedCapabilities :=
  cache.keys.foldl
    (fun kept key => if w.behaviors.exist (ofLex key).2 then kept else kept.erase key) cache

def pruneCache (w : World C) : RunnerM Unit :=
  modify fun r =>
    let kept := existing w r.cache
    { r with cache := if kept.size ≥ maximumCachedCapabilityEntries then .empty else kept }

def refresh (w : World C) (owner : BehaviorId) (revision : UInt64) :
    RunnerM (List CapabilityDescription) := do
  let descriptions ← lift (w.describeAll owner (← get).bindings)
  modify fun r => { r with
    cache := r.cache.insert (toLex (w.instanceId, owner)) ⟨revision, descriptions⟩ }
  return descriptions

def capabilitiesFor (w : World C) (owner : BehaviorId) : RunnerM (List CapabilityDescription) := do
  if (← get).cachedWorld ≠ some w.instanceId then
    modify fun r => { r with cache := .empty, cachedWorld := some w.instanceId }
  let revision ← lift (w.behaviorAccessRevision owner)
  let r ← get
  match r.cache.find? (toLex (w.instanceId, owner)) with
  | some found =>
      if found.revision = revision then return found.descriptions
      else refresh w owner revision
  | none =>
      if r.cache.size ≥ maximumCachedCapabilityEntries then pruneCache w
      refresh w owner revision

end LuaBehaviorRunner

/-! ## What a description depends on -/

namespace TypeRecord

/-- Each access of the list is named after its slot. -/
theorem find?_componentsFold {world : UInt64} {t : TypeRecord C} (h : t.Ok world)
    (l : List ComponentSlotAccess) (m : OrdMap Bytes ComponentSlotId)
    (hl : ∀ a ∈ l, t.slotNames.contains a.slot = true) (name : Bytes) :
    (l.foldl (fun available access =>
      if t.has access.slot.slot then
        match t.slotNames.find? access.slot with
        | some name => available.insert name access.slot
        | none => available
      else available) m).find? name =
      if l.any (fun a => decide (t.names.find? name = some a.slot)) then t.names.find? name
      else m.find? name := by
  induction l generalizing m with
  | nil => rfl
  | cons a l ih =>
      obtain ⟨n, hn⟩ := Option.isSome_iff_exists.mp (hl a List.mem_cons_self)
      have hnamed := (h.inverse n a.slot).mpr hn
      rw [List.foldl_cons, ih _ fun a' ha' => hl a' (List.mem_cons_of_mem _ ha'),
        if_pos (h.live _ _ hn).2, hn, List.any_cons]
      dsimp only
      by_cases hrest : l.any (fun a => decide (t.names.find? name = some a.slot)) = true
      · simp [hrest]
      · rw [if_neg hrest, OrdMap.find?_insert]
        by_cases hname : name = n
        · subst hname
          simp [hnamed]
        · have hne : t.names.find? name ≠ some a.slot := by
            intro hsame
            have := (h.inverse name a.slot).mp hsame
            rw [hn] at this
            exact hname (Option.some.inj this).symm
          simp [hname, hne, hrest]

/-- `get_components` lists the names the behavior has access to. -/
theorem Ok.find?_componentsOf {world : UInt64} {t : TypeRecord C} (h : t.Ok world)
    (b : BehaviorId) (name : Bytes) : (t.componentsOf b).find? name =
      if (t.accessNamed b name).isSome then t.names.find? name else none := by
  have hfold : ∀ l, (∀ a ∈ l, t.slotNames.contains a.slot = true ∧ a.mode ≠ .unknown) →
      t.accessesOf b = l → (t.componentsOf b).find? name =
        if (t.accessNamed b name).isSome then t.names.find? name else none := by
    intro l hl heq
    unfold componentsOf
    rw [heq]
    refine (find?_componentsFold h l .empty (fun a ha => (hl a ha).1) name).trans ?_
    cases hname : t.names.find? name with
    | none =>
        unfold accessNamed
        rw [hname]
        simp
    | some slot =>
        rw [World.accessNamed_isSome hname]
        have hany : (t.reads b slot || t.writes b slot) =
            l.any fun a => decide (some slot = some a.slot) := by
          unfold reads writes
          rw [heq, Bool.eq_iff_iff]
          simp only [Bool.or_eq_true, List.any_eq_true, decide_eq_true_eq, Option.some.injEq]
          constructor
          · rintro (⟨a, ha, hs, _⟩ | ⟨a, ha, hs, _⟩)
            · exact ⟨a, ha, hs.symm⟩
            · exact ⟨a, ha, hs.symm⟩
          · rintro ⟨a, ha, hs⟩
            cases hm : a.mode with
            | unknown => exact absurd hm (hl a ha).2
            | read => exact Or.inl ⟨a, ha, hs.symm, by rw [hm]; rfl⟩
            | readWrite => exact Or.inl ⟨a, ha, hs.symm, by rw [hm]; rfl⟩
            | write => exact Or.inr ⟨a, ha, hs.symm, by rw [hm]; rfl⟩
        rw [hany]
        rfl
  cases hl : t.accesses.find? b with
  | none =>
      refine hfold [] (fun a ha => absurd ha List.not_mem_nil) ?_
      unfold accessesOf
      rw [hl]
      rfl
  | some l =>
      refine hfold l (h.accesses b l hl).known ?_
      unfold accessesOf
      rw [hl]
      rfl

end TypeRecord

theorem accessMode_rights_any (reads writes : Bool) :
    (accessMode reads writes).any ComponentAccessMode.reads = reads ∧
      (accessMode reads writes).any ComponentAccessMode.writes = writes := by
  cases reads <;> cases writes <;> exact ⟨rfl, rfl⟩

namespace World

/-- The rights by name are those of the access mode. -/
theorem rights_named {w : World C} (h : w.components.Ok) {type : ComponentType}
    {t : TypeRecord C} (ht : w.components.typeRecord type = .ok t) (b : BehaviorId)
    (name : Bytes) :
    w.components.canReadNamed type b name =
        (w.components.access b type.id name).any ComponentAccessMode.reads ∧
      w.components.canWriteNamed type b name =
        (w.components.access b type.id name).any ComponentAccessMode.writes := by
  have hslot : w.components.componentSlot type name = ComponentRegistry.namedSlot t name := by
    unfold ComponentRegistry.componentSlot
    rw [ht]
    rfl
  unfold ComponentRegistry.canReadNamed ComponentRegistry.canWriteNamed ComponentRegistry.access
    TypeRecord.accessNamed
  rw [hslot, ComponentRegistry.typeRecord_eq_ok ht, Option.bind_some]
  cases hname : t.names.find? name with
  | none =>
      unfold ComponentRegistry.namedSlot
      rw [hname]
      exact ⟨rfl, rfl⟩
  | some slot =>
      obtain ⟨hr, hw⟩ := canRead_named h ht hname b
      obtain ⟨hr', hw'⟩ := accessMode_rights_any (t.reads b slot) (t.writes b slot)
      unfold ComponentRegistry.namedSlot
      rw [hname, Option.bind_some, hr', hw']
      exact ⟨hr, hw⟩

/-- The type is registered in both, and the behavior has the same access to it in both. -/
structure SameAccess (w w' : World C) (type : ComponentType) (b : BehaviorId) : Prop where
  known : ∃ t, w.components.typeRecord type = .ok t
  known' : ∃ t, w'.components.typeRecord type = .ok t
  access : ∀ name, w'.components.access b type.id name = w.components.access b type.id name
  slots : ∀ name, w.components.access b type.id name ≠ none →
    w'.components.slots type.id name = w.components.slots type.id name

theorem SameAccess.componentsOf {w w' : World C} {type : ComponentType} {b : BehaviorId}
    (h : SameAccess w w' type b) (hw : w.components.Ok) (hw' : w'.components.Ok)
    {t t' : TypeRecord C} (ht : w.components.typeRecord type = .ok t)
    (ht' : w'.components.typeRecord type = .ok t') : t'.componentsOf b = t.componentsOf b := by
  have hfind := ComponentRegistry.typeRecord_eq_ok ht
  have hfind' := ComponentRegistry.typeRecord_eq_ok ht'
  refine OrdMap.ext_find? fun name => ?_
  have hacc := h.access name
  have hslots := h.slots name
  unfold ComponentRegistry.access at hacc hslots
  unfold ComponentRegistry.slots at hslots
  rw [hfind, hfind', Option.bind_some, Option.bind_some] at hacc
  rw [hfind, hfind', Option.bind_some, Option.bind_some, Option.bind_some] at hslots
  rw [(hw.types _ t hfind).find?_componentsOf, (hw'.types _ t' hfind').find?_componentsOf, hacc]
  by_cases hsome : (t.accessNamed b name).isSome = true
  · rw [if_pos hsome, if_pos hsome, hslots (Option.isSome_iff_ne_none.mp hsome)]
  · rw [if_neg hsome, if_neg hsome]

theorem describe_congr {w w' : World C} {type : ComponentType} {b : BehaviorId}
    (h : SameAccess w w' type b) (hw : w.components.Ok) (hw' : w'.components.Ok)
    (hb : w.behaviors.exist b = true) (hb' : w'.behaviors.exist b = true) (i : Nat) :
    describe type w' b i = describe type w b i := by
  obtain ⟨t, ht⟩ := h.known
  obtain ⟨t', ht'⟩ := h.known'
  have hcomponents : ∀ {v : World C} {u : TypeRecord C}, v.behaviors.exist b = true →
      v.components.typeRecord type = .ok u → v.getComponents type b = .ok (u.componentsOf b) := by
    intro v u hvb hu
    unfold getComponents ensureBehavior
    rw [if_neg (by simp [hvb]), hu]
    rfl
  have hrights : ∀ name, w'.components.canReadNamed type b name =
        w.components.canReadNamed type b name ∧
      w'.components.canWriteNamed type b name = w.components.canWriteNamed type b name := by
    intro name
    rw [(rights_named hw ht b name).1, (rights_named hw ht b name).2,
      (rights_named hw' ht' b name).1, (rights_named hw' ht' b name).2, h.access name]
    exact ⟨rfl, rfl⟩
  unfold describe
  rw [hcomponents hb ht, hcomponents hb' ht', h.componentsOf hw hw' ht ht']
  simp only [hrights]

/-! ## What a revision stands for -/

/-- A description names a type of the world and a behavior of it. -/
theorem describe_eq_ok {w : World C} {type : ComponentType} {b : BehaviorId} {i : Nat}
    {d : List CapabilityDescription} (h : describe type w b i = .ok d) :
    ∃ t, w.components.typeRecord type = .ok t := by
  obtain ⟨components, hcomponents, _⟩ := bind_eq_ok h
  obtain ⟨_, _, hcomponents⟩ := bind_eq_ok hcomponents
  obtain ⟨t, ht, _⟩ := bind_eq_ok hcomponents
  exact ⟨t, ht⟩

theorem describeFrom_congr {w w' : World C} {b : BehaviorId} {bindings : List ComponentType}
    {i : Nat} {d : List CapabilityDescription} (h : w.describeFrom b bindings i = .ok d)
    (hsame : ∀ type i d, describe type w b i = .ok d → describe type w' b i = .ok d) :
    w'.describeFrom b bindings i = .ok d := by
  induction bindings generalizing i d with
  | nil => exact h
  | cons type rest ih =>
      obtain ⟨first, hfirst, h⟩ := bind_eq_ok h
      obtain ⟨later, hlater, h⟩ := bind_eq_ok h
      unfold describeFrom
      rw [hsame type i first hfirst, ih hlater]
      exact h

end World

/-- When a handle names a type of the registry. -/
theorem ComponentRegistry.typeRecord_ok_iff {r : ComponentRegistry C} {type : ComponentType} :
    (∃ t, r.typeRecord type = .ok t) ↔
      (type.world ≠ 0 → type.world = r.worldId ∧ type.generation = 1) ∧
        ∃ t, r.types.find? type.id = some t ∧ t.component = type.component := by
  unfold ComponentRegistry.typeRecord
  by_cases hworld : type.world ≠ 0 ∧ type.world ≠ r.worldId
  · simp [hworld]
  rw [if_neg hworld]
  by_cases hgeneration : type.world ≠ 0 ∧ type.generation ≠ 1
  · simp [hgeneration]
  rw [if_neg hgeneration]
  have hcurrent : type.world ≠ 0 → type.world = r.worldId ∧ type.generation = 1 := fun h0 =>
    ⟨by_contra fun hne => hworld ⟨h0, hne⟩, by_contra fun hne => hgeneration ⟨h0, hne⟩⟩
  cases hfind : r.types.find? type.id with
  | none => simp
  | some t =>
      by_cases hcomponent : t.component = type.component
      · simpa [hcomponent] using hcurrent
      · simp [hcomponent]

namespace World

/-- A type that is registered stays registered. -/
theorem Advanced.typeRecord {w w' : World C} (h : Advanced w w') (hs : Situated w w')
    {type : ComponentType} (ht : ∃ t, w.components.typeRecord type = .ok t) :
    ∃ t', w'.components.typeRecord type = .ok t' := by
  obtain ⟨hcurrent, t, hfind, hcomponent⟩ := ComponentRegistry.typeRecord_ok_iff.mp ht
  have hschema : w.components.schemas type.id = some (t.component, t.name, t.version) := by
    unfold ComponentRegistry.schemas
    rw [hfind]
    rfl
  have hschema' := h.schemas _ _ hschema
  unfold ComponentRegistry.schemas at hschema'
  obtain ⟨t', hfind', heq⟩ := Option.map_eq_some_iff.mp hschema'
  refine ComponentRegistry.typeRecord_ok_iff.mpr ⟨?_, t', hfind', ?_⟩
  · rw [hs.2]
    exact hcurrent
  · exact (congrArg Prod.fst heq).trans hcomponent

/-- No revision is ahead of the last one drawn. -/
def Dated (w : World C) : Prop :=
  ∀ b revision, w.behaviorAccessRevisions.find? b = some revision →
    revision ≤ w.lastBehaviorAccessRevision

theorem Revised.dated {w w' : World C} (h : Revised w w') (hw : Dated w) : Dated w' := by
  intro b revision hf
  rcases h.access b revision hf with ⟨hf', _⟩ | ⟨_, hle⟩
  · exact (hw b revision hf').trans h.last
  · exact hle

/-- Descriptions made at this revision are right as long as it is the current one. -/
structure Fresh (bindings : List ComponentType) (w : World C) (b : BehaviorId)
    (found : CachedCapabilities) : Prop where
  dated : found.revision ≤ w.lastBehaviorAccessRevision
  right : w.behaviorAccessRevisions.find? b = some found.revision →
    w.describeAll b bindings = .ok found.descriptions

/-- The parts of a world that descriptions are made from. -/
structure Described (w : World C) : Prop where
  components : w.components.Ok
  revised : ∀ b, w.behaviorAccessRevisions.contains b = true → w.behaviors.exist b = true

theorem Fresh.carried {bindings : List ComponentType} {w w' : World C} {b : BehaviorId}
    {found : CachedCapabilities} (h : Fresh bindings w b found) (hw : Described w)
    (hw' : Described w') (hr : Revised w w')
    (htypes : ∀ type, (∃ t, w.components.typeRecord type = .ok t) →
      ∃ t', w'.components.typeRecord type = .ok t') : Fresh bindings w' b found := by
  refine ⟨h.dated.trans hr.last, fun hf => ?_⟩
  rcases hr.access b _ hf with ⟨hold, hsame⟩ | ⟨hlt, _⟩
  · have hexists : ∀ {v : World C}, Described v →
        v.behaviorAccessRevisions.find? b = some found.revision → v.behaviors.exist b = true := by
      intro v hv hfind
      refine hv.revised b ?_
      rw [OrdMap.contains, hfind]
      rfl
    refine describeFrom_congr (h.right hold) fun type i d hd => ?_
    obtain ⟨t, ht⟩ := describe_eq_ok hd
    rw [describe_congr ⟨⟨t, ht⟩, htypes type ⟨t, ht⟩, fun name => (hsame type.id name).1,
      fun name => (hsame type.id name).2⟩ hw.components hw'.components (hexists hw hold)
      (hexists hw' hf)]
    exact hd
  · exact absurd h.dated (UInt64.not_le.mpr hlt)

theorem Ok.described {w : World C} (h : Ok w) : Described w :=
  ⟨h.held.ready.components, h.held.revised⟩

theorem Fresh.advanced {bindings : List ComponentType} {w w' : World C} {b : BehaviorId}
    {found : CachedCapabilities} (h : Fresh bindings w b found) (hw : Ok w)
    (ha : Advanced w w') (hs : Situated w w') : Fresh bindings w' b found :=
  h.carried hw.described ha.ok.described ha.revised fun _ ht => ha.typeRecord hs ht

/-! ## While systems run -/

/-- `v` is the world itself, or the world after some calls of its running systems. -/
def Amid (w v : World C) : Prop := v = w ∨ Hosted (underway w) v

/-- For descriptions the world and the world while its systems run are the same. -/
structure Mirrored (w v : World C) : Prop where
  instanceId : v.instanceId = w.instanceId
  behaviors : v.behaviors = w.behaviors
  revisions : v.behaviorAccessRevisions = w.behaviorAccessRevisions
  last : v.lastBehaviorAccessRevision = w.lastBehaviorAccessRevision
  components : w.components.Revalued v.components

theorem Amid.mirrored {w v : World C} (h : Amid w v) (hw : Ok w) : Mirrored w v := by
  rcases h with rfl | h
  · exact ⟨rfl, rfl, rfl, rfl, .refl _⟩
  · have hready := hw.held.ready
    have hquiet := (h.tended ⟨hready.components, hready.intents, hready.idle,
      hready.inactive⟩).quiet
    have hrest := hquiet.rest
    exact ⟨by rw [hrest]; rfl, by rw [hrest]; rfl, by rw [hrest]; rfl, by rw [hrest]; rfl,
      hquiet.components⟩

namespace Mirrored

variable {w v : World C}

theorem described (h : Mirrored w v) (hw : Ok w) : Described v := by
  refine ⟨h.components.ok hw.held.ready.components, fun b hc => ?_⟩
  rw [h.revisions] at hc
  rw [h.behaviors]
  exact hw.held.revised b hc

theorem revised (h : Mirrored w v) : Revised w v ∧ Revised v w := by
  refine ⟨⟨h.last ▸ le_refl _, fun b revision hf => Or.inl ?_⟩,
    ⟨h.last ▸ le_refl _, fun b revision hf => Or.inl ?_⟩⟩
  · rw [h.components.access, h.components.slots, ← h.revisions]
    exact ⟨hf, fun _ _ => ⟨rfl, fun _ => rfl⟩⟩
  · rw [h.components.access, h.components.slots, h.revisions]
    exact ⟨hf, fun _ _ => ⟨rfl, fun _ => rfl⟩⟩

theorem known (h : Mirrored w v) (type : ComponentType) :
    (∃ t, v.components.typeRecord type = .ok t) ↔ ∃ t, w.components.typeRecord type = .ok t := by
  rw [ComponentRegistry.typeRecord_ok_iff, ComponentRegistry.typeRecord_ok_iff,
    h.components.worldId]
  refine and_congr_right fun _ => ⟨?_, ?_⟩
  · rintro ⟨t', hfind', hcomponent⟩
    obtain ⟨t, hfind, hrev⟩ := h.components.types_back hfind'
    rw [hrev.rest] at hcomponent
    exact ⟨t, hfind, hcomponent⟩
  · rintro ⟨t, hfind, hcomponent⟩
    obtain ⟨t', hfind', hrev⟩ := h.components.types _ t hfind
    refine ⟨t', hfind', ?_⟩
    rw [hrev.rest]
    exact hcomponent

theorem fresh (h : Mirrored w v) (hw : Ok w) {bindings : List ComponentType} {b : BehaviorId}
    {found : CachedCapabilities} : Fresh bindings v b found ↔ Fresh bindings w b found := by
  constructor
  · intro hf
    exact hf.carried (h.described hw) hw.described h.revised.2 fun type => (h.known type).mp
  · intro hf
    exact hf.carried hw.described (h.described hw) h.revised.1 fun type => (h.known type).mpr

end Mirrored

end World

/-! ## The runner's cache -/

namespace LuaBehaviorRunner

/-- Every entry of the cache has `P`. -/
structure Holds (bindings : List ComponentType)
    (P : UInt64 → BehaviorId → CachedCapabilities → Prop) (r : LuaBehaviorRunner) : Prop where
  bindings : r.bindings = bindings
  entries : ∀ key found, r.cache.find? key = some found → P (ofLex key).1 (ofLex key).2 found

theorem find?_existing {w : World C} {cache : OrdMap (UInt64 ×ₗ BehaviorId) CachedCapabilities}
    {key : UInt64 ×ₗ BehaviorId} {found : CachedCapabilities}
    (h : (existing w cache).find? key = some found) : cache.find? key = some found := by
  unfold existing at h
  generalize cache.keys = keys at h
  induction keys generalizing cache with
  | nil => exact h
  | cons k keys ih =>
      rw [List.foldl_cons] at h
      have hrest := ih h
      split at hrest
      · exact hrest
      · rw [OrdMap.find?_erase] at hrest
        split at hrest
        · cases hrest
        · exact hrest

section Runner

variable {bindings : List ComponentType} {P : UInt64 → BehaviorId → CachedCapabilities → Prop}
  {w : World C} {owner : BehaviorId}

/-- An answer is for a behavior that has a revision. -/
theorem wp_capabilitiesFor_revision (r : LuaBehaviorRunner) :
    wp (capabilitiesFor w owner)
      (fun _ _ => ∃ revision, w.behaviorAccessRevision owner = .ok revision) (fun _ _ => True) r := by
  have hlookup : ∀ r₁ : LuaBehaviorRunner, wp (do
      let revision ← lift (w.behaviorAccessRevision owner)
      let r ← get
      match r.cache.find? (toLex (w.instanceId, owner)) with
      | some found =>
          if found.revision = revision then return found.descriptions
          else refresh w owner revision
      | none =>
          if r.cache.size ≥ maximumCachedCapabilityEntries then pruneCache w
          refresh w owner revision)
      (fun _ _ => ∃ revision, w.behaviorAccessRevision owner = .ok revision) (fun _ _ => True) r₁ := by
    intro r₁
    rw [wp_bind, wp_lift]
    exact ⟨fun revision hrevision =>
      wp_of_forall (fun _ _ => ⟨revision, hrevision⟩) fun _ _ => trivial, fun _ _ => trivial⟩
  unfold capabilitiesFor
  rw [wp_bind, wp_get]
  by_cases hworld : r.cachedWorld ≠ some w.instanceId
  · rw [if_pos hworld, wp_bind, wp_modify]
    exact hlookup _
  · rw [if_neg hworld]
    exact hlookup r

theorem wp_refresh {r : LuaBehaviorRunner} (hr : Holds bindings P r) {revision : UInt64}
    (hnew : ∀ d, w.describeAll owner bindings = .ok d → P w.instanceId owner ⟨revision, d⟩) :
    wp (refresh w owner revision)
      (fun d r' => w.describeAll owner bindings = .ok d ∧ Holds bindings P r')
      (fun e r' => w.describeAll owner bindings = .error e ∧ Holds bindings P r') r := by
  unfold refresh
  rw [wp_bind, wp_get, wp_bind, wp_lift, hr.bindings]
  refine ⟨fun d hd => ?_, fun e he => ⟨he, hr⟩⟩
  rw [wp_bind, wp_modify, wp_pure]
  refine ⟨hd, hr.bindings, fun key found hfind => ?_⟩
  dsimp only at hfind
  rw [OrdMap.find?_insert] at hfind
  split at hfind
  · next hkey =>
      cases hfind
      rw [hkey]
      exact hnew d hd
  · exact hr.entries key found hfind

/-- `capabilities_for`: the descriptions of the world as it is, however the entries came about
    that the cache holds, drops or clears. -/
theorem wp_capabilitiesFor {r : LuaBehaviorRunner} (hr : Holds bindings P r)
    (hright : ∀ revision found, w.behaviorAccessRevision owner = .ok revision →
      P w.instanceId owner found → found.revision = revision →
      w.describeAll owner bindings = .ok found.descriptions)
    (hnew : ∀ revision d, w.behaviorAccessRevision owner = .ok revision →
      w.describeAll owner bindings = .ok d → P w.instanceId owner ⟨revision, d⟩) :
    wp (capabilitiesFor w owner)
      (fun d r' => w.describeAll owner bindings = .ok d ∧ Holds bindings P r')
      (fun e r' => (w.behaviorAccessRevision owner = .error e ∨
        w.describeAll owner bindings = .error e) ∧ Holds bindings P r') r := by
  have hlookup : ∀ r₁, Holds bindings P r₁ → wp (do
      let revision ← lift (w.behaviorAccessRevision owner)
      let r ← get
      match r.cache.find? (toLex (w.instanceId, owner)) with
      | some found =>
          if found.revision = revision then return found.descriptions
          else refresh w owner revision
      | none =>
          if r.cache.size ≥ maximumCachedCapabilityEntries then pruneCache w
          refresh w owner revision)
      (fun d r' => w.describeAll owner bindings = .ok d ∧ Holds bindings P r')
      (fun e r' => (w.behaviorAccessRevision owner = .error e ∨
        w.describeAll owner bindings = .error e) ∧ Holds bindings P r') r₁ := by
    intro r₁ hr₁
    rw [wp_bind, wp_lift]
    refine ⟨fun revision hrevision => ?_, fun e he => ⟨Or.inl he, hr₁⟩⟩
    have hrefresh : ∀ r₂, Holds bindings P r₂ → wp (refresh w owner revision)
        (fun d r' => w.describeAll owner bindings = .ok d ∧ Holds bindings P r')
        (fun e r' => (w.behaviorAccessRevision owner = .error e ∨
          w.describeAll owner bindings = .error e) ∧ Holds bindings P r') r₂ := fun r₂ hr₂ =>
      wp_mono (wp_refresh hr₂ fun d hd => hnew revision d hrevision hd) (fun _ _ h => h)
        fun _ _ h => ⟨Or.inr h.1, h.2⟩
    rw [wp_bind, wp_get]
    cases hfound : r₁.cache.find? (toLex (w.instanceId, owner)) with
    | some found =>
        dsimp only
        by_cases hcurrent : found.revision = revision
        · rw [if_pos hcurrent, wp_pure]
          exact ⟨hright revision found hrevision (hr₁.entries _ found hfound) hcurrent, hr₁⟩
        · rw [if_neg hcurrent]
          exact hrefresh r₁ hr₁
    | none =>
        dsimp only
        by_cases hfull : r₁.cache.size ≥ maximumCachedCapabilityEntries
        · rw [if_pos hfull, wp_bind]
          unfold pruneCache
          rw [wp_modify]
          refine hrefresh _ ⟨hr₁.bindings, fun key found hfind => ?_⟩
          dsimp only at hfind
          split at hfind
          · cases hfind
          · exact hr₁.entries key found (find?_existing hfind)
        · rw [if_neg hfull]
          exact hrefresh r₁ hr₁
  unfold capabilitiesFor
  rw [wp_bind, wp_get]
  by_cases hworld : r.cachedWorld ≠ some w.instanceId
  · rw [if_pos hworld, wp_bind, wp_modify]
    exact hlookup _ ⟨hr.bindings, fun key found hfind => by cases hfind⟩
  · rw [if_neg hworld]
    exact hlookup r hr

end Runner

end LuaBehaviorRunner

/-! ## Processes -/

/-- The worlds of a process and one runner. A world that is destroyed is one that is not used
    any more, for its id is not given out again. -/
structure Process (C : Type) where
  worlds : OrdMap UInt64 (World C)
  nextWorld : UInt64
  runner : LuaBehaviorRunner

namespace Process

def initial (bindings : List ComponentType) : Process C where
  worlds := .empty
  nextWorld := 1
  runner := .initial bindings

/-- A world is made, an operation runs on one, or the runner is asked about one. -/
inductive Step : Process C → Process C → Prop where
  | createWorld (p : Process C) (hnext : p.nextWorld ≠ maxU64) :
      Step p { p with
        worlds := p.worlds.insert p.nextWorld (.initial p.nextWorld)
        nextWorld := p.nextWorld + 1 }
  | operate (p : Process C) (id : UInt64) (w : World C) (op : World.Op C)
      (hw : p.worlds.find? id = some w) :
      Step p { p with worlds := p.worlds.insert id (op.step w) }
  | ask (p : Process C) (id : UInt64) (w v : World C) (owner : BehaviorId)
      (hw : p.worlds.find? id = some w) (hv : World.Amid w v) :
      Step p { p with runner := after (LuaBehaviorRunner.capabilitiesFor v owner) p.runner }

abbrev Run (bindings : List ComponentType) (p : Process C) : Prop :=
  Relation.ReflTransGen Step (initial bindings) p

/-- The entry is fresh in its world. -/
def EntryFresh (bindings : List ComponentType) (p : Process C) (id : UInt64) (b : BehaviorId)
    (found : CachedCapabilities) : Prop :=
  ∃ w, p.worlds.find? id = some w ∧ World.Fresh bindings w b found

structure Inv (bindings : List ComponentType) (p : Process C) : Prop where
  worlds : ∀ id w, p.worlds.find? id = some w → w.Ok ∧ w.Dated ∧ w.instanceId = id ∧
    id < p.nextWorld
  cache : LuaBehaviorRunner.Holds bindings (p.EntryFresh bindings) p.runner

variable {bindings : List ComponentType} {p p' : Process C}

theorem behaviorAccessRevision_eq_ok {w : World C} {b : BehaviorId} {revision : UInt64}
    (h : w.behaviorAccessRevision b = .ok revision) :
    w.behaviorAccessRevisions.find? b = some revision := by
  unfold World.behaviorAccessRevision at h
  split at h
  · cases h
  · split at h
    · cases h
    · next hfind =>
        cases h
        exact hfind

/-- The answer of a runner whose entries are fresh, in a world that is as one of the process. -/
theorem Inv.wp_asked (h : Inv bindings p) {id : UInt64} {w v : World C}
    (hw : p.worlds.find? id = some w) (hv : World.Mirrored w v) {r : LuaBehaviorRunner}
    (hr : LuaBehaviorRunner.Holds bindings (p.EntryFresh bindings) r) (owner : BehaviorId) :
    wp (LuaBehaviorRunner.capabilitiesFor v owner)
      (fun d r' => v.describeAll owner bindings = .ok d ∧
        LuaBehaviorRunner.Holds bindings (p.EntryFresh bindings) r')
      (fun e r' => (v.behaviorAccessRevision owner = .error e ∨
        v.describeAll owner bindings = .error e) ∧
        LuaBehaviorRunner.Holds bindings (p.EntryFresh bindings) r') r := by
  obtain ⟨hok, hdated, hid, _⟩ := h.worlds id w hw
  have hvid : v.instanceId = id := hv.instanceId.trans hid
  refine LuaBehaviorRunner.wp_capabilitiesFor hr (fun revision found hrevision hentry heq => ?_)
    (fun revision d hrevision hd => ?_)
  · obtain ⟨w', hw', hfresh⟩ := hentry
    rw [hvid, hw] at hw'
    cases hw'
    refine ((hv.fresh hok).mpr hfresh).right ?_
    rw [heq]
    exact behaviorAccessRevision_eq_ok hrevision
  · refine ⟨w, hvid ▸ hw, (hv.fresh hok).mp ⟨?_, fun _ => hd⟩⟩
    have hfind := behaviorAccessRevision_eq_ok hrevision
    rw [hv.revisions] at hfind
    rw [hv.last]
    exact hdated owner revision hfind

/-- The runner's answer, in a process whose entries are fresh. -/
theorem Inv.wp_ask (h : Inv bindings p) {id : UInt64} {w v : World C}
    (hw : p.worlds.find? id = some w) (hv : World.Amid w v) (owner : BehaviorId) :
    wp (LuaBehaviorRunner.capabilitiesFor v owner)
      (fun d r' => v.describeAll owner bindings = .ok d ∧
        LuaBehaviorRunner.Holds bindings (p.EntryFresh bindings) r')
      (fun e r' => (v.behaviorAccessRevision owner = .error e ∨
        v.describeAll owner bindings = .error e) ∧
        LuaBehaviorRunner.Holds bindings (p.EntryFresh bindings) r') p.runner :=
  h.wp_asked hw (hv.mirrored (h.worlds id w hw).1) h.cache owner

theorem initial_inv (bindings : List ComponentType) : Inv bindings (initial bindings : Process C) :=
  ⟨nofun, rfl, nofun⟩

theorem Inv.step (h : Inv bindings p) (hstep : Step p p') : Inv bindings p' := by
  -- entries about a world stay fresh while it is followed by another state of it
  have hentries : ∀ (worlds : OrdMap UInt64 (World C)) (next : UInt64),
      (∀ id w, p.worlds.find? id = some w → ∃ w', worlds.find? id = some w' ∧
        ∀ b found, World.Fresh bindings w b found → World.Fresh bindings w' b found) →
      LuaBehaviorRunner.Holds bindings
        (EntryFresh bindings { p with worlds, nextWorld := next }) p.runner := by
    intro worlds next hkept
    refine ⟨h.cache.bindings, fun key found hfind => ?_⟩
    obtain ⟨w, hw, hfresh⟩ := h.cache.entries key found hfind
    obtain ⟨w', hw', hcarried⟩ := hkept _ w hw
    exact ⟨w', hw', hcarried _ _ hfresh⟩
  cases hstep with
  | createWorld hnext =>
      have hlt : p.nextWorld < p.nextWorld + 1 := IntentRegistry.lt_succ_of_ne_maxU64 hnext
      refine ⟨fun id w hw => ?_, hentries _ _ fun id w hw => ⟨w, ?_, fun _ _ hf => hf⟩⟩
      · dsimp only at hw ⊢
        rw [OrdMap.find?_insert] at hw
        split at hw
        · next hid =>
            cases hw
            rw [hid]
            exact ⟨World.initial_ok _, nofun, rfl, hlt⟩
        · obtain ⟨hok, hdated, hwid, hbelow⟩ := h.worlds id w hw
          exact ⟨hok, hdated, hwid, UInt64.lt_trans hbelow hlt⟩
      · rw [OrdMap.find?_insert, if_neg]
        · exact hw
        · rintro rfl
          exact absurd (h.worlds _ w hw).2.2.2 (UInt64.lt_irrefl _)
  | operate id w op hw =>
      obtain ⟨hok, hdated, hid, hbelow⟩ := h.worlds id w hw
      have hadvanced := op.advanced hok
      have hsituated : World.Situated w (op.step w) := op.situated w
      refine ⟨fun id' w' hw' => ?_, hentries _ p.nextWorld fun id' w' hw' => ?_⟩
      · dsimp only at hw' ⊢
        rw [OrdMap.find?_insert] at hw'
        split at hw'
        · next hsame =>
            cases hw'
            rw [hsame]
            exact ⟨hadvanced.ok, hadvanced.revised.dated hdated, hsituated.1.trans hid, hbelow⟩
        · exact h.worlds id' w' hw'
      · by_cases hsame : id' = id
        · subst hsame
          rw [hw] at hw'
          cases hw'
          refine ⟨op.step w, OrdMap.find?_insert_self .., fun b found hf => ?_⟩
          exact hf.advanced hok hadvanced hsituated
        · exact ⟨w', by rw [OrdMap.find?_insert_ne _ hsame]; exact hw', fun _ _ hf => hf⟩
  | ask id w v owner hw hv =>
      refine ⟨h.worlds, ?_⟩
      exact wp_after.mp (wp_mono (h.wp_ask hw hv owner) (fun _ _ h' => h'.2) fun _ _ h' => h'.2)

theorem Run.inv (h : Run bindings p) : Inv bindings p := by
  induction h with
  | refl => exact initial_inv bindings
  | tail _ hstep ih => exact ih.step hstep

/-- In every process, whenever the runner is asked: the answer is what the bindings describe in
    the world as it is, and it throws only if the behavior has no revision or a binding throws. -/
theorem capabilities_coherent (h : Run bindings p) {id : UInt64} {w v : World C}
    (hw : p.worlds.find? id = some w) (hv : World.Amid w v) (owner : BehaviorId) :
    wp (LuaBehaviorRunner.capabilitiesFor v owner)
      (fun d _ => v.describeAll owner bindings = .ok d)
      (fun e _ => v.behaviorAccessRevision owner = .error e ∨
        v.describeAll owner bindings = .error e) p.runner :=
  wp_mono (h.inv.wp_ask hw hv owner) (fun _ _ h' => h'.1) fun _ _ h' => h'.1

/-- Operations on one world, one after the other. -/
theorem Run.operated (h : Run bindings p) {id : UInt64} {w : World C}
    (hw : p.worlds.find? id = some w) (ops : List (World.Op C)) :
    Run bindings { p with
      worlds := p.worlds.insert id (ops.foldl (fun w op => op.step w) w) } := by
  induction ops generalizing p w with
  | nil =>
      rw [List.foldl_nil, OrdMap.insert_of_find? hw]
      exact h
  | cons op ops ih =>
      have hnext := ih (h.tail (.operate p id w op hw)) (w := op.step w)
        (OrdMap.find?_insert_self ..)
      rw [OrdMap.insert_insert] at hnext
      exact hnext

/-! ### A cached description and a revocation -/

def lampType : ComponentType := ⟨0, 0, 1, 1⟩

def keeper : BehaviorId := ⟨1, 0, 1⟩

/-- A world with a behavior that can write one component. -/
def grantedWorld : World Unit :=
  ([.registerComponent 0 [67] 1 (some fun _ => .ok .null) (some fun _ => .ok ()),
    .addComponent lampType [108] (), .createBehavior World.silent,
    .grantComponentAccess World.silent lampType keeper [108] .write] :
      List (World.Op Unit)).foldl (fun w op => op.step w) (.initial 1)

def revokedWorld : World Unit :=
  ([.revokeComponentAccess World.silent lampType keeper [108]] : List (World.Op Unit)).foldl
    (fun w op => op.step w) grantedWorld

/-- The runner is asked, and then the access is revoked. -/
def revokedProcess : Process Unit where
  worlds := (OrdMap.empty.insert 1 grantedWorld).insert 1 revokedWorld
  nextWorld := 2
  runner := after (LuaBehaviorRunner.capabilitiesFor grantedWorld keeper) (.initial [lampType])

theorem revokedProcess_run : Run [lampType] revokedProcess := by
  have hstart : Run [lampType] (initial [lampType] : Process Unit) := .refl
  have hgranted := Run.operated (hstart.tail (.createWorld _ (by decide)))
    (OrdMap.find?_insert_self ..)
    [.registerComponent 0 [67] 1 (some fun _ => .ok .null) (some fun _ => .ok ()),
      .addComponent lampType [108] (), .createBehavior World.silent,
      .grantComponentAccess World.silent lampType keeper [108] .write]
  rw [OrdMap.insert_insert] at hgranted
  have hasked := hgranted.tail (.ask _ 1 grantedWorld grantedWorld keeper
    (OrdMap.find?_insert_self ..) (Or.inl rfl))
  exact Run.operated hasked (w := grantedWorld) (OrdMap.find?_insert_self ..)
    [.revokeComponentAccess World.silent lampType keeper [108]]

theorem capabilities_coherent_revoked :
    wp (LuaBehaviorRunner.capabilitiesFor revokedWorld keeper)
        (fun d _ => revokedWorld.describeAll keeper [lampType] = .ok d)
        (fun e _ => revokedWorld.behaviorAccessRevision keeper = .error e ∨
          revokedWorld.describeAll keeper [lampType] = .error e) revokedProcess.runner ∧
      revokedProcess.runner.cache.size = 1 ∧
      grantedWorld.describeAll keeper [lampType] = .ok [⟨0, [108], ⟨1, 0, 1⟩, false, true⟩] ∧
      revokedWorld.describeAll keeper [lampType] = .ok [] :=
  ⟨capabilities_coherent revokedProcess_run (OrdMap.find?_insert_self ..) (Or.inl rfl) keeper,
    by decide +kernel, by decide +kernel, by decide +kernel⟩

end Process

end LiquidLayer
