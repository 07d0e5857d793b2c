/-
  What the topology evidence is about.

  `Content` is a world as its topology evidence describes it: the live behaviors, the named
  components, the access modes, the component types and the systems. `Change` is what one
  operation does to it, with the entry the operation records. `World.content` reads the content
  off the registries; the operations are shown to make exactly their change.
-/
import LiquidLayer.World.Told

namespace LiquidLayer

/-! ## Contents -/

structure Content where
  live : BehaviorId → Bool
  slots : ComponentTypeId → Bytes → Option ComponentSlotId
  access : BehaviorId → ComponentTypeId → Bytes → Option ComponentAccessMode
  schemas : ComponentTypeId → Option (Nat × Bytes × UInt32)
  systems : Nat → Option SystemRecord

inductive Change where
  | createBehavior (behavior : BehaviorId)
  | destroyBehavior (behavior : BehaviorId)
  | registerComponent (type : ComponentType) (name : Bytes) (version : UInt32)
  | addComponent (type : ComponentTypeId) (name : Bytes) (slot : ComponentSlotId)
  | removeComponent (type : ComponentTypeId) (name : Bytes)
  | registerSystem (system : SystemType) (signature : Signature) (phase : SystemPhase)
  | setSystemSignature (system : SystemType) (signature : Signature)
  | destroySystem (system : SystemType)
  | grant (behavior : BehaviorId) (type : ComponentTypeId) (name : Bytes)
      (mode : ComponentAccessMode)
  | revoke (behavior : BehaviorId) (type : ComponentTypeId) (name : Bytes)

namespace Content

def setAccess (c : Content) (behavior : BehaviorId) (type : ComponentTypeId) (name : Bytes)
    (mode : Option ComponentAccessMode) : Content :=
  { c with access := fun b t n =>
      if b = behavior ∧ t = type ∧ n = name then mode else c.access b t n }

/-- The behavior has access to nothing. -/
def dropAccesses (c : Content) (behavior : BehaviorId) : Content :=
  { c with access := fun b t n => if b = behavior then none else c.access b t n }

def setSlot (c : Content) (type : ComponentTypeId) (name : Bytes)
    (slot : Option ComponentSlotId) : Content :=
  { c with
    slots := fun t n => if t = type ∧ n = name then slot else c.slots t n
    access := fun b t n => if t = type ∧ n = name then none else c.access b t n }

def setLive (c : Content) (behavior : BehaviorId) (live : Bool) : Content :=
  { c with live := fun b => if b = behavior then live else c.live b }

def setSystem (c : Content) (type : Nat) (record : Option SystemRecord) : Content :=
  { c with systems := fun t => if t = type then record else c.systems t }

end Content

namespace Change

def apply : Change → Content → Content
  | createBehavior behavior, c => c.setLive behavior true
  | destroyBehavior behavior, c => (c.dropAccesses behavior).setLive behavior false
  | registerComponent type name version, c =>
      { c with schemas := fun t =>
          if t = type.id then some (type.component, name, version) else c.schemas t }
  | addComponent type name slot, c => c.setSlot type name (some slot)
  | removeComponent type name, c => c.setSlot type name none
  | registerSystem system signature phase, c =>
      c.setSystem system.index
        (some ⟨signature, .empty, system.stableName, system.version, phase⟩)
  | setSystemSignature system signature, c =>
      c.setSystem system.index ((c.systems system.index).map fun record => { record with signature })
  | destroySystem system, c => c.setSystem system.index none
  | grant behavior type name mode, c => c.setAccess behavior type name (some mode)
  | revoke behavior type name, c => c.setAccess behavior type name none

/-- The key of the entry that records it. -/
def key : Change → Bytes
  | createBehavior behavior => World.behaviorKey behavior
  | destroyBehavior behavior => World.behaviorKey behavior
  | registerComponent _ name _ => World.componentTypeKey name
  | addComponent type name _ => World.componentKey type name
  | removeComponent type name => World.componentKey type name
  | registerSystem system _ _ => World.systemKey system.stableName
  | setSystemSignature system _ => World.systemKey system.stableName
  | destroySystem system => World.systemKey system.stableName
  | grant behavior type name _ => World.accessKey behavior type name
  | revoke behavior type name => World.accessKey behavior type name

/-- The fields of its value, when it is not a tombstone. -/
def fields : Change → Option (List (String × Value))
  | createBehavior behavior => some (World.behaviorFields behavior)
  | destroyBehavior _ => none
  | registerComponent type name version => some (World.componentTypeFields type name version)
  | addComponent type name slot => some (World.componentFields type name slot)
  | removeComponent _ _ => none
  | registerSystem system signature phase =>
      some (World.phasedSystemFields system signature phase)
  | setSystemSignature system signature => some (World.systemFields system signature)
  | destroySystem _ => none
  | grant behavior type name mode => some (World.accessFields behavior type name mode)
  | revoke _ _ _ => none

/-- The entry that records it. -/
def entry (change : Change) : TopologyMutation :=
  match change.fields with
  | some fields => ⟨change.key, .object (eventObject fields), false⟩
  | none => ⟨change.key, .null, true⟩

/-- Whether `Value` admits the entry. -/
def Recordable (change : Change) : Prop :=
  ∀ fields, change.fields = some fields → ∃ value, eventPayload fields = .ok value

end Change

/-! ## The content of the registries -/

/-- The mode with these rights. -/
def accessMode : Bool → Bool → Option ComponentAccessMode
  | true, false => some .read
  | false, true => some .write
  | true, true => some .readWrite
  | false, false => none

theorem accessMode_rights {mode : ComponentAccessMode} (h : mode ≠ .unknown) :
    accessMode mode.reads mode.writes = some mode := by
  cases mode with
  | unknown => exact absurd rfl h
  | read => rfl
  | write => rfl
  | readWrite => rfl

variable {C : Type}

def TypeRecord.accessNamed (t : TypeRecord C) (b : BehaviorId) (name : Bytes) :
    Option ComponentAccessMode :=
  (t.names.find? name).bind fun slot => accessMode (t.reads b slot) (t.writes b slot)

namespace ComponentRegistry

def slots (r : ComponentRegistry C) (type : ComponentTypeId) (name : Bytes) :
    Option ComponentSlotId :=
  (r.types.find? type).bind fun t => t.names.find? name

def access (r : ComponentRegistry C) (b : BehaviorId) (type : ComponentTypeId) (name : Bytes) :
    Option ComponentAccessMode :=
  (r.types.find? type).bind fun t => t.accessNamed b name

def schemas (r : ComponentRegistry C) (type : ComponentTypeId) : Option (Nat × Bytes × UInt32) :=
  (r.types.find? type).map fun t => (t.component, t.name, t.version)

end ComponentRegistry

def World.content (w : World C) : Content where
  live := w.behaviors.exist
  slots := w.components.slots
  access := w.components.access
  schemas := w.components.schemas
  systems type := (w.systems.systems.find? type).map SystemRecord.identity

/-! ## Changes of one type's record -/

namespace TypeRecord

theorem Reaccessed.accessNamed {world : UInt64} {t t' : TypeRecord C} {behavior : BehaviorId}
    {slot : ComponentSlotId} {mode : Option ComponentAccessMode}
    (h : Reaccessed world t behavior slot mode t') (ht : t.Ok world) {name : Bytes}
    (hname : t.names.find? name = some slot) (hmode : mode ≠ some .unknown) (b : BehaviorId)
    (n : Bytes) :
    t'.accessNamed b n = if b = behavior ∧ n = name then mode else t.accessNamed b n := by
  have hnames : t'.names = t.names := by rw [h.rest]
  unfold TypeRecord.accessNamed
  rw [hnames, reads_eq, writes_eq, reads_eq, writes_eq]
  cases hn : t.names.find? n with
  | none =>
      have hne : ¬(b = behavior ∧ n = name) := by
        rintro ⟨_, rfl⟩
        rw [hname] at hn
        cases hn
      rw [if_neg hne]
      rfl
  | some s =>
      rw [Option.bind_some, Option.bind_some, h.allows, h.allows]
      have hs : s = slot ↔ n = name := by
        constructor
        · rintro rfl
          have h1 := (ht.inverse n s).mp hn
          have h2 := (ht.inverse name s).mp hname
          rw [h1] at h2
          exact Option.some.inj h2
        · rintro rfl
          rw [hn] at hname
          exact Option.some.inj hname
      by_cases hbn : b = behavior ∧ n = name
      · have hbs : b = behavior ∧ s = slot := ⟨hbn.1, hs.mpr hbn.2⟩
        rw [if_pos hbn, if_pos hbs, if_pos hbs]
        cases mode with
        | none => rfl
        | some mode =>
            rw [Option.any_some, Option.any_some]
            exact accessMode_rights fun hu => hmode (by rw [hu])
      · have hbs : ¬(b = behavior ∧ s = slot) := fun h => hbn ⟨h.1, hs.mp h.2⟩
        rw [if_neg hbn, if_neg hbs, if_neg hbs]

theorem Removed.accessNamed {world : UInt64} {t t' : TypeRecord C} {name : Bytes}
    {slot : ComponentSlotId} (h : Removed world t name slot t') (ht : t.Ok world)
    (hname : t.names.find? name = some slot) (b : BehaviorId) (n : Bytes) :
    t'.accessNamed b n = if n = name then none else t.accessNamed b n := by
  unfold TypeRecord.accessNamed
  rw [h.names, OrdMap.find?_erase]
  by_cases hn : n = name
  · rw [if_pos hn, if_pos hn]
    rfl
  · rw [if_neg hn, if_neg hn]
    cases hs : t.names.find? n with
    | none => rfl
    | some s =>
        have hne : s ≠ slot := by
          rintro rfl
          have h1 := (ht.inverse n s).mp hs
          have h2 := (ht.inverse name s).mp hname
          rw [h1] at h2
          exact hn (Option.some.inj h2)
        rw [Option.bind_some, Option.bind_some, reads_eq, writes_eq, reads_eq, writes_eq,
          h.allows, h.allows]
        simp [hne]

theorem Added.accessNamed {world : UInt64} {t t' : TypeRecord C} {name : Bytes} {component : C}
    {slot : ComponentSlotId} (h : Added world t name component slot t') (ht : t.Ok world)
    (b : BehaviorId) (n : Bytes) :
    t'.accessNamed b n = if n = name then none else t.accessNamed b n := by
  have hallows : ∀ f s, t'.allows f b s = t.allows f b s := by
    intro f s
    unfold TypeRecord.allows TypeRecord.accessesOf
    rw [h.accesses]
  unfold TypeRecord.accessNamed
  rw [h.names, OrdMap.find?_insert]
  by_cases hn : n = name
  · rw [if_pos hn, if_pos hn, Option.bind_some]
    -- nothing has access to a slot without a name
    have hnone : ∀ f, t.allows f b slot = false := by
      intro f
      cases ha : t.allows f b slot with
      | false => rfl
      | true =>
          have := ht.allows_named ha
          rw [OrdMap.contains, h.unnamed] at this
          cases this
    rw [reads_eq, writes_eq, hallows, hallows, hnone, hnone]
    rfl
  · rw [if_neg hn, if_neg hn, reads_eq, writes_eq]
    simp only [hallows]
    rfl

theorem removeAccessesOf_accessNamed (t : TypeRecord C) (b b' : BehaviorId) (n : Bytes) :
    (t.removeAccessesOf b).accessNamed b' n = if b' = b then none else t.accessNamed b' n := by
  have hallows : ∀ f s, (t.removeAccessesOf b).allows f b' s =
      if b' = b then false else t.allows f b' s := by
    intro f s
    unfold TypeRecord.allows TypeRecord.accessesOf removeAccessesOf
    dsimp only
    rw [OrdMap.find?_erase]
    by_cases hb : b' = b <;> simp [hb]
  unfold TypeRecord.accessNamed
  rw [reads_eq, writes_eq, reads_eq, writes_eq]
  simp only [hallows]
  by_cases hb : b' = b
  · simp only [hb, if_true]
    show (t.names.find? n).bind (fun _ => none) = none
    cases t.names.find? n <;> rfl
  · simp only [hb, if_false]
    rfl

theorem Revalued.accessNamed {t t' : TypeRecord C} (h : Revalued t t') (b : BehaviorId)
    (n : Bytes) : t'.accessNamed b n = t.accessNamed b n := by
  rw [h.rest]
  rfl

end TypeRecord

/-! ## Changes of the registry -/

namespace ComponentRegistry

theorem slots_put (r : ComponentRegistry C) (id : ComponentTypeId) (t : TypeRecord C)
    (type : ComponentTypeId) (name : Bytes) :
    (r.put id t).slots type name = if type = id then t.names.find? name else r.slots type name := by
  unfold slots put
  dsimp only
  rw [OrdMap.find?_insert]
  split <;> rfl

theorem access_put (r : ComponentRegistry C) (id : ComponentTypeId) (t : TypeRecord C)
    (b : BehaviorId) (type : ComponentTypeId) (name : Bytes) :
    (r.put id t).access b type name =
      if type = id then t.accessNamed b name else r.access b type name := by
  unfold access put
  dsimp only
  rw [OrdMap.find?_insert]
  split <;> rfl

theorem schemas_put (r : ComponentRegistry C) (id : ComponentTypeId) (t : TypeRecord C)
    (type : ComponentTypeId) :
    (r.put id t).schemas type =
      if type = id then some (t.component, t.name, t.version) else r.schemas type := by
  unfold schemas put
  dsimp only
  rw [OrdMap.find?_insert]
  split <;> rfl

theorem Revalued.slots {r r' : ComponentRegistry C} (h : Revalued r r') : r'.slots = r.slots := by
  funext type name
  unfold ComponentRegistry.slots
  cases ht : r.types.find? type with
  | none => rw [h.none type ht]
  | some t =>
      obtain ⟨t', ht', hrev⟩ := h.types type t ht
      rw [ht', hrev.rest]
      rfl

theorem Revalued.access {r r' : ComponentRegistry C} (h : Revalued r r') :
    r'.access = r.access := by
  funext b type name
  unfold ComponentRegistry.access
  cases ht : r.types.find? type with
  | none => rw [h.none type ht]
  | some t =>
      obtain ⟨t', ht', hrev⟩ := h.types type t ht
      rw [ht', Option.bind_some, Option.bind_some, hrev.accessNamed]

theorem Revalued.schemas {r r' : ComponentRegistry C} (h : Revalued r r') :
    r'.schemas = r.schemas := by
  funext type
  unfold ComponentRegistry.schemas
  cases ht : r.types.find? type with
  | none => rw [h.none type ht]
  | some t =>
      obtain ⟨t', ht', hrev⟩ := h.types type t ht
      rw [ht', hrev.rest]
      rfl

end ComponentRegistry

namespace World

theorem content_grant {w : World C} {type : ComponentType} {t t' : TypeRecord C}
    (hw : w.components.Ok) (ht : w.components.typeRecord type = .ok t) {b : BehaviorId}
    {name : Bytes} {slot : ComponentSlotId} (hname : t.names.find? name = some slot)
    {mode : Option ComponentAccessMode} (hmode : mode ≠ some .unknown)
    (h : TypeRecord.Reaccessed w.components.worldId t b slot mode t') :
    ({ w with components := w.components.put type.id t' } : World C).content =
      w.content.setAccess b type.id name mode := by
  have hfind := ComponentRegistry.typeRecord_eq_ok ht
  have hrest := h.rest
  unfold content Content.setAccess
  dsimp only
  refine Content.mk.injEq .. |>.mpr ⟨rfl, ?_, ?_, ?_, rfl⟩
  · funext type' n
    rw [ComponentRegistry.slots_put]
    split
    · next hid =>
        unfold ComponentRegistry.slots
        rw [hid, hfind, hrest]
        rfl
    · rfl
  · funext b' type' n
    rw [ComponentRegistry.access_put]
    by_cases hid : type' = type.id
    · rw [if_pos hid, h.accessNamed (hw.types _ t hfind) hname hmode]
      unfold ComponentRegistry.access
      rw [hid, hfind, Option.bind_some]
      simp only [true_and]
    · rw [if_neg hid, if_neg fun hc => hid hc.2.1]
  · funext type'
    rw [ComponentRegistry.schemas_put]
    split
    · next hid =>
        unfold ComponentRegistry.schemas
        rw [hid, hfind, hrest]
        rfl
    · rfl

theorem content_remove {w : World C} {type : ComponentType} {t t' : TypeRecord C}
    (hw : w.components.Ok) (ht : w.components.typeRecord type = .ok t) {name : Bytes}
    {slot : ComponentSlotId} (hname : t.names.find? name = some slot)
    (h : TypeRecord.Removed w.components.worldId t name slot t') :
    ({ w with components := w.components.put type.id t' } : World C).content =
      w.content.setSlot type.id name none := by
  have hfind := ComponentRegistry.typeRecord_eq_ok ht
  unfold content Content.setSlot
  dsimp only
  refine Content.mk.injEq .. |>.mpr ⟨rfl, ?_, ?_, ?_, rfl⟩
  · funext type' n
    rw [ComponentRegistry.slots_put, h.names, OrdMap.find?_erase]
    unfold ComponentRegistry.slots
    by_cases hid : type' = type.id
    · rw [if_pos hid, hid, hfind, Option.bind_some]
      by_cases hn : n = name <;> simp [hn]
    · rw [if_neg hid, if_neg fun hc => hid hc.1]
  · funext b' type' n
    rw [ComponentRegistry.access_put, h.accessNamed (hw.types _ t hfind) hname]
    unfold ComponentRegistry.access
    by_cases hid : type' = type.id
    · rw [if_pos hid, hid, hfind, Option.bind_some]
      simp only [true_and]
    · rw [if_neg hid, if_neg fun hc => hid hc.1]
  · funext type'
    rw [ComponentRegistry.schemas_put]
    split
    · next hid =>
        obtain ⟨h1, h2, h3, _⟩ := h.schema
        unfold ComponentRegistry.schemas
        rw [hid, hfind, h1, h2, h3]
        rfl
    · rfl

theorem content_add {w : World C} {type : ComponentType} {t t' : TypeRecord C}
    (hw : w.components.Ok) (ht : w.components.typeRecord type = .ok t) {name : Bytes}
    {component : C} {slot : ComponentSlotId}
    (h : TypeRecord.Added w.components.worldId t name component slot t') :
    ({ w with components := w.components.put type.id t' } : World C).content =
      w.content.setSlot type.id name (some slot) := by
  have hfind := ComponentRegistry.typeRecord_eq_ok ht
  unfold content Content.setSlot
  dsimp only
  refine Content.mk.injEq .. |>.mpr ⟨rfl, ?_, ?_, ?_, rfl⟩
  · funext type' n
    rw [ComponentRegistry.slots_put, h.names, OrdMap.find?_insert]
    unfold ComponentRegistry.slots
    by_cases hid : type' = type.id
    · rw [if_pos hid, hid, hfind, Option.bind_some]
      by_cases hn : n = name <;> simp [hn]
    · rw [if_neg hid, if_neg fun hc => hid hc.1]
  · funext b' type' n
    rw [ComponentRegistry.access_put, h.accessNamed (hw.types _ t hfind)]
    unfold ComponentRegistry.access
    by_cases hid : type' = type.id
    · rw [if_pos hid, hid, hfind, Option.bind_some]
      simp only [true_and]
    · rw [if_neg hid, if_neg fun hc => hid hc.1]
  · funext type'
    rw [ComponentRegistry.schemas_put]
    split
    · next hid =>
        obtain ⟨h1, h2, h3, _⟩ := h.schema
        unfold ComponentRegistry.schemas
        rw [hid, hfind, h1, h2, h3]
        rfl
    · rfl

theorem content_removeBehavior (w : World C) (b : BehaviorId) :
    ({ w with components := w.components.removeBehavior b } : World C).content =
      w.content.dropAccesses b := by
  have hfind : ∀ type, (w.components.removeBehavior b).types.find? type =
      (w.components.types.find? type).map (TypeRecord.removeAccessesOf · b) := by
    intro type
    unfold ComponentRegistry.removeBehavior
    dsimp only
    rw [OrdMap.find?_filterMap]
    cases w.components.types.find? type <;> rfl
  unfold content Content.dropAccesses
  dsimp only
  refine Content.mk.injEq .. |>.mpr ⟨rfl, ?_, ?_, ?_, rfl⟩
  · funext type n
    unfold ComponentRegistry.slots
    rw [hfind]
    cases w.components.types.find? type <;> rfl
  · funext b' type n
    unfold ComponentRegistry.access
    rw [hfind]
    cases w.components.types.find? type with
    | none => simp
    | some t =>
        rw [Option.map_some, Option.bind_some, Option.bind_some,
          TypeRecord.removeAccessesOf_accessNamed]
  · funext type
    unfold ComponentRegistry.schemas
    rw [hfind]
    cases w.components.types.find? type <;> rfl

/-- Telling systems and running callbacks leave the content as it is. -/
theorem Retold.content {w w' : World C} (h : Retold w w') : w'.content = w.content := by
  have hq := h.tended.quiet
  have hb : w'.behaviors = w.behaviors := by rw [hq.rest]
  have hc : ComponentRegistry.Revalued w.components w'.components := hq.components
  unfold World.content
  rw [hb, hc.slots, hc.access, hc.schemas]
  refine Content.mk.injEq .. |>.mpr ⟨rfl, rfl, rfl, rfl, ?_⟩
  funext type
  exact h.same.identity type

end World

end LiquidLayer
