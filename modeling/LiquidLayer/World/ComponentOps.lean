/-
  `register_component` and `add_component`.

  Both write first and build their evidence last, so a name that no `Value` can hold leaves the
  component there and its topology entry out.
-/
import LiquidLayer.World.BehaviorOps

namespace LiquidLayer

open Prog

variable {C : Type}

/-! ## Encoded values -/

/-- The encoded value of a named component of one type. -/
def TypeRecord.encodedNamed (t : TypeRecord C) (name : Bytes) : Option (Except Failure Value) :=
  (t.names.find? name).bind fun slot =>
    t.codec.bind fun codec => (t.get? slot.slot).map codec.encode

namespace TypeRecord

/-- Named components are in different slots. -/
theorem Ok.slot_ne {world : UInt64} {t : TypeRecord C} (h : t.Ok world) {n name : Bytes}
    {s slot : ComponentSlotId} (hn : t.names.find? n = some s)
    (hname : t.names.find? name = some slot) (hne : n ≠ name) : s.slot ≠ slot.slot := by
  intro heq
  have h1 := (h.inverse n s).mp hn
  have h2 := (h.inverse name slot).mp hname
  rw [h.slot_inj h1 h2 heq] at h1
  rw [h2] at h1
  exact hne (Option.some.inj h1).symm

theorem Added.encodedNamed {world : UInt64} {t t' : TypeRecord C} {name : Bytes} {component : C}
    {slot : ComponentSlotId} (h : Added world t name component slot t') (ht : t.Ok world)
    (n : Bytes) :
    t'.encodedNamed n = if n = name then t.codec.map fun codec => codec.encode component
      else t.encodedNamed n := by
  obtain ⟨_, _, _, hcodec⟩ := h.schema
  unfold TypeRecord.encodedNamed
  rw [h.names, OrdMap.find?_insert, hcodec]
  by_cases hn : n = name
  · rw [if_pos hn, if_pos hn, Option.bind_some]
    cases t.codec with
    | none => rfl
    | some codec => rw [Option.bind_some, h.get, if_pos rfl, Option.map_some, Option.map_some]
  · rw [if_neg hn, if_neg hn]
    cases hs : t.names.find? n with
    | none => rfl
    | some s =>
        have hlive := (ht.live s n ((ht.inverse n s).mp hs)).2
        have hne : s.slot ≠ slot.slot := by
          intro heq
          rw [heq, h.vacant] at hlive
          cases hlive
        rw [Option.bind_some, Option.bind_some]
        simp only [h.get, if_neg hne]

theorem Removed.encodedNamed {world : UInt64} {t t' : TypeRecord C} {name : Bytes}
    {slot : ComponentSlotId} (h : Removed world t name slot t') (ht : t.Ok world)
    (hname : t.names.find? name = some slot) (n : Bytes) :
    t'.encodedNamed n = if n = name then none else t.encodedNamed n := by
  obtain ⟨_, _, _, hcodec⟩ := h.schema
  unfold TypeRecord.encodedNamed
  rw [h.names, OrdMap.find?_erase, hcodec]
  by_cases hn : n = name
  · rw [if_pos hn, if_pos hn]
    rfl
  · rw [if_neg hn, if_neg hn]
    cases hs : t.names.find? n with
    | none => rfl
    | some s =>
        rw [Option.bind_some, Option.bind_some]
        simp only [h.get, if_neg (ht.slot_ne hs hname hn)]

end TypeRecord

namespace ComponentRegistry

theorem encoded_put (r : ComponentRegistry C) (id : ComponentTypeId) (t : TypeRecord C)
    (type : ComponentTypeId) (name : Bytes) :
    (r.put id t).encoded type name =
      if type = id then t.encodedNamed name else r.encoded type name := by
  unfold encoded put
  dsimp only
  rw [OrdMap.find?_insert]
  split <;> rfl

theorem encoded_eq {r : ComponentRegistry C} {type : ComponentTypeId} {t : TypeRecord C}
    (h : r.types.find? type = some t) (name : Bytes) :
    r.encoded type name = t.encodedNamed name := by
  unfold encoded
  rw [h]
  rfl

/-- A record with the same schema is found by the same handles. -/
theorem typeRecord_put {r : ComponentRegistry C} {type : ComponentType} {t t' : TypeRecord C}
    (ht : r.typeRecord type = .ok t) (hc : t'.component = t.component) :
    (r.put type.id t').typeRecord type = .ok t' := by
  have hfind := typeRecord_eq_ok ht
  unfold typeRecord put at *
  dsimp only
  rw [OrdMap.find?_insert_self]
  rw [hfind] at ht
  split at ht
  · cases ht
  · next h1 =>
      split at ht
      · cases ht
      · next h2 =>
          dsimp only at ht ⊢
          split at ht
          · cases ht
          · next h3 => rw [if_neg h1, if_neg h2, hc, if_neg h3]

end ComponentRegistry

/-! ## Registering a type -/

namespace ComponentRegistry

/-- The type is new, and its record is empty. -/
structure Registered (r : ComponentRegistry C) (component : Nat) (name : Bytes)
    (version : UInt32) (type : ComponentType) (r' : ComponentRegistry C) : Prop where
  handle : type.component = component
  fresh : r.types.find? type.id = none
  types : ∃ codec, r'.types = r.types.insert type.id
    { component, name, version, codec, components := [], availableSlots := [],
      accesses := .empty, names := .empty, slotNames := .empty, generations := [] }
  ok : r'.Ok

theorem Ok.registered {r : ComponentRegistry C} (h : r.Ok) {component : Nat} {name : Bytes}
    {version : UInt32} {encode : Option (C → Except Failure Value)}
    {decode : Option (Value → Except Failure C)} {type : ComponentType}
    {r' : ComponentRegistry C}
    (hr : r.registerComponent component name version encode decode = .ok (type, r')) :
    Registered r component name version type r' := by
  unfold registerComponent at hr
  split at hr
  · cases hr
  · split at hr
    · split at hr
      · cases hr
      · split at hr
        · cases hr
        · split at hr
          · cases hr
          · next hroom =>
              cases hr
              have hfresh : r.types.find? r.nextComponentType = none := by
                cases hf : r.types.find? r.nextComponentType with
                | none => rfl
                | some t => exact absurd (h.below _ t hf) (Nat.lt_irrefl _)
              refine ⟨rfl, hfresh, ⟨_, rfl⟩, fun id t ht => ?_, fun id t ht => ?_, ?_⟩
              · dsimp only at ht ⊢
                rw [OrdMap.find?_insert] at ht
                split at ht
                · cases ht
                  refine ⟨rfl, fun n s => ?_, fun s n hs => ?_, fun k hk => ?_, fun k => ?_,
                    List.nodup_nil, fun b l hl => ?_⟩
                  · exact ⟨fun hf => (by cases hf), fun hf => (by cases hf)⟩
                  · cases hs
                  · cases hk
                  · simp
                  · cases hl
                · exact h.types id t ht
              · dsimp only at ht ⊢
                rw [OrdMap.find?_insert] at ht
                split at ht
                · next hid =>
                    rw [hid]
                    exact Nat.lt_succ_self _
                · exact Nat.lt_succ_of_lt (h.below id t ht)
              · exact Nat.not_le.mp hroom
    · cases hr

theorem Registered.find? {r r' : ComponentRegistry C} {component : Nat} {name : Bytes}
    {version : UInt32} {type : ComponentType} (h : Registered r component name version type r')
    (id : ComponentTypeId) :
    (id ≠ type.id ∧ r'.types.find? id = r.types.find? id) ∨
      (id = type.id ∧ r.types.find? id = none ∧ ∃ t, r'.types.find? id = some t ∧
        t.component = component ∧ t.name = name ∧ t.version = version ∧ t.names = .empty ∧
        t.accesses = .empty) := by
  obtain ⟨codec, htypes⟩ := h.types
  rw [htypes, OrdMap.find?_insert]
  by_cases hid : id = type.id
  · exact Or.inr ⟨hid, hid ▸ h.fresh, _, by rw [if_pos hid], rfl, rfl, rfl, rfl, rfl⟩
  · exact Or.inl ⟨hid, by rw [if_neg hid]⟩

theorem Registered.slots {r r' : ComponentRegistry C} {component : Nat} {name : Bytes}
    {version : UInt32} {type : ComponentType} (h : Registered r component name version type r') :
    r'.slots = r.slots := by
  funext id n
  unfold ComponentRegistry.slots
  rcases h.find? id with ⟨_, hs⟩ | ⟨_, hnone, t, ht, _, _, _, hnames, _⟩
  · rw [hs]
  · rw [hnone, ht, Option.bind_some, hnames]
    rfl

theorem Registered.access {r r' : ComponentRegistry C} {component : Nat} {name : Bytes}
    {version : UInt32} {type : ComponentType} (h : Registered r component name version type r') :
    r'.access = r.access := by
  funext b id n
  unfold ComponentRegistry.access
  rcases h.find? id with ⟨_, hs⟩ | ⟨_, hnone, t, ht, _, _, _, hnames, _⟩
  · rw [hs]
  · rw [hnone, ht, Option.bind_some]
    unfold TypeRecord.accessNamed
    rw [hnames]
    rfl

theorem Registered.encoded {r r' : ComponentRegistry C} {component : Nat} {name : Bytes}
    {version : UInt32} {type : ComponentType} (h : Registered r component name version type r') :
    r'.encoded = r.encoded := by
  funext id n
  rcases h.find? id with ⟨_, hs⟩ | ⟨_, hnone, t, ht, _, _, _, hnames, _⟩
  · unfold ComponentRegistry.encoded
    rw [hs]
  · rw [encoded_eq ht]
    unfold ComponentRegistry.encoded TypeRecord.encodedNamed
    rw [hnone, hnames]
    rfl

end ComponentRegistry

namespace World

theorem content_registerComponent {w : World C} {component : Nat} {name : Bytes}
    {version : UInt32} {type : ComponentType} {r : ComponentRegistry C}
    (h : ComponentRegistry.Registered w.components component name version type r) :
    ({ w with components := r } : World C).content =
      (Change.registerComponent type name version).apply w.content := by
  unfold World.content Change.apply
  dsimp only
  rw [h.slots, h.access]
  refine Content.mk.injEq .. |>.mpr ⟨rfl, rfl, rfl, ?_, rfl⟩
  funext id
  unfold ComponentRegistry.schemas
  rcases h.find? id with ⟨hid, hs⟩ | ⟨hid, hnone, t, ht, hc, hn, hv, _⟩
  · rw [hs, if_neg hid]
  · rw [ht, if_pos hid, Option.map_some, hc, hn, hv, h.handle]

/-- Other components, with the accesses that were there. -/
theorem Lawful.of_components {w : World C} {r : ComponentRegistry C}
    {mutations : List ComponentMutation} (hok : Ok { w with components := r })
    (haccess : ∀ b type name, r.access b type name = w.components.access b type name)
    (hslots : ∀ b type name, w.components.access b type name ≠ none →
      r.slots type name = w.components.slots type name)
    (hauth : ∀ i, Authorized w i → Authorized { w with components := r } i)
    (hdesc : Describes mutations w.components.encoded r.encoded) :
    Lawful w { w with
        components := r
        componentMutations := w.componentMutations ++ mutations }
      ({ w with components := r } : World C).content [] where
  outcome :=
    { ok := hok.evidence (w.componentMutations ++ mutations) w.topologyMutations w.evidenceLost
      content := rfl
      evidence := fun _ => ⟨(List.append_nil _).symm, mutations, rfl, hdesc⟩
      intents := ⟨[], (IntentRegistry.Moved.refl hok.held.ready.intents).steps,
        fun _ he => absurd he List.not_mem_nil⟩
      lost := le_refl _
      revised := ⟨le_refl _, fun b revision hf =>
        Or.inl ⟨hf, fun type name => ⟨haccess b type name, hslots b type name⟩⟩⟩ }
  authority _ ha id i hi := hauth i (ha id i hi)
  settled _ hs := by
    refine ⟨hs.signed, hs.revised, hs.pooled, fun b signature hf type ht => ?_⟩
    dsimp only
    simp only [haccess]
    exact hs.bits b signature hf type ht

theorem wp_registerComponent {w : World C} (h : Ok w) (component : Nat) (name : Bytes)
    (version : UInt32) (encode : Option (C → Except Failure Value))
    (decode : Option (Value → Except Failure C)) :
    wp (registerComponent component name version encode decode)
      (fun type w' =>
        Lawful w w' ((Change.registerComponent type name version).apply w.content)
          [(Change.registerComponent type name version).entry] ∧
        (Change.registerComponent type name version).Recordable ∧
        ∃ r, w.components.registerComponent component name version encode decode = .ok (type, r))
      (fun _ w' => (Lawful w w' w.content [] ∧ Unchanged w w' ∧ ∃ e,
          w.components.registerComponent component name version encode decode = .error e) ∨
        ∃ type r, w.components.registerComponent component name version encode decode =
            .ok (type, r) ∧
          Lawful w w' ((Change.registerComponent type name version).apply w.content) [] ∧
          Unrecorded w w' (Change.registerComponent type name version)) w := by
  unfold registerComponent
  rw [wp_bind]
  refine wp_ensureStructuralMutationAllowed h.held ?_
  rw [wp_bind, wp_get, wp_bind, wp_lift]
  refine ⟨fun p hp => ?_, fun e he => Or.inl ⟨.refl h, .refl w, e, he⟩⟩
  obtain ⟨type, r⟩ := p
  have hreg := h.held.ready.components.registered hp
  dsimp only
  rw [wp_bind, wp_set]
  have hlawful : Lawful w { w with components := r }
      ((Change.registerComponent type name version).apply w.content) [] := by
    rw [← content_registerComponent hreg]
    have hheld := h.held
    have hok : Ok { w with components := r } := by
      refine h.withComponents hreg.ok fun id t b ht hc => ?_
      rcases hreg.find? id with ⟨_, hsame⟩ | ⟨_, _, t', ht', _, _, _, _, hacc⟩
      · exact hheld.holders id t b (hsame ▸ ht) hc
      · rw [ht'] at ht
        cases ht
        rw [hacc] at hc
        cases hc
    have hdesc : Describes [] w.components.encoded r.encoded := hreg.encoded
    have hlawful := Lawful.of_components hok (fun _ _ _ => by rw [hreg.access])
      (fun _ _ _ _ => by rw [hreg.slots]) (fun i hi => ?_) hdesc
    · rw [List.append_nil] at hlawful
      exact hlawful
    · obtain ⟨hex, t, ht, hcur, hrest⟩ := hi
      rcases hreg.find? i.target.type with ⟨_, hsame⟩ | ⟨_, hnone, _⟩
      · refine ⟨hex, t, hsame ▸ ht, ?_, hrest⟩
        obtain ⟨codec, htypes⟩ := hreg.types
        have hworld : r.worldId = w.components.worldId := by
          unfold ComponentRegistry.registerComponent at hp
          split at hp
          · cases hp
          · split at hp
            · split at hp
              · cases hp
              · split at hp
                · cases hp
                · split at hp
                  · cases hp
                  · cases hp
                    rfl
            · cases hp
        show ComponentRegistry.current r.worldId t i.target.slot = true
        rw [hworld]
        exact hcur
      · rw [hnone] at ht
        cases ht
  rw [wp_bind]
  refine wp_recordEntry (Change.registerComponent type name version) rfl (fun hr _ => ?_)
    (fun e hr => ?_) (fun e hle => ?_)
  · rw [wp_pure]
    exact ⟨hlawful.recorded _, hr, r, hp⟩
  · exact Or.inr ⟨type, r, hp, hlawful, .inadmissible hr⟩
  · exact Or.inr ⟨type, r, hp, hlawful.refused, .lost (Nat.lt_succ_self _)⟩

/-! ## Adding a component -/

/-- Access to a slot is enough: what has access is a live behavior's, and to what is there. -/
theorem authorized_iff {w : World C} (h : w.components.Ok) {i : Intent} :
    Authorized w i ↔ w.behaviors.exist i.owner = true ∧ ∃ t,
      w.components.types.find? i.target.type = some t ∧
      t.writes i.owner i.target.slot = true := by
  refine and_congr_right fun _ => ⟨?_, ?_⟩
  · rintro ⟨t, ht, _, _, hw⟩
    exact ⟨t, ht, hw⟩
  · rintro ⟨t, ht, hw⟩
    have htok := h.types _ t ht
    obtain ⟨n, hn⟩ := Option.isSome_iff_exists.mp (htok.allows_named hw)
    obtain ⟨hcur, hhas⟩ := htok.live _ n hn
    exact ⟨t, ht, hcur, hhas, hw⟩

/-- One type's record exchanged. -/
theorem Held.put {w : World C} (h : Held w) {type : ComponentType} {t t' : TypeRecord C}
    (ht : w.components.typeRecord type = .ok t) (ht' : t'.Ok w.components.worldId)
    (hholders : ∀ b, t'.accesses.contains b = true → w.behaviors.exist b = true) :
    Held { w with components := w.components.put type.id t' } := by
  refine ⟨⟨h.ready.components.put ht ht', h.ready.intents, h.ready.idle, h.ready.inactive⟩,
    h.systems, h.depth, h.running, h.behaviors, fun id t₁ b ht₁ hc => ?_, h.revised, h.pooled⟩
  unfold ComponentRegistry.put at ht₁
  dsimp only at ht₁ ⊢
  rw [OrdMap.find?_insert] at ht₁
  split at ht₁
  · cases ht₁
    exact hholders b hc
  · exact h.holders id t₁ b ht₁ hc

/-- What `add_component` checks before it writes. -/
def AddAdmitted (w : World C) (type : ComponentType) (name : Bytes) (component : C) : Prop :=
  (∃ encoded, w.encodedFor type component = .ok encoded) ∧ w.components.Addable type name

theorem encodedFor_eq_ok {w : World C} {type : ComponentType} {component : C} {t : TypeRecord C}
    {encoded : Option Value} (ht : w.components.typeRecord type = .ok t)
    (h : w.encodedFor type component = .ok encoded) :
    (t.codec.map fun codec => codec.encode component) = encoded.map Except.ok := by
  unfold encodedFor at h
  obtain ⟨has, hhas, h⟩ := bind_eq_ok h
  obtain ⟨t₁, ht₁, hhas⟩ := bind_eq_ok hhas
  rw [ht] at ht₁
  cases ht₁
  cases hhas
  by_cases hc : t.codec.isSome = true
  · rw [if_pos hc] at h
    obtain ⟨value, hv, h⟩ := bind_eq_ok h
    cases h
    obtain ⟨t₂, codec, ht₂, hcodec, henc, _⟩ := ComponentRegistry.encodeComponent_eq_ok hv
    rw [ht] at ht₂
    cases ht₂
    rw [hcodec, Option.map_some, henc]
    rfl
  · rw [if_neg hc] at h
    cases h
    cases hcodec : t.codec with
    | none => rfl
    | some codec =>
        rw [hcodec] at hc
        exact absurd rfl hc

/-- The evidence of a new component fits the new component. -/
theorem describes_added {w : World C} (hw : w.components.Ok) {type : ComponentType}
    {t t' : TypeRecord C} (ht : w.components.typeRecord type = .ok t) {name : Bytes}
    {component : C} {slot : ComponentSlotId} {encoded : Option Value}
    (h : TypeRecord.Added w.components.worldId t name component slot t')
    (henc : (t.codec.map fun codec => codec.encode component) = encoded.map Except.ok) :
    Describes (encoded.toList.map fun value => ⟨⟨type.id, slot⟩, name, .null, value, false⟩)
      w.components.encoded (w.components.put type.id t').encoded := by
  have hfind := ComponentRegistry.typeRecord_eq_ok ht
  have hview : ∀ id n, (w.components.put type.id t').encoded id n =
      if id = type.id ∧ n = name then encoded.map Except.ok
      else w.components.encoded id n := by
    intro id n
    rw [ComponentRegistry.encoded_put]
    by_cases hid : id = type.id
    · rw [if_pos hid, h.encodedNamed (hw.types _ t hfind), henc, hid,
        ComponentRegistry.encoded_eq hfind]
      by_cases hn : n = name <;> simp [hn]
    · rw [if_neg hid, if_neg fun hc => hid hc.1]
  have hnone : w.components.encoded type.id name = none := by
    rw [ComponentRegistry.encoded_eq hfind]
    unfold TypeRecord.encodedNamed
    rw [h.fresh]
    rfl
  cases encoded with
  | none =>
      funext id n
      rw [hview]
      split
      · next hc =>
          rw [hc.1, hc.2, hnone]
          rfl
      · rfl
  | some value =>
      refine ⟨Or.inr ⟨hnone, rfl, rfl⟩, ?_⟩
      funext id n
      rw [hview]
      unfold ComponentMutation.apply
      by_cases hc : id = type.id ∧ n = name
      · rw [if_pos hc, if_pos hc]
        rfl
      · rw [if_neg hc, if_neg hc]

theorem wp_recordOptional {mutation : Value → ComponentMutation} {encoded : Option Value}
    {w : World C} {Q : Unit → World C → Prop} {E : Failure → World C → Prop}
    (hok : Q () { w with
      componentMutations := w.componentMutations ++ encoded.toList.map mutation })
    (hfull : ∀ e, E e w.loseEvidence) :
    wp (recordOptional mutation encoded) Q E w := by
  cases encoded with
  | none =>
      unfold recordOptional
      rw [wp_pure]
      simpa using hok
  | some value =>
      exact wp_recordComponentMutation (fun _ => hok) fun _ => hfull _

theorem wp_addComponent {w : World C} (h : Ok w) (type : ComponentType) (name : Bytes)
    (component : C) :
    wp (addComponent type name component)
      (fun _ w' => ∃ slot, (Change.addComponent type.id name slot).Recordable ∧
        Lawful w w' ((Change.addComponent type.id name slot).apply w.content)
          [(Change.addComponent type.id name slot).entry])
      (fun _ w' => (Lawful w w' w.content [] ∧ Unchanged w w' ∧
          ¬AddAdmitted w type name component) ∨
        ∃ slot, AddAdmitted w type name component ∧
          Lawful w w' ((Change.addComponent type.id name slot).apply w.content) [] ∧
          (w.evidenceLost < w'.evidenceLost ∨
            ¬(Change.addComponent type.id name slot).Recordable)) w := by
  unfold addComponent
  rw [wp_bind]
  refine wp_ensureStructuralMutationAllowed h.held ?_
  rw [wp_bind, wp_get, wp_bind, wp_lift]
  refine ⟨fun encoded hencoded => ?_, fun e he => Or.inl ⟨.refl h, .refl w, fun ha => ?_⟩⟩
  swap
  · obtain ⟨⟨encoded, hencoded⟩, _⟩ := ha
    rw [he] at hencoded
    cases hencoded
  have hcomp := h.held.ready.components
  rw [wp_bind, wp_onComponents]
  refine ComponentRegistry.wp_addComponent hcomp (fun t slot t' ht haddable hadded => ?_)
    (fun e hnot => Or.inl ⟨.refl h, .refl w, fun ha => hnot ha.2⟩)
  have hfind := ComponentRegistry.typeRecord_eq_ok ht
  have htok := hcomp.types _ t hfind
  have hadmitted : AddAdmitted w type name component := ⟨⟨encoded, hencoded⟩, haddable⟩
  -- the slot of the new component
  have hslot : (w.components.put type.id t').componentSlot type name = .ok slot := by
    unfold ComponentRegistry.componentSlot
    rw [ComponentRegistry.typeRecord_put ht hadded.schema.1]
    show ComponentRegistry.namedSlot t' name = .ok slot
    rw [ComponentRegistry.namedSlot_eq_ok, hadded.names, OrdMap.find?_insert_self]
  rw [wp_bind, wp_get, hslot, wp_bind, wp_lift]
  refine ⟨fun s hs => ?_, fun e he => by cases he⟩
  cases hs
  have hheld : Held { w with components := w.components.put type.id t' } := by
    refine h.held.put ht hadded.ok fun b hc => ?_
    rw [hadded.accesses] at hc
    exact h.held.holders _ t b hfind hc
  have hcontent := content_add hcomp ht hadded
  have haccess : ∀ b id n, (w.components.put type.id t').access b id n =
      w.components.access b id n := by
    intro b id n
    have := congrFun₃ (congrArg Content.access hcontent) b id n
    refine this.trans ?_
    unfold Content.setSlot
    dsimp only
    split
    · next hc =>
        rw [hc.1, hc.2]
        show none = w.components.access b type.id name
        unfold ComponentRegistry.access TypeRecord.accessNamed
        rw [hfind, Option.bind_some, hadded.fresh]
        rfl
    · rfl
  have hlawful : ∀ mutations : List ComponentMutation,
      Describes mutations w.components.encoded (w.components.put type.id t').encoded →
      Lawful w { w with
          components := w.components.put type.id t'
          componentMutations := w.componentMutations ++ mutations }
        ((Change.addComponent type.id name slot).apply w.content) [] := by
    intro mutations hdesc
    rw [show (Change.addComponent type.id name slot).apply w.content =
      ({ w with components := w.components.put type.id t' } : World C).content from hcontent.symm]
    refine .of_components ⟨hheld, h.signed, h.membered⟩ haccess (fun b id n hne => ?_)
      (fun i hi => ?_) hdesc
    · have := congrFun₂ (congrArg Content.slots hcontent) id n
      refine this.trans ?_
      unfold Content.setSlot
      dsimp only
      split
      · next hc =>
          refine absurd ?_ hne
          rw [hc.1, hc.2]
          unfold ComponentRegistry.access TypeRecord.accessNamed
          rw [hfind, Option.bind_some, hadded.fresh]
          rfl
      · rfl
    · obtain ⟨hex, t₁, ht₁, hw⟩ := (authorized_iff hcomp).mp hi
      refine (authorized_iff hheld.ready.components).mpr ⟨hex, ?_⟩
      unfold ComponentRegistry.put
      dsimp only
      by_cases hid : i.target.type = type.id
      · refine ⟨t', by rw [hid, OrdMap.find?_insert_self], ?_⟩
        rw [hid, hfind] at ht₁
        cases ht₁
        unfold TypeRecord.writes TypeRecord.accessesOf at hw ⊢
        rw [hadded.accesses]
        exact hw
      · exact ⟨t₁, by rw [OrdMap.find?_insert_ne _ hid]; exact ht₁, hw⟩
  have hdesc := describes_added hcomp ht hadded (encodedFor_eq_ok ht hencoded)
  rw [wp_bind]
  refine wp_recordOptional ?_ (fun e => ?_)
  · have hl := hlawful _ hdesc
    refine wp_recordEntry (Change.addComponent type.id name slot) rfl (fun hr _ => ?_)
      (fun e hr => ?_) (fun e hle => ?_)
    · exact ⟨slot, hr, hl.recorded _⟩
    · exact Or.inr ⟨slot, hadmitted, hl, Or.inr hr⟩
    · exact Or.inr ⟨slot, hadmitted, hl.refused, Or.inl (Nat.lt_succ_self _)⟩
  · -- the value had no room
    refine Or.inr ⟨slot, hadmitted, ?_, Or.inl (Nat.lt_succ_self _)⟩
    have hl := (hlawful _ hdesc).refused
    obtain ⟨⟨hok, hc, _, hint, hlost, hrev⟩, hauth, hset⟩ := hl
    refine ⟨⟨?_, hc, fun he => ?_, hint, hlost,
      ⟨hrev.last, hrev.access⟩⟩, hauth, fun he hs => ?_⟩
    · exact hok.evidence w.componentMutations w.topologyMutations (w.evidenceLost + 1)
    · exact absurd he (Nat.succ_ne_self _)
    · exact ⟨(hset he hs).signed, (hset he hs).revised, (hset he hs).pooled, (hset he hs).bits⟩

end World

end LiquidLayer
