/-
  What calls of host code leave alone.

  `Quiet w w'`: nothing but the intents, the values of components and the evidence is different;
  a value changed only together with a record of the change, unless evidence was lost: a buffer
  was full, or was emptied. `quiet_replaceComponent` is the one call that comes to values; the
  other calls of a callback change intents or empty a buffer.

  The evidence of component values is read against `ComponentRegistry.encoded`, the encoded
  value of each named component: `Describes entries view view'` says that every entry fits
  what was there and that the entries lead from one view to the other.
-/
import LiquidLayer.World.Hosted

namespace LiquidLayer

open Prog

variable {C : Type}

/-! ## Values of components -/

/-- The same record but for the values of its components. -/
structure TypeRecord.Revalued (t t' : TypeRecord C) : Prop where
  rest : t' = { t with components := t'.components }
  has : ∀ k, t'.has k = t.has k
  length : t'.components.length = t.components.length

namespace TypeRecord

theorem Revalued.refl (t : TypeRecord C) : Revalued t t := ⟨rfl, fun _ => rfl, rfl⟩

theorem Revalued.trans {t t' t'' : TypeRecord C} (h : Revalued t t') (h' : Revalued t' t'') :
    Revalued t t'' := by
  refine ⟨?_, fun k => (h'.has k).trans (h.has k), h'.length.trans h.length⟩
  rw [h'.rest, h.rest]

theorem Revalued.ok {world : UInt64} {t t' : TypeRecord C} (h : Revalued t t') (ht : t.Ok world) :
    t'.Ok world := by
  have hrest := h.rest
  have hhas := h.has
  have hlen := h.length
  generalize t'.components = components at hrest hlen
  subst hrest
  exact ⟨ht.lengths.trans hlen.symm, ht.inverse,
    fun s n hs => ⟨(ht.live s n hs).1, (hhas _).trans (ht.live s n hs).2⟩,
    fun k hk => ht.named k ((hhas k).symm.trans hk),
    fun k => by rw [hhas, hlen]; exact ht.free k, ht.nodup, ht.accesses⟩

end TypeRecord

namespace ComponentRegistry

structure Revalued (r r' : ComponentRegistry C) : Prop where
  rest : r' = { r with types := r'.types }
  types : ∀ id t, r.types.find? id = some t →
    ∃ t', r'.types.find? id = some t' ∧ TypeRecord.Revalued t t'
  none : ∀ id, r.types.find? id = none → r'.types.find? id = none

theorem Revalued.refl (r : ComponentRegistry C) : Revalued r r :=
  ⟨rfl, fun _ t ht => ⟨t, ht, .refl t⟩, fun _ h => h⟩

theorem Revalued.trans {r r' r'' : ComponentRegistry C} (h : Revalued r r')
    (h' : Revalued r' r'') : Revalued r r'' := by
  refine ⟨?_, fun id t ht => ?_, fun id hn => h'.none id (h.none id hn)⟩
  · rw [h'.rest, h.rest]
  · obtain ⟨t', ht', hr⟩ := h.types id t ht
    obtain ⟨t'', ht'', hr'⟩ := h'.types id t' ht'
    exact ⟨t'', ht'', hr.trans hr'⟩

/-- What is in the new registry comes from the old one. -/
theorem Revalued.types_back {r r' : ComponentRegistry C} (h : Revalued r r') {id : ComponentTypeId}
    {t' : TypeRecord C} (ht' : r'.types.find? id = some t') :
    ∃ t, r.types.find? id = some t ∧ TypeRecord.Revalued t t' := by
  cases ht : r.types.find? id with
  | none =>
      rw [h.none id ht] at ht'
      cases ht'
  | some t =>
      obtain ⟨t₁, ht₁, hr⟩ := h.types id t ht
      rw [ht'] at ht₁
      cases ht₁
      exact ⟨t, rfl, hr⟩

theorem Revalued.worldId {r r' : ComponentRegistry C} (h : Revalued r r') :
    r'.worldId = r.worldId := by
  rw [h.rest]

theorem Revalued.ok {r r' : ComponentRegistry C} (h : Revalued r r') (hr : r.Ok) : r'.Ok := by
  refine ⟨fun id t' ht' => ?_, fun id t' ht' => ?_, ?_⟩
  · obtain ⟨t, ht, hrev⟩ := h.types_back ht'
    rw [h.worldId]
    exact hrev.ok (hr.types id t ht)
  · obtain ⟨t, ht, _⟩ := h.types_back ht'
    rw [h.rest]
    exact hr.below id t ht
  · rw [h.rest]
    exact hr.limit

/-- The encoded value of a named component. -/
def encoded (r : ComponentRegistry C) (type : ComponentTypeId) (name : Bytes) :
    Option (Except Failure Value) :=
  (r.types.find? type).bind fun t => (t.names.find? name).bind fun slot =>
    t.codec.bind fun codec => (t.get? slot.slot).map codec.encode

end ComponentRegistry

/-! ## Component evidence -/

/-- Encoded values by type and name. -/
abbrev ComponentView := ComponentTypeId → Bytes → Option (Except Failure Value)

/-- What an entry replaces is what was there, and nothing was there before an addition. -/
def ComponentMutation.Fits (mutation : ComponentMutation) (view : ComponentView) : Prop :=
  view mutation.target.type mutation.name = some (.ok mutation.before) ∨
    (view mutation.target.type mutation.name = none ∧ mutation.removed = false ∧
      mutation.before = .null)

def ComponentMutation.apply (mutation : ComponentMutation) (view : ComponentView) :
    ComponentView := fun type name =>
  if type = mutation.target.type ∧ name = mutation.name then
    if mutation.removed then none else some (.ok mutation.after)
  else view type name

/-- The entries fit one after the other and lead from `view` to `view'`. -/
def Describes : List ComponentMutation → ComponentView → ComponentView → Prop
  | [], view, view' => view' = view
  | mutation :: rest, view, view' =>
      mutation.Fits view ∧ Describes rest (mutation.apply view) view'

theorem Describes.append {l l' : List ComponentMutation} {v v' v'' : ComponentView}
    (h : Describes l v v') (h' : Describes l' v' v'') : Describes (l ++ l') v v'' := by
  induction l generalizing v with
  | nil => exact h ▸ h'
  | cons m l ih => exact ⟨h.1, ih h.2⟩

namespace World

/-- Only intents, component values and evidence have changed. -/
structure Quiet (w w' : World C) : Prop where
  rest : w' = { w with
    components := w'.components
    intents := w'.intents
    componentMutations := w'.componentMutations
    topologyMutations := w'.topologyMutations
    intentTransactionActive := w'.intentTransactionActive
    evidenceLost := w'.evidenceLost }
  components : w.components.Revalued w'.components
  lost : w.evidenceLost ≤ w'.evidenceLost
  evidence : w'.evidenceLost = w.evidenceLost →
    w'.topologyMutations = w.topologyMutations ∧
      ∃ entries, w'.componentMutations = w.componentMutations ++ entries ∧
        (∀ m ∈ entries, m.removed = false) ∧
          Describes entries w.components.encoded w'.components.encoded

theorem Quiet.refl (w : World C) : Quiet w w :=
  ⟨rfl, .refl _, le_refl _, fun _ => ⟨rfl, [], (List.append_nil _).symm,
    fun _ hm => absurd hm List.not_mem_nil, rfl⟩⟩

theorem Quiet.trans {w w' w'' : World C} (h : Quiet w w') (h' : Quiet w' w'') : Quiet w w'' := by
  have hle := h.lost
  have hle' := h'.lost
  refine ⟨?_, h.components.trans h'.components, hle.trans hle', fun hlost => ?_⟩
  · rw [h'.rest, h.rest]
  · obtain ⟨htop, entries, hbuf, hkept, hdesc⟩ := h.evidence (by omega)
    obtain ⟨htop', entries', hbuf', hkept', hdesc'⟩ := h'.evidence (by omega)
    refine ⟨htop'.trans htop, entries ++ entries', ?_, fun m hm => ?_, hdesc.append hdesc'⟩
    · rw [hbuf', hbuf, List.append_assoc]
    · exact (List.mem_append.mp hm).elim (hkept m) (hkept' m)

/-- A change of the intents alone. -/
theorem Quiet.of_intents (w : World C) (intents : IntentRegistry) (active : Bool) :
    Quiet w { w with intents, intentTransactionActive := active } :=
  ⟨rfl, .refl _, le_refl _, fun _ => ⟨rfl, [], (List.append_nil _).symm,
    fun _ hm => absurd hm List.not_mem_nil, rfl⟩⟩

/-- Evidence that is lost is not spoken of. -/
theorem Quiet.of_lost {w w' : World C} (hrest : w' = { w with
      componentMutations := w'.componentMutations
      topologyMutations := w'.topologyMutations
      evidenceLost := w'.evidenceLost })
    (hlost : w.evidenceLost < w'.evidenceLost) : Quiet w w' := by
  have hcomponents : w'.components = w.components := by rw [hrest]
  have hintents : w'.intents = w.intents := by rw [hrest]
  have hactive : w'.intentTransactionActive = w.intentTransactionActive := by rw [hrest]
  refine ⟨?_, ?_, hlost.le, fun h => ?_⟩
  · rw [hcomponents, hintents, hactive]
    exact hrest
  · rw [hcomponents]
    exact .refl _
  · omega

/-! ## Replacing a component -/

end World

namespace ComponentRegistry

theorem componentSlot_eq_ok {r : ComponentRegistry C} {type : ComponentType} {name : Bytes}
    {slot : ComponentSlotId} (h : r.componentSlot type name = .ok slot) :
    ∃ t, r.typeRecord type = .ok t ∧ t.names.find? name = some slot := by
  obtain ⟨t, ht, hslot⟩ := bind_eq_ok h
  exact ⟨t, ht, namedSlot_eq_ok.mp hslot⟩

theorem validateSlot_eq_ok {r : ComponentRegistry C} {type : ComponentTypeId}
    {slot : ComponentSlotId} {raw : Nat} (h : r.validateSlot type slot = .ok raw) :
    raw = slot.slot ∧ r.slotIsCurrent type slot = true := by
  unfold validateSlot at h
  split at h
  · cases h
  · split at h
    · cases h
    · next hcur =>
        cases h
        exact ⟨rfl, by simpa using hcur⟩

theorem resolveComponent_eq_ok {r : ComponentRegistry C} {type : ComponentType}
    {slot : ComponentSlotId} {c : Option C} (h : r.resolveComponent type slot = .ok c) :
    ∃ t, r.typeRecord type = .ok t ∧ r.slotIsCurrent type.id slot = true ∧
      c = t.get? slot.slot := by
  obtain ⟨t, ht, h⟩ := bind_eq_ok h
  obtain ⟨raw, hraw, h⟩ := bind_eq_ok h
  obtain ⟨rfl, hcur⟩ := validateSlot_eq_ok hraw
  cases h
  exact ⟨t, ht, hcur, rfl⟩

theorem encodeComponent_eq_ok {r : ComponentRegistry C} {type : ComponentType} {c : C}
    {value : Value} (h : r.encodeComponent type c = .ok value) :
    ∃ t codec, r.typeRecord type = .ok t ∧ t.codec = some codec ∧
      codec.encode c = .ok value ∧ value.validate = .ok () := by
  obtain ⟨codec, hcodec, h⟩ := bind_eq_ok h
  obtain ⟨t, ht, hcodec⟩ := bind_eq_ok hcodec
  obtain ⟨v, hv, h⟩ := bind_eq_ok h
  obtain ⟨u, hvalid, h⟩ := bind_eq_ok h
  cases h
  refine ⟨t, codec, ht, ?_, hv, hvalid⟩
  cases hc : t.codec with
  | none =>
      rw [hc] at hcodec
      cases hcodec
  | some codec' =>
      rw [hc] at hcodec
      cases hcodec
      rfl

theorem decodeComponent_eq_ok {r : ComponentRegistry C} {type : ComponentType} {value : Value}
    {c : C} (h : r.decodeComponent type value = .ok c) :
    ∃ t codec, r.typeRecord type = .ok t ∧ t.codec = some codec ∧
      codec.encode c = .ok value := by
  obtain ⟨_, _, h⟩ := bind_eq_ok h
  obtain ⟨codec, hcodec, h⟩ := bind_eq_ok h
  obtain ⟨t, ht, hcodec⟩ := bind_eq_ok hcodec
  obtain ⟨decoded, _, h⟩ := bind_eq_ok h
  obtain ⟨again, hagain, h⟩ := bind_eq_ok h
  have hc : t.codec = some codec := by
    cases hc : t.codec with
    | none =>
        rw [hc] at hcodec
        cases hcodec
    | some codec' =>
        rw [hc] at hcodec
        cases hcodec
        rfl
  by_cases heq : again = value
  · rw [if_neg (by simp [heq])] at h
    cases h
    exact ⟨t, codec, ht, hc, heq ▸ hagain⟩
  · rw [if_pos heq] at h
    cases h

/-- A component's value replaced: the record is the same but for it. -/
theorem revalued_set {t : TypeRecord C} {k : Nat} (hhas : t.has k = true) (c : C) :
    TypeRecord.Revalued t { t with components := t.components.set k (some c) } ∧
      ∀ j, ({ t with components := t.components.set k (some c) } : TypeRecord C).get? j =
        if j = k then some c else t.get? j := by
  have hlt : k < t.components.length := by
    by_contra hge
    unfold TypeRecord.has TypeRecord.get? at hhas
    rw [List.getElem?_eq_none (Nat.not_lt.mp hge)] at hhas
    cases hhas
  have hget := fun j => TypeRecord.get?_set t k j (some c) hlt
  refine ⟨⟨rfl, fun j => ?_, List.length_set⟩, hget⟩
  show ((t.components.set k (some c))[j]?.join).isSome = t.has j
  rw [hget]
  split
  · next hj =>
      rw [hj, hhas]
      rfl
  · rfl

theorem Revalued.put {r : ComponentRegistry C} {id : ComponentTypeId} {t t' : TypeRecord C}
    (ht : r.types.find? id = some t) (h : TypeRecord.Revalued t t') :
    Revalued r (r.put id t') := by
  refine ⟨rfl, fun id' t₁ ht₁ => ?_, fun id' hn => ?_⟩
  · rw [ComponentRegistry.put, OrdMap.find?_insert]
    split
    · next hid =>
        rw [hid, ht] at ht₁
        cases ht₁
        exact ⟨t', rfl, h⟩
    · exact ⟨t₁, ht₁, .refl t₁⟩
  · rw [ComponentRegistry.put, OrdMap.find?_insert, if_neg]
    · exact hn
    · rintro rfl
      rw [ht] at hn
      cases hn

/-- Only the replaced component's encoded value is different. -/
theorem Ok.encoded_set {r : ComponentRegistry C} (hr : r.Ok) {id : ComponentTypeId}
    {t : TypeRecord C} (ht : r.types.find? id = some t) {name : Bytes} {slot : ComponentSlotId}
    (hname : t.names.find? name = some slot) {codec : ComponentCodec C}
    (hcodec : t.codec = some codec) {c : C} {value : Value} (hc : codec.encode c = .ok value)
    (mutation : ComponentMutation) (htype : mutation.target.type = id)
    (hmname : mutation.name = name) (hafter : mutation.after = value)
    (hremoved : mutation.removed = false) :
    (r.put id { t with components := t.components.set slot.slot (some c) }).encoded =
      mutation.apply r.encoded := by
  have htok := hr.types id t ht
  have hslot := (htok.inverse name slot).mp hname
  have hhas := (htok.live slot name hslot).2
  obtain ⟨hrev, hget⟩ := revalued_set hhas c
  generalize ({ t with components := t.components.set slot.slot (some c) } : TypeRecord C) = t'
    at hrev hget ⊢
  have hnames' : t'.names = t.names := by rw [hrev.rest]
  have hcodec' : t'.codec = some codec := by rw [hrev.rest, ← hcodec]
  funext type n
  unfold encoded ComponentRegistry.put ComponentMutation.apply
  rw [htype, hmname, hafter, hremoved]
  dsimp only
  rw [OrdMap.find?_insert]
  by_cases htid : type = id
  · subst htid
    rw [if_pos rfl, ht, Option.bind_some, Option.bind_some, hnames']
    by_cases hn : n = name
    · subst hn
      rw [hname, Option.bind_some, Option.bind_some, hcodec', Option.bind_some, hget, if_pos rfl]
      simp [hc]
    · rw [if_neg (fun hc => hn hc.2)]
      cases hsn : t.names.find? n with
      | none => rfl
      | some s =>
          have hne : s.slot ≠ slot.slot := by
            intro heq
            have := htok.slot_inj ((htok.inverse n s).mp hsn) hslot heq
            rw [this] at hsn
            have hsame := (htok.inverse n slot).mp hsn
            rw [hslot] at hsame
            exact hn (Option.some.inj hsame).symm
          rw [Option.bind_some, Option.bind_some, hcodec', hcodec, Option.bind_some,
            Option.bind_some, hget, if_neg hne]
  · rw [if_neg htid, if_neg (fun hc => htid hc.1)]

/-- `replace_component` by name, on a named component. -/
theorem Ok.wp_replaceComponent {r : ComponentRegistry C} (hr : r.Ok) {type : ComponentType}
    {t : TypeRecord C} (ht : r.typeRecord type = .ok t) {name : Bytes} {slot : ComponentSlotId}
    (hname : t.names.find? name = some slot) {c : C}
    {Q : Unit → ComponentRegistry C → Prop} {E : Failure → ComponentRegistry C → Prop}
    (hQ : Q () (r.put type.id { t with components := t.components.set slot.slot (some c) })) :
    wp (replaceComponent type name c) Q E r := by
  have htok := hr.types _ t (typeRecord_eq_ok ht)
  have hhas := (htok.live slot name ((htok.inverse name slot).mp hname)).2
  have hreplace : t.replace slot.slot c =
      .ok { t with components := t.components.set slot.slot (some c) } := by
    unfold TypeRecord.replace
    rw [if_neg (by rw [hhas]; decide)]
  unfold replaceComponent
  rw [wp_bind, wp_get, ht, wp_bind, wp_lift]
  refine ⟨fun t' ht' => ?_, fun e he => by cases he⟩
  cases ht'
  rw [namedSlot_eq_ok.mpr hname, wp_bind, wp_lift]
  refine ⟨fun s hs => ?_, fun e he => by cases he⟩
  cases hs
  rw [hr.validateSlot (typeRecord_eq_ok ht) hname, wp_bind, wp_lift]
  refine ⟨fun raw hraw => ?_, fun e he => by cases he⟩
  cases hraw
  rw [hreplace, wp_bind, wp_lift]
  refine ⟨fun t' ht' => ?_, fun e he => by cases he⟩
  cases ht'
  rw [wp_setType]
  exact hQ

end ComponentRegistry

namespace World

/-- What a staged replacement has established. -/
theorem stageReplacement_eq_ok {w : World C} {type : ComponentType} {b : BehaviorId}
    {name : Bytes} {c : C} {slot : ComponentSlotId} {before after : Value} {validated : C}
    (h : w.stageReplacement type b name c = .ok (slot, before, after, validated)) :
    ∃ t codec current s, w.components.typeRecord type = .ok t ∧ t.codec = some codec ∧
      t.names.find? name = some s ∧ t.get? s.slot = some current ∧
      codec.encode current = .ok before ∧ codec.encode validated = .ok after := by
  unfold stageReplacement at h
  obtain ⟨found, hfound, h⟩ := bind_eq_ok h
  obtain ⟨_, _, hfound⟩ := bind_eq_ok hfound
  obtain ⟨s, hs, hfound⟩ := bind_eq_ok hfound
  obtain ⟨t, ht, hname⟩ := ComponentRegistry.componentSlot_eq_ok hs
  by_cases hread : (!w.components.canRead type b s) = true
  · rw [if_pos hread] at hfound
    cases hfound
  rw [if_neg hread] at hfound
  obtain ⟨t₁, ht₁, _, hget⟩ := ComponentRegistry.resolveComponent_eq_ok hfound
  rw [ht] at ht₁
  cases ht₁
  cases found with
  | none => cases h
  | some current =>
      obtain ⟨v, hv, h⟩ := bind_eq_ok h
      obtain ⟨t₂, codec, ht₂, hcodec, hbefore, _⟩ := ComponentRegistry.encodeComponent_eq_ok hv
      rw [ht] at ht₂
      cases ht₂
      obtain ⟨v', hv', h⟩ := bind_eq_ok h
      obtain ⟨c', hc', h⟩ := bind_eq_ok h
      obtain ⟨t₃, codec', ht₃, hcodec', hafter⟩ := ComponentRegistry.decodeComponent_eq_ok hc'
      rw [ht] at ht₃
      cases ht₃
      rw [hcodec] at hcodec'
      cases hcodec'
      obtain ⟨available, _, h⟩ := bind_eq_ok h
      split at h
      · cases h
      · by_cases hwrite : (!w.components.canWriteNamed type b name) = true
        · rw [if_pos hwrite] at h
          cases h
        rw [if_neg hwrite] at h
        cases h
        exact ⟨t, codec, current, s, ht, hcodec, hname, hget.symm, hbefore, hafter⟩

/-- A value written together with its evidence. -/
theorem wp_recordComponentMutation {mutation : ComponentMutation} {w : World C}
    {Q : Unit → World C → Prop} {E : Failure → World C → Prop}
    (hok : w.componentMutations.length < maximumBuffered →
      Q () { w with componentMutations := w.componentMutations ++ [mutation] })
    (hfull : maximumBuffered ≤ w.componentMutations.length →
      E (.lengthError "component evidence capacity exceeded") w.loseEvidence) :
    wp (recordComponentMutation mutation) Q E w := by
  unfold recordComponentMutation
  rw [wp_bind, wp_get]
  by_cases h : w.componentMutations.length ≥ maximumBuffered
  · rw [if_pos h]
    simp only [wp_bind, wp_modify, wp_throw]
    exact hfull h
  · rw [if_neg h, wp_modify]
    exact hok (Nat.not_le.mp h)

theorem quiet_replaceComponent {w : World C} (hok : w.components.Ok) (type : ComponentType)
    (b : BehaviorId) (name : Bytes) (c : C) :
    Quiet w (after (replaceComponent type b name c) w) := by
  rw [← wp_after (P := Quiet w)]
  unfold replaceComponent
  rw [wp_bind, wp_get, wp_bind, wp_lift]
  refine ⟨fun p hp => ?_, fun e _ => .refl w⟩
  obtain ⟨slot, before, after, validated⟩ := p
  obtain ⟨t, codec, current, s, ht, hcodec, hname, hget, hbefore, hafter⟩ :=
    stageReplacement_eq_ok hp
  have hfind := ComponentRegistry.typeRecord_eq_ok ht
  have htok := hok.types _ t hfind
  have hhas := (htok.live s name ((htok.inverse name s).mp hname)).2
  have hrev := ComponentRegistry.Revalued.put hfind
    (ComponentRegistry.revalued_set hhas validated).1
  dsimp only
  rw [wp_bind]
  unfold onComponents
  rw [wp_zoom]
  refine hok.wp_replaceComponent ht hname ?_
  refine wp_recordComponentMutation (fun _ => ?_) (fun _ => ?_)
  · refine ⟨rfl, hrev, le_refl _, fun _ => ⟨rfl, [⟨⟨type.id, slot⟩, name, before, after, false⟩],
      rfl, fun m hm => by rw [List.mem_singleton.mp hm], Or.inl ?_, ?_⟩⟩
    · show w.components.encoded type.id name = some (.ok before)
      unfold ComponentRegistry.encoded
      rw [hfind, Option.bind_some, hname, Option.bind_some, hcodec, Option.bind_some, hget,
        Option.map_some, hbefore]
    · exact hok.encoded_set hfind hname hcodec hafter _ rfl rfl rfl rfl
  · exact ⟨rfl, hrev, Nat.le_succ _, fun hlost => absurd hlost (Nat.succ_ne_self _)⟩

end World

end LiquidLayer
