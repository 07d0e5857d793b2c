/-
  Signatures and memberships.

  `Membered systems signatures`: a system's behaviors are those whose signature covers its own.
  `Retold w w'`: signatures of behaviors were changed and the systems told of it. However the
  callbacks end, the systems keep their identity and are told in full, so `Membered` survives.
-/
import LiquidLayer.World.Tended

namespace LiquidLayer

open Prog

/-! ## Systems -/

/-- A system but for its behaviors. -/
def SystemRecord.identity (record : SystemRecord) : SystemRecord :=
  { record with behaviours := .empty }

namespace SystemRegistry

/-- The same systems, with other behaviors. -/
structure Same (s s' : SystemRegistry) : Prop where
  order : s'.registrationOrder = s.registrationOrder
  depth : s'.dispatchDepth = s.dispatchDepth
  identity : ∀ type, (s'.systems.find? type).map SystemRecord.identity =
    (s.systems.find? type).map SystemRecord.identity

theorem Same.refl (s : SystemRegistry) : Same s s := ⟨rfl, rfl, fun _ => rfl⟩

theorem Same.trans {s s' s'' : SystemRegistry} (h : Same s s') (h' : Same s' s'') : Same s s'' :=
  ⟨h'.order.trans h.order, h'.depth.trans h.depth,
    fun type => (h'.identity type).trans (h.identity type)⟩

theorem Same.contains {s s' : SystemRegistry} (h : Same s s') (type : Nat) :
    s'.systems.contains type = s.systems.contains type := by
  have := congrArg Option.isSome (h.identity type)
  rwa [Option.isSome_map, Option.isSome_map] at this

theorem Same.ok {s s' : SystemRegistry} (h : Same s s') (hs : s.Ok) : s'.Ok :=
  ⟨h.order ▸ hs.nodup, fun type => by rw [h.order, h.contains]; exact hs.mem type⟩

theorem Ok.same_enrolled {s : SystemRegistry} (h : s.Ok) (joins : Signature → Bool)
    (behavior : BehaviorId) : Same s (s.enrolled joins behavior) := by
  refine ⟨rfl, rfl, fun type => ?_⟩
  rw [h.find?_enrolled]
  cases s.systems.find? type <;> rfl

/-- The systems' behaviors are those of `B` whose signature covers the system's. -/
def MemberedFor (B : BehaviorId → Prop) (s : SystemRegistry)
    (signatures : OrdMap BehaviorId Signature) : Prop :=
  ∀ type record b, B b → s.systems.find? type = some record →
    (record.behaviours.contains b = true ↔
      ∃ signature, signatures.find? b = some signature ∧
        signature.covers record.signature = true)

def Membered : SystemRegistry → OrdMap BehaviorId Signature → Prop := MemberedFor fun _ => True

theorem contains_enroll (joins : Signature → Bool) (behavior b : BehaviorId)
    (record : SystemRecord) :
    ((enroll joins behavior record).behaviours.contains b = true) ↔
      if b = behavior then joins record.signature = true
      else record.behaviours.contains b = true := by
  unfold enroll
  dsimp only
  by_cases hj : joins record.signature = true
  · rw [if_pos hj, OrdMap.contains, OrdMap.find?_insert]
    by_cases hb : b = behavior
    · simp [hb, hj]
    · simp only [hb, if_false]
      rfl
  · rw [if_neg hj, OrdMap.contains, OrdMap.find?_erase]
    by_cases hb : b = behavior
    · simp [hb, hj]
    · simp only [hb, if_false]
      rfl

/-- Telling the systems of one behavior's signature. -/
theorem MemberedFor.enrolled {B : BehaviorId → Prop} {s : SystemRegistry}
    {signatures signatures' : OrdMap BehaviorId Signature} (h : MemberedFor B s signatures)
    (hs : s.Ok) {behavior : BehaviorId} {joins : Signature → Bool}
    (hself : ∀ required, joins required = true ↔
      ∃ signature, signatures'.find? behavior = some signature ∧ signature.covers required = true)
    (hother : ∀ b, b ≠ behavior → signatures'.find? b = signatures.find? b) :
    MemberedFor (fun b => B b ∨ b = behavior) (s.enrolled joins behavior) signatures' := by
  intro type record b hb hfind
  rw [hs.find?_enrolled] at hfind
  obtain ⟨record₀, hfind₀, rfl⟩ := Option.map_eq_some_iff.mp hfind
  rw [contains_enroll]
  by_cases hbb : b = behavior
  · rw [if_pos hbb, hbb]
    exact hself _
  · rw [if_neg hbb, hother b hbb]
    exact h type record₀ b (hb.resolve_right hbb) hfind₀

theorem MemberedFor.mono {B B' : BehaviorId → Prop} {s : SystemRegistry}
    {signatures : OrdMap BehaviorId Signature} (h : MemberedFor B s signatures)
    (hB : ∀ b, B' b → B b) : MemberedFor B' s signatures :=
  fun type record b hb => h type record b (hB b hb)

theorem Membered.signed {s : SystemRegistry} {signatures : OrdMap BehaviorId Signature}
    (h : Membered s signatures) (hs : s.Ok) (behavior : BehaviorId) (signature : Signature) :
    Membered (s.enrolled signature.covers behavior) (signatures.insert behavior signature) := by
  refine (MemberedFor.enrolled h hs (fun required => ?_) fun b hb => ?_).mono fun _ _ => Or.inl trivial
  · rw [OrdMap.find?_insert_self]
    simp
  · rw [OrdMap.find?_insert_ne _ hb]

theorem Membered.forgotten {s : SystemRegistry} {signatures : OrdMap BehaviorId Signature}
    (h : Membered s signatures) (hs : s.Ok) (behavior : BehaviorId) :
    Membered (s.enrolled (fun _ => false) behavior) (signatures.erase behavior) := by
  refine (MemberedFor.enrolled h hs (fun required => ?_) fun b hb => ?_).mono fun _ _ => Or.inl trivial
  · rw [OrdMap.find?_erase, if_pos rfl]
    simp
  · rw [OrdMap.find?_erase, if_neg hb]

end SystemRegistry

namespace World

variable {C : Type}

/-- Who is told about one behavior does not depend on where another one belongs. -/
theorem firstNotice_enrolled (callbacks : Callbacks C) (joins joins' : Signature → Bool)
    {b b' : BehaviorId} (hne : b ≠ b') {s : SystemRegistry} (hs : s.Ok) :
    firstNotice callbacks joins b (s.enrolled joins' b') = firstNotice callbacks joins b s := by
  unfold firstNotice
  refine findSome?_congr fun type _ => ?_
  rw [hs.find?_enrolled]
  cases s.systems.find? type with
  | none => rfl
  | some record =>
      have hc : (SystemRegistry.enroll joins' b' record).behaviours.contains b =
          record.behaviours.contains b := by
        rw [Bool.eq_iff_iff, SystemRegistry.contains_enroll, if_neg hne]
      unfold notice
      rw [Option.map_some, Option.bind_some, Option.bind_some, hc]
      rfl

/-! ## Telling -/

/-- Signatures were changed and the systems told. -/
structure Retold (w w' : World C) : Prop where
  tended : TendedTo { w with
    behaviorSignatures := w'.behaviorSignatures
    systems := w'.systems } w'
  same : SystemRegistry.Same w.systems w'.systems

theorem Retold.refl {w : World C} (h : Ready w) : Retold w w :=
  ⟨Tended.refl w h, .refl _⟩

theorem TendedTo.signatures {w w' : World C} (h : TendedTo w w') :
    w'.behaviorSignatures = w.behaviorSignatures := by rw [h.quiet.rest]

theorem TendedTo.systems {w w' : World C} (h : TendedTo w w') : w'.systems = w.systems := by
  rw [h.quiet.rest]

/-- Being tended to does not look at signatures and systems. -/
theorem TendedTo.resigned {w w' : World C} (h : TendedTo w w')
    (signatures : OrdMap BehaviorId Signature) (systems : SystemRegistry) :
    TendedTo { w with behaviorSignatures := signatures, systems }
      { w' with behaviorSignatures := signatures, systems } := by
  obtain ⟨hready, hquiet, hintended⟩ := h
  refine ⟨⟨hready.components, hready.intents, hready.idle, hready.inactive⟩, ⟨?_, hquiet.components,
    hquiet.lost, hquiet.evidence⟩, hintended⟩
  have := hquiet.rest
  rw [this]

theorem Retold.trans {w w' w'' : World C} (h : Retold w w') (h' : Retold w' w'') :
    Retold w w'' :=
  ⟨(h.tended.resigned w''.behaviorSignatures w''.systems).trans h'.tended, h.same.trans h'.same⟩

theorem Retold.ready {w w' : World C} (h : Retold w w') : Ready w' := h.tended.ready

/-- The systems were told that a behavior has this signature now. -/
theorem Retold.of_calm {w w' : World C} (hr : Ready w) (hs : w.systems.Ok)
    (signatures : OrdMap BehaviorId Signature) {joins : Signature → Bool} {b : BehaviorId}
    (h : Calm (w.systems.enrolled joins b) { w with behaviorSignatures := signatures } w') :
    Retold w w' ∧ w'.behaviorSignatures = signatures ∧
      w'.systems = w.systems.enrolled joins b := by
  have htended := h.tended ⟨hr.components, hr.intents, hr.idle, hr.inactive⟩
  have hsig : w'.behaviorSignatures = signatures := htended.signatures
  have hsys : w'.systems = w.systems.enrolled joins b := htended.systems
  refine ⟨⟨?_, ?_⟩, hsig, hsys⟩
  · rw [hsig, hsys]
    exact htended
  · rw [hsys]
    exact hs.same_enrolled joins b

/-- The memberships of a behavior whose signature has just been written. -/
theorem wp_updateSigned (callbacks : Callbacks C) {w : World C} (hr : Ready w)
    (hs : w.systems.Ok) (hdepth : w.systems.dispatchDepth = 0) (b : BehaviorId)
    (signature : Signature) :
    wp (updateSystemMemberships callbacks b)
      (fun _ w' => firstNotice callbacks signature.covers b w.systems = none ∧ Retold w w' ∧
        w'.behaviorSignatures = w.behaviorSignatures.insert b signature ∧
        w'.systems = w.systems.enrolled signature.covers b)
      (fun e w' => firstNotice callbacks signature.covers b w.systems = some e ∧ Retold w w' ∧
        w'.behaviorSignatures = w.behaviorSignatures.insert b signature ∧
        w'.systems = w.systems.enrolled signature.covers b)
      { w with behaviorSignatures := w.behaviorSignatures.insert b signature } := by
  have hsig : ({ w with behaviorSignatures := w.behaviorSignatures.insert b signature } :
      World C).behaviorSignature b = signature := by
    unfold behaviorSignature
    dsimp only
    rw [OrdMap.find?_insert_self]
    rfl
  have htold := wp_updateSystemMemberships callbacks b
    (w := { w with behaviorSignatures := w.behaviorSignatures.insert b signature }) hs hdepth
  rw [hsig] at htold
  refine wp_mono htold (fun _ w' h => ⟨h.1, ?_⟩) (fun _ w' h => ⟨h.1, ?_⟩)
  · exact Retold.of_calm hr hs _ h.2
  · exact Retold.of_calm hr hs _ h.2

/-- A new signature for a behavior, and its memberships. -/
theorem wp_sign (callbacks : Callbacks C) {w : World C} (hr : Ready w) (hs : w.systems.Ok)
    (hdepth : w.systems.dispatchDepth = 0) (b : BehaviorId) (signature : Signature) :
    wp (do setSignature b signature; updateSystemMemberships callbacks b)
      (fun _ w' => firstNotice callbacks signature.covers b w.systems = none ∧ Retold w w' ∧
        w'.behaviorSignatures = w.behaviorSignatures.insert b signature ∧
        w'.systems = w.systems.enrolled signature.covers b)
      (fun e w' => firstNotice callbacks signature.covers b w.systems = some e ∧ Retold w w' ∧
        w'.behaviorSignatures = w.behaviorSignatures.insert b signature ∧
        w'.systems = w.systems.enrolled signature.covers b) w := by
  rw [wp_bind]
  unfold setSignature
  rw [wp_modify]
  exact wp_updateSigned callbacks hr hs hdepth b signature

theorem Membered.of_signed {w w' : World C} {b : BehaviorId} {signature : Signature}
    (h : SystemRegistry.Membered w.systems w.behaviorSignatures) (hs : w.systems.Ok)
    (hsig : w'.behaviorSignatures = w.behaviorSignatures.insert b signature)
    (hsys : w'.systems = w.systems.enrolled signature.covers b) :
    SystemRegistry.Membered w'.systems w'.behaviorSignatures := by
  rw [hsig, hsys]
  exact h.signed hs b signature

/-- Every behavior's memberships. -/
theorem wp_updateAllSystemMemberships (callbacks : Callbacks C) {w : World C} (hr : Ready w)
    (hs : w.systems.Ok) (hdepth : w.systems.dispatchDepth = 0)
    (hm : SystemRegistry.MemberedFor (fun b => w.behaviorSignatures.find? b = none) w.systems
      w.behaviorSignatures) :
    wp (updateAllSystemMemberships callbacks)
      (fun _ w' => (w.behaviorSignatures.keys.findSome? fun b =>
          firstNotice callbacks (w.behaviorSignature b).covers b w.systems) = none ∧
        Retold w w' ∧ w'.behaviorSignatures = w.behaviorSignatures ∧
        SystemRegistry.Membered w'.systems w'.behaviorSignatures)
      (fun e w' => (w.behaviorSignatures.keys.findSome? fun b =>
          firstNotice callbacks (w.behaviorSignature b).covers b w.systems) = some e ∧
        Retold w w' ∧ w'.behaviorSignatures = w.behaviorSignatures ∧
        SystemRegistry.Membered w'.systems w'.behaviorSignatures) w := by
  -- after a part of the behaviors: those are told, the others are to be told as at the start
  have hloop : ∀ (l : List BehaviorId) (w₁ : World C), l.Nodup → Retold w w₁ →
      w₁.behaviorSignatures = w.behaviorSignatures →
      (∀ b ∈ l, ∀ joins, firstNotice callbacks joins b w₁.systems =
        firstNotice callbacks joins b w.systems) →
      (∀ b, b ∈ l → ∃ signature, w.behaviorSignatures.find? b = some signature) →
      SystemRegistry.MemberedFor (fun b => b ∉ l) w₁.systems w.behaviorSignatures →
      wp (runAll (fun b => captured (updateSystemMemberships callbacks b)) l)
        (fun first w' => first = (l.findSome? fun b =>
            firstNotice callbacks (w.behaviorSignature b).covers b w.systems) ∧
          Retold w w' ∧ w'.behaviorSignatures = w.behaviorSignatures ∧
          SystemRegistry.Membered w'.systems w'.behaviorSignatures) (fun _ _ => False) w₁ := by
    intro l
    induction l with
    | nil =>
        intro w₁ _ hret hsig _ _ hmem
        unfold runAll
        rw [wp_pure]
        refine ⟨rfl, hret, hsig, ?_⟩
        rw [hsig]
        exact hmem.mono fun b _ => List.not_mem_nil
    | cons b l ih =>
        intro w₁ hnd hret hsig hnotice hknown hmem
        obtain ⟨hb, hnd⟩ := List.nodup_cons.mp hnd
        have hs₁ := hret.same.ok hs
        have hd₁ := hret.same.depth.trans hdepth
        obtain ⟨signature, hfound⟩ := hknown b List.mem_cons_self
        have hbs : w₁.behaviorSignature b = w.behaviorSignature b := by
          unfold behaviorSignature
          rw [hsig]
        unfold runAll
        rw [wp_bind]
        -- the rest of the loop, from the state in which this behavior has been told
        have hrest : ∀ (first : Option Failure) (w₂ : World C),
            first = firstNotice callbacks (w.behaviorSignature b).covers b w.systems →
            Calm (w₁.systems.enrolled (w.behaviorSignature b).covers b) w₁ w₂ →
            wp (do
              let later ← runAll (fun b => captured (updateSystemMemberships callbacks b)) l
              return first.or later)
              (fun first w' => first = ((b :: l).findSome? fun b =>
                  firstNotice callbacks (w.behaviorSignature b).covers b w.systems) ∧
                Retold w w' ∧ w'.behaviorSignatures = w.behaviorSignatures ∧
                SystemRegistry.Membered w'.systems w'.behaviorSignatures)
              (fun _ _ => False) w₂ := by
          intro first w₂ hfirst hcalm
          obtain ⟨hret₂, hsig₂, hsys₂⟩ := Retold.of_calm hret.ready hs₁
            w₁.behaviorSignatures hcalm
          rw [wp_bind]
          refine wp_mono (ih w₂ hnd (hret.trans hret₂) (hsig₂.trans hsig) (fun c hc joins => ?_)
            (fun c hc => hknown c (List.mem_cons_of_mem _ hc)) ?_) (fun later w' h => ?_)
            (fun _ _ h => h)
          · have hcb : c ≠ b := by
              rintro rfl
              exact hb hc
            rw [hsys₂, firstNotice_enrolled _ _ _ hcb hs₁]
            exact hnotice c (List.mem_cons_of_mem _ hc) joins
          · rw [hsys₂]
            refine (SystemRegistry.MemberedFor.enrolled hmem hs₁ (fun required => ?_)
              (fun _ _ => rfl)).mono fun c hc => ?_
            · unfold behaviorSignature
              rw [hfound]
              simp
            · by_cases hcb : c = b
              · exact Or.inr hcb
              · refine Or.inl fun hm => ?_
                exact (List.mem_cons.mp hm).elim hcb hc
          · rw [wp_pure]
            refine ⟨?_, h.2⟩
            rw [h.1, hfirst, List.findSome?_cons]
            cases firstNotice callbacks (w.behaviorSignature b).covers b w.systems <;> rfl
        refine wp_captured (wp_mono (wp_updateSystemMemberships callbacks b hs₁ hd₁)
          (fun _ w₂ h => ?_) (fun e w₂ h => ?_))
        · rw [hbs, hnotice b List.mem_cons_self] at h
          exact hrest none w₂ h.1.symm h.2
        · rw [hbs, hnotice b List.mem_cons_self] at h
          exact hrest (some e) w₂ h.1.symm h.2
  unfold updateAllSystemMemberships
  rw [wp_bind, wp_get, wp_bind]
  refine wp_mono (hloop w.behaviorSignatures.keys w w.behaviorSignatures.nodup_keys (.refl hr) rfl
    (fun _ _ _ => rfl) (fun b hb => OrdMap.mem_keys.mp hb) (hm.mono fun b hb => ?_))
    (fun first w' h => ?_) (fun _ _ h => h.elim)
  · cases hf : w.behaviorSignatures.find? b with
    | none => rfl
    | some signature => exact absurd (OrdMap.mem_keys.mpr ⟨signature, hf⟩) hb
  · refine wp_rethrow (fun hnone => ⟨?_, h.2⟩) (fun e he => ⟨?_, h.2⟩)
    · rw [← h.1, hnone]
    · rw [← h.1, he]

/-! ## Losing a type -/

end World

variable {C : Type}

theorem TypeRecord.Ok.componentsFold_isEmpty {world : UInt64} {t : TypeRecord C} (h : t.Ok world)
    (l : List ComponentSlotAccess) (m : OrdMap Bytes ComponentSlotId)
    (hl : ∀ a ∈ l, t.slotNames.contains a.slot = true) :
    (l.foldl (fun available access =>
      if t.has access.slot.slot then
        match t.slotNames.find? access.slot with
        | some name => available.insert name access.slot
        | none => available
      else available) m).entries.isEmpty = (m.entries.isEmpty && l.isEmpty) := by
  induction l generalizing m with
  | nil => simp
  | cons a l ih =>
      obtain ⟨name, hname⟩ := Option.isSome_iff_exists.mp (hl a List.mem_cons_self)
      rw [List.foldl_cons, ih _ fun a' ha' => hl a' (List.mem_cons_of_mem _ ha'),
        if_pos (h.live _ _ hname).2, hname]
      have hne : (m.insert name a.slot).entries.isEmpty = false := by
        cases he : (m.insert name a.slot).entries.isEmpty with
        | false => rfl
        | true =>
            have := IntentRegistry.find?_eq_none_of_isEmpty he name
            rw [OrdMap.find?_insert_self] at this
            cases this
      dsimp only
      rw [hne, List.isEmpty_cons, Bool.and_false, Bool.false_and]

/-- A behavior that has access to nothing has no list of accesses. -/
theorem TypeRecord.Ok.componentsOf_isEmpty {world : UInt64} {t : TypeRecord C} (h : t.Ok world)
    (b : BehaviorId) : (t.componentsOf b).entries.isEmpty = !t.accesses.contains b := by
  unfold TypeRecord.componentsOf accessesOf OrdMap.contains
  cases hl : t.accesses.find? b with
  | none => rfl
  | some l =>
      have hok := h.accesses b l hl
      refine (h.componentsFold_isEmpty l .empty fun a ha => (hok.known a ha).1).trans ?_
      simpa using fun _ => hok.nonempty

theorem ComponentRegistry.Revalued.typeRecord {r r' : ComponentRegistry C} (h : Revalued r r')
    {type : ComponentType} {t : TypeRecord C} (ht : r.typeRecord type = .ok t) :
    ∃ t', r'.typeRecord type = .ok t' ∧ TypeRecord.Revalued t t' := by
  obtain ⟨t', ht', hrev⟩ := h.types _ t (typeRecord_eq_ok ht)
  refine ⟨t', ?_, hrev⟩
  have hcomp : t'.component = t.component := by rw [hrev.rest]
  have hfind := typeRecord_eq_ok ht
  unfold ComponentRegistry.typeRecord at ht ⊢
  rw [h.worldId, ht']
  rw [hfind] at ht
  split at ht
  · cases ht
  · next h1 =>
      split at ht
      · cases ht
      · next h2 =>
          rw [if_neg h1, if_neg h2]
          dsimp only at ht ⊢
          rw [hcomp]
          split at ht
          · cases ht
          · next h3 => rw [if_neg h3]

namespace World

/-- The signature a behavior has once it may have lost its last access to a type. -/
def resigned (w : World C) (t : TypeRecord C) (type : ComponentTypeId) (b : BehaviorId) :
    Option Signature :=
  if t.accesses.contains b then w.behaviorSignatures.find? b
  else some ((w.behaviorSignature b).reset type)

/-- What the callbacks throw then. -/
def resignNotice (callbacks : Callbacks C) (w : World C) (t : TypeRecord C)
    (type : ComponentTypeId) (b : BehaviorId) : Option Failure :=
  if t.accesses.contains b then none
  else firstNotice callbacks ((w.behaviorSignature b).reset type).covers b w.systems

theorem wp_resetSignature (callbacks : Callbacks C) {w : World C} (hr : Ready w)
    (hs : w.systems.Ok) (hdepth : w.systems.dispatchDepth = 0) {type : ComponentType}
    {t : TypeRecord C} (ht : w.components.typeRecord type = .ok t) (b : BehaviorId) :
    wp (resetSignature callbacks type b)
      (fun _ w' => resignNotice callbacks w t type.id b = none ∧ Retold w w' ∧
        (∀ c, w'.behaviorSignatures.find? c =
          if c = b then w.resigned t type.id b else w.behaviorSignatures.find? c) ∧
        (∀ c, c ≠ b → ∀ joins, firstNotice callbacks joins c w'.systems =
          firstNotice callbacks joins c w.systems) ∧
        (SystemRegistry.Membered w.systems w.behaviorSignatures →
          SystemRegistry.Membered w'.systems w'.behaviorSignatures))
      (fun e w' => resignNotice callbacks w t type.id b = some e ∧ Retold w w' ∧
        (∀ c, w'.behaviorSignatures.find? c =
          if c = b then w.resigned t type.id b else w.behaviorSignatures.find? c) ∧
        (∀ c, c ≠ b → ∀ joins, firstNotice callbacks joins c w'.systems =
          firstNotice callbacks joins c w.systems) ∧
        (SystemRegistry.Membered w.systems w.behaviorSignatures →
          SystemRegistry.Membered w'.systems w'.behaviorSignatures)) w := by
  have htok := hr.components.types _ t (ComponentRegistry.typeRecord_eq_ok ht)
  unfold resetSignature
  rw [wp_bind, wp_get, wp_bind, ht, wp_lift]
  refine ⟨fun t' ht' => ?_, fun e he => by cases he⟩
  cases ht'
  rw [htok.componentsOf_isEmpty]
  unfold resignNotice resigned
  by_cases hacc : t.accesses.contains b = true
  · rw [if_neg (by simp [hacc]), wp_pure, if_pos hacc]
    refine ⟨rfl, .refl hr, fun c => ?_, fun _ _ _ => rfl, fun h => h⟩
    by_cases hc : c = b
    · rw [if_pos hc, if_pos hacc, hc]
    · rw [if_neg hc]
  · rw [if_pos (by simpa using hacc), if_neg hacc]
    have hfind : ∀ (w' : World C) c,
        w'.behaviorSignatures = w.behaviorSignatures.insert b
          ((w.behaviorSignature b).reset type.id) →
        w'.behaviorSignatures.find? c = if c = b then
          if t.accesses.contains b = true then w.behaviorSignatures.find? b
          else some ((w.behaviorSignature b).reset type.id)
        else w.behaviorSignatures.find? c := by
      intro w' c hsig
      rw [hsig, OrdMap.find?_insert, if_neg hacc]
      by_cases hc : c = b <;> simp [hc]
    refine wp_mono (wp_sign callbacks hr hs hdepth b ((w.behaviorSignature b).reset type.id))
      (fun _ w' h => ?_) (fun e w' h => ?_)
    · obtain ⟨hn, hret, hsig, hsys⟩ := h
      refine ⟨hn, hret, fun c => hfind w' c hsig, fun c hc joins => ?_, fun hm => ?_⟩
      · rw [hsys, firstNotice_enrolled _ _ _ hc hs]
      · exact Membered.of_signed hm hs hsig hsys
    · obtain ⟨hn, hret, hsig, hsys⟩ := h
      refine ⟨hn, hret, fun c => hfind w' c hsig, fun c hc joins => ?_, fun hm => ?_⟩
      · rw [hsys, firstNotice_enrolled _ _ _ hc hs]
      · exact Membered.of_signed hm hs hsig hsys

end World

end LiquidLayer
