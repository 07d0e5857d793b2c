/-
  `register_system`, `destroy_system` and `set_system_signature`.

  A registration whose callbacks throw is taken back. A new signature is not: its callbacks run
  after it is written, and what they throw leaves it without an entry.
-/
import LiquidLayer.World.Sound

namespace LiquidLayer

open Prog

namespace SystemRegistry

/-- Systems with the same identity and members that belong are the same systems. -/
theorem Same.eq_of_membered {s s' : SystemRegistry} (h : Same s s')
    {signatures : OrdMap BehaviorId Signature} (hm : Membered s signatures)
    (hm' : Membered s' signatures) : s' = s := by
  obtain ⟨horder, hdepth, hidentity⟩ := h
  have hsystems : s'.systems = s.systems := by
    refine OrdMap.ext_find? fun type => ?_
    have hid := hidentity type
    cases hs : s.systems.find? type with
    | none =>
        rw [hs] at hid
        cases hs' : s'.systems.find? type with
        | none => rfl
        | some record =>
            rw [hs'] at hid
            cases hid
    | some record =>
        rw [hs] at hid
        cases hs' : s'.systems.find? type with
        | none =>
            rw [hs'] at hid
            cases hid
        | some record' =>
            rw [hs'] at hid
            have hid' : record'.identity = record.identity := Option.some.inj hid
            unfold SystemRecord.identity at hid'
            obtain ⟨hsig, _, hname, hversion, hphase⟩ := SystemRecord.mk.injEq .. |>.mp hid'
            have hmembers : record'.behaviours = record.behaviours := by
              refine OrdMap.ext_find? fun b => ?_
              have h1 := hm type record b trivial hs
              have h2 := hm' type record' b trivial hs'
              rw [hsig, ← h1] at h2
              unfold OrdMap.contains at h2
              cases hb : record.behaviours.find? b <;> cases hb' : record'.behaviours.find? b <;>
                simp_all
            refine congrArg some (SystemRecord.mk.injEq .. |>.mpr ?_)
            exact ⟨hsig, hmembers, hname, hversion, hphase⟩
  obtain ⟨systems, order, depth⟩ := s
  obtain ⟨systems', order', depth'⟩ := s'
  cases horder
  cases hdepth
  cases hsystems
  rfl

/-- The systems with one more. -/
def registered (s : SystemRegistry) (system : SystemType) (signature : Signature)
    (phase : SystemPhase) : SystemRegistry :=
  { s with
    systems := s.systems.insert system.index
      ⟨signature, .empty, system.stableName, system.version, phase⟩
    registrationOrder := s.registrationOrder ++ [system.index] }

def unregistered (s : SystemRegistry) (type : Nat) : SystemRegistry :=
  { s with
    systems := s.systems.erase type
    registrationOrder := s.registrationOrder.filter fun other => other ≠ type }

/-- The systems with another signature for one. -/
def resigned (s : SystemRegistry) (type : Nat) (signature : Signature) : SystemRegistry :=
  { s with systems := s.systems.modify type fun record => { record with signature } }

theorem Ok.registered {s : SystemRegistry} (h : s.Ok) {system : SystemType}
    (hnew : s.systems.contains system.index = false) (signature : Signature)
    (phase : SystemPhase) : (s.registered system signature phase).Ok := by
  have hnot : system.index ∉ s.registrationOrder := by
    rw [h.mem, hnew]
    decide
  refine ⟨List.nodup_append.mpr ⟨h.nodup, List.nodup_singleton _, ?_⟩, fun type => ?_⟩
  · rintro a ha b hb rfl
    rw [List.mem_singleton.mp hb] at ha
    exact hnot ha
  · unfold SystemRegistry.registered
    dsimp only
    rw [List.mem_append, List.mem_singleton, h.mem, OrdMap.contains, OrdMap.contains,
      OrdMap.find?_insert]
    by_cases ht : type = system.index <;> simp [ht]

theorem Ok.unregistered {s : SystemRegistry} (h : s.Ok) (type : Nat) :
    (s.unregistered type).Ok := by
  refine ⟨h.nodup.filter _, fun other => ?_⟩
  unfold SystemRegistry.unregistered
  dsimp only
  rw [List.mem_filter, h.mem, OrdMap.contains, OrdMap.contains, OrdMap.find?_erase]
  by_cases ht : other = type <;> simp [ht]

theorem Ok.resigned {s : SystemRegistry} (h : s.Ok) (type : Nat) (signature : Signature) :
    (s.resigned type signature).Ok := by
  refine ⟨h.nodup, fun other => ?_⟩
  unfold SystemRegistry.resigned
  dsimp only
  rw [IntentRegistry.contains_modify]
  exact h.mem other

/-- The new system has no behaviors yet. -/
theorem Membered.registered {s : SystemRegistry} {signatures : OrdMap BehaviorId Signature}
    (h : Membered s signatures) (system : SystemType) (signature : Signature)
    (phase : SystemPhase) :
    MemberedFor (fun b => signatures.find? b = none) (s.registered system signature phase)
      signatures := by
  intro type record b hb hfind
  unfold SystemRegistry.registered at hfind
  dsimp only at hfind
  rw [OrdMap.find?_insert] at hfind
  split at hfind
  · cases hfind
    rw [hb]
    simp [OrdMap.contains]
  · exact h type record b trivial hfind

theorem Membered.unregistered {s : SystemRegistry} {signatures : OrdMap BehaviorId Signature}
    (h : Membered s signatures) (type : Nat) : Membered (s.unregistered type) signatures := by
  intro other record b hb hfind
  unfold SystemRegistry.unregistered at hfind
  dsimp only at hfind
  rw [OrdMap.find?_erase] at hfind
  split at hfind
  · cases hfind
  · exact h other record b hb hfind

theorem Membered.resigned {s : SystemRegistry} {signatures : OrdMap BehaviorId Signature}
    (h : Membered s signatures) (type : Nat) (signature : Signature) :
    MemberedFor (fun b => signatures.find? b = none) (s.resigned type signature) signatures := by
  intro other record b hb hfind
  unfold SystemRegistry.resigned at hfind
  dsimp only at hfind
  rw [OrdMap.find?_modify] at hfind
  split at hfind
  · next hother =>
      obtain ⟨record₀, hfind₀, rfl⟩ := Option.map_eq_some_iff.mp hfind
      have := h type record₀ b trivial hfind₀
      rw [hb] at this ⊢
      simpa using this
  · exact h other record b trivial hfind

end SystemRegistry

namespace World

variable {C : Type}

theorem setSystems_held {w : World C} (h : Held w) {s : SystemRegistry} (hs : s.Ok)
    (hdepth : s.dispatchDepth = 0) : Held (setSystems s w) := by
  obtain ⟨⟨h1, h2, h3, h4⟩, _, _, h7, h8, h9, h10, h11⟩ := h
  exact ⟨⟨h1, h2, h3, h4⟩, hs, hdepth, h7, h8, h9, h10, h11⟩

theorem setSystems_revised (w : World C) (s : SystemRegistry) : Revised w (setSystems s w) :=
  ⟨le_refl _, fun _ _ h => Or.inl ⟨h, fun _ _ => ⟨rfl, fun _ => rfl⟩⟩⟩

theorem setSystems_settled {w : World C} (h : Settled w) (s : SystemRegistry) :
    Settled (setSystems s w) := ⟨h.signed, h.revised, h.pooled, h.bits⟩

/-- What the callbacks throw when these systems are told of all behaviors. -/
def memberNotice (callbacks : Callbacks C) (w : World C) (s : SystemRegistry) : Option Failure :=
  w.behaviorSignatures.keys.findSome? fun b =>
    firstNotice callbacks (w.behaviorSignature b).covers b s

/-! ## Registering a system -/

structure Registrable (w : World C) (system : SystemType) (constructed : Except Failure Unit) :
    Prop where
  new : w.systems.systems.contains system.index = false
  name : system.stableName.isEmpty = false
  version : system.version ≠ 0
  constructed : constructed = .ok ()

theorem wp_insertSystem {w : World C} {system : SystemType} {signature : Signature}
    {phase : SystemPhase} {constructed : Except Failure Unit} {Q : Unit → World C → Prop}
    {E : Failure → World C → Prop}
    (hok : Registrable w system constructed →
      Q () (setSystems (w.systems.registered system signature phase) w))
    (herr : ∀ e, ¬Registrable w system constructed → E e w) :
    wp (insertSystem system signature phase constructed) Q E w := by
  unfold insertSystem
  rw [wp_bind, wp_get]
  by_cases hold : w.systems.systems.contains system.index = true
  · rw [if_pos hold]
    simpa only [wp_bind, wp_throw] using herr _ fun h => by simp [h.new] at hold
  rw [if_neg hold]
  by_cases hbad : system.stableName.isEmpty = true ∨ system.version = 0
  · rw [if_pos hbad]
    have hnot : ¬Registrable w system constructed := by
      intro h
      rcases hbad with hbad | hbad
      · simp [h.name] at hbad
      · exact h.version hbad
    simpa only [wp_bind, wp_throw] using herr _ hnot
  rw [if_neg hbad, wp_bind, wp_lift]
  refine ⟨fun u hu => ?_, fun e he => herr e fun h => ?_⟩
  · rw [wp_set]
    refine hok ⟨by simpa using hold, ?_, fun hv => hbad (Or.inr hv), hu⟩
    simpa using fun hn => hbad (Or.inl (by simpa using hn))
  · rw [h.constructed] at he
    cases he

theorem wp_eraseSystem {w : World C} {system : SystemType} {Q : Unit → World C → Prop}
    {E : Failure → World C → Prop}
    (hok : w.systems.systems.contains system.index = true →
      Q () (setSystems (w.systems.unregistered system.index) w))
    (herr : ∀ e, w.systems.systems.contains system.index = false → E e w) :
    wp (eraseSystem system) Q E w := by
  unfold eraseSystem
  rw [wp_bind, wp_get]
  by_cases hold : w.systems.systems.contains system.index = true
  · rw [if_neg (by simp [hold]), wp_set]
    exact hok hold
  · rw [if_pos (by simpa using hold)]
    simpa only [wp_bind, wp_throw] using herr _ (by simpa using hold)

/-- The systems that were there, with members that belong, are put back. -/
theorem Retold.unregister {w w' : World C} (h : Ok w) {system : SystemType}
    {signature : Signature} {phase : SystemPhase}
    (hnew : w.systems.systems.contains system.index = false)
    (hret : Retold (setSystems (w.systems.registered system signature phase) w) w')
    (hsig : w'.behaviorSignatures = w.behaviorSignatures)
    (hm : SystemRegistry.Membered w'.systems w'.behaviorSignatures) :
    w'.systems.unregistered system.index = w.systems := by
  have hnot : system.index ∉ w.systems.registrationOrder := by
    rw [h.held.systems.mem, hnew]
    decide
  refine @SystemRegistry.Same.eq_of_membered _ _ ⟨?_, ?_, fun type => ?_⟩
    w.behaviorSignatures h.membered (hsig ▸ hm.unregistered system.index)
  · show w'.systems.registrationOrder.filter _ = _
    rw [hret.same.order]
    show (w.systems.registrationOrder ++ [system.index]).filter _ = _
    rw [List.filter_append, List.filter_cons_of_neg (by simp), List.filter_nil, List.append_nil]
    refine List.filter_eq_self.mpr fun type htype => ?_
    rw [decide_eq_true_eq]
    rintro rfl
    exact hnot htype
  · exact hret.same.depth
  · show ((w'.systems.systems.erase system.index).find? type).map _ = _
    rw [OrdMap.find?_erase]
    by_cases ht : type = system.index
    · rw [if_pos ht, ht]
      cases hf : w.systems.systems.find? system.index with
      | none => rfl
      | some record =>
          rw [OrdMap.contains, hf] at hnew
          cases hnew
    · rw [if_neg ht]
      refine (hret.same.identity type).trans ?_
      show ((w.systems.systems.insert _ _).find? type).map _ = _
      rw [OrdMap.find?_insert, if_neg ht]

theorem content_registered (w : World C) (system : SystemType) (signature : Signature)
    (phase : SystemPhase) :
    (setSystems (w.systems.registered system signature phase) w).content =
      (Change.registerSystem system signature phase).apply w.content := by
  unfold content Change.apply Content.setSystem
  refine Content.mk.injEq .. |>.mpr ⟨rfl, rfl, rfl, rfl, ?_⟩
  funext type
  show ((w.systems.systems.insert _ _).find? type).map _ = _
  rw [OrdMap.find?_insert]
  split <;> rfl

/-- A system is registered and recorded, or the registration is taken back, or it is there and
    was not recorded. -/
theorem wp_registerSystem (callbacks : Callbacks C) {w : World C} (h : Ok w)
    (system : SystemType) (signature : Signature) (phase : SystemPhase)
    (constructed : Except Failure Unit) :
    wp (registerSystem callbacks system signature phase constructed)
      (fun _ w' => Lawful w w' ((Change.registerSystem system signature phase).apply w.content)
          [(Change.registerSystem system signature phase).entry] ∧
        Registrable w system constructed ∧
        memberNotice callbacks w (w.systems.registered system signature phase) = none ∧
        (Change.registerSystem system signature phase).Recordable)
      (fun _ w' =>
        (Lawful w w' w.content [] ∧ Unchanged w w' ∧ (Registrable w system constructed →
          memberNotice callbacks w (w.systems.registered system signature phase) ≠ none)) ∨
        (Lawful w w' ((Change.registerSystem system signature phase).apply w.content) [] ∧
          Registrable w system constructed ∧
          memberNotice callbacks w (w.systems.registered system signature phase) = none ∧
          Unrecorded w w' (Change.registerSystem system signature phase))) w := by
  unfold registerSystem
  rw [wp_bind]
  refine wp_ensureStructuralMutationAllowed h.held ?_
  rw [wp_bind]
  refine wp_insertSystem (fun hreg => ?_) (fun e hnot => Or.inl ⟨.refl h, .refl w, fun hr =>
    absurd hr hnot⟩)
  generalize hv : setSystems (w.systems.registered system signature phase) w = v
  have hvheld : Held v := by
    rw [← hv]
    exact setSystems_held h.held (h.held.systems.registered hreg.new signature phase) h.held.depth
  have hsys : v.systems = w.systems.registered system signature phase := by rw [← hv]; rfl
  have hvsig : v.behaviorSignatures = w.behaviorSignatures := by rw [← hv]; rfl
  have hvb : v.behaviors = w.behaviors := by rw [← hv]; rfl
  have hnotice : (v.behaviorSignatures.keys.findSome? fun b =>
      firstNotice callbacks (v.behaviorSignature b).covers b v.systems) =
      memberNotice callbacks w (w.systems.registered system signature phase) := by
    rw [← hv]
    rfl
  have hmembered : SystemRegistry.MemberedFor (fun b => v.behaviorSignatures.find? b = none)
      v.systems v.behaviorSignatures := by
    rw [hsys, hvsig]
    exact h.membered.registered system signature phase
  have hok : ∀ w₂ : World C, Retold v w₂ → w₂.behaviorSignatures = v.behaviorSignatures →
      SystemRegistry.Membered w₂.systems w₂.behaviorSignatures → Ok w₂ := by
    intro w₂ hret hsig hm
    have hb : w₂.behaviors = v.behaviors := by rw [hret.tended.quiet.rest]
    refine ⟨hret.held hvheld, fun b hc => ?_, hm⟩
    rw [hb, hvb]
    rw [hsig, hvsig] at hc
    exact h.signed b hc
  rw [wp_bind, wp_tryCatch]
  refine wp_mono (wp_updateAllSystemMemberships callbacks hvheld.ready hvheld.systems hvheld.depth
    hmembered) (fun _ w₂ h₂ => ?_) (fun e w₂ h₂ => ?_)
  · obtain ⟨hnone, hret, hsig, hm⟩ := h₂
    rw [hnotice] at hnone
    have houtcome : Lawful w w₂ ((Change.registerSystem system signature phase).apply w.content)
        [] := by
      have hout := Outcome.of_retold (w := w) hret (hok w₂ hret hsig hm) (by rw [← hv]; rfl)
        (by rw [← hv]; rfl) (by rw [← hv]; rfl) (by rw [← hv]; rfl)
        ⟨[], by rw [← hv]; exact (IntentRegistry.Moved.refl h.held.ready.intents).steps,
          fun _ he => absurd he List.not_mem_nil⟩ (by rw [← hv]; exact setSystems_revised w _)
      rw [← content_registered, hv]
      refine ⟨hout, fun _ ha => hret.authority ?_, fun _ hs => hret.settled hsig ?_⟩
      · rw [← hv]
        exact ha
      · rw [← hv]
        exact setSystems_settled hs _
    refine wp_recordEntry (Change.registerSystem system signature phase) rfl (fun hr _ => ?_)
      (fun e hr => ?_) (fun e hle => ?_)
    · exact ⟨houtcome.recorded _, hreg, hnone, hr⟩
    · exact Or.inr ⟨houtcome, hreg, hnone, .inadmissible hr⟩
    · exact Or.inr ⟨houtcome.refused, hreg, hnone,
        .lost (Nat.lt_succ_of_le houtcome.outcome.lost)⟩
  · obtain ⟨hsome, hret, hsig, hm⟩ := h₂
    rw [hnotice] at hsome
    -- the registration is taken back
    rw [wp_bind]
    have hback : w₂.systems.unregistered system.index = w.systems :=
      Retold.unregister h hreg.new (hv ▸ hret) (hsig.trans hvsig) hm
    have hthere : w₂.systems.systems.contains system.index = true := by
      rw [hret.same.contains, hsys, OrdMap.contains]
      show ((w.systems.systems.insert _ _).find? _).isSome = true
      rw [OrdMap.find?_insert_self]
      rfl
    refine wp_eraseSystem (fun _ => ?_) (fun _ hno => ?_)
    · rw [wp_throw, hback]
      have hretold : Retold w (setSystems w.systems w₂) := by
        have ht := hret.tended.resigned w₂.behaviorSignatures w.systems
        refine ⟨?_, .refl _⟩
        rw [← hv] at ht
        exact ht
      have hokw : Ok (setSystems w.systems w₂) := by
        have h₂ := hok w₂ hret hsig hm
        refine ⟨hretold.held h.held, h₂.signed, ?_⟩
        have hsig' : (setSystems w.systems w₂).behaviorSignatures = w.behaviorSignatures :=
          hsig.trans hvsig
        rw [hsig']
        exact h.membered
      refine Or.inl ⟨.of_retold h.held.ready hretold hokw (hsig.trans hvsig), ⟨hretold.content, rfl,
        hsig.trans hvsig, ?_⟩, fun _ => ?_⟩
      · rw [hretold.tended.quiet.rest]
      · rw [hsome]
        exact fun hc => by cases hc
    · rw [hthere] at hno
      cases hno

/-! ## Destroying a system -/

theorem content_unregistered (w : World C) (system : SystemType) :
    (setSystems (w.systems.unregistered system.index) w).content =
      (Change.destroySystem system).apply w.content := by
  unfold content Change.apply Content.setSystem
  refine Content.mk.injEq .. |>.mpr ⟨rfl, rfl, rfl, rfl, ?_⟩
  funext type
  show ((w.systems.systems.erase _).find? type).map _ = _
  rw [OrdMap.find?_erase]
  split <;> rfl

theorem wp_destroySystem {w : World C} (h : Ok w) (system : SystemType) :
    wp (destroySystem system)
      (fun _ w' => Lawful w w' ((Change.destroySystem system).apply w.content)
          [(Change.destroySystem system).entry] ∧
        w.systems.systems.contains system.index = true)
      (fun _ w' =>
        (Lawful w w' w.content [] ∧ Unchanged w w' ∧
          w.systems.systems.contains system.index = false) ∨
        (Lawful w w' ((Change.destroySystem system).apply w.content) [] ∧
          w.systems.systems.contains system.index = true ∧
          Unrecorded w w' (Change.destroySystem system))) w := by
  unfold destroySystem
  rw [wp_bind]
  refine wp_ensureStructuralMutationAllowed h.held ?_
  rw [wp_bind]
  refine wp_eraseSystem (fun hold => ?_) (fun e hno => Or.inl ⟨.refl h, .refl w, hno⟩)
  have hheld := setSystems_held h.held (h.held.systems.unregistered system.index) h.held.depth
  have houtcome : Lawful w (setSystems (w.systems.unregistered system.index) w)
      ((Change.destroySystem system).apply w.content) [] := by
    refine ⟨?_, fun _ ha => ha, fun _ hs => setSystems_settled hs _⟩
    rw [← content_unregistered]
    exact .of_retold (.refl hheld.ready)
      ⟨hheld, h.signed, h.membered.unregistered system.index⟩ rfl rfl rfl rfl
      ⟨[], (IntentRegistry.Moved.refl h.held.ready.intents).steps,
        fun _ he => absurd he List.not_mem_nil⟩ (setSystems_revised w _)
  refine wp_recordTombstone (Change.destroySystem system) rfl (fun _ => ?_) (fun e hle => ?_)
  · exact ⟨houtcome.recorded _, hold⟩
  · exact Or.inr ⟨houtcome.refused, hold, .lost (Nat.lt_succ_self _)⟩

/-! ## Setting a system's signature -/

theorem content_resigned (w : World C) (system : SystemType) (signature : Signature) :
    (setSystems (w.systems.resigned system.index signature) w).content =
      (Change.setSystemSignature system signature).apply w.content := by
  unfold content Change.apply Content.setSystem
  refine Content.mk.injEq .. |>.mpr ⟨rfl, rfl, rfl, rfl, ?_⟩
  funext type
  show ((w.systems.systems.modify _ _).find? type).map _ = _
  rw [OrdMap.find?_modify]
  split
  · next ht =>
      dsimp only
      cases w.systems.systems.find? system.index <;> rfl
  · rfl

theorem wp_setSystemSignature (callbacks : Callbacks C) {w : World C} (h : Ok w)
    (system : SystemType) (signature : Signature) :
    wp (setSystemSignature callbacks system signature)
      (fun _ w' => Lawful w w' ((Change.setSystemSignature system signature).apply w.content)
          [(Change.setSystemSignature system signature).entry] ∧
        w.systems.systems.contains system.index = true ∧
        memberNotice callbacks w (w.systems.resigned system.index signature) = none ∧
        (Change.setSystemSignature system signature).Recordable)
      (fun _ w' =>
        (Lawful w w' w.content [] ∧ Unchanged w w' ∧
          w.systems.systems.contains system.index = false) ∨
        (Lawful w w' ((Change.setSystemSignature system signature).apply w.content) [] ∧
          w.systems.systems.contains system.index = true ∧
          w'.behaviorSignatures = w.behaviorSignatures ∧
          w'.behaviorAccessRevisions = w.behaviorAccessRevisions ∧
          (memberNotice callbacks w (w.systems.resigned system.index signature) ≠ none ∨
            Unrecorded w w' (Change.setSystemSignature system signature)))) w := by
  unfold setSystemSignature
  rw [wp_bind]
  refine wp_ensureStructuralMutationAllowed h.held ?_
  rw [wp_bind, wp_get]
  cases hf : w.systems.systems.find? system.index with
  | none =>
      dsimp only
      rw [wp_throw]
      exact Or.inl ⟨.refl h, .refl w, by rw [OrdMap.contains, hf]; rfl⟩
  | some record =>
      have hthere : w.systems.systems.contains system.index = true := by
        rw [OrdMap.contains, hf]
        rfl
      dsimp only
      rw [wp_bind]
      unfold setSystem
      rw [wp_modify]
      generalize hv : setSystems (w.systems.resigned system.index signature) w = v
      have hstate : ({ w with systems := { w.systems with
          systems := w.systems.systems.insert system.index { record with signature } } } :
          World C) = v := by
        rw [← hv]
        unfold setSystems SystemRegistry.resigned
        rw [modify_of_find? hf]
      rw [hstate]
      have hvheld : Held v := by
        rw [← hv]
        exact setSystems_held h.held (h.held.systems.resigned system.index signature) h.held.depth
      have hsys : v.systems = w.systems.resigned system.index signature := by rw [← hv]; rfl
      have hvsig : v.behaviorSignatures = w.behaviorSignatures := by rw [← hv]; rfl
      have hvb : v.behaviors = w.behaviors := by rw [← hv]; rfl
      have hvrev : v.behaviorAccessRevisions = w.behaviorAccessRevisions := by rw [← hv]; rfl
      have hnotice : (v.behaviorSignatures.keys.findSome? fun b =>
          firstNotice callbacks (v.behaviorSignature b).covers b v.systems) =
          memberNotice callbacks w (w.systems.resigned system.index signature) := by
        rw [← hv]
        rfl
      have hmembered : SystemRegistry.MemberedFor (fun b => v.behaviorSignatures.find? b = none)
          v.systems v.behaviorSignatures := by
        rw [hsys, hvsig]
        exact h.membered.resigned system.index signature
      have hlawful : ∀ w₂ : World C, Retold v w₂ →
          w₂.behaviorSignatures = v.behaviorSignatures →
          SystemRegistry.Membered w₂.systems w₂.behaviorSignatures →
          Lawful w w₂ ((Change.setSystemSignature system signature).apply w.content) [] := by
        intro w₂ hret hsig hm
        have hb : w₂.behaviors = v.behaviors := by rw [hret.tended.quiet.rest]
        have hok : Ok w₂ := by
          refine ⟨hret.held hvheld, fun b hc => ?_, hm⟩
          rw [hb, hvb]
          rw [hsig, hvsig] at hc
          exact h.signed b hc
        have hout := Outcome.of_retold (w := w) hret hok (by rw [← hv]; rfl) (by rw [← hv]; rfl)
          (by rw [← hv]; rfl) (by rw [← hv]; rfl)
          ⟨[], by rw [← hv]; exact (IntentRegistry.Moved.refl h.held.ready.intents).steps,
            fun _ he => absurd he List.not_mem_nil⟩ (by rw [← hv]; exact setSystems_revised w _)
        rw [← content_resigned, hv]
        refine ⟨hout, fun _ ha => hret.authority ?_, fun _ hs => hret.settled hsig ?_⟩
        · rw [← hv]
          exact ha
        · rw [← hv]
          exact setSystems_settled hs _
      have hrevisions : ∀ w₂ : World C, Retold v w₂ →
          w₂.behaviorAccessRevisions = w.behaviorAccessRevisions := by
        intro w₂ hret
        rw [hret.tended.quiet.rest, ← hvrev]
      rw [wp_bind]
      refine wp_mono (wp_updateAllSystemMemberships callbacks hvheld.ready hvheld.systems
        hvheld.depth hmembered) (fun _ w₂ h₂ => ?_) (fun e w₂ h₂ => ?_)
      · obtain ⟨hnone, hret, hsig, hm⟩ := h₂
        rw [hnotice] at hnone
        have houtcome := hlawful w₂ hret hsig hm
        refine wp_recordEntry (Change.setSystemSignature system signature) rfl (fun hr _ => ?_)
          (fun e hr => ?_) (fun e hle => ?_)
        · exact ⟨houtcome.recorded _, hthere, hnone, hr⟩
        · exact Or.inr ⟨houtcome, hthere, hsig.trans hvsig, hrevisions w₂ hret,
            Or.inr (.inadmissible hr)⟩
        · exact Or.inr ⟨houtcome.refused, hthere, hsig.trans hvsig, hrevisions w₂ hret,
            Or.inr (.lost (Nat.lt_succ_of_le houtcome.outcome.lost))⟩
      · obtain ⟨hsome, hret, hsig, hm⟩ := h₂
        rw [hnotice] at hsome
        refine Or.inr ⟨hlawful w₂ hret hsig hm, hthere, hsig.trans hvsig, hrevisions w₂ hret,
          Or.inl ?_⟩
        rw [hsome]
        exact fun hc => by cases hc

end World

end LiquidLayer
