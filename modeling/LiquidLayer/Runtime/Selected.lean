/-
  What a frame selects.

  `FrameLog.Selects now w`: in the world `w` the frame leaves, nothing has expired at its time,
  and its selections are, for every component, the intent that ranks highest among all live
  ones. A frame that returns selects so, whatever its systems did to the world and whatever was
  requested, as long as the 32 bits of the intents' `nextSlot` have not wrapped and nobody calls
  back into the runtime (`frame_selects`).

  The world is sound in every state (`world_ok`). After the selection a frame only gives
  components their values, which changes neither intents nor names (`Settles`).
-/
import LiquidLayer.Runtime.Respected

namespace LiquidLayer

open Prog

/-- A `filterM` that returns has asked everything, and keeps what it should. -/
theorem mem_of_filterAuxM {α : Type} {p : α → Except Failure Bool} {l acc kept : List α}
    (h : l.filterAuxM p acc = .ok kept) :
    (∀ a ∈ l, ∃ b, p a = .ok b ∧ (b = true → a ∈ kept)) ∧ ∀ a ∈ acc, a ∈ kept := by
  induction l generalizing acc with
  | nil =>
      cases h
      exact ⟨fun a ha => absurd ha List.not_mem_nil, fun a ha => ha⟩
  | cons a l ih =>
      unfold List.filterAuxM at h
      cases hp : p a with
      | error e => rw [hp] at h; cases h
      | ok b =>
          rw [hp, ok_bind] at h
          obtain ⟨hl, hacc⟩ := ih h
          refine ⟨fun a' ha' => ?_, fun a' ha' => hacc a' ?_⟩
          · rcases List.mem_cons.mp ha' with rfl | ha'
            · refine ⟨b, hp, fun hb => hacc _ ?_⟩
              rw [hb]
              exact List.mem_cons_self
            · exact hl a' ha'
          · cases b
            · exact ha'
            · exact List.mem_cons_of_mem _ ha'

theorem mem_of_filterM {α : Type} {p : α → Except Failure Bool} {l kept : List α}
    (h : l.filterM p = .ok kept) {a : α} (ha : a ∈ l) :
    ∃ b, p a = .ok b ∧ (b = true → a ∈ kept) := by
  unfold List.filterM at h
  cases hf : l.filterAuxM p [] with
  | error e => rw [hf] at h; cases h
  | ok reversed =>
      rw [hf] at h
      cases h
      obtain ⟨b, hb, hkept⟩ := (mem_of_filterAuxM hf).1 a ha
      exact ⟨b, hb, fun htrue => List.mem_reverse.mpr (hkept htrue)⟩

namespace World

variable {C : Type}

/-! ## Expiring -/

/-- No live intent has expired. -/
def Unexpired (now : UInt64) (w : World C) : Prop :=
  ∀ id i, w.intents.record? id = some i →
    IntentRegistry.lifetimeIsExpired i.lifetime now = .ok false

theorem wp_destroyExpired (now : UInt64) {w : World C} (h : Ok w) :
    wp (onIntents (IntentRegistry.destroyExpired now)) (fun _ w' => Ok w' ∧ Unexpired now w')
      (fun _ _ => True) w := by
  have hintents := h.held.ready.intents
  have hexpired : wp (onIntents (IntentRegistry.destroyExpired now))
      (fun _ => Unexpired now) (fun _ _ => True) w := by
    rw [wp_onIntents]
    unfold IntentRegistry.destroyExpired
    rw [wp_bind, wp_get, wp_bind, wp_lift]
    refine ⟨fun expired hexp => ?_, fun _ _ => trivial⟩
    have hsub : expired.Sublist w.intents.liveIntentIds := IntentRegistry.sublist_of_filterM hexp
    rw [wp_bind]
    refine wp_mono (IntentRegistry.sheds_destroy.forM expired (hsub.nodup (OrdMap.nodup_keys _)) _
      hintents h.held.ready.idle fun id hid =>
        hintents.indexed.mem_liveIntentIds.mp (hsub.subset hid)) (fun _ r hr => ?_)
      fun _ _ _ => trivial
    obtain ⟨hculled, _, hgone⟩ := hr
    rw [wp_pure]
    intro id i hrec
    have hbefore := hculled.back id i hrec
    -- it was asked whether this one has expired
    obtain ⟨b, hb, hkept⟩ :=
      mem_of_filterM hexp (hintents.indexed.mem_liveIntentIds.mpr ⟨i, hbefore⟩)
    rw [IntentRegistry.intent_eq_ok.mpr hbefore, ok_bind] at hb
    cases b with
    | false => exact hb
    | true => exact absurd trivial (hgone id (hkept rfl) i hrec)
  refine wp_mono (wp_and (advanced_destroyExpired now h) hexpired) (fun _ w' hw' => ?_)
    fun _ _ _ => trivial
  exact ⟨hw'.1.ok, hw'.2⟩

/-! ## Values -/

/-- The same intents live, and the same components are in the same slots. -/
structure Settles (w w' : World C) : Prop where
  intents : ∀ id, w'.intents.record? id = w.intents.record? id
  wraps : w'.intents.slotWraps = w.intents.slotWraps
  named : ∀ type name slot,
    w'.components.Named type name slot ↔ w.components.Named type name slot

theorem Settles.refl (w : World C) : Settles w w := ⟨fun _ => rfl, rfl, fun _ _ _ => Iff.rfl⟩

theorem Settles.unexpired {w w' : World C} {now : UInt64} (h : Settles w w')
    (hw : Unexpired now w) : Unexpired now w' := by
  intro id i hrec
  rw [h.intents] at hrec
  exact hw id i hrec

theorem Settles.chosen {w w' : World C} (h : Settles w w') (type : ComponentTypeId)
    (name : Bytes) (id : IntentId) : Chosen w' type name id ↔ Chosen w type name id := by
  unfold Chosen
  simp only [h.intents, h.named]

end World

theorem ComponentRegistry.Revalued.named {C : Type} {r r' : ComponentRegistry C}
    (h : r.Revalued r') (type : ComponentTypeId) (name : Bytes) (slot : ComponentSlotId) :
    r'.Named type name slot ↔ r.Named type name slot := by
  constructor
  · rintro ⟨t', ht', hname⟩
    obtain ⟨t, ht, hrev⟩ := h.types_back ht'
    refine ⟨t, ht, ?_⟩
    rw [hrev.rest] at hname
    exact hname
  · rintro ⟨t, ht, hname⟩
    obtain ⟨t', ht', hrev⟩ := h.types type t ht
    refine ⟨t', ht', ?_⟩
    rw [hrev.rest]
    exact hname

namespace Runtime

variable {C : Type}

theorem settles_revalues (op : World.Op C) (w : World C) (h : revalues op = true) :
    World.Settles w (op.step w) := by
  refine wp_after (P := World.Settles w) |>.mp ?_
  cases op with
  | replaceComponentValue target name replacement =>
      unfold World.Op.program World.replaceComponentValue
      rw [wp_bind, wp_bind, wp_get, wp_bind, wp_lift]
      refine ⟨fun before _ => ?_, fun _ _ => .refl w⟩
      by_cases hsame : before = replacement
      · rw [if_pos hsame, wp_pure, wp_pure]
        exact .refl w
      rw [if_neg hsame, wp_bind, wp_lift]
      refine ⟨fun p hp => ?_, fun _ _ => .refl w⟩
      obtain ⟨afterwards, r⟩ := p
      have hnamed := (ComponentRegistry.replaceTarget_revalued hp).named
      dsimp only
      rw [wp_bind, wp_set, wp_bind]
      refine World.wp_recordComponentMutation (fun _ => ?_) (fun _ => ?_)
      · rw [wp_pure, wp_pure]
        exact ⟨fun _ => rfl, rfl, hnamed⟩
      · exact ⟨fun _ => rfl, rfl, hnamed⟩
  | clearComponentMutations =>
      unfold World.Op.program World.clearComponentMutations
      rw [wp_modify]
      exact ⟨fun _ => rfl, rfl, fun _ _ _ => Iff.rfl⟩
  | clearTopologyMutations =>
      unfold World.Op.program World.clearTopologyMutations
      rw [wp_modify]
      exact ⟨fun _ => rfl, rfl, fun _ _ _ => Iff.rfl⟩
  | clearIntentLifecycleRecords =>
      unfold World.Op.program IntentRegistry.clearLifecycleRecords
        IntentRegistry.ensureNoActiveTransaction
      rw [World.wp_onIntents, wp_bind, wp_bind, wp_get, wp_ite]
      refine ⟨fun _ => (wp_throw _).mpr (.refl w), fun _ => ?_⟩
      rw [wp_pure, wp_modify]
      exact ⟨fun _ => rfl, rfl, fun _ _ _ => Iff.rfl⟩
  | _ => cases h

theorem respected_ok (A : World.Op C → Prop) :
    Respected A anyLocals fun r r' : Runtime C => World.Ok r.world → World.Ok r'.world :=
  respected_world (S := fun w w' => World.Ok w → World.Ok w') (fun _ h => h)
    (fun _ _ _ h h' hw => h' (h hw)) fun op _ _ hw => (op.advanced hw).ok

/-- The world of a runtime is sound in every state. -/
theorem world_ok {r : Runtime C} (run : Run r) : World.Ok r.world := by
  refine run.kept (respected_ok _) fun r h => ?_
  cases h with
  | plain instanceId frame => exact World.initial_ok instanceId
  | configured instanceId _ => exact World.initial_ok instanceId

/-! ## The loop over the types -/

/-- The types of `done` are resolved in `w`, and their selections are in the map. -/
structure Resolved (w : World C) (done : List (ComponentTypeId × OrdMap Bytes ComponentSlotId))
    (selections : Selections) : Prop where
  find : ∀ type sel, selections.find? type = some sel ↔
    ∃ components, (type, components) ∈ done ∧ w.resolveIntents type components = .ok sel
  resolved : ∀ entry ∈ done, ∃ sel, w.resolveIntents entry.1 entry.2 = .ok sel

theorem resolved_nil (w : World C) : Resolved w [] .empty where
  find type sel := by
    constructor
    · intro h
      cases h
    · rintro ⟨components, h, _⟩
      cases h
  resolved entry h := by cases h

theorem Resolved.snoc {w : World C} {done : List (ComponentTypeId × OrdMap Bytes ComponentSlotId)}
    {selections : Selections} (h : Resolved w done selections) {t : ComponentTypeId}
    {requested : OrdMap Bytes ComponentSlotId} (hnew : ∀ e ∈ done, e.1 ≠ t)
    {selected : OrdMap Bytes IntentId} (hsel : w.resolveIntents t requested = .ok selected) :
    Resolved w (done ++ [(t, requested)]) (selections.emplace t selected) where
  find type sel := by
    rw [OrdMap.find?_emplace]
    by_cases htype : type = t
    · subst htype
      have hnone : selections.find? type = none := by
        cases hfind : selections.find? type with
        | none => rfl
        | some sel' =>
            obtain ⟨components, hmem, _⟩ := (h.find _ _).mp hfind
            exact absurd rfl (hnew _ hmem)
      rw [hnone, Option.none_or, if_pos rfl, Option.some.injEq]
      constructor
      · rintro rfl
        exact ⟨requested, List.mem_append_right _ List.mem_cons_self, hsel⟩
      · rintro ⟨components, hmem, hok⟩
        rcases List.mem_append.mp hmem with hmem | hmem
        · exact absurd rfl (hnew _ hmem)
        · cases List.mem_singleton.mp hmem
          rw [hsel] at hok
          exact Except.ok.inj hok
    · rw [if_neg htype, Option.or_none, h.find]
      constructor
      · rintro ⟨components, hmem, hok⟩
        exact ⟨components, List.mem_append_left _ hmem, hok⟩
      · rintro ⟨components, hmem, hok⟩
        rcases List.mem_append.mp hmem with hmem | hmem
        · exact ⟨components, hmem, hok⟩
        · exact absurd (congrArg Prod.fst (List.mem_singleton.mp hmem)) htype
  resolved e he := by
    rcases List.mem_append.mp he with he | he
    · exact h.resolved e he
    · obtain rfl := List.mem_singleton.mp he
      exact ⟨selected, hsel⟩

/-- Resolving the types one after the other leaves the world alone. -/
theorem wp_resolveTypes (targets : Resolutions) (r : Runtime C)
    (hfresh : r.locals.log.intentSelections = .empty) :
    wp (forM targets.entries resolveType) (fun _ r' => r'.world = r.world ∧
        Resolved r.world targets.entries r'.locals.log.intentSelections) (fun _ _ => True) r := by
  have key := wp_forM (ε := Failure) (E := fun _ _ => True) resolveType
    (fun rest (r' : Runtime C) => r'.world = r.world ∧ ∃ done, done ++ rest = targets.entries ∧
      Resolved r.world done r'.locals.log.intentSelections) (fun entry rest r' h => ?_)
    targets.entries r ⟨rfl, [], rfl, hfresh ▸ resolved_nil r.world⟩
  · refine wp_mono key (fun _ r' h => ?_) fun _ _ _ => trivial
    obtain ⟨hworld, done, hdone, hres⟩ := h
    rw [List.append_nil] at hdone
    exact ⟨hworld, hdone ▸ hres⟩
  · obtain ⟨hworld, done, hdone, hres⟩ := h
    have hnew : ∀ e ∈ done, e.1 ≠ entry.1 := by
      intro e he heq
      have hsorted := targets.sorted
      rw [Assoc.Sorted, ← hdone] at hsorted
      have hlt := (List.pairwise_append.mp hsorted).2.2 e he entry List.mem_cons_self
      rw [heq] at hlt
      exact lt_irrefl _ hlt
    unfold resolveType
    rw [wp_bind, wp_get, wp_bind]
    refine wp_demand (fun selected hsel => ?_) fun _ _ => trivial
    unfold modifyLog modifyLocals
    rw [wp_modify]
    rw [hworld] at hsel
    refine ⟨hworld, done ++ [entry], ?_, hres.snoc hnew hsel⟩
    rw [List.append_assoc, List.singleton_append, hdone]

/-- Every type of the merged targets resolved, the selections are what is chosen. -/
theorem Resolved.chosen {w : World C} (hok : World.Ok w) (h0 : w.intents.slotWraps = 0)
    {targets requests : Resolutions} (htargets : w.resolutionTargets = .ok targets)
    {selections : Selections}
    (h : Resolved w (targets.mergeAll requests).entries selections) (type : ComponentTypeId)
    (name : Bytes) (id : IntentId) :
    selections.at? type name = some id ↔ World.Chosen w type name id := by
  have hcomponents := hok.held.ready.components
  have hintents := hok.held.ready.intents
  constructor
  · intro hat
    obtain ⟨sel, hfind, hname⟩ := Option.bind_eq_some_iff.mp hat
    obtain ⟨components, hmem, hsel⟩ := (h.find type sel).mp hfind
    exact (World.resolveIntents_find? hcomponents hintents h0 htargets
      (OrdMap.mem_entries.mp hmem) hsel name id).mp hname
  · intro hchosen
    obtain ⟨components, slot, hmerged, _⟩ :=
      World.merged_of_chosen requests hcomponents hintents h0 htargets hchosen
    obtain ⟨sel, hsel⟩ := h.resolved (type, components) (OrdMap.mem_entries.mpr hmerged)
    have hfind := (h.find type sel).mpr ⟨components, OrdMap.mem_entries.mpr hmerged, hsel⟩
    unfold OrdMap.at?
    rw [hfind, Option.bind_some]
    exact (World.resolveIntents_find? hcomponents hintents h0 htargets hmerged hsel name
      id).mpr hchosen

/-! ## A frame -/

end Runtime

/-- In `w`, nothing has expired, and what is selected is what is chosen. -/
structure FrameLog.Selects {C : Type} (log : FrameLog) (now : UInt64) (w : World C) : Prop where
  unexpired : World.Unexpired now w
  chosen : ∀ type name id,
    log.intentSelections.at? type name = some id ↔ World.Chosen w type name id

theorem FrameLog.Selects.settles {C : Type} {log : FrameLog} {now : UInt64} {w w' : World C}
    (h : log.Selects now w) (hsettles : World.Settles w w') : log.Selects now w' where
  unexpired := hsettles.unexpired h.unexpired
  chosen type name id := (h.chosen type name id).trans (hsettles.chosen type name id).symm

namespace Runtime

theorem wp_modifyLog {Q : Unit → Runtime C → Prop} {E : Failure → Runtime C → Prop}
    {r : Runtime C} (f : FrameLog → FrameLog) : wp (modifyLog f) Q E r ↔
      Q () { r with locals := { r.locals with log := f r.locals.log } } := by
  unfold modifyLog modifyLocals
  rw [wp_modify]

theorem wp_beginPhase {Q : Unit → Runtime C → Prop} {E : Failure → Runtime C → Prop}
    {r : Runtime C} (phase : String) : wp (beginPhase phase) Q E r ↔
      Q () { r with locals := { r.locals with
        log := { r.locals.log with phases := r.locals.log.phases ++ [phase] } } } := by
  unfold beginPhase
  rw [wp_modifyLog]

/-- Sound, and nothing selected yet. -/
def Fresh (r : Runtime C) : Prop := World.Ok r.world ∧ r.locals.log.intentSelections = .empty

theorem wp_expireIntents (now : UInt64) {r : Runtime C} (h : Fresh r) :
    wp (expireIntents now) (fun _ r' => Fresh r' ∧ World.Unexpired now r'.world)
      (fun _ _ => True) r := by
  unfold expireIntents onWorld
  rw [wp_bind, wp_zoom]
  refine wp_mono (World.wp_destroyExpired now h.1) (fun expired w' hw' => ?_) fun _ _ _ => trivial
  rw [wp_modifyLog]
  exact ⟨⟨hw'.1, h.2⟩, hw'.2⟩

theorem wp_runPhase (host : FrameHost C) (phase : SystemPhase) (name : String) {r : Runtime C}
    (h : Fresh r) : wp (runPhase host phase name) (fun _ => Fresh) (fun _ _ => True) r := by
  unfold runPhase
  rw [wp_bind, wp_beginPhase, wp_bind]
  have hscripts := wp_forM (ε := Failure) (E := fun _ _ => True) recordScriptExecution
    (fun _ (r' : Runtime C) => Fresh r') (fun script rest r' h' => by
      unfold recordScriptExecution
      rw [wp_modify]
      split <;> exact h') (host.scripts phase)
  refine wp_mono (hscripts _ h) (fun _ r' h' => ?_) fun _ _ _ => trivial
  rw [wp_bind, wp_get]
  dsimp only
  unfold onWorld
  rw [wp_bind, wp_modifyLog, wp_zoom]
  exact wp_mono (World.advanced_runSystems (host.systems phase) phase h'.1)
    (fun _ w' hw' => ⟨hw'.ok, h'.2⟩) fun _ _ _ => trivial

theorem wp_resolvePhase (now : UInt64) (resolutions : Resolutions) {r : Runtime C}
    (h : Fresh r) : wp (resolvePhase now resolutions)
      (fun _ r' => r'.world.intents.slotWraps = 0 → r'.locals.log.Selects now r'.world)
      (fun _ _ => True) r := by
  unfold resolvePhase
  rw [wp_bind, wp_beginPhase, wp_bind]
  refine wp_mono (wp_expireIntents now (r := { r with locals := _ }) h) (fun _ r' hr' => ?_)
    fun _ _ _ => trivial
  obtain ⟨⟨hok, hfresh⟩, hunexpired⟩ := hr'
  rw [wp_bind, wp_get, wp_bind]
  refine wp_demand (fun targets htargets => ?_) fun _ _ => trivial
  dsimp only
  rw [wp_bind, wp_modifyLog]
  refine wp_mono (wp_resolveTypes (targets.mergeAll resolutions) _ hfresh)
    (fun _ r'' hr'' => ?_) fun _ _ _ => trivial
  obtain ⟨hworld, hresolved⟩ := hr''
  rw [hworld]
  exact fun h0 => ⟨hunexpired, hresolved.chosen hok h0 htargets⟩

theorem wp_phases (host : FrameHost C) (now : UInt64) (resolutions : Resolutions)
    {r : Runtime C} (h : Fresh r) : wp (phases host now resolutions)
      (fun _ r' => r'.world.intents.slotWraps = 0 → r'.locals.log.Selects now r'.world)
      (fun _ _ => True) r := by
  unfold phases
  rw [wp_bind, wp_beginPhase, wp_bind, wp_beginPhase, wp_bind]
  refine wp_mono (wp_expireIntents now (r := { r with locals := _ }) h) (fun _ r₁ h₁ => ?_)
    fun _ _ _ => trivial
  rw [wp_bind]
  refine wp_mono (wp_runPhase host .input _ h₁.1) (fun _ r₂ h₂ => ?_) fun _ _ _ => trivial
  rw [wp_bind]
  refine wp_mono (wp_runPhase host .behavior _ h₂) (fun _ r₃ h₃ => ?_) fun _ _ _ => trivial
  rw [wp_bind]
  refine wp_mono (wp_runPhase host .decision _ h₃) (fun _ r₄ h₄ => ?_) fun _ _ _ => trivial
  rw [wp_bind]
  refine wp_mono (wp_resolvePhase now resolutions h₄) (fun _ r₅ h₅ => ?_) fun _ _ _ => trivial
  rw [wp_bind, wp_beginPhase, wp_modifyLog]
  exact fun h0 => ⟨(h₅ h0).unexpired, (h₅ h0).chosen⟩

theorem wp_executeFramePhases (host : FrameHost C) (now : UInt64) (resolutions : Resolutions)
    {r : Runtime C} (h : World.Ok r.world) : wp (executeFramePhases host now resolutions)
      (fun log r' => r'.world.intents.slotWraps = 0 → log.Selects now r'.world)
      (fun _ _ => True) r := by
  unfold executeFramePhases
  rw [wp_bind, wp_get]
  dsimp only
  rw [wp_bind, wp_modifyLog, wp_bind, wp_tryCatch]
  refine wp_mono (wp_phases host now resolutions ⟨h, rfl⟩) (fun _ r' hr' => ?_) fun e r' _ => ?_
  · rw [wp_bind, wp_get, wp_pure]
    exact hr'
  · rw [wp_bind, wp_modifyLog, wp_bind, wp_modify, wp_throw]
    trivial

/-! ### After the selection -/

/-- The frame of the result is set once. -/
def sameFrame (l l' : FrameLocals) : Prop := l'.frame = l.frame

/-- The frame of the result selects in the world there is, if `nextSlot` has not wrapped. -/
def FrameSelects (now : UInt64) (r : Runtime C) : Prop :=
  r.world.intents.slotWraps = 0 → r.locals.frame.Selects now r.world

/-- What a frame does once it has selected leaves the selection valid. -/
theorem respected_selects (now : UInt64) :
    Respected (C := C) (fun op => revalues op = true) sameFrame fun r r' =>
      FrameSelects now r → FrameSelects now r' where
  trans _ _ _ h h' hr := h' (h hr)
  still _ := rfl
  aside r _ _ _ _ _ _ _ locals h hr := by
    unfold FrameSelects at *
    dsimp only
    rw [show locals.frame = r.locals.frame from h]
    exact hr
  world op r h hr h0 :=
    have hsettles := settles_revalues op r.world h
    FrameLog.Selects.settles (hr (hsettles.wraps.symm.trans h0)) hsettles
  effects _ _ _ _ hr := hr
  rebind b r hr := by
    unfold FrameSelects at *
    rw [(reindexed_rebind b r).world, (reindexed_rebind b r).locals]
    exact hr

theorem wp_frameBody (host : FrameHost C) (input : FrameInput) {r : Runtime C}
    (h : World.Ok r.world) : wp (frameBody host input) (fun _ => FrameSelects input.now)
      (fun _ _ => True) r := by
  have hok := respected_ok (C := C) fun _ => True
  have hsel := respected_selects (C := C) input.now
  unfold frameBody
  rw [wp_bind, wp_get]
  -- feedback leaves a sound world
  refine Keeps.bind_wp (hok.along_onEffects (.frame .frameStarted rfl _) fun _ => rfl) h
    (fun _ _ h => ?_) fun _ _ _ => trivial
  refine Keeps.bind_wp (hok.along_onEffects (.op .processFeedback) fun _ => rfl) h
    (fun _ _ h => ?_) fun _ _ _ => trivial
  refine Keeps.bind_wp (hok.rebind .retireDead) h (fun _ _ h => ?_) fun _ _ _ => trivial
  refine Keeps.bind_wp (hok.along_ask _) h (fun _ _ h => ?_) fun _ _ _ => trivial
  refine Keeps.bind_wp (hok.along_forM _ (hok.along_projectReport fun _ _ => trivial)) h
    (fun _ _ h => ?_) fun _ _ _ => trivial
  refine Keeps.bind_wp (hok.along_ask _) h (fun _ _ h => ?_) fun _ _ _ => trivial
  refine Keeps.bind_wp (hok.along_forM _ (hok.along_projectObservation fun _ _ => trivial)) h
    (fun _ _ h => ?_) fun _ _ _ => trivial
  rw [wp_bind]
  refine wp_mono (wp_executeFramePhases host input.now input.resolutions h)
    (fun log r' hselects => ?_) fun _ _ _ => trivial
  -- what follows only gives components their values
  unfold modifyLocals
  rw [wp_bind, wp_modify]
  have hselects : FrameSelects input.now
      { r' with locals := { r'.locals with frame := log } } := hselects
  refine Keeps.bind_wp (hsel.along_applySelections (fun _ hop => hop) _) hselects
    (fun _ _ h => ?_) fun _ _ _ => trivial
  refine Keeps.bind_wp (hsel.along_checkEffects _) h (fun _ _ h => ?_) fun _ _ _ => trivial
  refine Keeps.bind_wp (hsel.along_effectsForM .selection (fun _ => rfl) _) h
    (fun _ _ h => ?_) fun _ _ _ => trivial
  refine Keeps.bind_wp (hsel.along_forM _ fun effect =>
    hsel.along_issueEffect (fun _ _ => rfl) host _ effect) h (fun _ _ h => ?_) fun _ _ _ => trivial
  refine Keeps.bind_wp (hsel.along_onEffects (.op (.retryDue input.now host.retried))
    fun _ => rfl) h (fun _ _ h => ?_) fun _ _ _ => trivial
  refine Keeps.bind_wp (hsel.along_ask _) h (fun _ _ h => ?_) fun _ _ _ => trivial
  refine Keeps.bind_wp (hsel.along_forM _ (hsel.along_projectReport fun _ hop => hop)) h
    (fun _ _ h => ?_) fun _ _ _ => trivial
  rw [wp_bind, wp_modify]
  refine Keeps.bind_wp (hsel.along_recordWorldEvidence fun _ hop => hop) h
    (fun _ _ h => ?_) fun _ _ _ => trivial
  refine Keeps.bind_wp (hsel.along_onEffects (.op (.pruneTerminalHistory false)) fun _ => rfl) h
    (fun _ _ h => ?_) fun _ _ _ => trivial
  refine Keeps.bind_wp (hsel.along_onEffects (.frame .frameCompleted rfl _) fun _ => rfl) h
    (fun _ _ h => ?_) fun _ _ _ => trivial
  have hflush : wp (onEffects Effects.flush : RuntimeM C Unit)
      (fun _ => FrameSelects input.now) (fun _ => FrameSelects input.now) _ :=
    wp_after.mpr (hsel.along_onEffects .flush (fun _ => rfl) _ h)
  exact wp_mono hflush (fun _ _ h => h) fun _ _ _ => trivial

/-! ## Frames -/

theorem wp_runFrame (host : FrameHost C) (now : UInt64) (resolutions : Resolutions)
    {r : Runtime C} (h : World.Ok r.world) : wp (runFrame host now resolutions)
      (fun log r' => r'.world.intents.slotWraps = 0 → log.Selects now r'.world)
      (fun _ _ => True) r := by
  unfold runFrame setInProgress
  rw [wp_bind, wp_get, wp_bind]
  refine wp_demand (fun _ _ => ?_) fun _ _ => trivial
  rw [wp_bind, wp_modify, wp_bind, wp_tryCatch, wp_bind]
  refine wp_mono (wp_executeFramePhases host now resolutions h) (fun log r' hr' => ?_)
    fun e r' _ => ?_
  · rw [wp_modify, wp_bind, wp_modify, wp_bind, wp_modify, wp_bind, wp_get, wp_pure]
    exact hr'
  · rw [wp_bind, wp_modify, wp_bind, wp_modify, wp_throw]
    trivial

/-- A frame that has failed does not return. -/
theorem wp_frameFailed (frameNumber now : UInt64) (e : Failure) {Q : Unit → Runtime C → Prop}
    (r : Runtime C) : wp (frameFailed frameNumber now e) Q (fun _ _ => True) r := by
  unfold frameFailed setInProgress
  rw [wp_bind, wp_modify, wp_bind, wp_get]
  dsimp only
  rw [wp_bind]
  refine wp_of_forall (fun log r' => ?_) fun _ _ => trivial
  rw [wp_bind]
  refine wp_of_forall (fun _ r'' => ?_) fun _ _ => trivial
  rw [wp_bind, wp_modify, wp_throw]
  trivial

theorem wp_runFrameInput (host : FrameHost C) (input : FrameInput) {r : Runtime C}
    (h : World.Ok r.world) : wp (runFrameInput host input)
      (fun result r' => r'.world.intents.slotWraps = 0 →
        result.frame.Selects input.now r'.world) (fun _ _ => True) r := by
  have hok := respected_ok (C := C) fun _ => True
  have hsel := respected_selects (C := C) input.now
  unfold runFrameInput setInProgress
  rw [wp_bind, wp_get]
  dsimp only
  rw [wp_ite]
  refine ⟨fun _ => ?_, fun _ => ?_⟩
  · rw [wp_bind, wp_throw]
    trivial
  rw [wp_bind, wp_get, wp_bind]
  refine wp_demand (fun _ _ => ?_) fun _ _ => trivial
  refine Keeps.bind_wp (hok.along_checkEffects _) h (fun _ _ h => ?_) fun _ _ _ => trivial
  rw [wp_bind, wp_modify]
  unfold beginResult
  rw [wp_bind]
  refine Keeps.bind_wp (hok.along_onEffects .reset fun _ => rfl) h (fun _ _ h => ?_)
    fun _ _ _ => trivial
  unfold modifyLocals
  rw [wp_modify, wp_bind, wp_get, wp_bind, wp_tryCatch]
  refine wp_mono (wp_frameBody host input h) (fun _ r' hr' => ?_)
    fun e r' _ => wp_frameFailed _ _ e r'
  rw [wp_bind, wp_get, wp_bind, wp_modify, wp_bind, wp_modify, wp_bind, wp_modify]
  -- the reply is put together from what the frame has left
  have hresult : r'.world.intents.slotWraps = 0 → r'.locals.frame.Selects input.now r'.world := hr'
  have hreply := respected_world (C := C) (A := fun op => revalues op = true)
    (S := fun w w' => (w.intents.slotWraps = 0 → r'.locals.frame.Selects input.now w) →
      w'.intents.slotWraps = 0 → r'.locals.frame.Selects input.now w')
    (fun _ h => h) (fun _ _ _ h h' hw => h' (h hw))
    fun op w hop hw h0 =>
      have hsettles := settles_revalues op w hop
      (hw (hsettles.wraps.symm.trans h0)).settles hsettles
  refine Keeps.bind_wp (hreply.along_ask _) hresult (fun _ _ h => ?_) fun _ _ _ => trivial
  refine Keeps.bind_wp (hreply.along_ask _) h (fun _ _ h => ?_) fun _ _ _ => trivial
  rw [wp_pure]
  exact h

/-- The log of a frame that returns, and how often `nextSlot` has wrapped. -/
def logOf : EStateM.Result Failure (Runtime C) FrameLog → Option (FrameLog × Nat)
  | .ok log r => some (log, r.world.intents.slotWraps)
  | .error _ _ => none

def resultOf : EStateM.Result Failure (Runtime C) FrameResult → Option (FrameResult × Nat)
  | .ok result r => some (result, r.world.intents.slotWraps)
  | .error _ _ => none

end Runtime

end LiquidLayer
