/-
  How an operation of a world can end.

  `Op.disposed` says it once for all of them: the content stays; or it changes by one `Change`
  whose entry is recorded; or the call throws and the change is made without its entry
  (`Op.Tears`), or evidence was lost. Emptying a buffer is left out, and a
  `replace_component_value` is taken with the name of its slot (`Op.Named`), as the runtime
  calls it.
-/
import LiquidLayer.World.Run
import LiquidLayer.World.AccessOps

namespace LiquidLayer

open Prog

namespace World

variable {C : Type}

/-! ## What is asked of an operation -/

/-- The operation empties an evidence buffer. -/
def Op.clears : Op C → Bool
  | .clearComponentMutations => true
  | .clearTopologyMutations => true
  | .clearIntentLifecycleRecords => true
  | _ => false

/-- The name that a replaced value is recorded under is the name of its slot. -/
def Op.Named (w : World C) : Op C → Prop
  | .replaceComponentValue target name _ =>
      w.components.slots target.type name = some target.slot
  | _ => True

/-- The lifecycle buffer has room for the intents that lose their owner or their right. -/
def Op.Roomy (w : World C) : Op C → Prop
  | .destroyBehavior callbacks b => RoomToDestroy callbacks w b
  | .grantComponentAccess _ type b name _ =>
      ∀ slot, w.components.componentSlot type name = .ok slot → RoomToShed w b type.id slot
  | _ => True

/-- The operation makes the change and throws before its entry is recorded: a callback throws
    first, or no `Value` holds the entry. -/
inductive Op.Tears (w : World C) : Op C → Change → Prop where
  | registerSystem {callbacks : Callbacks C} {system : SystemType} {signature : Signature}
      {phase : SystemPhase} {constructed : Except Failure Unit}
      (admitted : Registrable w system constructed)
      (heard : memberNotice callbacks w (w.systems.registered system signature phase) = none)
      (unrecordable : ¬(Change.registerSystem system signature phase).Recordable) :
      Tears w (.registerSystem callbacks system signature phase constructed)
        (.registerSystem system signature phase)
  | setSystemSignature {callbacks : Callbacks C} {system : SystemType} {signature : Signature}
      (admitted : w.systems.systems.contains system.index = true)
      (unrecorded : memberNotice callbacks w (w.systems.resigned system.index signature) ≠ none ∨
        ¬(Change.setSystemSignature system signature).Recordable) :
      Tears w (.setSystemSignature callbacks system signature)
        (.setSystemSignature system signature)
  | registerComponent {component : Nat} {name : Bytes} {version : UInt32}
      {encode : Option (C → Except Failure Value)} {decode : Option (Value → Except Failure C)}
      {type : ComponentType} {r : ComponentRegistry C}
      (admitted : w.components.registerComponent component name version encode decode =
        .ok (type, r))
      (unrecordable : ¬(Change.registerComponent type name version).Recordable) :
      Tears w (.registerComponent component name version encode decode)
        (.registerComponent type name version)
  | addComponent {type : ComponentType} {name : Bytes} {component : C} {slot : ComponentSlotId}
      (admitted : AddAdmitted w type name component)
      (unrecordable : ¬(Change.addComponent type.id name slot).Recordable) :
      Tears w (.addComponent type name component) (.addComponent type.id name slot)
  | grant {callbacks : Callbacks C} {type : ComponentType} {b : BehaviorId} {name : Bytes}
      {mode : ComponentAccessMode} {slot : ComponentSlotId}
      (admitted : GrantAdmitted w type b name mode slot)
      (unrecorded : grantNotice callbacks w type b ≠ none ∨
        ¬(Change.grant b type.id name mode).Recordable) :
      Tears w (.grantComponentAccess callbacks type b name mode) (.grant b type.id name mode)
  | revoke {callbacks : Callbacks C} {type : ComponentType} {b : BehaviorId} {name : Bytes}
      {slot : ComponentSlotId} (admitted : RevokeAdmitted w type b name slot)
      (unheard : revokeNotice callbacks w type.id b slot ≠ none) :
      Tears w (.revokeComponentAccess callbacks type b name) (.revoke b type.id name)

/-! ## How it ends -/

/-- What a call that throws leaves behind. -/
inductive Thrown (op : Op C) (w w' : World C) : Prop where
  | kept (lawful : Lawful w w' w.content [])
      (whole : w.intents.capacityErrors = w'.intents.capacityErrors →
        ∀ change, ¬op.Tears w change)
  | told (change : Change) (lawful : Lawful w w' (change.apply w.content) [change.entry])
      (whole : ∀ change, ¬op.Tears w change)
  | torn (change : Change) (lawful : Lawful w w' (change.apply w.content) [])
      (tears : op.Tears w change)
  | lost (change : Change) (lawful : Lawful w w' (change.apply w.content) [])
      (gone : w.evidenceLost < w'.evidenceLost)
  | halted {content : Content} (outcome : Outcome w w' content [])
      (schemas : content.schemas = w.components.schemas)
      (refused : w.intents.capacityErrors < w'.intents.capacityErrors) (full : ¬op.Roomy w)

/-- What a call that returns leaves behind. -/
inductive Returned (w w' : World C) : Prop where
  | kept (lawful : Lawful w w' w.content [])
  | told (change : Change) (lawful : Lawful w w' (change.apply w.content) [change.entry])

/-- An operation of which the world only sees its callbacks or its calls. -/
theorem Lawful.of_tended {w w' : World C} (h : Ok w) (ht : TendedTo w w') :
    Lawful w w' w.content [] := by
  have hret : Retold w w' := by
    refine ⟨?_, ?_⟩
    · rw [ht.signatures, ht.systems]
      exact ht
    · rw [ht.systems]
      exact .refl _
  have hb : w'.behaviors = w.behaviors := by rw [hret.tended.quiet.rest]
  refine .of_retold h.held.ready hret ⟨hret.held h.held, fun b hc => ?_, ?_⟩ ht.signatures
  · rw [hb]
    rw [ht.signatures] at hc
    exact h.signed b hc
  · rw [ht.signatures, ht.systems]
    exact h.membered

/-! ## Operations that change no topology -/

theorem tended_destroyExpired (now : UInt64) {w : World C} (h : Ready w) :
    wp (onIntents (IntentRegistry.destroyExpired now)) (fun _ => TendedTo w)
      (fun _ => TendedTo w) w := by
  have hculled : ∀ {D : Intent → Prop} {r : IntentRegistry},
      IntentRegistry.Culled D w.intents r → TendedTo w { w with intents := r } := by
    intro D r hc
    obtain ⟨entries, hm, hdestroyed⟩ := hc.moved
    refine .of_moved h hm fun e he hcreated => ?_
    rw [hdestroyed e he] at hcreated
    cases hcreated
  rw [wp_onIntents]
  unfold IntentRegistry.destroyExpired
  rw [wp_bind, wp_get, wp_bind, wp_lift]
  refine ⟨fun expired hexp => ?_, fun _ _ => Tended.refl w h⟩
  have hsub : expired.Sublist w.intents.liveIntentIds := IntentRegistry.sublist_of_filterM hexp
  rw [wp_bind]
  refine wp_mono (IntentRegistry.sheds_destroy.forM expired (hsub.nodup (OrdMap.nodup_keys _)) _
    h.intents h.idle fun id hid =>
      h.intents.indexed.mem_liveIntentIds.mp (hsub.subset hid)) (fun _ r hr => ?_)
    (fun _ r hr => hculled hr.1)
  rw [wp_pure]
  exact hculled hr.1

/-- The systems of a phase are code of the host, and the dispatch is over afterwards. -/
theorem tended_runSystems (run : Nat → HostCode C) (phase : SystemPhase) {w : World C}
    (h : Ok w) : wp (runSystems run phase) (fun _ => TendedTo w) (fun _ => TendedTo w) w := by
  have hready := h.held.ready
  have hv : Ready (underway w) := ⟨hready.components, hready.intents, hready.idle, hready.inactive⟩
  have hback : ∀ w₁ : World C, TendedTo (underway w) w₁ → TendedTo w { w₁ with
      systemsRunning := false
      systems := { w₁.systems with dispatchDepth := w₁.systems.dispatchDepth - 1 } } := by
    intro w₁ htended
    have hresumed := htended.resumed w.systems w.systemsRunning
    have hend : ({ w₁ with
        systemsRunning := false
        systems := { w₁.systems with dispatchDepth := w₁.systems.dispatchDepth - 1 } } :
          World C) = { w₁ with systems := w.systems, systemsRunning := w.systemsRunning } := by
      rw [htended.systems, h.held.running]
      rfl
    rw [hend]
    exact hresumed
  unfold runSystems
  rw [wp_bind, wp_get, if_neg (by simp [h.held.running]), wp_bind]
  unfold setSystemsRunning
  rw [wp_modify, wp_tryCatch, wp_bind, wp_get]
  dsimp only
  unfold dispatching setDispatchDepth
  rw [wp_bind, wp_bind, wp_get, if_neg (by simp [h.held.depth]), wp_bind, wp_modify, wp_bind,
    wp_tryCatch]
  refine wp_captured (wp_mono (wp_after (P := TendedTo (underway w)) |>.mpr ?_) (fun _ w₁ h₁ => ?_)
    (fun e w₁ h₁ => ?_))
  · exact within_forM Tended.refl Tended.trans _ (fun type _ =>
      tended_runSystem run phase type) (underway w) hv
  · rw [wp_bind, wp_modify]
    refine wp_rethrow (fun _ => ?_) (fun e he => by cases he)
    rw [wp_modify]
    exact hback w₁ h₁
  · rw [wp_bind, wp_modify]
    refine wp_rethrow (fun hnone => by cases hnone) (fun e he => ?_)
    rw [wp_bind, wp_modify, wp_throw]
    exact hback w₁ h₁

/-! ### A value replaced by the runtime -/

theorem targetCodec_eq_ok {r : ComponentRegistry C} {type : ComponentTypeId}
    {slot : ComponentSlotId} {raw : Nat} {t : TypeRecord C} {codec : ComponentCodec C}
    (h : r.targetCodec type slot = .ok (raw, t, codec)) :
    raw = slot.slot ∧ r.slotIsCurrent type slot = true ∧ r.types.find? type = some t ∧
      t.codec = some codec := by
  unfold ComponentRegistry.targetCodec at h
  obtain ⟨raw', hraw, h⟩ := bind_eq_ok h
  obtain ⟨rfl, hcur⟩ := ComponentRegistry.validateSlot_eq_ok hraw
  cases ht : r.types.find? type with
  | none =>
      rw [ht] at h
      cases h
  | some t' =>
      rw [ht] at h
      dsimp only at h
      cases hc : t'.codec with
      | none =>
          rw [hc] at h
          cases h
      | some codec' =>
          rw [hc] at h
          cases h
          exact ⟨rfl, hcur, rfl, hc⟩

theorem encodeWith_eq_ok {codec : ComponentCodec C} {c : C} {value : Value}
    (h : ComponentRegistry.encodeWith codec c = .ok value) :
    codec.encode c = .ok value ∧ value.validate = .ok () := by
  obtain ⟨v, hv, h⟩ := bind_eq_ok h
  obtain ⟨u, hvalid, h⟩ := bind_eq_ok h
  cases h
  exact ⟨hv, hvalid⟩

/-- What `encode_component` by slot returns is the value that is there. -/
theorem encodeTarget_eq_ok {r : ComponentRegistry C} {type : ComponentTypeId}
    {slot : ComponentSlotId} {value : Value} (h : r.encodeTarget type slot = .ok value) :
    ∃ t codec c, r.types.find? type = some t ∧ t.codec = some codec ∧
      t.get? slot.slot = some c ∧ codec.encode c = .ok value := by
  unfold ComponentRegistry.encodeTarget at h
  obtain ⟨⟨raw, t, codec⟩, htarget, h⟩ := bind_eq_ok h
  obtain ⟨rfl, _, ht, hcodec⟩ := targetCodec_eq_ok htarget
  obtain ⟨c, hc, h⟩ := bind_eq_ok h
  refine ⟨t, codec, c, ht, hcodec, ?_, (encodeWith_eq_ok h).1⟩
  unfold ComponentRegistry.storedAt at hc
  split at hc
  · cases hc
  · cases hget : t.get? slot.slot with
    | none =>
        rw [hget] at hc
        cases hc
    | some c' =>
        rw [hget] at hc
        cases hc
        rfl

/-- `replace_component` by slot stores what the value decodes to. -/
theorem replaceTarget_eq_ok {r r' : ComponentRegistry C} {type : ComponentTypeId}
    {slot : ComponentSlotId} {value afterwards : Value}
    (h : r.replaceTarget type slot value = .ok (afterwards, r')) :
    afterwards = value ∧ r.slotIsCurrent type slot = true ∧
      ∃ t codec c, r.types.find? type = some t ∧ t.codec = some codec ∧
        codec.decode value = .ok c ∧ codec.encode c = .ok value ∧
        r' = r.put type { t with components := t.components.set slot.slot (some c) } := by
  unfold ComponentRegistry.replaceTarget at h
  obtain ⟨⟨raw, t, codec⟩, htarget, h⟩ := bind_eq_ok h
  obtain ⟨rfl, hcur, ht, hcodec⟩ := targetCodec_eq_ok htarget
  obtain ⟨_, _, h⟩ := bind_eq_ok h
  obtain ⟨decoded, hdecoded, h⟩ := bind_eq_ok h
  obtain ⟨canonical, hcanonical, h⟩ := bind_eq_ok h
  by_cases hne : canonical ≠ value
  · rw [if_pos hne] at h
    cases h
  rw [if_neg hne] at h
  obtain ⟨t', ht', h⟩ := bind_eq_ok h
  cases h
  have heq : afterwards = value := not_not.mp hne
  rw [heq] at hcanonical
  refine ⟨heq, hcur, t, codec, decoded, ht, hcodec, hdecoded,
    (encodeWith_eq_ok hcanonical).1, ?_⟩
  unfold TypeRecord.replace at ht'
  split at ht'
  · cases ht'
  · cases ht'
    rfl

/-- A value that is replaced under the name of its slot is evidence like the values that
    behaviors write. -/
theorem tended_replaceComponentValue (target : ComponentTarget) (name : Bytes)
    (replacement : Value) {w : World C} (h : Ready w)
    (hname : w.components.slots target.type name = some target.slot) :
    wp (replaceComponentValue target name replacement) (fun _ => TendedTo w)
      (fun _ => TendedTo w) w := by
  have hsame : TendedTo w w := Tended.refl w h
  unfold replaceComponentValue
  rw [wp_bind, wp_get, wp_bind, wp_lift]
  refine ⟨fun before hbefore => ?_, fun _ _ => hsame⟩
  by_cases heq : before = replacement
  · rw [if_pos heq, wp_pure]
    exact hsame
  rw [if_neg heq, wp_bind, wp_lift]
  refine ⟨fun p hp => ?_, fun _ _ => hsame⟩
  obtain ⟨afterwards, r⟩ := p
  obtain ⟨t, codec, c, ht, hcodec, hget, henc⟩ := encodeTarget_eq_ok hbefore
  obtain ⟨rfl, _, t₁, codec₁, c₁, ht₁, hcodec₁, _, henc₁, rfl⟩ := replaceTarget_eq_ok hp
  rw [ht] at ht₁
  cases ht₁
  rw [hcodec] at hcodec₁
  cases hcodec₁
  have hnamed : t.names.find? name = some target.slot := by
    unfold ComponentRegistry.slots at hname
    rw [ht, Option.bind_some] at hname
    exact hname
  have hhas : t.has target.slot.slot = true := by
    unfold TypeRecord.has
    rw [hget]
    rfl
  have hrev := ComponentRegistry.Revalued.put ht (ComponentRegistry.revalued_set hhas c₁).1
  -- the intents are as they were, whether the entry is taken or not
  have htended : ∀ {mutations : List ComponentMutation} {lost : Nat},
      Quiet w { w with
        components := w.components.put target.type
          { t with components := t.components.set target.slot.slot (some c₁) }
        componentMutations := mutations
        evidenceLost := lost } → TendedTo w { w with
        components := w.components.put target.type
          { t with components := t.components.set target.slot.slot (some c₁) }
        componentMutations := mutations
        evidenceLost := lost } := fun hquiet =>
    ⟨⟨hquiet.components.ok h.components, h.intents, h.idle, h.inactive⟩, hquiet, [],
      .refl h.intents, fun _ he => absurd he List.not_mem_nil⟩
  dsimp only
  rw [wp_bind, wp_set, wp_bind]
  refine wp_recordComponentMutation (fun _ => ?_) (fun _ => ?_)
  · rw [wp_pure]
    refine htended ⟨rfl, hrev, le_refl _, fun _ => ⟨rfl,
      [⟨target, name, before, afterwards, false⟩], rfl,
      fun m hm => by rw [List.mem_singleton.mp hm], Or.inl ?_, ?_⟩⟩
    · show w.components.encoded target.type name = some (.ok before)
      unfold ComponentRegistry.encoded
      rw [ht, Option.bind_some, hnamed, Option.bind_some, hcodec, Option.bind_some, hget,
        Option.map_some, henc]
    · exact h.components.encoded_set ht hnamed hcodec henc₁ _ rfl rfl rfl rfl
  · exact htended ⟨rfl, hrev, Nat.le_succ _, fun hlost => absurd hlost (Nat.succ_ne_self _)⟩

/-! ## Every operation -/

/-- An operation that only tends: the same end whether it returns or throws. -/
theorem ends_tended {op : Op C} {w : World C} (h : Ok w) (hwhole : ∀ change, ¬op.Tears w change)
    (ht : wp op.program (fun _ => TendedTo w) (fun _ => TendedTo w) w) :
    wp op.program (fun _ => Returned w) (fun _ => Thrown op w) w :=
  wp_mono ht (fun _ _ h' => .kept (.of_tended h h')) fun _ _ h' =>
    .kept (.of_tended h h') fun _ => hwhole

/-- A change whose entry a `Value` holds is only left out when evidence is lost. -/
theorem Unrecorded.refused {w w' : World C} {change : Change} (h : Unrecorded w w' change)
    (hrecordable : change.Recordable) : w.evidenceLost < w'.evidenceLost := by
  cases h with
  | inadmissible hbad => exact absurd hrecordable hbad
  | lost hlt => exact hlt

theorem recordable_tombstone {change : Change} (h : change.fields = none) :
    change.Recordable := fun fields hf => by
  rw [h] at hf
  cases hf

theorem Op.ends (op : Op C) {w : World C} (h : Ok w) (hclears : op.clears = false)
    (hnamed : op.Named w) :
    wp op.program (fun _ => Returned w) (fun _ => Thrown op w) w := by
  cases op with
  | call c =>
      exact ends_tended h (fun _ ht => nomatch ht) (wp_after.mpr (c.tended w h.held.ready))
  | createBehavior callbacks =>
      unfold Op.program
      rw [wp_bind]
      refine wp_mono (wp_createBehavior callbacks h) (fun b w' hw' => ?_) (fun _ w' hw' => ?_)
      · rw [wp_pure]
        exact .told _ hw'.1
      · rcases hw' with ⟨hl, _⟩ | ⟨b, _, hl, hun⟩
        · exact .kept hl fun _ _ ht => nomatch ht
        · exact .lost _ hl (hun.refused (createBehavior_recordable b))
  | destroyBehavior callbacks id =>
      refine wp_mono (wp_destroyBehavior callbacks h id) (fun _ w' hw' => ?_) (fun _ w' hw' => ?_)
      · exact .told _ hw'.2
      · rcases hw' with ⟨hl, _⟩ | ⟨_, hl⟩ | ⟨_, hl, hun⟩ | ⟨_, hhalted⟩
        · exact .kept hl fun _ _ ht => nomatch ht
        · exact .told _ hl fun _ ht => nomatch ht
        · exact .lost _ hl (hun.refused (recordable_tombstone rfl))
        · exact .halted hhalted.outcome rfl hhalted.refused hhalted.full
  | registerSystem callbacks system signature phase constructed =>
      refine wp_mono (wp_registerSystem callbacks h system signature phase constructed)
        (fun _ w' hw' => ?_) (fun _ w' hw' => ?_)
      · exact .told _ hw'.1
      · rcases hw' with ⟨hl, _, hnotice⟩ | ⟨hl, hreg, hnotice, hun⟩
        · refine .kept hl fun _ change ht => ?_
          cases ht with
          | registerSystem admitted heard _ => exact hnotice admitted heard
        · cases hun with
          | inadmissible hbad => exact .torn _ hl (.registerSystem hreg hnotice hbad)
          | lost hlt => exact .lost _ hl hlt
  | destroySystem system =>
      refine wp_mono (wp_destroySystem h system) (fun _ w' hw' => ?_) (fun _ w' hw' => ?_)
      · exact .told _ hw'.1
      · rcases hw' with ⟨hl, _⟩ | ⟨hl, _, hun⟩
        · exact .kept hl fun _ _ ht => nomatch ht
        · exact .lost _ hl (hun.refused (recordable_tombstone rfl))
  | setSystemSignature callbacks system signature =>
      refine wp_mono (wp_setSystemSignature callbacks h system signature) (fun _ w' hw' => ?_)
        (fun _ w' hw' => ?_)
      · exact .told _ hw'.1
      · rcases hw' with ⟨hl, _, hthere⟩ | ⟨hl, hthere, _, _, hwhy⟩
        · refine .kept hl fun _ change ht => ?_
          cases ht with
          | setSystemSignature admitted _ =>
              rw [hthere] at admitted
              cases admitted
        · rcases hwhy with hnotice | hun
          · exact .torn _ hl (.setSystemSignature hthere (Or.inl hnotice))
          · cases hun with
            | inadmissible hbad => exact .torn _ hl (.setSystemSignature hthere (Or.inr hbad))
            | lost hlt => exact .lost _ hl hlt
  | registerComponent component name version encode decode =>
      unfold Op.program
      rw [wp_bind]
      refine wp_mono (wp_registerComponent h component name version encode decode)
        (fun type w' hw' => ?_) (fun _ w' hw' => ?_)
      · rw [wp_pure]
        exact .told _ hw'.1
      · rcases hw' with ⟨hl, _, e, herr⟩ | ⟨type, r, hreg, hl, hun⟩
        · refine .kept hl fun _ change ht => ?_
          cases ht with
          | registerComponent admitted _ =>
              rw [herr] at admitted
              cases admitted
        · cases hun with
          | inadmissible hbad => exact .torn _ hl (.registerComponent hreg hbad)
          | lost hlt => exact .lost _ hl hlt
  | addComponent type name component =>
      refine wp_mono (wp_addComponent h type name component) (fun _ w' hw' => ?_)
        (fun _ w' hw' => ?_)
      · obtain ⟨slot, _, hl⟩ := hw'
        exact .told _ hl
      · rcases hw' with ⟨hl, _, hnot⟩ | ⟨slot, hadm, hl, hlt | hbad⟩
        · refine .kept hl fun _ change ht => ?_
          cases ht with
          | addComponent admitted _ => exact hnot admitted
        · exact .lost _ hl hlt
        · exact .torn _ hl (.addComponent hadm hbad)
  | removeComponent callbacks type name =>
      refine wp_mono (wp_removeComponent callbacks h type name) (fun _ w' hl => ?_)
        (fun _ w' hw' => ?_)
      · exact .told _ hl
      · rcases hw' with ⟨hl, _⟩ | hl | ⟨hl, hlt⟩
        · exact .kept hl fun _ _ ht => nomatch ht
        · exact .told _ hl fun _ ht => nomatch ht
        · exact .lost _ hl hlt
  | grantComponentAccess callbacks type behavior name mode =>
      refine wp_mono (wp_grantComponentAccess callbacks h type behavior name mode)
        (fun _ w' hl => ?_) (fun _ w' hw' => ?_)
      · exact .told _ hl
      · rcases hw' with ⟨hnot, hl, _⟩ |
          ⟨slot, hadm, ⟨hnotice, hg⟩ | ⟨_, hbad, hg⟩ | hhalted | ⟨hlt, hl⟩⟩
        · refine .kept hl fun _ change ht => ?_
          cases ht with
          | grant admitted _ => exact hnot _ admitted
        · refine .torn _ hg.lawful (.grant hadm (Or.inl ?_))
          rw [hnotice]
          exact Option.some_ne_none _
        · exact .torn _ hg.lawful (.grant hadm (Or.inr hbad))
        · exact .halted hhalted.outcome rfl hhalted.refused fun hroom =>
            hhalted.full (hroom slot hadm.found)
        · exact .lost _ hl hlt
  | revokeComponentAccess callbacks type behavior name =>
      refine wp_mono (wp_revokeComponentAccess callbacks h type behavior name)
        (fun _ w' hl => ?_) (fun _ w' hw' => ?_)
      · exact .told _ hl
      · rcases hw' with ⟨hnot, hl, _⟩ | ⟨slot, hadm, ⟨hnotice, hr⟩ | ⟨hlt, hl⟩⟩
        · refine .kept hl fun hcap change ht => ?_
          cases ht with
          | revoke admitted _ =>
              rcases hnot with hlt | hnot
              · omega
              · exact hnot _ admitted
        · refine .torn _ hr.lawful (.revoke hadm ?_)
          rw [hnotice]
          exact Option.some_ne_none _
        · exact .lost _ hl hlt
  | replaceComponentValue target name replacement =>
      refine ends_tended h (fun _ ht => nomatch ht) ?_
      unfold Op.program
      rw [wp_bind]
      refine wp_mono (tended_replaceComponentValue target name replacement h.held.ready hnamed)
        (fun _ w' h' => ?_) fun _ _ h' => h'
      rw [wp_pure]
      exact h'
  | destroyExpiredIntents now =>
      refine ends_tended h (fun _ ht => nomatch ht) ?_
      unfold Op.program
      rw [wp_bind]
      refine wp_mono (tended_destroyExpired now h.held.ready) (fun _ w' h' => ?_) fun _ _ h' => h'
      rw [wp_pure]
      exact h'
  | runSystems run phase =>
      exact ends_tended h (fun _ ht => nomatch ht) (tended_runSystems run phase h)
  | clearComponentMutations => cases hclears
  | clearTopologyMutations => cases hclears
  | clearIntentLifecycleRecords => cases hclears

end World

end LiquidLayer
