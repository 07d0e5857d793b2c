/-
  The indexes of the bindings.

  `Bound r`: the two indexes are inverse to each other, and the components under external
  control are the bound ones. The four programs that change an index keep this (`bound_rebind`),
  so it holds in every state of a runtime whose systems, adapters and codecs do not call it back.
-/
import LiquidLayer.Runtime.Respected

namespace LiquidLayer

open Prog

namespace Runtime

variable {C : Type}

structure Bound (r : Runtime C) : Prop where
  own : ∀ {component binding}, r.effectBindings.find? component = some binding →
    binding.component = component
  forward : ∀ {component binding}, r.effectBindings.find? component = some binding →
    r.componentsByEffectTarget.find? binding.key = some component
  backward : ∀ {key component}, r.componentsByEffectTarget.find? key = some component →
    ∃ binding, r.effectBindings.find? component = some binding ∧ binding.key = key
  controlled : ∀ component, r.componentControls.find? component = some .externalEffect ↔
    ∃ binding, r.effectBindings.find? component = some binding

/-- The indexes are all that `Bound` looks at. -/
theorem Bound.aside {r r' : Runtime C} (h : Bound r)
    (hbindings : r'.effectBindings = r.effectBindings)
    (htargets : r'.componentsByEffectTarget = r.componentsByEffectTarget)
    (hcontrols : r'.componentControls = r.componentControls) : Bound r' := by
  constructor
  · rw [hbindings]
    exact h.own
  · rw [hbindings, htargets]
    exact h.forward
  · rw [hbindings, htargets]
    exact h.backward
  · rw [hbindings, hcontrols]
    exact h.controlled

/-- Two components are not bound to one target. -/
theorem Bound.inj {r : Runtime C} (h : Bound r) {component component' : ComponentTarget}
    {binding binding' : ExternalComponentBinding}
    (hfind : r.effectBindings.find? component = some binding)
    (hfind' : r.effectBindings.find? component' = some binding')
    (hkey : binding.key = binding'.key) : component = component' := by
  have hone := h.forward hfind
  rw [hkey, h.forward hfind'] at hone
  exact (Option.some.inj hone).symm

/-! ## Unbinding -/

theorem unbound_of_none {r : Runtime C} {component : ComponentTarget}
    (hfind : r.effectBindings.find? component = none) : unbound component r = r := by
  simp only [unbound, hfind]

theorem Bound.unbound_of_some {r : Runtime C} (h : Bound r) {component : ComponentTarget}
    {binding : ExternalComponentBinding}
    (hfind : r.effectBindings.find? component = some binding) :
    unbound component r = { r with
      componentsByEffectTarget := r.componentsByEffectTarget.erase binding.key
      effectBindings := r.effectBindings.erase component } := by
  simp only [unbound, hfind, if_pos (h.forward hfind)]

/-- The other bindings stay, and the component's target is free. -/
structure Freed (component : ComponentTarget) (r r' : Runtime C) : Prop where
  bindings : ∀ c, r'.effectBindings.find? c =
    if c = component then none else r.effectBindings.find? c
  targets : ∀ key, r'.componentsByEffectTarget.find? key =
    if r.componentsByEffectTarget.find? key = some component then none
    else r.componentsByEffectTarget.find? key
  controls : r'.componentControls = r.componentControls

theorem Bound.freed {r : Runtime C} (h : Bound r) (component : ComponentTarget) :
    Freed component r (unbound component r) := by
  cases hfind : r.effectBindings.find? component with
  | none =>
      rw [unbound_of_none hfind]
      refine ⟨fun c => ?_, fun key => ?_, rfl⟩
      · split
        · next hc => rw [hc, hfind]
        · rfl
      · split
        · next hkey =>
            obtain ⟨binding, hbound, _⟩ := h.backward hkey
            rw [hfind] at hbound
            cases hbound
        · rfl
  | some binding =>
      rw [h.unbound_of_some hfind]
      refine ⟨fun c => ?_, fun key => ?_, rfl⟩
      · dsimp only
        rw [OrdMap.find?_erase]
        by_cases hc : c = component
        · rw [if_pos hc, if_pos hc]
        · rw [if_neg hc, if_neg hc]
      dsimp only
      rw [OrdMap.find?_erase]
      by_cases hkey : key = binding.key
      · rw [if_pos hkey, hkey, if_pos (h.forward hfind)]
      · rw [if_neg hkey, if_neg]
        intro hother
        obtain ⟨binding', hfind', hkey'⟩ := h.backward hother
        rw [hfind] at hfind'
        cases hfind'
        exact hkey hkey'.symm

/-- Unbinding and giving the component another control keeps the indexes in step. -/
theorem Freed.bound {r r' : Runtime C} {component : ComponentTarget} (h : Bound r)
    (freed : Freed component r r') {controls : OrdMap ComponentTarget ComponentControl}
    (hcontrols : ∀ c, controls.find? c = some .externalEffect ↔
      c ≠ component ∧ r.componentControls.find? c = some .externalEffect) :
    Bound { r' with componentControls := controls } := by
  constructor
  · intro c binding hfind
    dsimp only at hfind
    rw [freed.bindings] at hfind
    split at hfind
    · cases hfind
    · exact h.own hfind
  · intro c binding hfind
    dsimp only at hfind ⊢
    rw [freed.bindings] at hfind
    split at hfind
    · cases hfind
    · next hne =>
        rw [freed.targets, h.forward hfind, if_neg fun he => hne (Option.some.inj he)]
  · intro key c hfind
    dsimp only at hfind ⊢
    rw [freed.targets] at hfind
    split at hfind
    · cases hfind
    · next hne =>
        obtain ⟨binding, hbound, hkey⟩ := h.backward hfind
        have hc : c ≠ component := by
          rintro rfl
          exact hne hfind
        exact ⟨binding, by rw [freed.bindings, if_neg hc]; exact hbound, hkey⟩
  · intro c
    dsimp only
    rw [hcontrols, h.controlled, freed.bindings]
    split
    · next hc =>
        constructor
        · intro hne
          exact absurd hc hne.1
        · rintro ⟨_, hnone⟩
          cases hnone
    · next hc => exact and_iff_right hc

theorem Bound.retired {r : Runtime C} (h : Bound r) (component : ComponentTarget) :
    Bound (retired component r) := by
  refine (h.freed component).bound h fun c => ?_
  rw [(h.freed component).controls, OrdMap.find?_erase]
  split
  · next hc => simp [hc]
  · next hc => simp [hc]

theorem Bound.retire_all {r : Runtime C} (h : Bound r) (dead : List ComponentTarget) :
    Bound (dead.foldl (fun r component => Runtime.retired component r) r) := by
  induction dead generalizing r with
  | nil => exact h
  | cons component dead ih => exact ih (h.retired component)

/-! ## The four programs -/

/-- The binding of a target is found if the target is bound, and to a component that is there;
    a target whose component is gone is free afterwards. -/
theorem Bound.wp_current {r : Runtime C} (h : Bound r) (route : AdapterRoute)
    (target : EffectTarget) :
    wp (currentEffectBinding route target)
      (fun found r' => Bound r' ∧ r'.world = r.world ∧ ∀ component,
        r'.componentsByEffectTarget.find? (targetKey route target) = some component →
          found.map ExternalComponentBinding.component = some component)
      (fun _ _ => False) r := by
  unfold currentEffectBinding
  rw [wp_bind, wp_get]
  cases htarget : r.componentsByEffectTarget.find? (targetKey route target) with
  | none =>
      dsimp only
      rw [htarget, wp_pure]
      refine ⟨h, rfl, fun component hfind => ?_⟩
      rw [htarget] at hfind
      cases hfind
  | some component =>
      obtain ⟨binding, hfind, hkey⟩ := h.backward htarget
      obtain ⟨hroute, htarget'⟩ := targetKey_inj.mp hkey
      simp only [htarget, hfind]
      -- an index in step never names a superseded binding
      rw [if_neg (by simp [hroute, htarget'])]
      split
      · rw [wp_bind, wp_set, wp_pure]
        refine ⟨h.retired component, ?_, fun c hc => ?_⟩
        · simp only [Runtime.retired, unbound, hfind]
        · have hfree : (Runtime.retired component r).componentsByEffectTarget.find?
              (targetKey route target) = none := by
            show (unbound component r).componentsByEffectTarget.find? _ = none
            rw [(h.freed component).targets, if_pos htarget]
          rw [hfree] at hc
          cases hc
      · rw [wp_pure]
        refine ⟨h, rfl, fun c hc => ?_⟩
        rw [htarget] at hc
        rw [Option.map_some, h.own hfind, ← hc]

theorem unbound_controls (component : ComponentTarget) (r : Runtime C)
    (controls : OrdMap ComponentTarget ComponentControl) :
    unbound component { r with componentControls := controls } =
      { unbound component r with componentControls := controls } := by
  unfold unbound
  cases r.effectBindings.find? component <;> rfl

theorem bound_configure (type : ComponentType) (name : Bytes) (control : ComponentControl)
    {r : Runtime C} (h : Bound r) :
    wp (configureComponent type name control) (fun _ => Bound) (fun _ => Bound) r := by
  unfold configureComponent
  rw [wp_bind, wp_get, wp_ite, wp_ite, wp_ite]
  refine ⟨fun _ => (wp_throw _).mpr h, fun _ => ⟨fun _ => (wp_throw _).mpr h, fun _ =>
    ⟨fun _ => (wp_throw _).mpr h, fun hcontrol => ?_⟩⟩⟩
  rw [wp_bind]
  refine wp_demand (fun component _ => ?_) fun _ _ => h
  unfold setControl
  rw [wp_bind, wp_modify, wp_modify, unbound_controls]
  refine (h.freed component).bound h fun c => ?_
  rw [OrdMap.find?_insert]
  by_cases hc : c = component
  · simp [hc, hcontrol]
  · simp [hc]

theorem Freed.bind {r r' : Runtime C} {component : ComponentTarget} (h : Bound r)
    (freed : Freed component r r') {name : Bytes} {route : AdapterRoute} {target : EffectTarget}
    (hfree : r'.componentsByEffectTarget.find? (targetKey route target) = none) :
    Bound (Runtime.bound component name route target r') := by
  have hfreed : Bound { r' with
      componentControls := r'.componentControls.erase component } := freed.bound h fun c => by
    rw [freed.controls, OrdMap.find?_erase]
    by_cases hc : c = component
    · simp [hc]
    · simp [hc]
  have hbindings : ∀ c, (Runtime.bound component name route target r').effectBindings.find? c =
      if c = component then some ⟨component, name, route, target⟩
      else r'.effectBindings.find? c := fun c => by
    show OrdMap.find? (OrdMap.insert _ _ _) c = _
    rw [OrdMap.find?_insert]
    by_cases hc : c = component
    · rw [if_pos hc, if_pos hc]
    · rw [if_neg hc, if_neg hc]
  have htargets : ∀ key, (Runtime.bound component name route target
      r').componentsByEffectTarget.find? key =
      if key = targetKey route target then some component
      else r'.componentsByEffectTarget.find? key := fun key => by
    show OrdMap.find? (OrdMap.insert _ _ _) key = _
    rw [OrdMap.find?_insert]
    by_cases hkey : key = targetKey route target
    · rw [if_pos hkey, if_pos hkey]
    · rw [if_neg hkey, if_neg hkey]
  have hgone : ∀ {key}, r'.componentsByEffectTarget.find? key ≠ some component := fun {key} hk => by
    obtain ⟨binding, hfind, _⟩ := hfreed.backward hk
    dsimp only at hfind
    rw [freed.bindings, if_pos rfl] at hfind
    cases hfind
  constructor
  · intro c binding hfind
    rw [hbindings] at hfind
    split at hfind
    · next hc =>
        cases hfind
        exact hc.symm
    · exact hfreed.own hfind
  · intro c binding hfind
    rw [hbindings] at hfind
    split at hfind
    · next hc =>
        cases hfind
        rw [htargets, hc]
        exact if_pos rfl
    · next hc =>
        have hkey := hfreed.forward hfind
        rw [htargets, if_neg]
        · exact hkey
        · intro he
          dsimp only at hkey
          rw [he, hfree] at hkey
          cases hkey
  · intro key c hfind
    rw [htargets] at hfind
    split at hfind
    · next hkey =>
        cases hfind
        exact ⟨⟨component, name, route, target⟩, by rw [hbindings, if_pos rfl], hkey.symm⟩
    · obtain ⟨binding, hbound, hkey⟩ := hfreed.backward hfind
      refine ⟨binding, ?_, hkey⟩
      rw [hbindings, if_neg]
      · exact hbound
      · rintro rfl
        exact hgone hfind
  · intro c
    have hcontrol : (Runtime.bound component name route target r').componentControls.find? c =
        if c = component then some .externalEffect else r'.componentControls.find? c := by
      show OrdMap.find? (OrdMap.insert _ _ _) c = _
      rw [OrdMap.find?_insert]
      by_cases hc : c = component
      · rw [if_pos hc, if_pos hc]
      · rw [if_neg hc, if_neg hc]
    rw [hcontrol, hbindings]
    by_cases hc : c = component
    · rw [if_pos hc, if_pos hc]
      exact ⟨fun _ => ⟨_, rfl⟩, fun _ => rfl⟩
    · rw [if_neg hc, if_neg hc, freed.controls, h.controlled, freed.bindings, if_neg hc]

theorem bound_bind (type : ComponentType) (name : Bytes) (target : EffectTarget)
    {r : Runtime C} (h : Bound r) :
    wp (bindEffectComponent type name target) (fun _ => Bound) (fun _ => Bound) r := by
  unfold bindEffectComponent
  rw [wp_bind, wp_get, wp_ite, wp_ite]
  refine ⟨fun _ => (wp_throw _).mpr h, fun _ => ⟨fun _ => (wp_throw _).mpr h, fun _ => ?_⟩⟩
  rw [wp_bind]
  refine wp_demand (fun component _ => ?_) fun _ _ => h
  rw [wp_bind]
  refine wp_demand (fun route _ => ?_) fun _ _ => h
  rw [wp_bind]
  refine wp_mono (h.wp_current route target) (fun existing r' hr' => ?_) fun _ _ hf => hf.elim
  obtain ⟨hbound, _, hfound⟩ := hr'
  rw [wp_ite]
  refine ⟨fun _ => (wp_throw _).mpr hbound, fun hown => ?_⟩
  rw [wp_modify]
  have freed := hbound.freed component
  refine freed.bind hbound ?_
  -- the target is free, or the component's own
  rw [freed.targets]
  split
  · rfl
  · next hne =>
      cases hkey : r'.componentsByEffectTarget.find? (targetKey route target) with
      | none => rfl
      | some c =>
          have hexisting := hfound c hkey
          cases existing with
          | none => cases hexisting
          | some binding =>
              rw [Option.map_some, Option.some.injEq] at hexisting
              have hc : binding.component = component := by simpa using hown
              rw [hkey, ← hexisting, hc] at hne
              exact absurd rfl hne

theorem bound_rebind (b : Rebinding) {r : Runtime C} (h : Bound r) : Bound (after b.program r) := by
  refine wp_after.mp ?_
  cases b with
  | current route target =>
      unfold Rebinding.program
      rw [wp_bind]
      refine wp_mono (h.wp_current route target) (fun _ r' hr' => ?_) fun _ _ hf => hf.elim
      rw [wp_pure]
      exact hr'.1
  | retireDead =>
      unfold Rebinding.program retireDeadEffectBindings
      rw [wp_modify]
      exact h.retire_all _
  | configure type name control => exact bound_configure type name control h
  | bind type name target => exact bound_bind type name target h

theorem respected_bound :
    Respected (C := C) (fun _ => True) anyLocals fun r r' => Bound r → Bound r' where
  trans _ _ _ h h' hr := h' (h hr)
  still _ := trivial
  aside _ _ _ _ _ _ _ _ _ _ hr := hr.aside rfl rfl rfl
  world _ _ _ hr := hr.aside rfl rfl rfl
  effects _ _ _ _ hr := hr.aside rfl rfl rfl
  rebind b _ hr := bound_rebind b hr

theorem bound_started {r : Runtime C} (h : Started r) : Bound r := by
  have hnone : ∀ instanceId frame, Bound (initial instanceId frame : Runtime C) := fun _ _ =>
    ⟨nofun, nofun, nofun, fun _ => ⟨nofun, nofun⟩⟩
  cases h with
  | plain instanceId frame => exact hnone instanceId frame
  | configured instanceId _ => exact (hnone instanceId 0).aside rfl rfl rfl

/-- In every state of a runtime, whatever throws. -/
theorem bindings_inverse {r : Runtime C} (run : Run r) : Bound r :=
  run.kept respected_bound fun _ h => bound_started h

/-- The other component takes the target over once the bound one is gone. -/
def lampRebound : Runtime Unit :=
  [.onWorld (.removeComponent World.silent World.unitType [108]) rfl,
    .bindEffectComponent World.unitType [109] Effects.lampTarget].foldl
    (fun r (op : Op Unit) => op.step r) lamp

theorem lampRebound_run : Run lampRebound := by
  obtain ⟨r₀, hstart, hreach⟩ := lamp_run
  exact ⟨r₀, hstart, hreach.along _ fun _ _ _ => trivial⟩

theorem bindings_inverse_lamp : Bound lamp ∧ Bound lampRebound ∧
    lamp.componentsByEffectTarget.entries.map Prod.snd = [⟨0, ⟨7, 0, 1⟩⟩] ∧
    lampRebound.componentsByEffectTarget.entries.map Prod.snd = [⟨0, ⟨7, 1, 1⟩⟩] ∧
    lampRebound.effectBindings.keys = [⟨0, ⟨7, 1, 1⟩⟩] :=
  ⟨bindings_inverse lamp_run, bindings_inverse lampRebound_run, by decide +kernel,
    by decide +kernel, by decide +kernel⟩

end Runtime

end LiquidLayer
