/-
  What a lifecycle run sees of its world.

  `observe` is `snapshot` without the capability cache. Nothing a run does to the world changes
  it (`observe_intents`): a bundle moves only intents. `Inside` is what holds while a system of
  a process runs, and `Stays` what a call inside a run leaves alone. `wp_snapshot`: a snapshot is
  what is observed, for the cache is coherent. `wp_executeLifecycle`: after a run that succeeded
  every watch can be observed, for the same values were captured before it, so that
  `takeSnapshots` does not throw.
-/
import LiquidLayer.Scripting.Lifecycle

namespace LiquidLayer

open Prog LifecycleState

variable {C : Type}

/-! ## Observations -/

namespace World

theorem describeFrom_intents (w : World C) (r : IntentRegistry) (owner : BehaviorId)
    (bindings : List ComponentType) (i : Nat) :
    ({ w with intents := r } : World C).describeFrom owner bindings i =
      w.describeFrom owner bindings i := by
  induction bindings generalizing i with
  | nil => rfl
  | cons type rest ih =>
      unfold describeFrom
      rw [ih]
      rfl

theorem Mirrored.intents {w v : World C} (h : Mirrored w v) (r : IntentRegistry) :
    Mirrored w { v with intents := r } :=
  ⟨h.instanceId, h.behaviors, h.revisions, h.last, h.components⟩

/-- Wherever a system runs, the host's code may run. -/
theorem Amid.ready {w v : World C} (h : Amid w v) (hw : Ok w) : Ready v := by
  have hready := hw.held.ready
  rcases h with rfl | h
  · exact hready
  · exact (h.tended ⟨hready.components, hready.intents, hready.idle, hready.inactive⟩).ready

end World

namespace RunnerConfig

variable (config : RunnerConfig C)

/-- The component types of the bindings. -/
def types : List ComponentType := config.bindings.map Binding.type

def observe (w : World C) (owner : BehaviorId) (watch : Watch) :
    Except Failure (Option LuaValue) :=
  if !w.behaviors.exist owner then .ok none
  else
    match config.bindings.find? fun b => decide (b.scriptName = watch.type) with
    | none => .ok none
    | some binding => do
        let _ ← w.behaviorAccessRevision owner
        let capabilities ← w.describeAll owner config.types
        if capabilities.any (config.offers watch) then
          let value ← binding.snapshot w owner watch.name
          return some value
        else return none

/-- The value of a watched component, if it can be read. -/
def value (w : World C) (owner : BehaviorId) (watch : Watch) : Option LuaValue :=
  match config.observe w owner watch with
  | .ok v => v
  | .error _ => none

variable {config}

theorem value_eq {w : World C} {owner : BehaviorId} {watch : Watch} {v : Option LuaValue}
    (h : config.observe w owner watch = .ok v) : config.value w owner watch = v := by
  unfold value
  rw [h]

theorem observe_intents (w : World C) (r : IntentRegistry) (owner : BehaviorId) (watch : Watch) :
    config.observe { w with intents := r } owner watch = config.observe w owner watch := by
  unfold observe World.describeAll
  rw [World.describeFrom_intents]
  rfl

theorem value_intents (w : World C) (r : IntentRegistry) (owner : BehaviorId) (watch : Watch) :
    config.value { w with intents := r } owner watch = config.value w owner watch := by
  unfold value
  rw [observe_intents]

end RunnerConfig

/-! ## Inside a run -/

namespace Lifecycle

/-- While a system runs in the world `w` of a process. -/
structure Inside (config : RunnerConfig C) (p : Process C) (w : World C) (s : LifecycleState C) :
    Prop where
  runner : LuaBehaviorRunner.Holds config.types (p.EntryFresh config.types) s.runner
  ready : World.Ready s.world
  mirrored : World.Mirrored w s.world

/-- Of the world only intents have moved, and the system's own state is as it was. -/
structure Stays (s s' : LifecycleState C) : Prop where
  world : s'.world = { s.world with intents := s'.world.intents }
  states : s'.states = s.states
  journal : s'.journal = s.journal

theorem Stays.refl (s : LifecycleState C) : Stays s s := ⟨rfl, rfl, rfl⟩

theorem Stays.trans {s s' s'' : LifecycleState C} (h : Stays s s') (h' : Stays s' s'') :
    Stays s s'' := by
  refine ⟨?_, h'.states.trans h.states, h'.journal.trans h.journal⟩
  rw [h'.world, h.world]

theorem Stays.observe {config : RunnerConfig C} {s s' : LifecycleState C} (h : Stays s s')
    (owner : BehaviorId) (watch : Watch) :
    config.observe s'.world owner watch = config.observe s.world owner watch := by
  rw [h.world]
  exact RunnerConfig.observe_intents ..

theorem Stays.value {config : RunnerConfig C} {s s' : LifecycleState C} (h : Stays s s')
    (owner : BehaviorId) (watch : Watch) :
    config.value s'.world owner watch = config.value s.world owner watch := by
  rw [h.world]
  exact RunnerConfig.value_intents ..

section Calls

variable {config : RunnerConfig C} {p : Process C} {w : World C} {s : LifecycleState C}
  {id : UInt64}

/-- Only the cache of the runner is different. -/
theorem Inside.onRunner (h : Inside config p w s) {r : LuaBehaviorRunner}
    (hr : LuaBehaviorRunner.Holds config.types (p.EntryFresh config.types) r) :
    Inside config p w { s with runner := r } ∧ Stays s { s with runner := r } :=
  ⟨⟨hr, h.ready, h.mirrored⟩, ⟨rfl, rfl, rfl⟩⟩

theorem wp_capabilities (hp : p.Inv config.types) (hw : p.worlds.find? id = some w)
    (h : Inside config p w s) (owner : BehaviorId) :
    wp (capabilitiesFor owner)
      (fun d s' => (∃ revision, s.world.behaviorAccessRevision owner = .ok revision) ∧
        s.world.describeAll owner config.types = .ok d ∧ Inside config p w s' ∧ Stays s s')
      (fun e s' => (s.world.behaviorAccessRevision owner = .error e ∨
        s.world.describeAll owner config.types = .error e) ∧
        Inside config p w s' ∧ Stays s s') s := by
  unfold capabilitiesFor LifecycleState.onRunner
  rw [wp_bind, wp_get, wp_zoom]
  refine wp_mono (wp_and (hp.wp_asked hw h.mirrored h.runner owner)
    (LuaBehaviorRunner.wp_capabilitiesFor_revision s.runner)) (fun d r hd => ?_) fun e r he => ?_
  · obtain ⟨⟨hd, hr⟩, hrevision⟩ := hd
    exact ⟨hrevision, hd, h.onRunner hr⟩
  · obtain ⟨⟨he, hr⟩, _⟩ := he
    exact ⟨he, h.onRunner hr⟩

/-- A snapshot is what is observed, and throws only where observing does. -/
theorem wp_snapshot (hp : p.Inv config.types) (hw : p.worlds.find? id = some w)
    (h : Inside config p w s) (owner : BehaviorId) (watch : Watch) :
    wp (config.snapshot owner watch)
      (fun v s' => config.observe s.world owner watch = .ok v ∧ Inside config p w s' ∧ Stays s s')
      (fun _ s' => (∃ e, config.observe s.world owner watch = .error e) ∧
        Inside config p w s' ∧ Stays s s') s := by
  unfold RunnerConfig.snapshot RunnerConfig.observe
  rw [wp_bind, wp_get]
  by_cases hexist : (!s.world.behaviors.exist owner) = true
  · rw [if_pos hexist, if_pos hexist, wp_pure]
    exact ⟨rfl, h, .refl s⟩
  rw [if_neg hexist, if_neg hexist]
  cases config.bindings.find? fun b => decide (b.scriptName = watch.type) with
  | none =>
      rw [wp_pure]
      exact ⟨rfl, h, .refl s⟩
  | some binding =>
      dsimp only
      rw [wp_bind]
      refine wp_mono (wp_capabilities hp hw h owner) (fun d s' hd => ?_) fun e s' he => ?_
      · obtain ⟨⟨revision, hrevision⟩, hd, hinside, hstays⟩ := hd
        rw [hrevision, ok_bind, hd, ok_bind]
        by_cases hoffers : d.any (config.offers watch) = true
        · rw [if_pos hoffers, if_pos hoffers, wp_bind, wp_lift]
          refine ⟨fun v hv => ?_, fun e he => ?_⟩
          · rw [wp_pure, hv]
            exact ⟨rfl, hinside, hstays⟩
          · rw [he]
            exact ⟨⟨e, rfl⟩, hinside, hstays⟩
        · rw [if_neg hoffers, if_neg hoffers, wp_pure]
          exact ⟨rfl, hinside, hstays⟩
      · obtain ⟨he, hkept⟩ := he
        refine ⟨?_, hkept⟩
        cases hrevision : s.world.behaviorAccessRevision owner with
        | error e' => exact ⟨e', rfl⟩
        | ok revision =>
            rw [hrevision] at he
            rw [he.resolve_left nofun]
            exact ⟨e, rfl⟩

/-- The changes handed to a run come from what is observed. -/
theorem wp_changesOf {system : LuaLifecycleSystem C} {p : Process C}
    (hp : p.Inv system.runner.types) (hw : p.worlds.find? id = some w) (owner : BehaviorId)
    (snapshots : OrdMap (Bytes ×ₗ Bytes) LuaValue) (watches : List Watch)
    (h : Inside system.runner p w s) :
    wp (system.changesOf owner snapshots watches)
      (fun changes s' =>
        (∀ watch ∈ watches, ∃ v, system.runner.observe s.world owner watch = .ok v) ∧
        changes = watches.flatMap (fun watch => LuaLifecycleSystem.changeOf snapshots watch
          (system.runner.value s.world owner watch)) ∧
        Inside system.runner p w s' ∧ Stays s s')
      (fun _ s' => watches ≠ [] ∧ Inside system.runner p w s' ∧ Stays s s') s := by
  induction watches generalizing s with
  | nil =>
      unfold LuaLifecycleSystem.changesOf
      rw [wp_pure]
      exact ⟨fun _ hwatch => absurd hwatch List.not_mem_nil, rfl, h, .refl s⟩
  | cons watch rest ih =>
      unfold LuaLifecycleSystem.changesOf
      rw [wp_bind]
      refine wp_mono (wp_snapshot hp hw h owner watch) (fun v s₁ hv => ?_) fun _ _ he =>
        ⟨List.cons_ne_nil _ _, he.2⟩
      obtain ⟨hv, hinside, hstays⟩ := hv
      rw [wp_bind]
      refine wp_mono (ih hinside) (fun later s₂ hlater => ?_) fun _ _ he =>
        ⟨List.cons_ne_nil _ _, he.2.1, hstays.trans he.2.2⟩
      obtain ⟨hobserved, hlater, hinside', hstays'⟩ := hlater
      rw [wp_pure]
      refine ⟨fun watch' hwatch => ?_, ?_, hinside', hstays.trans hstays'⟩
      · rcases List.mem_cons.mp hwatch with rfl | hrest
        · exact ⟨v, hv⟩
        · rw [← hstays.observe]
          exact hobserved watch' hrest
      · rw [hlater, List.flatMap_cons, RunnerConfig.value_eq hv]
        simp only [hstays.value]

/-! ## A run -/

/-- What was captured for a readable capability is there. -/
theorem captureCapabilities_snapshot {v : World C} {owner : BehaviorId}
    {descriptions : List CapabilityDescription} {bytes : Nat}
    {captured : List ExecutionCapability × Nat}
    (h : config.captureCapabilities v owner descriptions bytes = .ok captured)
    {description : CapabilityDescription} (hd : description ∈ descriptions)
    (hreadable : description.readable = true) :
    ∃ binding value, config.bindings[description.binding]? = some binding ∧
      binding.snapshot v owner description.name = .ok value := by
  induction descriptions generalizing bytes captured with
  | nil => cases hd
  | cons first rest ih =>
      unfold RunnerConfig.captureCapabilities at h
      obtain ⟨⟨capability, bytes'⟩, hfirst, h⟩ := bind_eq_ok h
      obtain ⟨⟨capabilities, bytes''⟩, hrest, h⟩ := bind_eq_ok h
      rcases List.mem_cons.mp hd with rfl | hd
      · unfold RunnerConfig.captureCapability at hfirst
        rw [hreadable] at hfirst
        cases hbinding : config.bindings[description.binding]? with
        | none =>
            rw [hbinding] at hfirst
            cases hfirst
        | some binding =>
            rw [hbinding] at hfirst
            obtain ⟨value, hvalue, _⟩ := bind_eq_ok hfirst
            exact ⟨binding, value, rfl, hvalue⟩
      · exact ih hrest hd

/-- The binding that is looked up by its name is the one that offers a capability. -/
theorem find?_offers {watch : Watch} {description : CapabilityDescription}
    {binding : Binding C} (h : config.offers watch description = true)
    (hfind : config.bindings.find? (fun b => decide (b.scriptName = watch.type)) = some binding) :
    config.bindings[description.binding]? = some binding ∧ description.name = watch.name ∧
      description.readable = true := by
  unfold RunnerConfig.offers at h
  rw [Bool.and_eq_true, Bool.and_eq_true, decide_eq_true_eq, Option.any_eq_true] at h
  obtain ⟨⟨⟨other, hother, hname⟩, hwatch⟩, hreadable⟩ := h
  refine ⟨?_, hwatch, hreadable⟩
  have hfound := List.find?_some hfind
  have hsame : other = binding :=
    List.inj_on_of_nodup_map config.distinct (List.mem_of_getElem? hother)
      (List.mem_of_find?_eq_some hfind)
      ((of_decide_eq_true hname).trans (of_decide_eq_true hfound).symm)
  rw [hother, hsame]

/-- Where the capabilities were captured, every watch can be observed. -/
theorem observe_captured {v : World C} {owner : BehaviorId}
    {descriptions : List CapabilityDescription} {captured : List ExecutionCapability × Nat}
    (hrevision : ∃ revision, v.behaviorAccessRevision owner = .ok revision)
    (hd : v.describeAll owner config.types = .ok descriptions)
    (hcaptured : config.captureCapabilities v owner descriptions 0 = .ok captured)
    (watch : Watch) : ∃ value, config.observe v owner watch = .ok value := by
  obtain ⟨revision, hrevision⟩ := hrevision
  unfold RunnerConfig.observe
  split
  · exact ⟨none, rfl⟩
  · cases hfind : config.bindings.find? fun b => decide (b.scriptName = watch.type) with
    | none => exact ⟨none, rfl⟩
    | some binding =>
        dsimp only
        rw [hrevision, ok_bind, hd, ok_bind]
        split
        · next hany =>
            obtain ⟨description, hmem, hoffers⟩ := List.any_eq_true.mp hany
            obtain ⟨hbinding, hname, hreadable⟩ := find?_offers hoffers hfind
            obtain ⟨binding', value, hbinding', hvalue⟩ :=
              captureCapabilities_snapshot hcaptured hmem hreadable
            rw [hbinding] at hbinding'
            cases hbinding'
            rw [hname] at hvalue
            rw [hvalue]
            exact ⟨some value, rfl⟩
        · exact ⟨none, rfl⟩

variable (machine : Machine C) (frame now : UInt64)

theorem wp_caught {α : Type} {m : LifecycleM C α} {Q : Except Failure α → LifecycleState C → Prop}
    {E : Failure → LifecycleState C → Prop}
    (h : wp m (fun a => Q (.ok a)) (fun e => Q (.error e)) s) : wp (caught m) Q E s := by
  unfold caught
  rw [wp_tryCatch, wp_bind]
  refine wp_mono h (fun a s' ha => ?_) fun e s' he => ?_
  · rw [wp_pure]
    exact ha
  · rw [wp_pure]
    exact he

/-- A run moves intents only, and where it succeeds every watch can be observed. -/
theorem wp_run (hp : p.Inv config.types) (hw : p.worlds.find? id = some w)
    (h : Inside config p w s) (owner : BehaviorId) (delta : UInt64) (start : Bool)
    (changes : List ComponentChange) (source : Bytes) :
    wp (config.run machine frame now owner delta start changes source)
      (fun result s' => Inside config p w s' ∧ Stays s s' ∧ (result.succeeded = true →
        ∀ watch, ∃ v, config.observe s.world owner watch = .ok v))
      (fun _ _ => False) s := by
  have hfailure : ∀ {status : LuaExecutionStatus} {s' : LifecycleState C}, status ≠ .success →
      Inside config p w s' → Stays s s' →
      wp (pure (LuaExecutionResult.failure status) : LifecycleM C LuaExecutionResult)
        (fun result s' => Inside config p w s' ∧ Stays s s' ∧ (result.succeeded = true →
          ∀ watch, ∃ v, config.observe s.world owner watch = .ok v)) (fun _ _ => False) s' := by
    intro status s' hne hinside hstays
    rw [wp_pure]
    exact ⟨hinside, hstays, fun hs => absurd (of_decide_eq_true hs) hne⟩
  have hcapture : wp (caught (do
        let descriptions ← capabilitiesFor owner
        lift (config.captureCapabilities s.world owner descriptions 0)))
      (fun out s' => Inside config p w s' ∧ Stays s s' ∧ ∀ captured, out = .ok captured →
        ∀ watch, ∃ v, config.observe s.world owner watch = .ok v) (fun _ _ => False) s := by
    refine wp_caught ?_
    rw [wp_bind]
    refine wp_mono (wp_capabilities hp hw h owner) (fun d s' hd => ?_) fun _ s' he =>
      ⟨he.2.1, he.2.2, nofun⟩
    obtain ⟨hrevision, hd, hinside, hstays⟩ := hd
    rw [wp_lift]
    exact ⟨fun captured hcaptured => ⟨hinside, hstays, fun _ _ =>
      observe_captured hrevision hd hcaptured⟩, fun _ _ => ⟨hinside, hstays, nofun⟩⟩
  unfold RunnerConfig.run
  rw [wp_bind, wp_get]
  refine wp_ite.mpr ⟨fun _ => hfailure (by decide) h (.refl s), fun _ => ?_⟩
  refine wp_ite.mpr ⟨fun _ => hfailure (by decide) h (.refl s), fun _ => ?_⟩
  refine wp_ite.mpr ⟨fun _ => hfailure (by decide) h (.refl s), fun _ => ?_⟩
  refine wp_ite.mpr ⟨fun _ => hfailure (by decide) h (.refl s), fun _ => ?_⟩
  refine wp_ite.mpr ⟨fun _ => hfailure (by decide) h (.refl s), fun _ => ?_⟩
  rw [wp_bind]
  refine wp_mono hcapture (fun out s' hout => ?_) fun _ _ he => he.elim
  obtain ⟨hinside, hstays, hobserved⟩ := hout
  cases out with
  | error e => exact hfailure (by decide) hinside hstays
  | ok captured =>
      dsimp only
      split
      · next failure _ => exact hfailure failure.failed hinside hstays
      · next bundle _ =>
          unfold LifecycleState.onWorld
          rw [wp_bind, wp_zoom]
          refine wp_mono (World.wp_commitBundle hinside.ready owner _ _) (fun committed v hv => ?_)
            fun _ _ he => he.elim
          obtain ⟨r, entries, rfl, hmoved, _⟩ := hv
          have hinside' : Inside config p w { s' with world := { s'.world with intents := r } } :=
            ⟨hinside.runner, ⟨hinside.ready.components, hmoved.coherent,
              hmoved.transaction.trans hinside.ready.idle, hinside.ready.inactive⟩,
              hinside.mirrored.intents r⟩
          have hstays' : Stays s { s' with world := { s'.world with intents := r } } :=
            hstays.trans ⟨rfl, rfl, rfl⟩
          refine wp_ite.mpr ⟨fun _ => ?_, fun _ => hfailure (by decide) hinside' hstays'⟩
          rw [wp_pure]
          exact ⟨hinside', hstays', fun _ => hobserved captured rfl⟩

/-- The evidence of a run may be refused, and then the run throws. -/
theorem wp_executeLifecycle (hp : p.Inv config.types) (hw : p.worlds.find? id = some w)
    (h : Inside config p w s) (owner : BehaviorId) (delta : UInt64) (start : Bool)
    (changes : List ComponentChange) (source : Bytes) :
    wp (config.executeLifecycle machine frame now owner delta start changes source)
      (fun result s' => Inside config p w s' ∧ Stays s s' ∧ (result.succeeded = true →
        ∀ watch, ∃ v, config.observe s.world owner watch = .ok v))
      (fun _ s' => Inside config p w s' ∧ Stays s s') s := by
  unfold RunnerConfig.executeLifecycle
  rw [wp_bind, wp_tryCatch]
  refine wp_mono (wp_run machine frame now hp hw h owner delta start changes source)
    (fun result s' hresult => ?_) fun _ _ he => he.elim
  obtain ⟨hinside, hstays, hobserved⟩ := hresult
  have hevidence : ∀ evidence, Inside config p w { s' with evidence := evidence } ∧
      Stays s { s' with evidence := evidence } := fun evidence =>
    ⟨⟨hinside.runner, hinside.ready, hinside.mirrored⟩, hstays.trans ⟨rfl, rfl, rfl⟩⟩
  rw [wp_bind]
  unfold recordScriptExecution
  rw [wp_bind, wp_get]
  refine wp_ite.mpr ⟨fun _ => ?_, fun _ => ?_⟩
  · refine wp_ite.mpr ⟨fun _ => ?_, fun _ => ?_⟩
    · rw [wp_bind, wp_throw]
      exact ⟨hinside, hstays⟩
    · rw [wp_modify, wp_pure]
      exact ⟨(hevidence _).1, (hevidence _).2, hobserved⟩
  · rw [wp_pure, wp_pure]
    exact ⟨hinside, hstays, hobserved⟩

/-! ## The snapshots after a run -/

/-- The state with a snapshot of each watch that has a value. -/
def snapped (config : RunnerConfig C) (v : World C) (owner : BehaviorId) (state : BehaviorState)
    (watches : List Watch) : BehaviorState :=
  watches.foldl
    (fun state watch => LuaLifecycleSystem.takeSnapshot state watch (config.value v owner watch))
    state

theorem wp_takeSnapshots {system : LuaLifecycleSystem C} (hp : p.Inv system.runner.types)
    (hw : p.worlds.find? id = some w) (owner : BehaviorId) (watches : List Watch)
    (state : BehaviorState) (h : Inside system.runner p w s)
    (hstate : s.states.find? owner = some state)
    (hobserved : ∀ watch ∈ watches, ∃ v, system.runner.observe s.world owner watch = .ok v) :
    wp (system.takeSnapshots owner state watches)
      (fun _ s' => Inside system.runner p w s' ∧ s'.journal = s.journal ∧
        s'.states = s.states.insert owner (snapped system.runner s.world owner state watches))
      (fun _ _ => False) s := by
  induction watches generalizing s state with
  | nil =>
      unfold LuaLifecycleSystem.takeSnapshots
      rw [wp_pure]
      exact ⟨h, rfl, (OrdMap.insert_of_find? hstate).symm⟩
  | cons watch rest ih =>
      unfold LuaLifecycleSystem.takeSnapshots
      rw [wp_bind]
      refine wp_mono (wp_snapshot hp hw h owner watch) (fun v s₁ hv => ?_) fun _ _ he => ?_
      · obtain ⟨hv, hinside, hstays⟩ := hv
        dsimp only
        unfold LifecycleState.setState
        rw [wp_bind, wp_modify]
        refine wp_mono (ih (LuaLifecycleSystem.takeSnapshot state watch v)
          ⟨hinside.runner, hinside.ready, hinside.mirrored⟩ (OrdMap.find?_insert_self ..)
          fun watch' hwatch => ?_) (fun _ s₂ hs₂ => ?_) fun _ _ he => he
        · obtain ⟨v', hv'⟩ := hobserved watch' (List.mem_cons_of_mem _ hwatch)
          exact ⟨v', (hstays.observe owner watch').trans hv'⟩
        · obtain ⟨hinside', hjournal, hstates⟩ := hs₂
          refine ⟨hinside', hjournal.trans hstays.journal, ?_⟩
          rw [hstates, OrdMap.insert_insert, hstays.states]
          unfold snapped
          rw [List.foldl_cons, RunnerConfig.value_eq hv]
          simp only [hstays.value]
      · obtain ⟨⟨e, he⟩, _⟩ := he
        obtain ⟨v, hv⟩ := hobserved watch List.mem_cons_self
        rw [hv] at he
        cases he

theorem key_injective {watch watch' : Watch} (h : watch.key = watch'.key) :
    watch = watch' := by
  cases watch
  cases watch'
  simpa [Watch.key] using h

theorem takeSnapshot_eq (state : BehaviorState) (watch : Watch) (current : Option LuaValue) :
    LuaLifecycleSystem.takeSnapshot state watch current = { state with
      snapshots := (LuaLifecycleSystem.takeSnapshot state watch current).snapshots } := by
  cases current <;> rfl

theorem find?_takeSnapshot (state : BehaviorState) (watch watch' : Watch)
    (current : Option LuaValue) :
    (LuaLifecycleSystem.takeSnapshot state watch current).snapshots.find? watch'.key =
      (state.snapshots.find? watch'.key).or (if watch' = watch then current else none) := by
  cases current with
  | none =>
      unfold LuaLifecycleSystem.takeSnapshot
      rw [ite_self, Option.or_none]
  | some value =>
      unfold LuaLifecycleSystem.takeSnapshot
      dsimp only
      rw [OrdMap.find?_emplace]
      by_cases hsame : watch' = watch
      · subst hsame
        rw [if_pos rfl, if_pos rfl]
      · rw [if_neg fun hkey => hsame (key_injective hkey), if_neg hsame, Option.or_none]

/-- Nothing but the snapshots of the state is new. -/
theorem snapped_eq (config : RunnerConfig C) (v : World C) (owner : BehaviorId)
    (watches : List Watch) (state : BehaviorState) :
    snapped config v owner state watches =
      { state with snapshots := (snapped config v owner state watches).snapshots } := by
  induction watches generalizing state with
  | nil => rfl
  | cons watch rest ih =>
      unfold snapped
      rw [List.foldl_cons]
      refine (ih _).trans ?_
      rw [takeSnapshot_eq]
      rfl

/-- Each watch with a value has it as its snapshot. -/
theorem find?_snapped (config : RunnerConfig C) (v : World C) (owner : BehaviorId)
    (watches : List Watch) (state : BehaviorState) (watch : Watch) :
    (snapped config v owner state watches).snapshots.find? watch.key =
      (state.snapshots.find? watch.key).or
        (if watch ∈ watches then config.value v owner watch else none) := by
  induction watches generalizing state with
  | nil =>
      rw [if_neg List.not_mem_nil, Option.or_none]
      rfl
  | cons first rest ih =>
      unfold snapped
      rw [List.foldl_cons]
      refine (ih _).trans ?_
      rw [find?_takeSnapshot, Option.or_assoc]
      by_cases hfirst : watch = first
      · subst hfirst
        rw [if_pos rfl, if_pos List.mem_cons_self]
        split
        · rw [Option.or_self]
        · rw [Option.or_none]
      · rw [if_neg hfirst, Option.none_or]
        simp only [List.mem_cons, hfirst, false_or]

end Calls

end Lifecycle

end LiquidLayer
