/-
  `create_behavior` and `destroy_behavior`.

  A creation whose callbacks throw is undone: the handle is given back, and nothing that was
  there before is different. A destruction is carried through and recorded whatever the
  callbacks throw; only a full lifecycle buffer stops it, and then the behavior is left alive
  without its accesses, and with the intents that could not be recorded as destroyed.
-/
import LiquidLayer.World.SystemOps

namespace LiquidLayer

open Prog

namespace World

variable {C : Type}

theorem wp_nextBehaviorAccessRevision {w : World C} {Q : UInt64 → World C → Prop}
    {E : Failure → World C → Prop}
    (hok : w.lastBehaviorAccessRevision ≠ maxU64 →
      w.lastBehaviorAccessRevision < w.lastBehaviorAccessRevision + 1 →
      Q (w.lastBehaviorAccessRevision + 1)
        { w with lastBehaviorAccessRevision := w.lastBehaviorAccessRevision + 1 })
    (herr : ∀ e, w.lastBehaviorAccessRevision = maxU64 → E e w) :
    wp nextBehaviorAccessRevision Q E w := by
  unfold nextBehaviorAccessRevision
  rw [wp_bind, wp_get]
  by_cases hmax : w.lastBehaviorAccessRevision = maxU64
  · rw [if_pos hmax]
    simpa only [wp_bind, wp_throw] using herr _ hmax
  · rw [if_neg hmax, wp_bind, wp_set, wp_pure]
    exact hok hmax (IntentRegistry.lt_succ_of_ne_maxU64 hmax)

/-- A revision drawn and not used. -/
theorem Ok.drawn {w : World C} (h : Ok w) (revision : UInt64) :
    Ok { w with lastBehaviorAccessRevision := revision } := by
  obtain ⟨⟨⟨h1, h2, h3, h4⟩, h5, h6, h7, h8, h9, h10, h11⟩, h12, h13⟩ := h
  exact ⟨⟨⟨h1, h2, h3, h4⟩, h5, h6, h7, h8, h9, h10, h11⟩, h12, h13⟩

theorem Lawful.drawn {w : World C} (h : Ok w) {revision : UInt64}
    (hle : w.lastBehaviorAccessRevision ≤ revision) :
    Lawful w { w with lastBehaviorAccessRevision := revision } w.content [] where
  outcome := ⟨h.drawn revision, rfl,
    fun _ => ⟨(List.append_nil _).symm, [], (List.append_nil _).symm, rfl⟩,
    ⟨[], (IntentRegistry.Moved.refl h.held.ready.intents).steps,
      fun _ he => absurd he List.not_mem_nil⟩, le_refl _,
    ⟨hle, fun _ _ hf => Or.inl ⟨hf, fun _ _ => ⟨rfl, fun _ => rfl⟩⟩⟩⟩
  authority _ ha := ha
  settled _ hs := ⟨hs.signed, hs.revised, hs.pooled, hs.bits⟩

/-! ## What is left of a behavior -/

/-- The handle may be active and own intents; nothing else is known of it. -/
structure Forgotten (w : World C) (b : BehaviorId) : Prop where
  signature : w.behaviorSignatures.find? b = none
  revision : w.behaviorAccessRevisions.find? b = none
  access : ∀ id t, w.components.types.find? id = some t → t.accesses.contains b = false

theorem Forgotten.accessNamed {w : World C} {b : BehaviorId} (h : Forgotten w b)
    (type : ComponentTypeId) (name : Bytes) : w.components.access b type name = none := by
  unfold ComponentRegistry.access
  cases ht : w.components.types.find? type with
  | none => rfl
  | some t =>
      have hno := h.access type t ht
      rw [OrdMap.contains, Option.isSome_eq_false_iff, Option.isNone_iff_eq_none] at hno
      rw [Option.bind_some]
      unfold TypeRecord.accessNamed TypeRecord.reads TypeRecord.writes TypeRecord.accessesOf
      rw [hno]
      cases t.names.find? name <;> rfl

/-- Nothing is known of a handle that is not active. -/
structure Absent (w : World C) (b : BehaviorId) : Prop extends Forgotten w b where
  pool : w.intents.byOwner.contains b = false
  intents : ∀ id i, w.intents.record? id = some i → i.owner ≠ b

theorem Ok.absent {w : World C} (h : Ok w) {b : BehaviorId} (hb : w.behaviors.exist b = false) :
    Absent w b where
  signature := by
    cases hs : w.behaviorSignatures.find? b with
    | none => rfl
    | some s =>
        have := h.signed b (by rw [OrdMap.contains, hs]; rfl)
        rw [hb] at this
        cases this
  revision := by
    cases hs : w.behaviorAccessRevisions.find? b with
    | none => rfl
    | some s =>
        have := h.held.revised b (by rw [OrdMap.contains, hs]; rfl)
        rw [hb] at this
        cases this
  access id t ht := by
    cases hc : t.accesses.contains b with
    | false => rfl
    | true =>
        rw [h.held.holders id t b ht hc] at hb
        cases hb
  pool := by
    cases hp : w.intents.byOwner.contains b with
    | false => rfl
    | true =>
        rw [h.held.pooled b hp] at hb
        cases hb
  intents id i hi ho := by
    have := h.held.owner hi
    rw [ho, hb] at this
    cases this

/-- A world without what was recorded of a behavior. -/
def forgotten (w : World C) (b : BehaviorId) : World C :=
  { w with
    behaviorSignatures := w.behaviorSignatures.erase b
    behaviorAccessRevisions := w.behaviorAccessRevisions.erase b }

theorem wp_forgetBehavior {w : World C} {b : BehaviorId} {Q : Unit → World C → Prop}
    {E : Failure → World C → Prop} : wp (forgetBehavior b) Q E w ↔ Q () (forgotten w b) := by
  unfold forgetBehavior
  rw [wp_modify]
  rfl

/-- `Settled`, but for what is recorded of `b`. -/
structure SettledBut (w : World C) (b : BehaviorId) : Prop where
  signed : ∀ b', b' ≠ b → w.behaviors.exist b' = true → w.behaviorSignatures.contains b' = true
  revised : ∀ b', b' ≠ b → w.behaviors.exist b' = true →
    w.behaviorAccessRevisions.contains b' = true
  pooled : ∀ b', b' ≠ b → w.behaviors.exist b' = true → w.intents.byOwner.contains b' = true
  bits : ∀ b' signature, b' ≠ b → w.behaviorSignatures.find? b' = some signature →
    ∀ type < 64, (signature.getLsbD type = true ↔ ∃ name, w.components.access b' type name ≠ none)

theorem SettledBut.retold {v w₁ u : World C} {b : BehaviorId} (hs : SettledBut v b)
    (h : Retold v w₁)
    (hu : u = { w₁ with
      behaviorSignatures := u.behaviorSignatures
      behaviorAccessRevisions := u.behaviorAccessRevisions })
    (hsig : ∀ b', b' ≠ b → u.behaviorSignatures.find? b' = v.behaviorSignatures.find? b')
    (hrev : ∀ b', b' ≠ b →
      u.behaviorAccessRevisions.find? b' = v.behaviorAccessRevisions.find? b') :
    SettledBut u b := by
  have hq := h.tended.quiet
  have hb : u.behaviors = v.behaviors := by rw [hu, hq.rest]
  have hcomp : u.components = w₁.components := by rw [hu]
  have hint : u.intents = w₁.intents := by rw [hu]
  have hrevalued : ComponentRegistry.Revalued v.components w₁.components := hq.components
  obtain ⟨entries, hmoved, _⟩ := h.tended.intended
  refine ⟨fun b' hne he => ?_, fun b' hne he => ?_, fun b' hne he => ?_,
    fun b' signature hne hf type ht => ?_⟩
  · rw [OrdMap.contains, hsig b' hne]
    exact hs.signed b' hne (hb ▸ he)
  · rw [OrdMap.contains, hrev b' hne]
    exact hs.revised b' hne (hb ▸ he)
  · rw [hint, hmoved.pools]
    exact hs.pooled b' hne (hb ▸ he)
  · rw [hcomp, hrevalued.access]
    exact hs.bits b' signature hne (hsig b' hne ▸ hf) type ht

/-- The world once the handle is gone, with its pool and its intents. -/
structure Departed (u : World C) (b : BehaviorId) (w' : World C) : Prop where
  rest : w' = { u with behaviors := w'.behaviors, intents := w'.intents }
  behaviors : w'.behaviors.Ok
  exist : ∀ b', w'.behaviors.exist b' = if b' = b then false else u.behaviors.exist b'
  steps : ∃ l, IntentRegistry.Steps l u.intents w'.intents ∧ ∀ e ∈ l, e.created = false
  intents : ∀ id i, w'.intents.record? id = some i ↔
    u.intents.record? id = some i ∧ i.owner ≠ b
  pools : ∀ b', w'.intents.byOwner.contains b' =
    (u.intents.byOwner.contains b' && !decide (b' = b))

theorem Departed.gone {u w' : World C} {b : BehaviorId} (h : Departed u b w') :
    w'.behaviors.exist b = false := by rw [h.exist, if_pos rfl]

theorem Departed.stays {u w' : World C} {b b' : BehaviorId} (h : Departed u b w')
    (hne : b' ≠ b) (he : u.behaviors.exist b' = true) : w'.behaviors.exist b' = true := by
  rw [h.exist, if_neg hne]
  exact he

theorem Departed.was {u w' : World C} {b b' : BehaviorId} (h : Departed u b w')
    (he : w'.behaviors.exist b' = true) : b' ≠ b ∧ u.behaviors.exist b' = true := by
  rw [h.exist] at he
  split at he
  · cases he
  · next hne => exact ⟨hne, he⟩

theorem Departed.held {u w' : World C} {b : BehaviorId} (h : Departed u b w') (hu : Held u)
    (hf : Forgotten u b) : Held w' := by
  obtain ⟨l, hsteps, _⟩ := h.steps
  exact
    { ready :=
        { components := by rw [h.rest]; exact hu.ready.components
          intents := hsteps.coherent
          idle := hsteps.transaction.trans hu.ready.idle
          inactive := by rw [h.rest]; exact hu.ready.inactive }
      systems := by rw [h.rest]; exact hu.systems
      depth := by rw [h.rest]; exact hu.depth
      running := by rw [h.rest]; exact hu.running
      behaviors := h.behaviors
      holders := fun id t b' ht hc => by
        rw [h.rest] at ht
        refine h.stays (fun hbb => ?_) (hu.holders id t b' ht hc)
        rw [hbb, hf.access id t ht] at hc
        cases hc
      revised := fun b' hc => by
        rw [h.rest] at hc
        refine h.stays (fun hbb => ?_) (hu.revised b' hc)
        rw [OrdMap.contains, hbb, hf.revision] at hc
        cases hc
      pooled := fun b' hc => by
        rw [h.pools, Bool.and_eq_true] at hc
        exact h.stays (by simpa using hc.2) (hu.pooled b' hc.1) }

theorem Departed.ok {u w' : World C} {b : BehaviorId} (h : Departed u b w') (hu : Ok u)
    (hf : Forgotten u b) : Ok w' where
  held := h.held hu.held hf
  signed b' hc := by
    rw [h.rest] at hc
    refine h.stays (fun hbb => ?_) (hu.signed b' hc)
    rw [OrdMap.contains, hbb, hf.signature] at hc
    cases hc
  membered := by
    rw [h.rest]
    exact hu.membered

/-- Who is left can write what it could. -/
theorem Departed.authority {u w' : World C} {b : BehaviorId} (h : Departed u b w')
    (ha : ∀ id i, u.intents.record? id = some i → i.owner ≠ b → Authorized u i) :
    Authority w' := by
  intro id i hi
  obtain ⟨hi', hne⟩ := (h.intents id i).mp hi
  obtain ⟨hex, t, ht, hcan⟩ := ha id i hi' hne
  refine ⟨h.stays hne hex, t, ?_, ?_⟩
  · rw [h.rest]
    exact ht
  · rw [h.rest]
    exact hcan

theorem Departed.settled {u w' : World C} {b : BehaviorId} (h : Departed u b w')
    (hf : Forgotten u b) (hs : SettledBut u b) : Settled w' where
  signed b' he := by
    obtain ⟨hne, he'⟩ := h.was he
    rw [h.rest]
    exact hs.signed b' hne he'
  revised b' he := by
    obtain ⟨hne, he'⟩ := h.was he
    rw [h.rest]
    exact hs.revised b' hne he'
  pooled b' he := by
    obtain ⟨hne, he'⟩ := h.was he
    rw [h.pools, hs.pooled b' hne he']
    simpa using hne
  bits b' signature hfind type ht := by
    rw [h.rest] at hfind ⊢
    refine hs.bits b' signature (fun hbb => ?_) hfind type ht
    have hnone := hf.signature
    rw [← hbb] at hnone
    cases hnone.symm.trans hfind

/-- The pool and the handle of a behavior are given up, or there is no room for the evidence of
    its intents. -/
theorem wp_depart {u : World C} (hu : Held u) {b : BehaviorId}
    (hb : u.behaviors.exist b = true) {α : Type} {k : WorldM C α} {Q : α → World C → Prop}
    {E : Failure → World C → Prop} (hgone : ∀ w', Departed u b w' → wp k Q E w')
    (hfull : ∀ e r, IntentRegistry.Culled (fun i => i.owner = b) u.intents r →
      u.intents.capacityErrors < r.capacityErrors → u.intents.intentsOwnedBy b ≠ [] →
      maximumBuffered < u.intents.lifecycleRecords.length +
        (u.intents.intentsOwnedBy b).length → E e { u with intents := r }) :
    wp (do
      onIntents (IntentRegistry.destroyOwnedBy b)
      onBehaviors (BehaviorRegistry.destroy b)
      k) Q E u := by
  rw [wp_bind, wp_onIntents]
  refine wp_mono (IntentRegistry.wp_destroyOwnedBy hu.ready.intents hu.ready.idle b)
    (fun _ r hr => ?_) (fun e r hr => hfull e r hr.1 hr.2.1 hr.2.2.1 hr.2.2.2)
  obtain ⟨hsteps, _, hlive, hpools⟩ := hr
  rw [wp_bind, wp_onBehaviors]
  exact BehaviorRegistry.wp_destroy hu.behaviors hb fun bs hbs hexist =>
    hgone _ ⟨rfl, hbs, hexist, hsteps, hlive, hpools⟩

/-! ## Creating a behavior -/

/-- The world once the handle, its revision and its pool are there. -/
structure Admitted (w v : World C) (b : BehaviorId) : Prop where
  held : Held v
  behaviors : ∀ b', v.behaviors.exist b' = if b' = b then true else w.behaviors.exist b'
  rest : v = { w with
    behaviors := v.behaviors
    intents := v.intents
    behaviorAccessRevisions := w.behaviorAccessRevisions.insert b v.lastBehaviorAccessRevision
    lastBehaviorAccessRevision := v.lastBehaviorAccessRevision }
  steps : IntentRegistry.Steps [] w.intents v.intents
  pool : ∀ b', v.intents.byOwner.contains b' = (w.intents.byOwner.contains b' || decide (b' = b))
  last : w.lastBehaviorAccessRevision < v.lastBehaviorAccessRevision

theorem Admitted.revised {w v : World C} {b : BehaviorId} (h : Admitted w v b) :
    Revised w v := by
  refine ⟨le_of_lt h.last, fun b' revision hf => ?_⟩
  rw [h.rest] at hf
  dsimp only at hf
  rw [OrdMap.find?_insert] at hf
  split at hf
  · cases hf
    exact Or.inr ⟨h.last, le_refl _⟩
  · refine Or.inl ⟨hf, fun type name => ?_⟩
    rw [h.rest]
    exact ⟨rfl, fun _ => rfl⟩

theorem Admitted.content {w v : World C} {b : BehaviorId} (h : Admitted w v b) :
    v.content = (Change.createBehavior b).apply w.content := by
  have hlive : v.behaviors.exist = fun b' => if b' = b then true else w.behaviors.exist b' :=
    funext h.behaviors
  have hrest := h.rest
  unfold World.content Change.apply Content.setLive
  rw [hlive]
  rw [hrest]

theorem Admitted.authorized {w v : World C} {b : BehaviorId} (h : Admitted w v b) {i : Intent}
    (hi : Authorized w i) : Authorized v i := by
  obtain ⟨hex, t, ht, hcan⟩ := hi
  refine ⟨?_, t, ?_, ?_⟩
  · rw [h.behaviors]
    split
    · rfl
    · exact hex
  · rw [h.rest]
    exact ht
  · rw [h.rest]
    exact hcan

theorem Admitted.settledBut {w v : World C} {b : BehaviorId} (h : Admitted w v b)
    (hs : Settled w) : SettledBut v b := by
  have hold : ∀ b', b' ≠ b → v.behaviors.exist b' = true → w.behaviors.exist b' = true := by
    intro b' hne he
    rw [h.behaviors, if_neg hne] at he
    exact he
  refine ⟨fun b' hne he => ?_, fun b' hne he => ?_, fun b' hne he => ?_,
    fun b' signature _ hf type ht => ?_⟩
  · rw [h.rest]
    exact hs.signed b' (hold b' hne he)
  · rw [h.rest]
    dsimp only
    rw [OrdMap.contains, OrdMap.find?_insert_ne _ hne]
    exact hs.revised b' (hold b' hne he)
  · rw [h.pool, hs.pooled b' (hold b' hne he)]
    rfl
  · rw [h.rest] at hf ⊢
    exact hs.bits b' signature hf type ht

/-- The handle, its revision and its pool are put there. -/
theorem Ok.admit {w : World C} (h : Ok w) {b : BehaviorId} {bs : BehaviorRegistry} (hbs : bs.Ok)
    (hexist : ∀ b', bs.exist b' = if b' = b then true else w.behaviors.exist b')
    {r : IntentRegistry} (hsteps : IntentRegistry.Steps [] w.intents r)
    (hpools : ∀ b', r.byOwner.contains b' = (w.intents.byOwner.contains b' || decide (b' = b)))
    {revision : UInt64} (hlt : w.lastBehaviorAccessRevision < revision) :
    Admitted w { w with
      behaviors := bs
      intents := r
      behaviorAccessRevisions := w.behaviorAccessRevisions.insert b revision
      lastBehaviorAccessRevision := revision } b := by
  have hheld := h.held
  have hstays : ∀ b', w.behaviors.exist b' = true → bs.exist b' = true := by
    intro b' he
    rw [hexist]
    split
    · rfl
    · exact he
  have hnew : ∀ b', b' = b → bs.exist b' = true := by
    intro b' hbb
    rw [hexist, if_pos hbb]
  exact
    { held :=
        { ready := ⟨hheld.ready.components, hsteps.coherent,
            hsteps.transaction.trans hheld.ready.idle, hheld.ready.inactive⟩
          systems := hheld.systems
          depth := hheld.depth
          running := hheld.running
          behaviors := hbs
          holders := fun id t b' ht hc => hstays b' (hheld.holders id t b' ht hc)
          revised := fun b' hc => by
            dsimp only at hc
            rw [OrdMap.contains, OrdMap.find?_insert] at hc
            split at hc
            · next hbb => exact hnew b' hbb
            · exact hstays b' (hheld.revised b' hc)
          pooled := fun b' hc => by
            dsimp only at hc
            rw [hpools, Bool.or_eq_true, decide_eq_true_eq] at hc
            exact hc.elim (fun hp => hstays b' (hheld.pooled b' hp)) (hnew b') }
      behaviors := hexist
      rest := rfl
      steps := hsteps
      pool := hpools
      last := hlt }

theorem createBehavior_recordable (b : BehaviorId) : (Change.createBehavior b).Recordable := by
  intro fields hf
  cases hf
  have hnames : fieldNamesOk ((behaviorFields b).map Prod.fst) = true := rfl
  refine ⟨_, (eventPayload_ok_iff hnames).mpr
    ⟨fun f hf => ?_, ?_⟩⟩
  · unfold behaviorFields at hf
    simp only [List.mem_cons, List.not_mem_nil, or_false] at hf
    rcases hf with rfl | rfl | rfl <;> rfl
  · show 1 + ([1, 1, 1] : List Nat).sum ≤ _
    decide

/-- The registries around what a told world did to its intents and behaviors. -/
theorem Outcome.of_steps {w v w₁ w' : World C} (h : Retold v w₁)
    (hrest : w' = { w₁ with
      behaviors := w'.behaviors
      intents := w'.intents
      behaviorSignatures := w'.behaviorSignatures
      behaviorAccessRevisions := w'.behaviorAccessRevisions })
    (hsteps : ∃ l, IntentRegistry.Steps l w₁.intents w'.intents ∧
      ∀ e ∈ l, e.created = false) (hok : Ok w')
    (htop : v.topologyMutations = w.topologyMutations)
    (hmut : v.componentMutations = w.componentMutations)
    (hcap : v.evidenceLost = w.evidenceLost)
    (henc : v.components.encoded = w.components.encoded)
    (hint : ∃ l, IntentRegistry.Steps l w.intents v.intents ∧
      ∀ e ∈ l, e.created = true → e.intent.encodedValue.validate = .ok ())
    (hrev : Revised w w') : Outcome w w' w'.content [] := by
  have hq := h.tended.quiet
  have htop' : w'.topologyMutations = w₁.topologyMutations := by rw [hrest]
  have hmut' : w'.componentMutations = w₁.componentMutations := by rw [hrest]
  have hcap' : w'.evidenceLost = w₁.evidenceLost := by rw [hrest]
  have hcomp' : w'.components = w₁.components := by rw [hrest]
  have hle : v.evidenceLost ≤ w₁.evidenceLost := hq.lost
  refine ⟨hok, rfl, fun hlost => ?_, ?_, ?_, hrev⟩
  · obtain ⟨htold, l, hbuf, _, hdesc⟩ := hq.evidence
      ((hcap'.symm.trans hlost).trans hcap.symm)
    refine ⟨?_, l, ?_, ?_⟩
    · rw [htop', List.append_nil, ← htop]
      exact htold
    · rw [hmut', ← hmut]
      exact hbuf
    · rw [hcomp', ← henc]
      exact hdesc
  · obtain ⟨l, hsteps₀, hvalid⟩ := hint
    obtain ⟨l', hmoved, hauth⟩ := h.tended.intended
    obtain ⟨l'', hsteps₁, hd⟩ := hsteps
    refine ⟨l ++ l' ++ l'', (hsteps₀.trans hmoved.steps).trans hsteps₁, fun e he hc => ?_⟩
    rcases List.mem_append.mp he with he | he
    · rcases List.mem_append.mp he with he | he
      · exact hvalid e he hc
      · exact (hauth e he hc).2
    · rw [hd e he] at hc
      cases hc
  · rw [hcap', ← hcap]
    exact hle

/-- The systems were told of an admitted behavior, and then that it is gone. -/
structure Refused (w v w₁ : World C) (b : BehaviorId) : Prop where
  admitted : Admitted w v b
  told : Retold v w₁
  signatures : w₁.behaviorSignatures = w.behaviorSignatures.insert b 0
  membered : SystemRegistry.Membered w₁.systems (w₁.behaviorSignatures.erase b)

section Refused

variable {w v w₁ : World C} {b : BehaviorId}

theorem Refused.behaviors (h : Refused w v w₁ b) : w₁.behaviors = v.behaviors := by
  rw [h.told.tended.quiet.rest]

theorem Refused.components (h : Refused w v w₁ b) :
    ComponentRegistry.Revalued w.components w₁.components := by
  have hcomp : v.components = w.components := by rw [h.admitted.rest]
  have hq := h.told.tended.quiet.components
  rw [← hcomp]
  exact hq

theorem Refused.signatures_forgotten (h : Refused w v w₁ b) (habs : Absent w b) :
    (forgotten w₁ b).behaviorSignatures = w.behaviorSignatures := by
  refine OrdMap.ext_find? fun b' => ?_
  unfold forgotten
  dsimp only
  rw [h.signatures, OrdMap.find?_erase]
  split
  · next hbb => rw [hbb, habs.signature]
  · next hbb => rw [OrdMap.find?_insert_ne _ hbb]

theorem Refused.revisions_forgotten (h : Refused w v w₁ b) (habs : Absent w b) :
    (forgotten w₁ b).behaviorAccessRevisions = w.behaviorAccessRevisions := by
  have hrev : w₁.behaviorAccessRevisions =
      w.behaviorAccessRevisions.insert b v.lastBehaviorAccessRevision := by
    rw [h.told.tended.quiet.rest]
    dsimp only
    rw [h.admitted.rest]
  refine OrdMap.ext_find? fun b' => ?_
  unfold forgotten
  dsimp only
  rw [hrev, OrdMap.find?_erase]
  split
  · next hbb => rw [hbb, habs.revision]
  · next hbb => rw [OrdMap.find?_insert_ne _ hbb]

theorem Refused.systems (h : Refused w v w₁ b) (hw : Ok w) (habs : Absent w b) :
    w₁.systems = w.systems := by
  have hsys : v.systems = w.systems := by rw [h.admitted.rest]
  have hmem := h.membered
  have hsigs : w₁.behaviorSignatures.erase b = w.behaviorSignatures :=
    h.signatures_forgotten habs
  rw [hsigs] at hmem
  exact SystemRegistry.Same.eq_of_membered (hsys ▸ h.told.same) hw.membered hmem

theorem Refused.forgets (h : Refused w v w₁ b) (habs : Absent w b) :
    Forgotten (forgotten w₁ b) b where
  signature := by
    rw [h.signatures_forgotten habs]
    exact habs.signature
  revision := by
    rw [h.revisions_forgotten habs]
    exact habs.revision
  access id t' ht' := by
    obtain ⟨t, ht, hrevd⟩ := h.components.types_back ht'
    rw [hrevd.rest]
    exact habs.access id t ht

theorem Refused.stays (h : Refused w v w₁ b) {b' : BehaviorId}
    (he : w.behaviors.exist b' = true) : w₁.behaviors.exist b' = true := by
  rw [h.behaviors, h.admitted.behaviors]
  split
  · rfl
  · exact he

theorem Refused.ok (h : Refused w v w₁ b) (hw : Ok w) (habs : Absent w b) :
    Ok (forgotten w₁ b) := by
  have hheld := h.told.held h.admitted.held
  refine ⟨⟨⟨hheld.ready.components, hheld.ready.intents, hheld.ready.idle,
    hheld.ready.inactive⟩, hheld.systems, hheld.depth, hheld.running, hheld.behaviors,
    hheld.holders, fun b' hc => ?_, hheld.pooled⟩, fun b' hc => ?_, h.membered⟩
  · rw [h.revisions_forgotten habs] at hc
    exact h.stays (hw.held.revised b' hc)
  · rw [h.signatures_forgotten habs] at hc
    exact h.stays (hw.signed b' hc)

/-- Nobody but a writer gets an intent, and this behavior has no access. -/
theorem Refused.ownerless (h : Refused w v w₁ b) (habs : Absent w b) {id : IntentId}
    {i : Intent} (hi : w₁.intents.record? id = some i) : i.owner ≠ b := by
  intro ho
  have hrec : v.intents.record? = w.intents.record? := h.admitted.steps.traces
  obtain ⟨_, t', ht', _, _, hwrites⟩ :=
    h.told.authorized hi fun hv => absurd ho (habs.intents id i (hrec ▸ hv))
  have hno := (h.forgets habs).access _ t' ht'
  rw [OrdMap.contains, Option.isSome_eq_false_iff, Option.isNone_iff_eq_none] at hno
  rw [ho] at hwrites
  unfold TypeRecord.writes TypeRecord.accessesOf at hwrites
  rw [hno] at hwrites
  cases hwrites

theorem Refused.exist (h : Refused w v w₁ b) (hnew : w.behaviors.exist b = false) {w' : World C}
    (hd : Departed (forgotten w₁ b) b w') (b' : BehaviorId) :
    w'.behaviors.exist b' = w.behaviors.exist b' := by
  rw [hd.exist]
  change (if b' = b then false else w₁.behaviors.exist b') = _
  rw [h.behaviors, h.admitted.behaviors]
  split
  · next hbb => rw [hbb, hnew]
  · rfl

theorem Refused.unchanged (h : Refused w v w₁ b) (hw : Ok w)
    (hnew : w.behaviors.exist b = false) {w' : World C}
    (hd : Departed (forgotten w₁ b) b w') : Unchanged w w' := by
  have habs := hw.absent hnew
  have hsys : w'.systems = w.systems := by
    rw [hd.rest]
    exact h.systems hw habs
  have hcomp : w'.components = w₁.components := by
    rw [hd.rest]
    rfl
  refine ⟨?_, hsys, ?_, ?_⟩
  · unfold World.content
    rw [hsys, hcomp, h.components.slots, h.components.access, h.components.schemas,
      funext (h.exist hnew hd)]
  · rw [hd.rest]
    exact h.signatures_forgotten habs
  · rw [hd.rest]
    exact h.revisions_forgotten habs

theorem Refused.revised (h : Refused w v w₁ b) (hw : Ok w) (hnew : w.behaviors.exist b = false)
    {w' : World C} (hd : Departed (forgotten w₁ b) b w') : Revised w w' := by
  have hu := h.unchanged hw hnew hd
  have hlast : w'.lastBehaviorAccessRevision = v.lastBehaviorAccessRevision := by
    rw [hd.rest]
    change w₁.lastBehaviorAccessRevision = _
    rw [h.told.tended.quiet.rest]
  refine ⟨by rw [hlast]; exact le_of_lt h.admitted.last,
    fun b' revision hf => Or.inl ⟨hu.revisions ▸ hf, fun type name => ?_⟩⟩
  exact ⟨congrFun₃ (congrArg Content.access hu.content) b' type name,
    fun _ => congrFun₂ (congrArg Content.slots hu.content) type name⟩

/-- Undoing a creation: nothing of the handle is left. -/
theorem Refused.lawful (h : Refused w v w₁ b) (hw : Ok w) (hnew : w.behaviors.exist b = false)
    {w' : World C} (hd : Departed (forgotten w₁ b) b w') : Lawful w w' w.content [] := by
  have habs := hw.absent hnew
  have hrest := h.admitted.rest
  have hrec : v.intents.record? = w.intents.record? := h.admitted.steps.traces
  have hu := h.unchanged hw hnew hd
  refine ⟨?_, fun _ ha => hd.authority fun id i hi _ => ?_,
    fun _ hs => hd.settled (h.forgets habs) ?_⟩
  · rw [← hu.content]
    exact .of_steps h.told (by rw [hd.rest]; rfl) hd.steps
      (hd.ok (h.ok hw habs) (h.forgets habs)) (by rw [hrest]) (by rw [hrest]) (by rw [hrest])
      (by rw [hrest]) ⟨[], h.admitted.steps, fun _ he => absurd he List.not_mem_nil⟩
      (h.revised hw hnew hd)
  · exact h.told.authorized hi fun hv => h.admitted.authorized (ha id i (hrec ▸ hv))
  · refine (h.admitted.settledBut hs).retold h.told rfl (fun b' hne => ?_) fun b' hne => ?_
    · rw [h.signatures_forgotten habs, hrest]
    · rw [h.revisions_forgotten habs, hrest]
      dsimp only
      rw [OrdMap.find?_insert_ne _ hne]

end Refused

theorem wp_undoBehavior (callbacks : Callbacks C) {w v w₂ : World C} (h : Ok w) {b : BehaviorId}
    (hnew : w.behaviors.exist b = false) (ha : Admitted w v b) (hret : Retold v w₂)
    (hsig : w₂.behaviorSignatures = w.behaviorSignatures.insert b 0)
    (hm : SystemRegistry.Membered w₂.systems w₂.behaviorSignatures) (e : Failure)
    {α : Type} {Q : α → World C → Prop} {E : Failure → World C → Prop}
    (hE : ∀ w', Lawful w w' w.content [] → Unchanged w w' → E e w') :
    wp (do
      let _ ← captured (removeFromSystems callbacks b)
      forgetBehavior b
      onIntents (IntentRegistry.destroyOwnedBy b)
      onBehaviors (BehaviorRegistry.destroy b)
      throw e) Q E w₂ := by
  have habs := h.absent hnew
  have hheld₂ := hret.held ha.held
  rw [wp_bind]
  have htold : wp (captured (removeFromSystems callbacks b))
      (fun _ w₃ => Calm (w₂.systems.enrolled (fun _ => false) b) w₂ w₃) E w₂ :=
    wp_captured (wp_mono (wp_removeFromSystems callbacks b hheld₂.systems hheld₂.depth)
      (fun _ _ h => h.2) (fun _ _ h => h.2))
  refine wp_mono htold (fun _ w₃ h₃ => ?_) (fun _ _ h => h)
  obtain ⟨hret₃, hsig₃, hsys₃⟩ := Retold.of_calm hret.ready hheld₂.systems
    w₂.behaviorSignatures h₃
  have hrefused : Refused w v w₃ b :=
    { admitted := ha
      told := hret.trans hret₃
      signatures := hsig₃.trans hsig
      membered := by
        rw [hsys₃, hsig₃]
        exact hm.forgotten hheld₂.systems b }
  have hok := hrefused.ok h habs
  rw [wp_bind, wp_forgetBehavior]
  refine wp_depart hok.held ?_ (fun w' hd => ?_) fun _ _ _ _ hsome _ => absurd ?_ hsome
  · change w₃.behaviors.exist b = true
    rw [hrefused.behaviors, ha.behaviors, if_pos rfl]
  · rw [wp_throw]
    exact hE w' (hrefused.lawful h hnew hd) (hrefused.unchanged h hnew hd)
  · refine List.eq_nil_iff_forall_not_mem.mpr fun id hid => ?_
    obtain ⟨i, hi, ho⟩ := hok.held.ready.intents.indexed.mem_intentsOwnedBy.mp hid
    exact hrefused.ownerless habs hi ho

/-- The systems were told of an admitted behavior and no callback threw. -/
theorem Admitted.lawful {w v w₂ : World C} {b : BehaviorId} (h : Admitted w v b) (hw : Ok w)
    (habs : Absent w b) (hret : Retold v w₂)
    (hsig : w₂.behaviorSignatures = w.behaviorSignatures.insert b 0)
    (hm : SystemRegistry.Membered w₂.systems w₂.behaviorSignatures) :
    Lawful w w₂ ((Change.createBehavior b).apply w.content) [] := by
  have hrest := h.rest
  have hq := hret.tended.quiet
  have hb₂ : w₂.behaviors = v.behaviors := by rw [hq.rest]
  have hrev₂ : w₂.behaviorAccessRevisions =
      w.behaviorAccessRevisions.insert b v.lastBehaviorAccessRevision := by
    rw [hq.rest]
    dsimp only
    rw [hrest]
  have hvrec : v.intents.record? = w.intents.record? := h.steps.traces
  have hvcomp : v.components = w.components := by rw [hrest]
  have hcomp : ComponentRegistry.Revalued v.components w₂.components := hq.components
  have hok : Ok w₂ := by
    refine ⟨hret.held h.held, fun b' hc => ?_, hm⟩
    rw [hb₂, h.behaviors]
    rw [hsig, OrdMap.contains, OrdMap.find?_insert] at hc
    split
    · rfl
    · next hne =>
        rw [if_neg hne] at hc
        exact hw.signed b' hc
  rw [← h.content]
  refine ⟨.of_retold hret hok (by rw [hrest]) (by rw [hrest]) (by rw [hrest])
    (by rw [hrest]) ⟨[], h.steps, fun _ he => absurd he List.not_mem_nil⟩ h.revised,
    fun _ hauth => hret.authority fun id i hi => h.authorized (hauth id i (hvrec ▸ hi)),
    fun _ hs => ?_⟩
  -- the new behavior's signature is empty, and it has access to nothing
  have hbut : SettledBut w₂ b := (h.settledBut hs).retold hret rfl
    (fun b' hne => by rw [hsig, OrdMap.find?_insert_ne _ hne, hrest])
    (fun b' hne => by rw [hq.rest])
  obtain ⟨entries, hmoved, _⟩ := hret.tended.intended
  refine ⟨fun b' he => ?_, fun b' he => ?_, fun b' he => ?_, fun b' signature hf type ht => ?_⟩
  · by_cases hne : b' = b
    · rw [hsig, OrdMap.contains, hne, OrdMap.find?_insert_self]
      rfl
    · exact hbut.signed b' hne he
  · by_cases hne : b' = b
    · rw [hrev₂, OrdMap.contains, hne, OrdMap.find?_insert_self]
      rfl
    · exact hbut.revised b' hne he
  · by_cases hne : b' = b
    · rw [hmoved.pools]
      show v.intents.byOwner.contains b' = true
      rw [h.pool, hne]
      simp
    · exact hbut.pooled b' hne he
  · by_cases hne : b' = b
    · rw [hsig, hne, OrdMap.find?_insert_self] at hf
      cases hf
      rw [hne, hcomp.access, hvcomp]
      simp [habs.accessNamed]
    · exact hbut.bits b' signature hne hf type ht

/-- A behavior is created and recorded, or nothing is different, or it is there and the topology
    buffer was full. -/
theorem wp_createBehavior (callbacks : Callbacks C) {w : World C} (h : Ok w) :
    wp (createBehavior callbacks)
      (fun b w' => Lawful w w' ((Change.createBehavior b).apply w.content)
          [(Change.createBehavior b).entry] ∧ w.behaviors.exist b = false)
      (fun _ w' => (Lawful w w' w.content [] ∧ Unchanged w w') ∨
        ∃ b, w.behaviors.exist b = false ∧
          Lawful w w' ((Change.createBehavior b).apply w.content) [] ∧
          Unrecorded w w' (Change.createBehavior b)) w := by
  unfold createBehavior
  rw [wp_bind]
  refine wp_ensureStructuralMutationAllowed h.held ?_
  rw [wp_bind]
  refine wp_nextBehaviorAccessRevision (fun _ hlt => ?_) (fun _ _ => Or.inl ⟨.refl h, .refl w⟩)
  generalize hrevision : w.lastBehaviorAccessRevision + 1 = revision at hlt ⊢
  rw [wp_bind]
  rw [wp_onBehaviors]
  refine BehaviorRegistry.wp_create h.held.behaviors (fun b bs hnew hbs hexist => ?_)
    (fun _ _ => Or.inl ⟨.drawn h (le_of_lt hlt), ⟨rfl, rfl, rfl, rfl⟩⟩)
  have habs := h.absent hnew
  rw [wp_bind, wp_tryCatch]
  unfold admitBehavior
  rw [wp_bind]
  rw [wp_onIntents]
  refine wp_mono (IntentRegistry.wp_createBehaviorPool h.held.ready.intents h.held.ready.idle
    habs.pool (E := fun _ _ => False)) (fun _ r hr => ?_) (fun _ _ hr => hr.elim)
  obtain ⟨hsteps, _, hpools⟩ := hr
  rw [wp_bind, wp_get]
  have hnosig : w.behaviorSignatures.contains b = false := by
    rw [OrdMap.contains, habs.signature]
    rfl
  have hnorev : w.behaviorAccessRevisions.contains b = false := by
    rw [OrdMap.contains, habs.revision]
    rfl
  dsimp only
  rw [hnosig, if_neg Bool.false_ne_true, wp_bind, wp_modify, wp_bind, wp_get]
  dsimp only
  rw [hnorev, if_neg Bool.false_ne_true, wp_bind, wp_modify]
  have hadm := h.admit hbs hexist hsteps hpools hlt
  have hstate : ({ w with
      behaviors := bs
      intents := r
      behaviorSignatures := w.behaviorSignatures.insert b 0
      behaviorAccessRevisions := w.behaviorAccessRevisions.insert b revision
      lastBehaviorAccessRevision := revision } : World C) =
        { ({ w with
            behaviors := bs
            intents := r
            behaviorAccessRevisions := w.behaviorAccessRevisions.insert b revision
            lastBehaviorAccessRevision := revision } : World C) with
          behaviorSignatures := w.behaviorSignatures.insert b 0 } := rfl
  rw [hstate]
  refine wp_mono (wp_updateSigned callbacks hadm.held.ready hadm.held.systems hadm.held.depth b 0)
    (fun _ w₂ h₂ => ?_) (fun e w₂ h₂ => ?_)
  · obtain ⟨_, hret, hsig, hsys⟩ := h₂
    have hlawful := hadm.lawful h habs hret hsig
      (Membered.of_signed h.membered hadm.held.systems hsig hsys)
    rw [wp_bind]
    refine wp_recordEntry (Change.createBehavior b) rfl (fun _ _ => ?_) (fun e hr => ?_)
      (fun e hle => ?_)
    · rw [wp_pure]
      exact ⟨hlawful.recorded _, hnew⟩
    · exact absurd (createBehavior_recordable b) hr
    · exact Or.inr ⟨b, hnew, hlawful.refused,
        .lost (Nat.lt_succ_of_le hlawful.outcome.lost)⟩
  · obtain ⟨_, hret, hsig, hsys⟩ := h₂
    exact wp_undoBehavior callbacks h hnew hadm hret hsig
      (Membered.of_signed h.membered hadm.held.systems hsig hsys) e
      fun w' hl hu => Or.inl ⟨hl, hu⟩

/-! ## Destroying a behavior -/

/-- The world once the accesses, the signature and the revision of a behavior are gone. -/
def stripped (w : World C) (b : BehaviorId) : World C :=
  { w with
    components := w.components.removeBehavior b
    behaviorSignatures := w.behaviorSignatures.erase b
    behaviorAccessRevisions := w.behaviorAccessRevisions.erase b }

theorem stripped_types (w : World C) (b : BehaviorId) (type : ComponentTypeId) :
    (stripped w b).components.types.find? type =
      (w.components.types.find? type).map (TypeRecord.removeAccessesOf · b) := by
  unfold stripped ComponentRegistry.removeBehavior
  dsimp only
  rw [OrdMap.find?_filterMap]
  cases w.components.types.find? type <;> rfl

theorem stripped_components {w : World C} (h : w.components.Ok) (b : BehaviorId) :
    (stripped w b).components.Ok := by
  refine ⟨fun id t ht => ?_, fun id t ht => ?_, h.limit⟩
  · rw [stripped_types] at ht
    obtain ⟨t₀, ht₀, rfl⟩ := Option.map_eq_some_iff.mp ht
    exact (h.types id t₀ ht₀).removeAccessesOf b
  · rw [stripped_types] at ht
    obtain ⟨t₀, ht₀, rfl⟩ := Option.map_eq_some_iff.mp ht
    exact h.below id t₀ ht₀

theorem stripped_encoded (w : World C) (b : BehaviorId) :
    (stripped w b).components.encoded = w.components.encoded := by
  funext type name
  unfold ComponentRegistry.encoded
  rw [stripped_types]
  cases w.components.types.find? type <;> rfl

theorem stripped_content (w : World C) (b : BehaviorId) :
    (stripped w b).content = w.content.dropAccesses b := content_removeBehavior w b

theorem stripped_held {w : World C} (h : Held w) (b : BehaviorId) : Held (stripped w b) := by
  refine ⟨⟨stripped_components h.ready.components b, h.ready.intents, h.ready.idle,
    h.ready.inactive⟩, h.systems, h.depth, h.running, h.behaviors, fun id t b' ht hc => ?_,
    fun b' hc => ?_, h.pooled⟩
  · rw [stripped_types] at ht
    obtain ⟨t₀, ht₀, rfl⟩ := Option.map_eq_some_iff.mp ht
    unfold TypeRecord.removeAccessesOf at hc
    dsimp only at hc
    rw [IntentRegistry.contains_erase, Bool.and_eq_true] at hc
    exact h.holders id t₀ b' ht₀ hc.1
  · unfold stripped at hc
    dsimp only at hc
    rw [IntentRegistry.contains_erase, Bool.and_eq_true] at hc
    exact h.revised b' hc.1

theorem stripped_revised (w : World C) (b : BehaviorId) : Revised w (stripped w b) := by
  refine ⟨le_refl _, fun b' revision hf => Or.inl ?_⟩
  unfold stripped at hf
  dsimp only at hf
  rw [OrdMap.find?_erase] at hf
  split at hf
  · cases hf
  · next hne =>
      refine ⟨hf, fun type name => ⟨?_, fun _ => ?_⟩⟩
      · have := congrArg Content.access (stripped_content w b)
        have hacc : (stripped w b).components.access b' type name =
            (w.content.dropAccesses b).access b' type name := congrFun₃ this b' type name
        rw [hacc]
        exact if_neg hne
      · have := congrArg Content.slots (stripped_content w b)
        exact congrFun₂ this type name

/-- Who is not the behavior can write what it could. -/
theorem stripped_authorized {w : World C} {b : BehaviorId} {i : Intent} (ho : i.owner ≠ b)
    (h : Authorized w i) : Authorized (stripped w b) i := by
  obtain ⟨hex, t, ht, hcur, hhas, hwrites⟩ := h
  refine ⟨hex, t.removeAccessesOf b, ?_, hcur, hhas, ?_⟩
  · rw [stripped_types, ht]
    rfl
  · rw [TypeRecord.writes_eq, TypeRecord.allows_removeAccessesOf, ← TypeRecord.writes_eq, hwrites]
    simp [ho]

theorem stripped_settledBut {w : World C} (h : Settled w) (b : BehaviorId) :
    SettledBut (stripped w b) b := by
  refine ⟨fun b' hne he => ?_, fun b' hne he => ?_, fun b' _ he => h.pooled b' he,
    fun b' signature hne hf type ht => ?_⟩
  · show (w.behaviorSignatures.erase b).contains b' = true
    rw [IntentRegistry.contains_erase, h.signed b' he]
    simpa using hne
  · show (w.behaviorAccessRevisions.erase b).contains b' = true
    rw [IntentRegistry.contains_erase, h.revised b' he]
    simpa using hne
  · have hf' : (w.behaviorSignatures.erase b).find? b' = some signature := hf
    rw [OrdMap.find?_erase, if_neg hne] at hf'
    have hacc : ∀ name, (stripped w b).components.access b' type name =
        w.components.access b' type name := by
      intro name
      rw [show (stripped w b).components.access b' type name =
        (w.content.dropAccesses b).access b' type name from
          congrFun₃ (congrArg Content.access (stripped_content w b)) b' type name]
      exact if_neg hne
    simp only [hacc]
    exact h.bits b' signature hf' type ht

/-- The world once the systems have been told of the behavior's end as well. -/
def orphaned (callbacks : Callbacks C) (w : World C) (b : BehaviorId) : World C :=
  after (removeFromSystems callbacks b) (stripped w b)

/-- The lifecycle buffer has room for the behavior's intents, after what callbacks do. -/
def RoomToDestroy (callbacks : Callbacks C) (w : World C) (b : BehaviorId) : Prop :=
  (orphaned callbacks w b).intents.lifecycleRecords.length +
    ((orphaned callbacks w b).intents.intentsOwnedBy b).length ≤ maximumBuffered

/-- What the callbacks throw when a behavior is destroyed. -/
def destroyNotice (callbacks : Callbacks C) (w : World C) (b : BehaviorId) : Option Failure :=
  firstNotice callbacks (fun _ => false) b w.systems

/-- The behavior is there without its accesses; the rest of its intents had no room. -/
structure Halted (callbacks : Callbacks C) (w : World C) (b : BehaviorId) (w' : World C) :
    Prop where
  outcome : Outcome w w' (w.content.dropAccesses b) []
  refused : w.intents.capacityErrors < w'.intents.capacityErrors
  full : ¬RoomToDestroy callbacks w b

/-- The systems have been told of the end of a behavior that is stripped already. -/
structure Orphaned (w w₁ : World C) (b : BehaviorId) : Prop where
  told : Retold (stripped w b) w₁
  signatures : w₁.behaviorSignatures = w.behaviorSignatures.erase b
  membered : SystemRegistry.Membered w₁.systems w₁.behaviorSignatures

section Orphaned

variable {w w₁ : World C} {b : BehaviorId}

theorem Orphaned.behaviors (h : Orphaned w w₁ b) : w₁.behaviors = w.behaviors := by
  rw [h.told.tended.quiet.rest]
  rfl

theorem Orphaned.revisions (h : Orphaned w w₁ b) :
    w₁.behaviorAccessRevisions = w.behaviorAccessRevisions.erase b := by
  rw [h.told.tended.quiet.rest]
  rfl

theorem Orphaned.revised (h : Orphaned w w₁ b) : Revised w w₁ :=
  (stripped_revised w b).retold h.told

theorem Orphaned.ok (h : Orphaned w w₁ b) (hw : Ok w) : Ok w₁ := by
  refine ⟨h.told.held (stripped_held hw.held b), fun b' hc => ?_, h.membered⟩
  rw [h.signatures, IntentRegistry.contains_erase, Bool.and_eq_true] at hc
  rw [h.behaviors]
  exact hw.signed b' hc.1

theorem Orphaned.forgets (h : Orphaned w w₁ b) : Forgotten w₁ b where
  signature := by rw [h.signatures, OrdMap.find?_erase, if_pos rfl]
  revision := by rw [h.revisions, OrdMap.find?_erase, if_pos rfl]
  access id t' ht' := by
    have hcomp : ComponentRegistry.Revalued (stripped w b).components w₁.components :=
      h.told.tended.quiet.components
    obtain ⟨t₁, ht₁, hrevd⟩ := hcomp.types_back ht'
    rw [stripped_types] at ht₁
    obtain ⟨t₀, _, rfl⟩ := Option.map_eq_some_iff.mp ht₁
    rw [hrevd.rest]
    unfold TypeRecord.removeAccessesOf
    dsimp only
    rw [IntentRegistry.contains_erase]
    simp

/-- What the destruction has done to the registries once the handle is gone. -/
theorem Orphaned.outcome (h : Orphaned w w₁ b) (hw : Ok w) {w' : World C} (hok : Ok w')
    (hrest : w' = { w₁ with behaviors := w'.behaviors, intents := w'.intents })
    (hsteps : ∃ l, IntentRegistry.Steps l w₁.intents w'.intents ∧
      ∀ e ∈ l, e.created = false) : Outcome w w' w'.content [] := by
  refine .of_steps h.told ?_ hsteps hok rfl rfl rfl (stripped_encoded w b)
    ⟨[], (IntentRegistry.Moved.refl hw.held.ready.intents).steps,
      fun _ he => absurd he List.not_mem_nil⟩ ⟨?_, ?_⟩
  · rw [hrest]
  · rw [hrest]
    exact h.revised.last
  · rw [hrest]
    exact h.revised.access

theorem Orphaned.lawful (h : Orphaned w w₁ b) (hw : Ok w) {w' : World C}
    (hd : Departed w₁ b w') : Lawful w w' ((Change.destroyBehavior b).apply w.content) [] := by
  have hcontent : w'.content = (Change.destroyBehavior b).apply w.content := by
    have hc₁ := h.told.content
    rw [stripped_content] at hc₁
    show w'.content = (w.content.dropAccesses b).setLive b false
    rw [← hc₁]
    have hexist : w'.behaviors.exist =
        fun b' => if b' = b then false else w₁.behaviors.exist b' := funext hd.exist
    unfold World.content Content.setLive
    rw [hexist, hd.rest]
  refine ⟨?_, fun _ ha => hd.authority fun id i hi hne => ?_,
    fun _ hs => hd.settled h.forgets ?_⟩
  · rw [← hcontent]
    exact h.outcome hw (hd.ok (h.ok hw) h.forgets) hd.rest hd.steps
  · -- no intent that was created since belongs to the behavior
    exact h.told.authorized hi fun hv => stripped_authorized hne (ha id i hv)
  · refine (stripped_settledBut hs b).retold h.told rfl (fun b' _ => ?_) fun b' _ => ?_
    · rw [h.signatures]
      rfl
    · rw [h.revisions]
      rfl

/-- There was no room for what becomes of the intents. -/
theorem Orphaned.halted (callbacks : Callbacks C) (h : Orphaned w w₁ b) (hw : Ok w)
    (hw₁ : w₁ = orphaned callbacks w b) {r : IntentRegistry}
    (hculled : IntentRegistry.Culled (fun i => i.owner = b) w₁.intents r)
    (hcap : w₁.intents.capacityErrors < r.capacityErrors)
    (hfull : maximumBuffered < w₁.intents.lifecycleRecords.length +
      (w₁.intents.intentsOwnedBy b).length) : Halted callbacks w b { w₁ with intents := r } := by
  have hok₁ := h.ok hw
  obtain ⟨l, hmoved, hd⟩ := hculled.moved
  have hok : Ok ({ w₁ with intents := r } : World C) :=
    hok₁.withIntents hmoved.coherent (hmoved.transaction.trans hok₁.held.ready.idle)
      fun b' hc => hok₁.held.pooled b' ((hmoved.pools b').symm.trans hc)
  refine ⟨?_, ?_, ?_⟩
  · rw [← stripped_content, ← h.told.content]
    exact h.outcome hw hok rfl ⟨l, hmoved.steps, hd⟩
  · obtain ⟨entries, hmoved', _⟩ := h.told.tended.intended
    exact lt_of_le_of_lt hmoved'.capacity hcap
  · unfold RoomToDestroy
    rw [← hw₁]
    exact Nat.not_le.mpr hfull

end Orphaned

/-- `Coordinator::destroy_behavior` goes all the way, whatever the callbacks throw, if there is
    room for the evidence. -/
theorem wp_eraseBehavior (callbacks : Callbacks C) {w : World C} (h : Ok w) (b : BehaviorId) :
    wp (eraseBehavior callbacks b)
      (fun _ w' => w.behaviors.exist b = true ∧ w'.behaviors.exist b = false ∧
        Lawful w w' ((Change.destroyBehavior b).apply w.content) [] ∧
        destroyNotice callbacks w b = none)
      (fun e w' => (w.behaviors.exist b = false ∧ w' = w) ∨
        (w.behaviors.exist b = true ∧ w'.behaviors.exist b = true ∧ Halted callbacks w b w') ∨
        (w.behaviors.exist b = true ∧ w'.behaviors.exist b = false ∧
          Lawful w w' ((Change.destroyBehavior b).apply w.content) [] ∧
          destroyNotice callbacks w b = some e)) w := by
  unfold eraseBehavior
  rw [wp_bind, wp_get, wp_bind, wp_lift]
  by_cases hb : w.behaviors.exist b = true
  swap
  · refine ⟨fun u hu => absurd (ensureBehavior_eq_ok hu) hb, fun e _ => Or.inl ⟨?_, rfl⟩⟩
    simpa using hb
  refine ⟨fun _ _ => ?_, fun e he => ?_⟩
  swap
  · unfold ensureBehavior at he
    rw [hb] at he
    cases he
  rw [wp_bind, wp_modify, wp_bind, wp_forgetBehavior]
  change wp _ _ _ (stripped w b)
  have hvheld := stripped_held h.held b
  rw [wp_bind]
  have htold : wp (captured (removeFromSystems callbacks b))
      (fun first w₁ => (first = destroyNotice callbacks w b ∧
        Calm ((stripped w b).systems.enrolled (fun _ => false) b) (stripped w b) w₁) ∧
        w₁ = orphaned callbacks w b)
      (fun _ _ => False) (stripped w b) := by
    refine wp_captured (wp_mono (wp_self (wp_removeFromSystems callbacks b hvheld.systems
      hvheld.depth)) (fun _ w₁ h₁ => ?_) (fun e w₁ h₁ => ?_))
    · exact ⟨⟨h₁.1.1.symm, h₁.1.2⟩, h₁.2⟩
    · exact ⟨⟨h₁.1.1.symm, h₁.1.2⟩, h₁.2⟩
  refine wp_mono htold (fun first w₁ h₁ => ?_) (fun _ _ hf => hf.elim)
  obtain ⟨⟨hfirst, hcalm⟩, hw₁⟩ := h₁
  obtain ⟨hret, hsig₁, hsys₁⟩ := Retold.of_calm hvheld.ready hvheld.systems
    (stripped w b).behaviorSignatures hcalm
  have horphaned : Orphaned w w₁ b :=
    { told := hret
      signatures := hsig₁
      membered := by
        rw [hsig₁, hsys₁]
        exact h.membered.forgotten h.held.systems b }
  have hb₁ : w₁.behaviors.exist b = true := by
    rw [horphaned.behaviors]
    exact hb
  refine wp_depart (horphaned.ok h).held hb₁ (fun w' hd => ?_) fun e r hculled hcap _ hfull => ?_
  · have hlawful := horphaned.lawful h hd
    exact wp_rethrow (fun hnone => ⟨hb, hd.gone, hlawful, hfirst ▸ hnone⟩)
      (fun e he => Or.inr (Or.inr ⟨hb, hd.gone, hlawful, hfirst ▸ he⟩))
  · exact Or.inr (Or.inl ⟨hb, hb₁, horphaned.halted callbacks h hw₁ hculled hcap hfull⟩)

/-- A behavior is destroyed and recorded, also when callbacks threw; or it was not there; or the
    topology buffer was full; or the lifecycle buffer was. -/
theorem wp_destroyBehavior (callbacks : Callbacks C) {w : World C} (h : Ok w) (b : BehaviorId) :
    wp (destroyBehavior callbacks b)
      (fun _ w' => w.behaviors.exist b = true ∧
        Lawful w w' ((Change.destroyBehavior b).apply w.content)
          [(Change.destroyBehavior b).entry])
      (fun _ w' => (Lawful w w' w.content [] ∧ Unchanged w w') ∨
        (w.behaviors.exist b = true ∧ Lawful w w' ((Change.destroyBehavior b).apply w.content)
          [(Change.destroyBehavior b).entry]) ∨
        (w.behaviors.exist b = true ∧
          Lawful w w' ((Change.destroyBehavior b).apply w.content) [] ∧
          Unrecorded w w' (Change.destroyBehavior b)) ∨
        (w.behaviors.exist b = true ∧ Halted callbacks w b w')) w := by
  unfold destroyBehavior
  rw [wp_bind]
  refine wp_ensureStructuralMutationAllowed h.held ?_
  rw [wp_bind, wp_get, wp_bind, wp_tryCatch]
  -- a destruction that is not recorded found the buffer full
  have hfull : ∀ w' : World C, w.behaviors.exist b = true →
      Lawful w w' ((Change.destroyBehavior b).apply w.content) [] →
      w.behaviors.exist b = true ∧
        Lawful w w'.loseEvidence ((Change.destroyBehavior b).apply w.content) [] ∧
        Unrecorded w w'.loseEvidence (Change.destroyBehavior b) := by
    intro w' hb hl
    exact ⟨hb, hl.refused, .lost (Nat.lt_succ_of_le hl.outcome.lost)⟩
  refine wp_mono (wp_eraseBehavior callbacks h b) (fun _ w' hw' => ?_) (fun e w' hw' => ?_)
  · obtain ⟨hb, _, hl, _⟩ := hw'
    refine wp_recordTombstone (Change.destroyBehavior b) rfl (fun _ => ?_) (fun e hle => ?_)
    · exact ⟨hb, hl.recorded _⟩
    · exact Or.inr (Or.inr (Or.inl (hfull w' hb hl)))
  · rw [wp_bind, wp_get]
    rcases hw' with ⟨hb, rfl⟩ | ⟨hb, hlive, hhalted⟩ | ⟨hb, hgone, hl, _⟩
    · rw [if_neg (by simp [hb]), wp_throw]
      exact Or.inl ⟨.refl h, .refl _⟩
    · rw [if_neg (by simp [hlive]), wp_throw]
      exact Or.inr (Or.inr (Or.inr ⟨hb, hhalted⟩))
    · rw [if_pos (by simp [hb, hgone]), wp_bind]
      refine wp_recordTombstone (Change.destroyBehavior b) rfl (fun _ => ?_) (fun e hle => ?_)
      · rw [wp_throw]
        exact Or.inr (Or.inl ⟨hb, hl.recorded _⟩)
      · exact Or.inr (Or.inr (Or.inl (hfull w' hb hl)))

end World

end LiquidLayer
