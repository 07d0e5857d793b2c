/-
  Runs of `RuntimeEffectsState`: its public operations, in any order, with any answers of the
  adapters and of the store. An operation that throws leaves what it had written (`perform`),
  and the run goes on from there.

  * `perform_moves`: every operation is a sequence of steps.
  * `Constructed`: the state a constructor returns, on an empty store or on a log.
  * `Sim.reaches`: every state of a run satisfies the invariant of a run.
-/
import LiquidLayer.Effects.Restart

namespace LiquidLayer

namespace Effects

open Prog

inductive Op where
  | registerAdapter (adapter : Option Adapter) (route : AdapterRoute)
      (capabilities : Except Failure AdapterCapabilities)
  | issue (effect : ResolvedEffect) (now : UInt64)
      (capabilities : Except Failure AdapterCapabilities) (answer : DispatchAnswer)
  | retryDue (now : UInt64) (answers : UInt64 → DispatchAnswer)
  | clearDesire (route : AdapterRoute) (target : EffectTarget)
  | reconcileIndeterminate (route : AdapterRoute) (target : EffectTarget) (observed : Value)
  | applyReport (report : EffectReport)
  | applyObservation (observation : ExternalObservation)
  | processFeedback
  | send (message : Feedback)
  | pruneTerminalHistory (reserveCommandSlot : Bool)
  | checkpoint

/-- The program of an operation. `send` is an adapter using its `FeedbackSender`. -/
def Op.program : Op → Effects Unit
  | .registerAdapter adapter route capabilities =>
      Effects.registerAdapter adapter route capabilities
  | .issue effect now capabilities answer => do let _ ← Effects.issue effect now capabilities answer
  | .retryDue now answers => Effects.retryDue now answers
  | .clearDesire route target => Effects.clearDesire route target
  | .reconcileIndeterminate route target observed =>
      Effects.reconcileIndeterminate route target observed
  | .applyReport report => Effects.applyReport report
  | .applyObservation observation => Effects.applyObservation observation
  | .processFeedback => Effects.processFeedback
  | .send message => modify fun s => { s with feedback := s.feedback.trySend message }
  | .pruneTerminalHistory reserve => Effects.pruneTerminalHistory reserve
  | .checkpoint => do let _ ← Effects.checkpoint

/-- The state after an operation, returned or thrown. -/
def perform (op : Op) : RuntimeEffectsState → RuntimeEffectsState := after op.program

/-- What an operation needs for its steps to be steps of `A`. -/
def Op.allowed (A : Allow) (op : Op) (s : RuntimeEffectsState) : Prop :=
  match op with
  | .issue effect _ capabilities _ => effect.desiredValue.validate = .ok () →
      A.desired effect.desiredValue ∧
        ((∀ c, capabilities ≠ .ok c) ∨ ¬Issuable effect.desiredValue → A.skip)
  | .applyReport report => ∀ state, Acceptable s report state → A.report s report
  | .processFeedback => ∀ s report state, Acceptable s report state → A.report s report
  | _ => True

section Perform

variable {A : Allow} {s : RuntimeEffectsState}

theorem Runs.perform {op : Op} (o : A.Open) (wf : WF s) (h : op.allowed A s) :
    Runs A s op.program s := by
  have here : Moves A.clean s s := .refl
  cases op with
  | registerAdapter => exact Runs.registerAdapter o here
  | issue =>
      simp only [Runs, Op.program, wp_bind]
      refine wp_mono (Runs.issue o wf here (fun hv => (h hv).1) fun hv => (h hv).2)
        (fun _ s' h => ?_) fun _ _ h => h
      rwa [wp_pure]
  | retryDue => exact Runs.retryDue o wf here
  | clearDesire => exact Runs.clearDesire o wf here
  | reconcileIndeterminate => exact Runs.reconcileIndeterminate o wf here
  | applyReport => exact Runs.applyReport o here h
  | applyObservation => exact Runs.applyObservation o here
  | processFeedback => exact Runs.processFeedback o h here
  | send =>
      simp only [Runs, Op.program, wp_modify]
      exact here.tail (.quiet _ _ _ _ _)
  | pruneTerminalHistory => exact Runs.pruneTerminalHistory here _
  | checkpoint =>
      simp only [Runs, Op.program, wp_bind]
      refine wp_mono (Runs.checkpoint o here) (fun _ s' h => ?_) fun _ _ h => h
      rwa [wp_pure]

theorem perform_moves {op : Op} (o : A.Open) (wf : WF s) (h : op.allowed A s) :
    Moves A s (perform op s) := by
  refine wp_after.mp ?_
  exact wp_mono (Runs.perform o wf h) (fun _ _ h => h.of_clean) fun _ _ h => h

/-- Every state of a run satisfies the invariant. -/
theorem Sim.reaches {s₀ : RuntimeEffectsState} (o : A.Open)
    {ok : Op → RuntimeEffectsState → Prop} (hok : ∀ op s, ok op s → op.allowed A s)
    (sim : Sim A.skip s₀) (h : Reaches perform ok s₀ s) : Sim A.skip s := by
  refine h.induct sim fun op s hs hop => ?_
  exact (perform_moves o hs.wf (hok op s hop)).sim hs

end Perform

/-! ## Construction -/

/-- What a constructor that returns has checked and done. -/
structure Constructed (s s' : RuntimeEffectsState) : Prop where
  named : s.session ≠ 0
  policy : s.retry.validate = .ok ()
  space : s.maximumRetainedCommands ≠ 0
  session : s.store.metadata.session = s.session
  timing : s.store.metadata.feedbackTiming = s.timing
  result : (s.store.records = [] ∧ s.store.nextSequence ≠ 0 ∧
      ∃ payload, s' = flushedState (recorded .sessionStarted payload s)) ∨
    (s.store.records ≠ [] ∧ restore s s.store.records = .ok s')

/-- The constructor returns a constructed state, or throws with the store as it was, after a
    refused record, or after a failed flush. -/
theorem wp_construct {options : RuntimeOptions} {s : RuntimeEffectsState}
    {Q : Unit → RuntimeEffectsState → Prop} {F : RuntimeEffectsState → Prop}
    (hok : ∀ s', options.feedbackCapacity ≠ 0 → Constructed s s' → Q () s') (hthrow : F s)
    (hrefused : F (refused s))
    (hunflushed : s.store.records = [] → s.store.nextSequence ≠ 0 →
      ∀ payload, F (unflushedState (recorded .sessionStarted payload s))) :
    wp (construct options) Q (fun _ => F) s := by
  unfold construct
  rw [wp_bind, wp_get]
  by_cases hcapacity : options.feedbackCapacity = 0
  · simp only [hcapacity, if_true, wp_bind, wp_throw]
    exact hthrow
  by_cases hsession : s.session = 0
  · simp only [hcapacity, hsession, if_true, if_false, wp_bind, wp_throw]
    exact hthrow
  simp only [hcapacity, hsession, if_false, wp_bind]
  refine wp_check (fun _ hpolicy => ?_) fun _ => hthrow
  by_cases hspace : s.maximumRetainedCommands = 0
  · simp only [hspace, if_true, wp_bind, wp_throw]
    exact hthrow
  by_cases hmetadata : s.store.metadata.session ≠ s.session ∨
      s.store.metadata.feedbackTiming ≠ s.timing
  · simp only [hspace, hmetadata, if_true, if_false, wp_bind, wp_throw]
    exact hthrow
  simp only [hspace, hmetadata, if_false]
  obtain ⟨hmeta, htiming⟩ := not_or.mp hmetadata
  have checked : ∀ {s'}, ((s.store.records = [] ∧ s.store.nextSequence ≠ 0 ∧
      ∃ payload, s' = flushedState (recorded .sessionStarted payload s)) ∨
      (s.store.records ≠ [] ∧ restore s s.store.records = .ok s')) → Q () s' := fun result =>
    hok _ hcapacity ⟨hsession, hpolicy, hspace, not_not.mp hmeta, not_not.mp htiming, result⟩
  split
  · next hempty =>
      have hnil := List.isEmpty_iff.mp hempty
      rw [wp_bind]
      refine wp_record (fun payload _ hroom => ?_) hthrow hrefused
      refine wp_flush ?_ (hunflushed hnil hroom payload)
      exact checked (.inl ⟨hnil, hroom, payload, rfl⟩)
  · next hne =>
      rw [wp_bind]
      refine wp_check (fun restored hok => ?_) fun _ => hthrow
      rw [wp_set]
      exact checked (.inr ⟨fun h0 => hne (List.isEmpty_iff.mpr h0), hok⟩)

theorem construct_inv {options : RuntimeOptions} {s s' : RuntimeEffectsState}
    (h : construct options s = .ok () s') :
    options.feedbackCapacity ≠ 0 ∧ Constructed s s' := by
  have hwp : wp (construct options)
      (fun _ s' => options.feedbackCapacity ≠ 0 ∧ Constructed s s') (fun _ _ => True) s :=
    wp_construct (fun _ h1 h2 => ⟨h1, h2⟩) trivial trivial fun _ _ _ => trivial
  have := wp_ok hwp h
  exact this

/-- The constructor returns on a log that can be restored. -/
theorem construct_of_restore {options : RuntimeOptions} {s s' : RuntimeEffectsState}
    (hcapacity : options.feedbackCapacity ≠ 0) (hsession : s.session ≠ 0)
    (hpolicy : s.retry.validate = .ok ()) (hspace : s.maximumRetainedCommands ≠ 0)
    (hmeta : s.store.metadata.session = s.session)
    (htiming : s.store.metadata.feedbackTiming = s.timing) (hne : s.store.records ≠ [])
    (h : restore s s.store.records = .ok s') : construct options s = .ok () s' := by
  have hempty : s.store.records.isEmpty = false := by
    cases hr : s.store.records with
    | nil => exact absurd hr hne
    | cons _ _ => rfl
  unfold construct
  simp only [bind, EStateM.bind, get, getThe, MonadStateOf.get, EStateM.get, hcapacity, hsession,
    hpolicy, hspace, hmeta, htiming, hempty, h, check, if_false, ne_eq, not_true_eq_false, or_self,
    Bool.false_eq_true]
  rfl

/-- A store nothing has been written to. -/
structure EventStore.Empty (store : EventStore) : Prop where
  records : store.records = []
  nextSequence : store.nextSequence = 1
  refused : store.refused = 0

theorem fresh_initial (options : RuntimeOptions) (store : EventStore) :
    Fresh (initial options store) := ⟨rfl, rfl, rfl, rfl, rfl⟩

theorem live_initial (skip : Prop) (options : RuntimeOptions) (store : EventStore) :
    Live skip (initial options store) .empty := by
  refine ⟨fun h => (nomatch h), fun h => (nomatch h), fun h => absurd rfl h,
    fun h => (nomatch h), fun h => (nomatch h), .inr (.inr (.inl rfl)), rfl, rfl,
    fun h => (nomatch h)⟩

theorem Book.of_nil {metadata : EventStoreMetadata} {limit : Nat} {log : List EventRecord}
    {ledger : Ledger} (h : Book metadata limit log ledger) (hlog : log = []) : ledger = .empty := by
  cases h with
  | nil => rfl
  | snoc => simp at hlog

/-- What a runtime may be constructed on. -/
structure Ledgered (store : EventStore) : Prop where
  sequenced : Sequenced store
  book : ∃ ledger, Book store.metadata EffectLimits.maxRetryDelays store.records ledger

theorem EventStore.Empty.ledgered {store : EventStore} (empty : EventStore.Empty store) :
    Ledgered store := by
  refine ⟨⟨?_, ?_⟩, .empty, ?_⟩
  · rw [empty.nextSequence, empty.records]
    rfl
  · rw [empty.records]
    decide
  · rw [empty.records]
    exact .nil

/-- The record of a new session. -/
theorem Ledgered.session {skip : Prop} {options : RuntimeOptions} {store : EventStore}
    {payload : Value} (h : Ledgered store) (hnil : store.records = [])
    (hroom : store.nextSequence ≠ 0) :
    Recorded skip (recorded .sessionStarted payload (initial options store)) := by
  obtain ⟨ledger, book⟩ := h.book
  obtain rfl := book.of_nil hnil
  have start : Recorded skip (initial options store) :=
    ⟨h.sequenced, .empty, book, live_initial skip options store⟩
  exact @Recorded.inert ⟨fun _ _ => True, fun _ => True, skip, True⟩ _ _ _ _ start .session hroom

/-- The invariant of a run holds at its start. -/
theorem Constructed.sim {skip : Prop} {options : RuntimeOptions} {store : EventStore}
    {s : RuntimeEffectsState} (ledgered : Ledgered store)
    (h : Constructed (initial options store) s) : Sim skip s := by
  rcases h.result with ⟨hnil, hroom, payload, rfl⟩ | ⟨_, hok⟩
  · have hflushed : Recorded skip
        (flushedState (recorded .sessionStarted payload (initial options store))) :=
      @Recorded.of_agrees ⟨fun _ _ => True, fun _ => True, skip, True⟩ _ _
        (ledgered.session hnil hroom) ⟨rfl, rfl, rfl, rfl, le_rfl⟩ rfl
        ⟨rfl, rfl, rfl, .inr rfl, le_rfl⟩
    refine ⟨hflushed, ⟨h.named, fun h => (nomatch h), fun h => (nomatch h), fun h => (nomatch h),
      fun h => (nomatch h), fun h => (nomatch h)⟩, h.session, h.policy, ?_⟩
    exact ⟨Nat.zero_le _, Nat.pos_of_ne_zero h.space⟩
  · obtain ⟨ledger, book⟩ := ledgered.book
    have restarts : Restarts (initial options store) ledger :=
      ⟨fresh_initial options store, h.named, h.session, h.policy, Nat.pos_of_ne_zero h.space,
        ledgered.sequenced, book⟩
    exact ((restarts.sim hok).2.2.2.2 skip).2

/-! ## A lamp

One adapter, one target and a store that takes every call: what the witnesses below run on. -/

def lampStore : EventStore where
  metadata := { session := 1, engineVersion := utf8 "0.1.0", feedbackTiming := .deferred }
  records := []
  nextSequence := 1
  flushed := 0
  medium := fun _ => true
  calls := 0
  refused := 0
  valid := by decide

def lampOptions : RuntimeOptions where
  sessionId := 1
  feedbackTiming := .deferred
  retryPolicy := { retryDelays := [100], overallTimeout := 1000 }
  feedbackCapacity := 8
  maxRetainedCommands := 8

def lampRoute : AdapterRoute := ⟨utf8 "lamp", validateRoute_lamp⟩

def lampTarget : EffectTarget := ⟨utf8 "kitchen", validateTarget_kitchen⟩

/-- The runtime as constructed on the empty store. -/
def lampStart : RuntimeEffectsState :=
  after (construct lampOptions) (initial lampOptions lampStore)

theorem lampStore_empty : EventStore.Empty lampStore := ⟨rfl, rfl, rfl⟩

theorem construct_lamp : construct lampOptions (initial lampOptions lampStore) =
    .ok () lampStart := rfl

def lampRegister : Op := .registerAdapter (some 0) lampRoute (.ok {})

/-- A command for the lamp that the adapter accepts without a report. -/
def lampIssue (value : Value) : Op :=
  .issue ⟨lampRoute, lampTarget, value⟩ 5 (.ok {}) ⟨[], .ok ⟨.accepted, none, []⟩⟩

end Effects

end LiquidLayer
