/-
  What an operation of `RuntimeEffectsState` can do, said once.

  `Step A s s'` is one atomic change of the state: the writes that no exception can separate.
  Every operation, whether it returns or throws, is a sequence of such steps (`Moves`); an
  operation that returns makes only `clean` ones. Each operation has one lemma here
  (`issue_moves`, `retryDue_moves`, ...); invariants are then proved step by step, without
  looking at the operations again.

  `Allow` is what a run may contain: which reports are applied to which states, which values
  are desired, whether a command number may be taken in vain (`skip`), and whether the store
  or an adapter may interrupt a step (`broken`).
-/
import LiquidLayer.Effects.State
import Mathlib.Logic.Relation

namespace LiquidLayer

namespace Effects

open Prog

structure Allow where
  report : RuntimeEffectsState → EffectReport → Prop
  desired : Value → Prop
  skip : Prop
  broken : Prop

/-- The same without interruptions. -/
def Allow.clean (A : Allow) : Allow := { A with skip := False, broken := False }

/-! ## The states between -/

/-- One record appended. -/
def recorded (type : EventType) (payload : Value) (s : RuntimeEffectsState)
    (durability : Durability := .buffered) : RuntimeEffectsState :=
  { s with store := s.store.push [{ type, payload }] durability }

def refused (s : RuntimeEffectsState) : RuntimeEffectsState := { s with store := s.store.refuse }

/-- How far a dispatch gets before the adapter is called. -/
inductive Stage where
  | refusedAttempt
  | unflushed
  | called (sends : List Feedback)

/-- The state once a dispatch of the entry `state` under `id` has got this far. -/
def attempted (stage : Stage) (state : CommandState) (now : UInt64) (payload : Value)
    (s : RuntimeEffectsState) : RuntimeEffectsState :=
  match stage with
  | .refusedAttempt => refused s
  | .unflushed =>
      let s := recorded .commandAttempted payload s
      { s with store := { s.store with calls := s.store.calls + 1 } }
  | .called sends =>
      let s := recorded .commandAttempted payload s
      let s := { s with store := { s.store with
        flushed := s.store.records.length, calls := s.store.calls + 1 } }
      withCall state now sends s

/-- The entry once an accepted report has been written into it. -/
def acceptedState (report : EffectReport) (state : CommandState) (reportPayload : Value)
    (statusPayload : Value) (s : RuntimeEffectsState) : RuntimeEffectsState :=
  let s := recorded .reportReceived reportPayload s
  let s := if state.status = .superseded then s
    else withStatus report.commandId state report.status
      (recorded .commandStatusChanged statusPayload s)
  withAccepted report (withTerminalReport report.commandId report s)

/-- The entry under `id` once an adapter has been registered. -/
def registeredCommand (adapter : Adapter) (route : AdapterRoute)
    (capabilities : AdapterCapabilities) (indeterminate : List UInt64) (id : UInt64)
    (state : CommandState) : CommandState :=
  if state.command.effect.adapterRoute = route then
    { state with
      adapter := some adapter
      capabilities := capabilities
      status := if id ∈ indeterminate then .indeterminate else state.status }
  else state

/-- A registration makes pending commands of its route indeterminate. -/
theorem of_mem_unsafeRetries {s : RuntimeEffectsState} {route : AdapterRoute}
    {capabilities : AdapterCapabilities} {id : UInt64}
    (h : id ∈ unsafeRetries s route capabilities) : ∃ state, s.commands.find? id = some state ∧
      state.command.effect.adapterRoute = route ∧ state.status = .pending := by
  obtain ⟨e, he, rfl⟩ := List.mem_map.mp h
  obtain ⟨hmem, hf⟩ := List.mem_filter.mp he
  simp only [Bool.and_eq_true, decide_eq_true_eq] at hf
  exact ⟨e.2, OrdMap.mem_entries.mp hmem, hf.1.1, hf.1.2⟩

theorem pruneOne_eq {s : RuntimeEffectsState} {id : UInt64} {state : CommandState}
    (found : s.commands.find? id = some state) (ended : active state.status = false) :
    pruneOne id s = { s with
      latestByTarget :=
        if s.latestByTarget.find? state.key = some id then s.latestByTarget.erase state.key
        else s.latestByTarget
      commands := s.commands.erase id } := by
  simp only [pruneOne, found, ended, Bool.false_eq_true, if_false]

/-! ## Steps -/

/-- The log and the numbering stay; flushing and refusals may happen. -/
structure Idle (store store' : EventStore) : Prop where
  metadata : store'.metadata = store.metadata
  records : store'.records = store.records
  nextSequence : store'.nextSequence = store.nextSequence
  flushed : store'.flushed = store.flushed ∨ store'.flushed = store.records.length
  refused : store.refused ≤ store'.refused

/-- A report that reaches the acceptance branch of `apply_report`. -/
structure Acceptable (s : RuntimeEffectsState) (report : EffectReport) (state : CommandState) :
    Prop where
  valid : validateEffectReport report = .ok ()
  found : s.commands.find? report.commandId = some state
  session : report.sessionId = s.session
  route : report.adapterRoute = state.command.effect.adapterRoute
  target : report.target = state.command.effect.target
  first : state.terminalReport = none
  current : state.status = .superseded → report.status = .applied

/-- A record that repeats what the state holds. -/
inductive Inert (s : RuntimeEffectsState) : EventType → Value → Prop where
  | session {payload} : Inert s .sessionStarted payload
  | report {report disposition payload} :
      eventPayload (reportFields report disposition) = .ok payload → disposition ≠ "accepted" →
      Inert s .reportReceived payload
  | observation {payload} : Inert s .externalObservationReceived payload
  | status {id state reason payload} : s.commands.find? id = some state →
      eventPayload (statusFields id state.status reason) = .ok payload →
      Inert s .commandStatusChanged payload
  | checkpoint {projection payload} : project s.store.metadata s.store.records = .ok projection →
      checkpointPayload projection = .ok payload →
      validateCheckpointSession payload s.store.metadata.session = .ok () →
      Inert s .checkpoint payload

/-- Why a status may change without a report. -/
inductive Cause (s : RuntimeEffectsState) (id : UInt64) (state : CommandState) :
    CommandStatus → Prop where
  | pending {status} : state.status = .pending → status ≠ .pending → Cause s id state status
  | reconciled {status} : state.status = .indeterminate →
      s.latestByTarget.find? state.key = some id → active status = false →
      Cause s id state status

inductive Step (A : Allow) (s : RuntimeEffectsState) : RuntimeEffectsState → Prop where
  | quiet (feedback : FeedbackChannel) (deferred : List EffectReport) (order : List UInt64)
      (reports : List EffectReport) (observations : List ExternalObservation) :
      Step A s { s with
        feedback := feedback, deferredSynchronousReports := deferred, terminalOrder := order,
        acceptedReports := reports, acceptedObservations := observations }
  | store {store' : EventStore} (idle : Idle s.store store')
      (broken : store'.refused ≠ s.store.refused → A.broken) :
      Step A s { s with store := store' }
  | inert {type : EventType} {payload : Value} (inert : Inert s type payload)
      (durability : Durability) (room : s.store.nextSequence ≠ 0) :
      Step A s (recorded type payload s durability)
  | transition {id : UInt64} {state : CommandState} {status : CommandStatus} {reason : Bytes}
      {payload : Value} (found : s.commands.find? id = some state)
      (cause : Cause s id state status)
      (built : eventPayload (statusFields id status reason) = .ok payload)
      (room : s.store.nextSequence ≠ 0) :
      Step A s (withStatus id state status (recorded .commandStatusChanged payload s))
  | accept {report : EffectReport} {state : CommandState} {reportPayload statusPayload : Value}
      (acceptable : Acceptable s report state) (allowed : A.report s report)
      (builtReport : eventPayload (reportFields report "accepted") = .ok reportPayload)
      (builtStatus : eventPayload
        (statusFields report.commandId report.status report.diagnostic) = .ok statusPayload)
      (room : s.store.nextSequence ≠ 0)
      (room' : state.status ≠ .superseded → s.store.nextSequence + 1 ≠ 0) :
      Step A s (acceptedState report state reportPayload statusPayload s)
  | torn {report : EffectReport} {state : CommandState} {reportPayload : Value}
      (broken : A.broken) (acceptable : Acceptable s report state)
      (builtReport : eventPayload (reportFields report "accepted") = .ok reportPayload)
      (room : s.store.nextSequence ≠ 0) :
      Step A s (recorded .reportReceived reportPayload s)
  | terminal {id : UInt64} {state : CommandState} (report : EffectReport)
      (found : s.commands.find? id = some state) (ended : active state.status = false) :
      Step A s (withTerminalReport id report s)
  | issued {command : EffectCommand} {adapter : Adapter} {capabilities : AdapterCapabilities}
      {payload attemptPayload : Value} (stage : Stage)
      (number : command.commandId = s.nextCommand) (nonzero : s.nextCommand ≠ 0)
      (last : s.nextCommand ≠ maxU64) (session : command.sessionId = s.session)
      (valid : validateEffectCommand command = .ok ())
      (desired : A.desired command.effect.desiredValue)
      (free : ∀ id, s.latestByTarget.find? command.effect.key = some id →
        ∃ state, s.commands.find? id = some state ∧ active state.status = false)
      (space : s.commands.size ≤ s.maximumRetainedCommands - 1)
      (fresh : s.commands.find? command.commandId = none)
      (built : eventPayload (issuedFields command) = .ok payload)
      (builtAttempt : eventPayload (attemptFields command.commandId 1 command.issuedAtMs) =
        .ok attemptPayload)
      (broken : (∀ sends, stage ≠ .called sends) → A.broken)
      (room : s.store.nextSequence ≠ 0)
      (room' : stage ≠ .refusedAttempt → s.store.nextSequence + 1 ≠ 0) :
      Step A s (attempted stage (newCommand command adapter capabilities) command.issuedAtMs
        attemptPayload
        (withCommand (newCommand command adapter capabilities)
          { recorded .commandIssued payload s with nextCommand := s.nextCommand + 1 }))
  | skipped (skip : A.skip) (nonzero : s.nextCommand ≠ 0) (last : s.nextCommand ≠ maxU64) :
      Step A s { s with nextCommand := s.nextCommand + 1 }
  | unrecorded (broken : A.broken) (nonzero : s.nextCommand ≠ 0)
      (last : s.nextCommand ≠ maxU64) :
      Step A s { refused s with nextCommand := s.nextCommand + 1 }
  | retried {id : UInt64} {state : CommandState} {now : UInt64} {attemptPayload : Value}
      (stage : Stage) (found : s.commands.find? id = some state)
      (pending : state.status = .pending)
      (early : (elapsedSince state.command.issuedAtMs now).toNat < s.retry.overallTimeout.toNat)
      (left : state.retryIndex < s.retry.retryDelays.length)
      (builtAttempt : eventPayload (attemptFields id (state.retryIndex + 2) now) =
        .ok attemptPayload)
      (broken : (∀ sends, stage ≠ .called sends) → A.broken)
      (room : stage ≠ .refusedAttempt → s.store.nextSequence ≠ 0) :
      Step A s (attempted stage { state with retryIndex := state.retryIndex + 1 } now
        attemptPayload (withRetry id state s))
  | commit {route : AdapterRoute} {target : EffectTarget} {value : Value}
      {revision : StateRevision} {commandId : UInt64} {state : CommandState} {payload : Value}
      (found : s.commands.find? commandId = some state)
      (key : state.key = targetKey route target) (revised : revision ≠ 0)
      (newer : ∀ prior, s.observedRevisions.find? (targetKey route target) = some prior →
        prior < revision)
      (built : eventPayload (committedFields route target value revision commandId) =
        .ok payload)
      (room : s.store.nextSequence ≠ 0) :
      Step A s (withAuthority (targetKey route target) commandId
        (withObserved (targetKey route target) value revision
          (recorded .observedStateChanged payload s)))
  | observe {observation : ExternalObservation} {payload : Value}
      (valid : validateExternalObservation observation = .ok ())
      (newer : ∀ prior, s.observedRevisions.find? observation.key = some prior →
        prior < observation.stateRevision)
      (built : eventPayload (externalFields observation) = .ok payload)
      (room : s.store.nextSequence ≠ 0) :
      Step A s
        { withObserved observation.key observation.observedValue observation.stateRevision
            (recorded .observedStateChanged payload s) with
          acceptedObservations := s.acceptedObservations ++ [observation] }
  | prune {id : UInt64} {state : CommandState} (found : s.commands.find? id = some state)
      (ended : active state.status = false) : Step A s (pruneOne id s)
  | register {adapter : Adapter} {route : AdapterRoute} {capabilities : AdapterCapabilities}
      {events : List EventData} {commands : OrdMap UInt64 CommandState} {store' : EventStore}
      (new : s.adapters.find? route.value = none)
      (built : List.Forall₂ (fun id event => event.type = .commandStatusChanged ∧
        event.version = 1 ∧ eventPayload
          (statusFields id .indeterminate (restartReason capabilities)) = .ok event.payload)
        (unsafeRetries s route capabilities) events)
      (taken : s.store.appendBatch events .durable = (true, store'))
      (attached : ∀ id, commands.find? id = (s.commands.find? id).map
        (registeredCommand adapter route capabilities (unsafeRetries s route capabilities) id)) :
      Step A s { s with
        adapters := s.adapters.insert route.value adapter
        commands := commands
        store := store' }

/-- What a sequence of steps does. -/
abbrev Moves (A : Allow) : RuntimeEffectsState → RuntimeEffectsState → Prop :=
  Relation.ReflTransGen (Step A)

theorem Step.mono {A B : Allow} (hreport : ∀ s r, A.report s r → B.report s r)
    (hdesired : ∀ v, A.desired v → B.desired v) (hskip : A.skip → B.skip)
    (hbroken : A.broken → B.broken) {s s' : RuntimeEffectsState} (h : Step A s s') :
    Step B s s' := by
  cases h with
  | quiet => exact .quiet _ _ _ _ _
  | store idle broken => exact .store idle fun hne => hbroken (broken hne)
  | inert inert durability room => exact .inert inert durability room
  | transition found cause built room => exact .transition found cause built room
  | accept acceptable allowed builtReport builtStatus room room' =>
      exact .accept acceptable (hreport _ _ allowed) builtReport builtStatus room room'
  | torn broken acceptable builtReport room =>
      exact .torn (hbroken broken) acceptable builtReport room
  | terminal report found ended => exact .terminal report found ended
  | issued stage number nonzero last session valid desired free space fresh built builtAttempt
      broken room room' =>
      exact .issued stage number nonzero last session valid (hdesired _ desired) free space fresh
        built builtAttempt (fun hs => hbroken (broken hs)) room room'
  | skipped skip nonzero last => exact .skipped (hskip skip) nonzero last
  | unrecorded broken nonzero last => exact .unrecorded (hbroken broken) nonzero last
  | retried stage found pending early left builtAttempt broken room =>
      exact .retried stage found pending early left builtAttempt (fun hs => hbroken (broken hs))
        room
  | commit found key revised newer built room => exact .commit found key revised newer built room
  | observe valid newer built room => exact .observe valid newer built room
  | prune found ended => exact .prune found ended
  | register new built taken attached => exact .register new built taken attached

theorem Step.of_clean {A : Allow} {s s' : RuntimeEffectsState} (h : Step A.clean s s') :
    Step A s s' := by
  refine h.mono ?_ ?_ False.elim False.elim
  · exact fun _ _ h => h
  · exact fun _ h => h

/-- Steps of an uninterrupted run are steps of the run. -/
theorem Moves.of_clean {A : Allow} {s s' : RuntimeEffectsState} (h : Moves A.clean s s') :
    Moves A s s' := by
  induction h with
  | refl => exact .refl
  | tail _ hstep ih => exact ih.tail hstep.of_clean

/-! ## What a step does to the commands -/

/-- Before the adapter is called, only the store, the calls and the channel have changed. -/
theorem attempted_eq (stage : Stage) (state : CommandState) (now : UInt64) (payload : Value)
    (s : RuntimeEffectsState) : ∃ store calls feedback,
      attempted stage state now payload s =
        { s with store := store, calls := calls, feedback := feedback } := by
  cases stage <;> exact ⟨_, _, _, rfl⟩

/-- What a step can do to the entry `state` under `id` without removing it. -/
structure Evolves (A : Allow) (s : RuntimeEffectsState) (id : UInt64)
    (state state' : CommandState) : Prop where
  command : state'.command = state.command
  status : state'.status = state.status ∨
    (state.status = .pending ∧ state'.status ≠ .pending) ∨
    (state.status = .indeterminate ∧ active state'.status = false) ∨
    ∃ report, Acceptable s report state ∧ A.report s report ∧ state'.status = report.status
  retryIndex : state.retryIndex ≤ state'.retryIndex
  terminalReport : state.terminalReport ≠ none → state'.terminalReport ≠ none

theorem Evolves.refl {A : Allow} {s : RuntimeEffectsState} {id : UInt64}
    {state : CommandState} : Evolves A s id state state :=
  ⟨rfl, .inl rfl, le_rfl, fun h => h⟩

/-- What a step does to the entry under `id`. -/
inductive Entry (A : Allow) (s s' : RuntimeEffectsState) (id : UInt64) : Prop where
  | absent (before : s.commands.find? id = none) (after : s'.commands.find? id = none)
  | kept {state state' : CommandState} (before : s.commands.find? id = some state)
      (after : s'.commands.find? id = some state') (evolves : Evolves A s id state state')
  | pruned {state : CommandState} (before : s.commands.find? id = some state)
      (ended : active state.status = false) (after : s'.commands.find? id = none)
  | issued {command : EffectCommand} {adapter : Adapter} {capabilities : AdapterCapabilities}
      (number : id = s.nextCommand) (before : s.commands.find? id = none)
      (after : s'.commands.find? id = some (newCommand command adapter capabilities))
      (commandId : command.commandId = id) (session : command.sessionId = s.session)
      (valid : validateEffectCommand command = .ok ()) (next : id < s'.nextCommand)

/-- Steps that leave the commands alone. -/
theorem Entry.of_eq {A : Allow} {s s' : RuntimeEffectsState} (h : s'.commands = s.commands)
    (id : UInt64) : Entry A s s' id := by
  cases hid : s.commands.find? id with
  | none => exact .absent hid (h ▸ hid)
  | some state => exact .kept hid (h ▸ hid) .refl

/-- Steps that rewrite one entry. -/
theorem Entry.of_insert {A : Allow} {s s' : RuntimeEffectsState} {key : UInt64}
    {state : CommandState} (state' : CommandState)
    (h : s'.commands = s.commands.insert key state')
    (found : s.commands.find? key = some state) (evolves : Evolves A s key state state')
    (id : UInt64) : Entry A s s' id := by
  by_cases hk : id = key
  · subst hk
    exact .kept found (by rw [h, OrdMap.find?_insert_self]) evolves
  · have hsame : s'.commands.find? id = s.commands.find? id := by
      rw [h, OrdMap.find?_insert_ne _ hk]
    cases hid : s.commands.find? id with
    | none => exact .absent hid (hsame.trans hid)
    | some state => exact .kept hid (hsame.trans hid) .refl

theorem insert_modify {K V : Type} [LinearOrder K] (m : OrdMap K V) (k : K) (v : V)
    (f : V → V) : (m.insert k v).modify k f = m.insert k (f v) := by
  refine OrdMap.ext_find? fun j => ?_
  rw [OrdMap.find?_modify, OrdMap.find?_insert_self, OrdMap.find?_insert, OrdMap.find?_insert]
  split <;> rfl

theorem modify_of_find? {K V : Type} [LinearOrder K] {m : OrdMap K V} {k : K} {v : V}
    (h : m.find? k = some v) (f : V → V) : m.modify k f = m.insert k (f v) := by
  unfold OrdMap.modify
  rw [h]

theorem acceptedState_commands {s : RuntimeEffectsState} {report : EffectReport}
    {state : CommandState} (h : s.commands.find? report.commandId = some state) (p q : Value) :
    (acceptedState report state p q s).commands = s.commands.insert report.commandId
      { state with
        status := if state.status = .superseded then state.status else report.status
        terminalReport := some report } := by
  unfold acceptedState
  split
  · next hs =>
      simp only [withAccepted, withTerminalReport, recorded]
      rw [modify_of_find? h]
  · next hs =>
      simp only [withAccepted, withTerminalReport, recorded, withStatus]
      rw [insert_modify]

theorem Step.entry {A : Allow} {s s' : RuntimeEffectsState} (h : Step A s s') (id : UInt64) :
    Entry A s s' id := by
  cases h with
  | quiet =>
      refine .of_eq ?_ id
      rfl
  | store =>
      refine .of_eq ?_ id
      rfl
  | inert =>
      refine .of_eq ?_ id
      rfl
  | @transition key state status reason payload found cause built =>
      refine .of_insert { state with status } ?_ found ⟨rfl, ?_, le_rfl, fun h => h⟩ id
      · rfl
      · cases cause with
        | pending hp hne => exact .inr (.inl ⟨hp, hne⟩)
        | reconciled hi _ hend => exact .inr (.inr (.inl ⟨hi, hend⟩))
  | accept acceptable allowed builtReport builtStatus =>
      refine .of_insert _ (acceptedState_commands acceptable.found _ _) acceptable.found
        ⟨rfl, ?_, le_rfl, fun _ => Option.some_ne_none _⟩ id
      dsimp only
      split
      · exact .inl rfl
      · exact .inr (.inr (.inr ⟨_, acceptable, allowed, rfl⟩))
  | torn =>
      refine .of_eq ?_ id
      rfl
  | @terminal key state report found ended =>
      exact .of_insert { state with terminalReport := some report } (modify_of_find? found _) found
        ⟨rfl, .inl rfl, le_rfl, fun _ => Option.some_ne_none _⟩ id
  | @issued command adapter capabilities _ attemptPayload stage number nonzero last session valid
      desired free space fresh =>
      obtain ⟨store, calls, feedback, he⟩ := attempted_eq stage
        (newCommand command adapter capabilities) command.issuedAtMs attemptPayload
        (withCommand (newCommand command adapter capabilities)
          { recorded .commandIssued _ s with nextCommand := s.nextCommand + 1 })
      rw [he]
      by_cases hk : id = command.commandId
      · subst hk
        refine .issued number fresh (OrdMap.find?_insert_self _ _ _) rfl session valid ?_
        show command.commandId < s.nextCommand + 1
        rw [number]
        unfold maxU64 at last
        grind
      · have hsame : (s.commands.insert command.commandId
            (newCommand command adapter capabilities)).find? id = s.commands.find? id :=
          OrdMap.find?_insert_ne _ hk _
        cases hid : s.commands.find? id with
        | none => exact .absent hid (hsame.trans hid)
        | some state => exact .kept hid (hsame.trans hid) .refl
  | skipped =>
      refine .of_eq ?_ id
      rfl
  | unrecorded =>
      refine .of_eq ?_ id
      rfl
  | @retried key state now attemptPayload stage found pending =>
      obtain ⟨store, calls, feedback, he⟩ := attempted_eq stage
        { state with retryIndex := state.retryIndex + 1 } now attemptPayload (withRetry key state s)
      rw [he]
      refine .of_insert { state with retryIndex := state.retryIndex + 1 } ?_ found
        ⟨rfl, .inl rfl, Nat.le_succ _, fun h => h⟩ id
      rfl
  | commit =>
      refine .of_eq ?_ id
      rfl
  | observe =>
      refine .of_eq ?_ id
      rfl
  | @prune key state found ended =>
      have hcmd : (pruneOne key s).commands = s.commands.erase key := by
        rw [pruneOne_eq found ended]
      by_cases hk : id = key
      · subst hk
        exact .pruned found ended (by rw [hcmd, OrdMap.find?_erase, if_pos rfl])
      · have hsame : (pruneOne key s).commands.find? id = s.commands.find? id := by
          rw [hcmd, OrdMap.find?_erase, if_neg hk]
        cases hid : s.commands.find? id with
        | none => exact .absent hid (hsame.trans hid)
        | some state => exact .kept hid (hsame.trans hid) .refl
  | @register adapter route capabilities _ commands _ new built taken attached =>
      have hat := attached id
      cases hid : s.commands.find? id with
      | none => exact .absent hid (by rw [hid] at hat; exact hat)
      | some state =>
          rw [hid] at hat
          refine .kept hid hat ⟨?_, ?_, ?_, ?_⟩
          · unfold registeredCommand; split <;> rfl
          · unfold registeredCommand
            split
            · dsimp only
              split
              · next hmem =>
                  -- only pending commands are listed
                  obtain ⟨listed, hst, _, hpending⟩ := of_mem_unsafeRetries hmem
                  rw [hid] at hst
                  cases hst
                  exact .inr (.inl ⟨hpending, by decide⟩)
              · exact .inl rfl
            · exact .inl rfl
          · unfold registeredCommand; split <;> exact le_rfl
          · unfold registeredCommand; split <;> exact fun h => h

/-! ## Well-formed states -/

/-- What the maps always agree on. -/
structure WF (s : RuntimeEffectsState) : Prop where
  named : s.session ≠ 0
  commandId : ∀ {id state}, s.commands.find? id = some state → state.command.commandId = id
  session : ∀ {id state}, s.commands.find? id = some state → state.command.sessionId = s.session
  valid : ∀ {id state}, s.commands.find? id = some state →
    validateEffectCommand state.command = .ok ()
  issued : ∀ {id state}, s.commands.find? id = some state → id < s.nextCommand
  latest : ∀ {key id}, s.latestByTarget.find? key = some id →
    ∃ state, s.commands.find? id = some state ∧ state.key = key

theorem WF.commandId_ne_zero {s : RuntimeEffectsState} (wf : WF s) {id : UInt64}
    {state : CommandState} (h : s.commands.find? id = some state) : id ≠ 0 :=
  wf.commandId h ▸ LiquidLayer.commandId_ne_zero (wf.valid h)

/-- What a step does to a target's entry in `latestByTarget`. -/
inductive LatestEntry (s s' : RuntimeEffectsState) (key : TargetKey) : Prop where
  | same (same : s'.latestByTarget.find? key = s.latestByTarget.find? key)
      (kept : ∀ id, s.latestByTarget.find? key = some id → s'.commands.find? id ≠ none)
  | pruned {id : UInt64} (before : s.latestByTarget.find? key = some id)
      (after : s'.latestByTarget.find? key = none) (gone : s'.commands.find? id = none)
  | issued {command : EffectCommand} {adapter : Adapter} {capabilities : AdapterCapabilities}
      (of : command.effect.key = key) (commandId : command.commandId = s.nextCommand)
      (after : s'.latestByTarget.find? key = some command.commandId)
      (found : s'.commands.find? command.commandId =
        some (newCommand command adapter capabilities))
      (free : ∀ id, s.latestByTarget.find? key = some id →
        ∃ state, s.commands.find? id = some state ∧ active state.status = false)

/-- A step that prunes nothing and leaves the map alone. -/
theorem LatestEntry.of_keep {s s' : RuntimeEffectsState} (wf : WF s)
    (h : s'.latestByTarget = s.latestByTarget)
    (keep : ∀ id, s'.commands.find? id = none → s.commands.find? id = none) (key : TargetKey) :
    LatestEntry s s' key := by
  refine .same (by rw [h]) fun id hid hnone => ?_
  obtain ⟨state, hst, _⟩ := wf.latest hid
  rw [keep id hnone] at hst
  cases hst

theorem Step.latest {A : Allow} {s s' : RuntimeEffectsState} (wf : WF s) (h : Step A s s')
    (key : TargetKey) : LatestEntry s s' key := by
  -- an entry that a step without pruning loses was not there
  have keep : s'.latestByTarget = s.latestByTarget →
      (∀ id, s'.commands.find? id = none → s.commands.find? id = none) →
      LatestEntry s s' key := fun hl hk => .of_keep wf hl hk key
  have hins : ∀ {k : UInt64} {v : CommandState} (id : UInt64),
      (s.commands.insert k v).find? id = none → s.commands.find? id = none := by
    intro k v id hn
    rw [OrdMap.find?_insert] at hn
    split at hn
    · cases hn
    · exact hn
  cases h with
  | quiet => exact keep rfl fun _ h => h
  | store => exact keep rfl fun _ h => h
  | inert => exact keep rfl fun _ h => h
  | transition => exact keep rfl hins
  | @accept report state p q acceptable =>
      refine keep ?_ ?_
      · unfold acceptedState
        split <;> rfl
      · rw [acceptedState_commands acceptable.found]
        exact hins
  | torn => exact keep rfl fun _ h => h
  | terminal report found =>
      refine keep rfl fun id hn => ?_
      simp only [withTerminalReport] at hn
      rw [modify_of_find? found] at hn
      exact hins id hn
  | @issued command adapter capabilities _ attemptPayload stage number nonzero last session valid
      desired free =>
      obtain ⟨store, calls, feedback, he⟩ := attempted_eq stage
        (newCommand command adapter capabilities) command.issuedAtMs attemptPayload
        (withCommand (newCommand command adapter capabilities)
          { recorded .commandIssued _ s with nextCommand := s.nextCommand + 1 })
      rw [he]
      by_cases hk : key = command.effect.key
      · subst hk
        exact .issued rfl number (OrdMap.find?_insert_self _ _ _) (OrdMap.find?_insert_self _ _ _)
          free
      · refine .same (OrdMap.find?_insert_ne _ hk _) fun id hid hn => ?_
        obtain ⟨state, hst, _⟩ := wf.latest hid
        rw [hins id hn] at hst
        cases hst
  | skipped => exact keep rfl fun _ h => h
  | unrecorded => exact keep rfl fun _ h => h
  | @retried id state now attemptPayload stage =>
      obtain ⟨store, calls, feedback, he⟩ := attempted_eq stage
        { state with retryIndex := state.retryIndex + 1 } now attemptPayload (withRetry id state s)
      rw [he] at keep ⊢
      exact keep rfl hins
  | commit => exact keep rfl fun _ h => h
  | observe => exact keep rfl fun _ h => h
  | @prune id state found ended =>
      have hcmd : (pruneOne id s).commands = s.commands.erase id := by
        rw [pruneOne_eq found ended]
      have hlat : (pruneOne id s).latestByTarget =
          if s.latestByTarget.find? state.key = some id then s.latestByTarget.erase state.key
          else s.latestByTarget := by
        rw [pruneOne_eq found ended]
      by_cases hkey : s.latestByTarget.find? key = some id
      · -- the pruned command is the target's latest
        obtain ⟨state', hst, hk⟩ := wf.latest hkey
        rw [found] at hst
        cases hst
        subst hk
        refine .pruned hkey ?_ ?_
        · rw [hlat, if_pos hkey, OrdMap.find?_erase, if_pos rfl]
        · rw [hcmd, OrdMap.find?_erase, if_pos rfl]
      · refine .same ?_ fun j hj hn => ?_
        · rw [hlat]
          split
          · next hl =>
              rw [OrdMap.find?_erase]
              split
              · next hk => exact absurd (hk ▸ hl) hkey
              · rfl
          · rfl
        · obtain ⟨state', hst, _⟩ := wf.latest hj
          rw [hcmd, OrdMap.find?_erase] at hn
          split at hn
          · next hji => exact hkey (hji ▸ hj)
          · rw [hn] at hst
            cases hst
  | register new built taken attached =>
      refine keep rfl fun id hn => ?_
      have hat := attached id
      simp only at hn
      rw [hat] at hn
      exact Option.map_eq_none_iff.mp hn

/-! ## Steps keep states well formed -/

theorem Step.session {A : Allow} {s s' : RuntimeEffectsState} (h : Step A s s') :
    s'.session = s.session := by
  cases h with
  | issued stage => cases stage <;> rfl
  | retried stage => cases stage <;> rfl
  | accept => unfold acceptedState; split <;> rfl
  | prune found ended => rw [pruneOne_eq found ended]
  | _ => rfl

theorem Step.nextCommand {A : Allow} {s s' : RuntimeEffectsState} (h : Step A s s') :
    s'.nextCommand = s.nextCommand ∨
      (s'.nextCommand = s.nextCommand + 1 ∧ s.nextCommand ≠ maxU64) := by
  cases h with
  | issued stage number nonzero last => cases stage <;> exact .inr ⟨rfl, last⟩
  | skipped skip nonzero last => exact .inr ⟨rfl, last⟩
  | unrecorded broken nonzero last => exact .inr ⟨rfl, last⟩
  | retried stage => cases stage <;> exact .inl rfl
  | accept => unfold acceptedState; split <;> exact .inl rfl
  | prune found ended => rw [pruneOne_eq found ended]; exact .inl rfl
  | _ => exact .inl rfl

theorem Step.lt_nextCommand {A : Allow} {s s' : RuntimeEffectsState} (h : Step A s s')
    {id : UInt64} (hid : id < s.nextCommand) : id < s'.nextCommand := by
  rcases h.nextCommand with hn | ⟨hn, hmax⟩
  · rwa [hn]
  · rw [hn]
    unfold maxU64 at hmax
    grind

theorem Step.wf {A : Allow} {s s' : RuntimeEffectsState} (wf : WF s) (h : Step A s s') :
    WF s' := by
  have key : ∀ {id state'}, s'.commands.find? id = some state' →
      (∃ state, s.commands.find? id = some state ∧ state'.command = state.command) ∨
      (id < s'.nextCommand ∧ state'.command.commandId = id ∧
        state'.command.sessionId = s.session ∧ validateEffectCommand state'.command = .ok ()) := by
    intro id state' hst
    cases h.entry id with
    | absent _ after => rw [after] at hst; cases hst
    | kept before after evolves =>
        rw [after] at hst
        cases hst
        exact .inl ⟨_, before, evolves.command⟩
    | pruned _ _ after => rw [after] at hst; cases hst
    | issued number _ after commandId session valid next =>
        rw [after] at hst
        cases hst
        exact .inr ⟨next, commandId, session, valid⟩
  refine ⟨by rw [h.session]; exact wf.named, fun hst => ?_, fun hst => ?_, fun hst => ?_,
    fun hst => ?_, fun {k id} hid => ?_⟩
  · rcases key hst with ⟨state, hs, hc⟩ | ⟨_, hc, _⟩
    · rw [hc]; exact wf.commandId hs
    · exact hc
  · rw [h.session]
    rcases key hst with ⟨state, hs, hc⟩ | ⟨_, _, hc, _⟩
    · rw [hc]; exact wf.session hs
    · exact hc
  · rcases key hst with ⟨state, hs, hc⟩ | ⟨_, _, _, hc⟩
    · rw [hc]; exact wf.valid hs
    · exact hc
  · rcases key hst with ⟨state, hs, hc⟩ | ⟨hlt, _⟩
    · exact h.lt_nextCommand (wf.issued hs)
    · exact hlt
  · cases h.latest wf k with
    | same same kept =>
        rw [same] at hid
        obtain ⟨state, hst, hk⟩ := wf.latest hid
        cases hst' : s'.commands.find? id with
        | none => exact absurd hst' (kept id hid)
        | some state' =>
            refine ⟨state', rfl, ?_⟩
            cases h.entry id with
            | absent before _ => rw [before] at hst; cases hst
            | pruned _ _ after => rw [after] at hst'; cases hst'
            | issued _ before => rw [before] at hst; cases hst
            | kept before after evolves =>
                rw [before] at hst
                rw [after] at hst'
                cases hst
                cases hst'
                rw [← hk, CommandState.key, evolves.command]
                rfl
    | pruned _ after _ => rw [after] at hid; cases hid
    | issued of _ after found _ =>
        rw [after] at hid
        cases hid
        exact ⟨_, found, of⟩

end Effects

end LiquidLayer
