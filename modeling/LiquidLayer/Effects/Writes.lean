/-
  What a step writes into the log.

  `Wrote A s record`: a record that a step from `s` may append, with the reason for it.
  `Step.writes`: the log grows by such records only, by one accepted report at most.
-/
import LiquidLayer.Effects.Moves

namespace LiquidLayer

namespace Effects

/-! ## Records -/

/-- Field by field: the record is a `ReportReceived` with the disposition `accepted`, for the
    command `id`. -/
def acceptedFor (id : UInt64) (record : EventRecord) : Bool :=
  match record.type, record.payload with
  | .reportReceived, .object fields =>
      get? fields "command_id" == some (.unsignedInteger id) &&
        get? fields "disposition" == some (.string (utf8 "accepted"))
  | _, _ => false

inductive Wrote (A : Allow) (s : RuntimeEffectsState) (record : EventRecord) : Prop where
  | inert (inert : Inert s record.type record.payload)
  | status {id : UInt64} {state : CommandState} {status : CommandStatus} {reason : Bytes}
      (type : record.type = .commandStatusChanged) (found : s.commands.find? id = some state)
      (built : eventPayload (statusFields id status reason) = .ok record.payload)
  | accepted {report : EffectReport} {state : CommandState} (type : record.type = .reportReceived)
      (acceptable : Acceptable s report state) (allowed : A.report s report ∨ A.broken)
      (built : eventPayload (reportFields report "accepted") = .ok record.payload)
  | issued {command : EffectCommand} (type : record.type = .commandIssued)
      (number : command.commandId = s.nextCommand)
      (desired : A.desired command.effect.desiredValue)
      (built : eventPayload (issuedFields command) = .ok record.payload)
  | attempted {id : UInt64} {n : Nat} {now : UInt64} (type : record.type = .commandAttempted)
      (built : eventPayload (attemptFields id n now) = .ok record.payload)
  | observed (type : record.type = .observedStateChanged)

theorem acceptedFor_of_type {id : UInt64} {record : EventRecord}
    (h : record.type ≠ .reportReceived) : acceptedFor id record = false := by
  unfold acceptedFor
  split
  · next ht _ => exact absurd ht h
  · rfl

/-! ## Steps -/

/-- The log grows by these records. -/
structure Grows (A : Allow) (s s' : RuntimeEffectsState) (records : List EventRecord) : Prop where
  log : s'.store.records = s.store.records ++ records
  wrote : ∀ record ∈ records, Wrote A s record
  once : ∀ id, records.countP (acceptedFor id) ≤ 1

section Steps

variable {A : Allow} {s s' : RuntimeEffectsState}

theorem Grows.none (h : s'.store.records = s.store.records) : Grows A s s' [] :=
  ⟨by rw [h, List.append_nil], fun _ h => (nomatch h), fun _ => Nat.zero_le _⟩

theorem Grows.one {record : EventRecord} (h : s'.store.records = s.store.records ++ [record])
    (wrote : Wrote A s record) : Grows A s s' [record] := by
  refine ⟨h, fun r hr => List.mem_singleton.mp hr ▸ wrote, fun id => ?_⟩
  exact (List.countP_le_length).trans (by simp)

theorem Grows.two {record record' : EventRecord}
    (h : s'.store.records = s.store.records ++ [record, record']) (wrote : Wrote A s record)
    (wrote' : Wrote A s record') (hne : record'.type ≠ .reportReceived) :
    Grows A s s' [record, record'] := by
  refine ⟨h, fun r hr => ?_, fun id => ?_⟩
  · rcases List.mem_pair.mp hr with rfl | rfl
    · exact wrote
    · exact wrote'
  · rw [List.countP_cons, List.countP_singleton, acceptedFor_of_type hne]
    simp only [Bool.false_eq_true, if_false, Nat.zero_add]
    split <;> simp

/-- The batch of a registration. -/
theorem wrote_numbered {ids : List UInt64} {events : List EventData} {reason : Bytes}
    (built : List.Forall₂ (fun id event => event.type = .commandStatusChanged ∧
      event.version = 1 ∧ eventPayload (statusFields id .indeterminate reason) =
        .ok event.payload) ids events)
    (found : ∀ id ∈ ids, ∃ state, s.commands.find? id = some state) (first : RecordId) :
    ∀ record ∈ EventStore.numbered first events,
      record.type = .commandStatusChanged ∧ Wrote A s record := by
  induction built generalizing first with
  | nil => exact fun _ h => (nomatch h)
  | @cons id event ids events hevent _ ih =>
      intro record hr
      rcases List.mem_cons.mp hr with rfl | hr
      · obtain ⟨state, hst⟩ := found id List.mem_cons_self
        exact ⟨hevent.1, .status hevent.1 hst hevent.2.2⟩
      · exact ih (fun id hid => found id (List.mem_cons_of_mem _ hid)) _ record hr

theorem attempted_not_report : EventType.commandAttempted ≠ .reportReceived := by decide

theorem status_not_report : EventType.commandStatusChanged ≠ .reportReceived := by decide

theorem Step.writes (h : Step A s s') : ∃ records, Grows A s s' records := by
  cases h with
  | quiet => exact ⟨[], .none rfl⟩
  | store idle => exact ⟨[], .none idle.records⟩
  | inert inert => exact ⟨_, .one rfl (.inert inert)⟩
  | transition found cause built => exact ⟨_, .one rfl (.status rfl found built)⟩
  | @accept report state p q acceptable allowed builtReport builtStatus =>
      by_cases hsup : state.status = .superseded
      · refine ⟨[⟨s.store.nextSequence, .reportReceived, 1, p⟩], .one ?_
          (.accepted rfl acceptable (.inl allowed) builtReport)⟩
        simp only [acceptedState, hsup, if_true]
        rfl
      · refine ⟨[⟨s.store.nextSequence, .reportReceived, 1, p⟩,
          ⟨s.store.nextSequence + 1, .commandStatusChanged, 1, q⟩], .two ?_
          (.accepted rfl acceptable (.inl allowed) builtReport)
          (.status rfl acceptable.found builtStatus) status_not_report⟩
        simp only [acceptedState, hsup, if_false]
        exact List.append_assoc _ _ _
  | torn broken acceptable built =>
      exact ⟨_, .one rfl (.accepted rfl acceptable (.inr broken) built)⟩
  | terminal => exact ⟨[], .none rfl⟩
  | issued stage number nonzero last session valid desired free space fresh built builtAttempt =>
      cases stage with
      | refusedAttempt => exact ⟨_, .one rfl (.issued rfl number desired built)⟩
      | unflushed =>
          exact ⟨_, .two (List.append_assoc _ _ _) (.issued rfl number desired built)
            (.attempted rfl builtAttempt) attempted_not_report⟩
      | called sends =>
          exact ⟨_, .two (List.append_assoc _ _ _) (.issued rfl number desired built)
            (.attempted rfl builtAttempt) attempted_not_report⟩
  | skipped => exact ⟨[], .none rfl⟩
  | unrecorded => exact ⟨[], .none rfl⟩
  | retried stage found pending early left builtAttempt =>
      cases stage with
      | refusedAttempt => exact ⟨[], .none rfl⟩
      | unflushed => exact ⟨_, .one rfl (.attempted rfl builtAttempt)⟩
      | called sends => exact ⟨_, .one rfl (.attempted rfl builtAttempt)⟩
  | commit => exact ⟨_, .one rfl (.observed rfl)⟩
  | observe => exact ⟨_, .one rfl (.observed rfl)⟩
  | prune found ended => exact ⟨[], .none (by rw [pruneOne_eq found ended])⟩
  | @register adapter route capabilities events commands store' new built taken attached =>
      have hwrote := @wrote_numbered A s _ _ _ built
        (fun id hid => (of_mem_unsafeRetries hid).imp fun _ h => h.1) s.store.nextSequence
      unfold EventStore.appendBatch at taken
      split at taken
      · obtain rfl : s.store = store' := congrArg Prod.snd taken
        exact ⟨[], .none rfl⟩
      · split at taken
        · obtain rfl : s.store.push events .durable = store' := congrArg Prod.snd taken
          refine ⟨_, rfl, fun record hr => (hwrote record hr).2, fun id => ?_⟩
          rw [List.countP_eq_zero.mpr]
          · exact Nat.zero_le _
          · intro record hr
            have htype : record.type ≠ .reportReceived := by
              rw [(hwrote record hr).1]
              exact status_not_report
            rw [acceptedFor_of_type htype]
            exact Bool.false_ne_true
        · cases taken

end Steps

end Effects

end LiquidLayer
