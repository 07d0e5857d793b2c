/-
  How `ReplayProjector::project` goes on when a log grows.

  * `project_snoc`: the projection of a numbered log with one record more.
  * `restoreCheckpoint_payload`: a checkpoint of a projection is read back as that projection.
  * `mergedObject_eventObject`: what `merge_command` makes of two payloads.
-/
import LiquidLayer.Events.Replay

namespace LiquidLayer

/-! ## Numbered logs -/

/-- Records of version 1 with the sequence numbers `n`, `n + 1`, ... -/
def NumberedFrom (n : Nat) : List EventRecord → Prop
  | [] => True
  | record :: rest => record.sequence.toNat = n ∧ record.version = 1 ∧ NumberedFrom (n + 1) rest

theorem NumberedFrom.snoc {n : Nat} {log : List EventRecord} {record : EventRecord}
    (h : NumberedFrom n log) (hseq : record.sequence.toNat = n + log.length)
    (hver : record.version = 1) : NumberedFrom n (log ++ [record]) := by
  induction log generalizing n with
  | nil => exact ⟨by simpa using hseq, hver, trivial⟩
  | cons first log ih =>
      obtain ⟨h1, h2, h3⟩ := h
      refine ⟨h1, h2, ih h3 ?_⟩
      rw [hseq, List.length_cons]
      omega

/-- A turn of the loop on a record that carries the expected number. -/
theorem projectStep_eq {state : SerializedWorldState} {expected : RecordId} {first : Bool}
    {record : EventRecord} {n : Nat} (hn : 0 < n) (hseq : record.sequence.toNat = n)
    (hver : record.version = 1) (hexp : expected = 0 ∨ expected.toNat = n) :
    projectStep state expected first record = (do
      let state ← projectRecord state first record
      return ({ state with replayPosition := record.sequence },
        if record.sequence = maxU64 then 0 else record.sequence + 1)) := by
  have hzero : record.sequence ≠ 0 := by
    intro h0
    rw [h0] at hseq
    simp at hseq
    omega
  have hgap : ¬(expected ≠ 0 ∧ record.sequence ≠ expected) := by
    rintro ⟨h0, hne⟩
    rcases hexp with h | h
    · exact h0 h
    · exact hne (UInt64.toNat_inj.mp (hseq.trans h.symm))
  unfold projectStep
  simp only [hzero, if_false, hgap, hver, ne_eq, not_true_eq_false]

theorem projectLoop_snoc {log : List EventRecord} {record : EventRecord} {n : Nat}
    {state : SerializedWorldState} {expected : RecordId} {first : Bool}
    (h : NumberedFrom n log) (hn : 0 < n) (hseq : record.sequence.toNat = n + log.length)
    (hver : record.version = 1) (hexp : expected = 0 ∨ expected.toNat = n) :
    projectLoop state expected first (log ++ [record]) = (do
      let state ← projectLoop state expected first log
      let state ← projectRecord state (first && log.isEmpty) record
      return { state with replayPosition := record.sequence }) := by
  induction log generalizing n state expected first with
  | nil =>
      rw [List.nil_append, projectLoop.eq_2, projectStep_eq hn (by simpa using hseq) hver hexp]
      simp only [projectLoop, ok_bind, List.isEmpty_nil, Bool.and_true]
      cases projectRecord state first record with
      | error e => rfl
      | ok s => simp [pure, Except.pure, ok_bind]
  | cons head log ih =>
      obtain ⟨h1, h2, h3⟩ := h
      rw [List.length_cons] at hseq
      -- a record follows, so the head's number is not the last one
      have hlast : head.sequence ≠ maxU64 := by
        intro hmax
        have hlt := record.sequence.toNat_lt
        rw [hmax] at h1
        have : maxU64.toNat = 2 ^ 64 - 1 := rfl
        omega
      have hnext : (head.sequence + 1).toNat = n + 1 := by
        have hlt := record.sequence.toNat_lt
        rw [UInt64.toNat_add, h1, UInt64.toNat_one]
        omega
      have hne : head.sequence + 1 ≠ 0 := by
        intro h0
        rw [h0] at hnext
        simp at hnext
      rw [List.cons_append, projectLoop, projectLoop, projectStep_eq hn h1 h2 hexp]
      cases projectRecord state first head with
      | error e => rfl
      | ok s =>
          simp only [ok_bind, pure, Except.pure, hlast, if_false, hne, false_and]
          rw [ih h3 (Nat.succ_pos n) (by omega) (.inr hnext)]
          simp only [Bool.false_and, List.isEmpty_cons, Bool.and_false]
          rfl

/-- The projection of a log with one record more. -/
theorem project_snoc (metadata : EventStoreMetadata) {log : List EventRecord}
    {record : EventRecord} (h : NumberedFrom 1 log)
    (hseq : record.sequence.toNat = log.length + 1) (hver : record.version = 1) :
    project metadata (log ++ [record]) = (do
      let state ← project metadata log
      let state ← projectRecord state log.isEmpty record
      return { state with replayPosition := record.sequence }) := by
  unfold project
  cases (Value.string metadata.engineVersion).validate with
  | error e => rfl
  | ok u =>
      have := @projectLoop_snoc log record 1 (initialProjection metadata) 0 true h Nat.one_pos
        (by omega) hver (.inl rfl)
      simpa only [Bool.true_and] using this

/-! ## Reading fields -/

section Fields

variable {object : Object} {name context : String}

theorem requireField_of {value : Value} (h : get? object name = some value) :
    requireField object name context = .ok value := by
  rw [requireField, h]

theorem requireUnsigned_of {n : UInt64} (h : get? object name = some (.unsignedInteger n)) :
    requireUnsigned object name context = .ok n := by
  rw [requireUnsigned, requireField_of h]
  rfl

theorem requireKey_of {key : Bytes} (h : get? object "key" = some (.string key)) :
    requireKey object context = .ok key := by
  rw [requireKey, requireField_of h]
  rfl

theorem checkpointUnsigned_of {n : UInt64} (h : get? object name = some (.unsignedInteger n)) :
    checkpointUnsigned object name = .ok n := by
  rw [checkpointUnsigned, checkpointField, h]
  rfl

theorem checkpointObject_of {fields : Object} (h : get? object name = some (.object fields)) :
    checkpointObject object name = .ok fields := by
  rw [checkpointObject, checkpointField, h]
  rfl

theorem checkpointArray_of {items : List Value} (h : get? object name = some (.array items)) :
    checkpointArray object name = .ok items := by
  rw [checkpointArray, checkpointField, h]
  rfl

theorem optionalObjectField_of {fields : Object} (h : get? object name = some (.object fields)) :
    optionalObjectField object name = .ok fields := by
  rw [optionalObjectField, h]

theorem objectFieldOrEmpty_of {fields : Object} (h : get? object name = some (.object fields)) :
    objectFieldOrEmpty object name = .ok fields := by
  rw [objectFieldOrEmpty, h]

end Fields

/-! ## Reading a checkpoint back -/

/-- Records a checkpoint can be read back from. -/
def Stored (records : List EventRecord) : Prop :=
  ∀ record ∈ records, record.version = 1 ∧ record.sequence ≠ 0

theorem Stored.snoc {records : List EventRecord} {record : EventRecord} (h : Stored records)
    (hver : record.version = 1) (hseq : record.sequence ≠ 0) : Stored (records ++ [record]) := by
  intro r hr
  rcases List.mem_append.mp hr with hr | hr
  · exact h r hr
  · rw [List.mem_singleton.mp hr]
    exact ⟨hver, hseq⟩

theorem decodeRecord_recordValue {record : EventRecord} (hver : record.version = 1)
    (hseq : record.sequence ≠ 0) : decodeRecord (recordValue record) = .ok record := by
  have hcode : (UInt64.ofNat record.type.code).toNat = record.type.code := by
    have := record.type.code_le
    rw [UInt64.toNat_ofNat']
    omega
  obtain ⟨sequence, type, version, payload⟩ := record
  simp only at hver hseq hcode
  subst hver
  have htype := get?_eventObject (recordFields ⟨sequence, type, 1, payload⟩) "type"
  have hversion := get?_eventObject (recordFields ⟨sequence, type, 1, payload⟩) "version"
  have hsequence := get?_eventObject (recordFields ⟨sequence, type, 1, payload⟩) "sequence"
  have hpayload := get?_eventObject (recordFields ⟨sequence, type, 1, payload⟩) "payload"
  unfold decodeRecord recordValue
  simp only [requireObject, ok_bind, requireUnsigned_of htype, requireUnsigned_of hversion,
    requireUnsigned_of hsequence, requireField_of hpayload, hcode, EventType.ofCode_code, hseq,
    if_false]
  rfl

theorem mapM_decodeRecord {records : List EventRecord} (h : Stored records) :
    (records.map recordValue).mapM decodeRecord = .ok records := by
  induction records with
  | nil => rfl
  | cons record records ih =>
      obtain ⟨hver, hseq⟩ := h record List.mem_cons_self
      have ih := ih fun r hr => h r (List.mem_cons_of_mem _ hr)
      simp [List.mapM_cons, decodeRecord_recordValue hver hseq, ih, bind, Except.bind, pure,
        Except.pure]

/-- The lists of a projection can be read back. -/
structure StoredLists (p : SerializedWorldState) : Prop where
  sessionEvents : Stored p.sessionEvents
  configurationEvents : Stored p.configurationEvents
  frameEvents : Stored p.frameEvents
  resolutions : Stored p.resolutions
  commandAttempts : Stored p.commandAttempts
  reports : Stored p.reports
  observations : Stored p.observations
  failures : Stored p.failures
  recoveries : Stored p.recoveries
  retentions : Stored p.retentions
  scripts : Stored p.scripts

theorem checkpointPayload_eq {p : SerializedWorldState} {payload : Value}
    (h : checkpointPayload p = .ok payload) :
    payload = .object (eventObject (checkpointFields p)) := by
  unfold checkpointPayload at h
  split at h
  · cases h
  · exact (eventPayload_eq_ok h).1

/-- A checkpoint of `p`, written next, is anchored. -/
theorem validateCheckpointAnchor_payload {p : SerializedWorldState} {sequence : RecordId}
    (hsession : validateCheckpointSession (.object (eventObject (checkpointFields p))) p.session =
      .ok ())
    (hseq : sequence ≠ 0) (hposition : p.replayPosition = sequence - 1) :
    validateCheckpointAnchor (.object (eventObject (checkpointFields p))) p.session sequence =
      .ok () := by
  have hfield : get? (eventObject (checkpointFields p)) "replay_position" =
      some (.unsignedInteger p.replayPosition) := get?_eventObject _ _
  unfold validateCheckpointAnchor
  simp only [hsession, hseq, if_false, ok_bind, projectionObject, checkpointUnsigned_of hfield,
    hposition, ne_eq, not_true_eq_false]
  rfl

/-- It is read back as `p`, whatever state of the session it is restored into. -/
theorem restoreCheckpoint_payload {p q : SerializedWorldState} {payload : Value}
    {sequence : RecordId} (hq : q.session = p.session) (hstored : StoredLists p)
    (hpayload : checkpointPayload p = .ok payload)
    (hsession : validateCheckpointSession payload p.session = .ok ()) (hseq : sequence ≠ 0)
    (hposition : p.replayPosition = sequence - 1) :
    restoreCheckpoint q ⟨sequence, .checkpoint, 1, payload⟩ = .ok p := by
  obtain rfl := checkpointPayload_eq hpayload
  have hanchor := validateCheckpointAnchor_payload hsession hseq hposition
  have object : ∀ {name : String} (fields : Object),
      (checkpointFields p).lookup name = some (.object fields) →
      get? (eventObject (checkpointFields p)) name = some (.object fields) := by
    intro name fields h
    rw [get?_eventObject, h]
  have records : ∀ {name : String} {records : List EventRecord},
      (checkpointFields p).lookup name = some (recordsValue records) → Stored records →
      recordsFieldOrEmpty (eventObject (checkpointFields p)) name = .ok records := by
    intro name records h hs
    unfold recordsFieldOrEmpty
    rw [get?_eventObject, h]
    exact mapM_decodeRecord hs
  have hsession' : checkpointSessionMatches (eventObject (checkpointFields p)) p.session =
      .ok () := by
    unfold checkpointSessionMatches
    rw [get?_eventObject]
    exact if_pos rfl
  have hreplay : checkpointReplayPosition (eventObject (checkpointFields p)) q.replayPosition =
      .ok p.replayPosition := by
    unfold checkpointReplayPosition
    rw [get?_eventObject]
    rfl
  unfold restoreCheckpoint
  rw [hq, hanchor, ok_bind, requireObject, ok_bind, hsession', ok_bind, hreplay, ok_bind,
    optionalObjectField_of (object p.topology rfl), ok_bind,
    optionalObjectField_of (object p.components rfl), ok_bind,
    optionalObjectField_of (object p.intents rfl), ok_bind,
    optionalObjectField_of (object p.commands rfl), ok_bind,
    optionalObjectField_of (object p.observedState rfl), ok_bind,
    objectFieldOrEmpty_of (object p.observedAuthority rfl), ok_bind,
    objectFieldOrEmpty_of (object p.configuration rfl), ok_bind,
    objectFieldOrEmpty_of (object p.handleGenerations rfl), ok_bind,
    records rfl hstored.sessionEvents, ok_bind, records rfl hstored.configurationEvents, ok_bind,
    records rfl hstored.frameEvents, ok_bind, records rfl hstored.resolutions, ok_bind,
    records rfl hstored.commandAttempts, ok_bind, records rfl hstored.reports, ok_bind,
    records rfl hstored.observations, ok_bind, records rfl hstored.failures, ok_bind,
    records rfl hstored.recoveries, ok_bind, records rfl hstored.retentions, ok_bind,
    records rfl hstored.scripts, ok_bind]
  rfl

/-! ## Records that touch neither commands nor observed state -/

/-- The types of records that say nothing about commands or observed state. -/
def plainType (type : EventType) : Bool :=
  type != .commandIssued && type != .commandAttempted && type != .commandStatusChanged &&
    type != .observedStateChanged && type != .checkpoint

section Beside

variable {p : SerializedWorldState} {record : EventRecord}

/-- What a plain record leaves alone. -/
structure Beside (p p' : SerializedWorldState) : Prop where
  session : p'.session = p.session
  stored : StoredLists p'
  commands : p'.commands = p.commands
  commandAttempts : p'.commandAttempts = p.commandAttempts
  observedState : p'.observedState = p.observedState
  observedAuthority : p'.observedAuthority = p.observedAuthority

theorem projectConfiguration_beside {p' : SerializedWorldState} (hver : record.version = 1)
    (hseq : record.sequence ≠ 0) (stored : StoredLists p)
    (h : projectConfiguration p record = .ok p') : Beside p p' := by
  have stored' : ∀ configuration handleGenerations,
      StoredLists { p with
        configurationEvents := p.configurationEvents ++ [record], configuration,
        handleGenerations } := fun _ _ =>
    { stored with configurationEvents := stored.configurationEvents.snoc hver hseq }
  unfold projectConfiguration at h
  obtain ⟨entry, _, h⟩ := bind_eq_ok h
  cases entry with
  | none =>
      cases h
      exact ⟨rfl, stored' _ _, rfl, rfl, rfl, rfl⟩
  | some configuration =>
      obtain ⟨payload, _, h⟩ := bind_eq_ok h
      obtain ⟨key, _, h⟩ := bind_eq_ok h
      split at h
      · obtain ⟨value, _, h⟩ := bind_eq_ok h
        split at h
        · cases h
          exact ⟨rfl, stored' _ _, rfl, rfl, rfl, rfl⟩
        · cases h
      · cases h
        exact ⟨rfl, stored' _ _, rfl, rfl, rfl, rfl⟩

theorem projectRecord_beside {p' : SerializedWorldState} {first : Bool}
    (hplain : plainType record.type = true) (hver : record.version = 1)
    (hseq : record.sequence ≠ 0) (stored : StoredLists p)
    (h : projectRecord p first record = .ok p') : Beside p p' := by
  unfold projectRecord at h
  -- an entry of one of the objects: the lists stay as they are
  have entry : ∀ {target : Except Failure Object} {f : Object → SerializedWorldState},
      (target >>= fun o => (.ok (f o) : Except Failure _)) = .ok p' →
      (∀ o, Beside p (f o)) → Beside p p' := by
    intro target f ht hf
    obtain ⟨o, _, ho⟩ := bind_eq_ok ht
    cases ho
    exact hf o
  cases ht : record.type with
  | commandIssued => rw [ht] at hplain; cases hplain
  | commandAttempted => rw [ht] at hplain; cases hplain
  | commandStatusChanged => rw [ht] at hplain; cases hplain
  | observedStateChanged => rw [ht] at hplain; cases hplain
  | checkpoint => rw [ht] at hplain; cases hplain
  | configurationChanged =>
      rw [ht] at h
      exact projectConfiguration_beside hver hseq stored h
  | topologyChanged =>
      rw [ht] at h
      simp only at h
      split at h <;>
        exact entry h fun o => ⟨rfl, { stored with }, rfl, rfl, rfl, rfl⟩
  | componentMutated =>
      rw [ht] at h
      exact entry h fun o => ⟨rfl, { stored with }, rfl, rfl, rfl, rfl⟩
  | componentRemoved =>
      rw [ht] at h
      exact entry h fun o => ⟨rfl, { stored with }, rfl, rfl, rfl, rfl⟩
  | intentCreated =>
      rw [ht] at h
      exact entry h fun o => ⟨rfl, { stored with }, rfl, rfl, rfl, rfl⟩
  | intentDestroyed =>
      rw [ht] at h
      exact entry h fun o => ⟨rfl, { stored with }, rfl, rfl, rfl, rfl⟩
  | frameFailed =>
      rw [ht] at h
      cases h
      exact ⟨rfl, { stored with
        frameEvents := stored.frameEvents.snoc hver hseq
        failures := stored.failures.snoc hver hseq }, rfl, rfl, rfl, rfl⟩
  | sessionStarted =>
      rw [ht] at h
      cases h
      exact ⟨rfl, { stored with sessionEvents := stored.sessionEvents.snoc hver hseq },
        rfl, rfl, rfl, rfl⟩
  | frameStarted =>
      rw [ht] at h
      cases h
      exact ⟨rfl, { stored with frameEvents := stored.frameEvents.snoc hver hseq },
        rfl, rfl, rfl, rfl⟩
  | frameCompleted =>
      rw [ht] at h
      cases h
      exact ⟨rfl, { stored with frameEvents := stored.frameEvents.snoc hver hseq },
        rfl, rfl, rfl, rfl⟩
  | resolutionSelected =>
      rw [ht] at h
      cases h
      exact ⟨rfl, { stored with resolutions := stored.resolutions.snoc hver hseq },
        rfl, rfl, rfl, rfl⟩
  | reportReceived =>
      rw [ht] at h
      cases h
      exact ⟨rfl, { stored with reports := stored.reports.snoc hver hseq }, rfl, rfl, rfl, rfl⟩
  | externalObservationReceived =>
      rw [ht] at h
      cases h
      exact ⟨rfl, { stored with observations := stored.observations.snoc hver hseq },
        rfl, rfl, rfl, rfl⟩
  | recovery =>
      rw [ht] at h
      cases h
      exact ⟨rfl, { stored with recoveries := stored.recoveries.snoc hver hseq },
        rfl, rfl, rfl, rfl⟩
  | retention =>
      rw [ht] at h
      cases h
      exact ⟨rfl, { stored with retentions := stored.retentions.snoc hver hseq },
        rfl, rfl, rfl, rfl⟩
  | scriptExecuted =>
      rw [ht] at h
      cases h
      exact ⟨rfl, { stored with scripts := stored.scripts.snoc hver hseq }, rfl, rfl, rfl, rfl⟩

end Beside

/-! ## Merged payloads -/

theorem find?_eventObject_of_ne {fields : List (String × Value)} {key : Bytes}
    (h : ∀ name, utf8 name ≠ key) : Assoc.find? key (eventObject fields) = none := by
  have gen : ∀ (fields : List (String × Value)) (object : Object),
      Assoc.find? key object = none →
      Assoc.find? key
        (fields.foldl (fun o f => Assoc.emplace (utf8 f.1) f.2 o) object) = none := by
    intro fields
    induction fields with
    | nil => exact fun _ ho => ho
    | cons f fields ih =>
        intro object ho
        refine ih _ ?_
        rw [Assoc.find?_emplace, ho, if_neg (h f.1).symm]
        rfl
  exact gen fields [] rfl

/-- Fields that read alike make the same object. -/
theorem eventObject_congr {fields fields' : List (String × Value)}
    (h : ∀ name, fields.lookup name = fields'.lookup name) :
    eventObject fields = eventObject fields' := by
  refine Assoc.ext_of_sorted (sorted_eventObject _) (sorted_eventObject _) fun key => ?_
  by_cases hk : ∃ name, utf8 name = key
  · obtain ⟨name, rfl⟩ := hk
    have := get?_eventObject fields name
    rw [h, ← get?_eventObject] at this
    exact this
  · have hne : ∀ name, utf8 name ≠ key := fun name hn => hk ⟨name, hn⟩
    rw [find?_eventObject_of_ne hne, find?_eventObject_of_ne hne]

theorem sorted_mergedObject {existing payload : Object} (h : Assoc.Sorted existing) :
    Assoc.Sorted (mergedObject existing payload) := by
  unfold mergedObject
  induction payload generalizing existing with
  | nil => exact h
  | cons f payload ih => exact ih (Assoc.sorted_insert h _ _)

theorem find?_mergedObject {existing payload : Object} (h : Assoc.Sorted payload)
    (key : Bytes) : Assoc.find? key (mergedObject existing payload) =
      (Assoc.find? key payload).or (Assoc.find? key existing) := by
  unfold mergedObject
  induction payload generalizing existing with
  | nil => simp
  | cons f payload ih =>
      obtain ⟨k, v⟩ := f
      obtain ⟨hlt, hs⟩ := List.pairwise_cons.mp h
      rw [List.foldl_cons, ih hs, Assoc.find?_insert, Assoc.find?_cons]
      by_cases hk : key = k
      · subst hk
        have hnone : Assoc.find? key payload = none := Assoc.find?_eq_none_of_lt hlt
        simp [hnone]
      · simp [hk]

/-- The later payload's fields go first. -/
theorem mergedObject_eventObject (fields fields' : List (String × Value)) :
    mergedObject (eventObject fields) (eventObject fields') = eventObject (fields' ++ fields) := by
  refine Assoc.ext_of_sorted (sorted_mergedObject (sorted_eventObject _))
    (sorted_eventObject _) fun key => ?_
  rw [find?_mergedObject (sorted_eventObject _)]
  by_cases hk : ∃ name, utf8 name = key
  · obtain ⟨name, rfl⟩ := hk
    have hget := get?_eventObject
    unfold get? at hget
    rw [hget, hget, hget, List.lookup_append]
  · have hne : ∀ name, utf8 name ≠ key := fun name hn => hk ⟨name, hn⟩
    simp only [find?_eventObject_of_ne hne, Option.or_none]

end LiquidLayer
