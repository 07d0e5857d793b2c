/-
  A checkpoint stands for the log before it.

  `Checkpointable` collects what the shape checks of EventInternals.hpp ask of a projection. It
  holds of every projection whose command events carry a `command_id` (`project_checkpointable`):
  one lemma for each kind of record, then an induction over the log.

  * `validateCheckpointSession_payload`: the checkpoint of such a projection passes the checks.
  * `project_checkpoint`: after a checkpoint the log before it makes no difference, and the
    checkpoint itself changes nothing but the replay position.
-/
import LiquidLayer.Events.Project

namespace LiquidLayer

/-- Every entry is an object. -/
def ObjectEntries (entries : Object) : Prop := ∀ e ∈ entries, ∃ fields, e.2 = .object fields

theorem ObjectEntries.insert {entries : Object} (h : ObjectEntries entries) (key : Bytes)
    (fields : Object) : ObjectEntries (Assoc.insert key (.object fields) entries) := by
  intro e he
  rcases Assoc.mem_insert he with rfl | he
  · exact ⟨fields, rfl⟩
  · exact h e he

/-- A projection that its own checkpoint can be made of and read back from. -/
structure Checkpointable (p : SerializedWorldState) : Prop where
  stored : StoredLists p
  commands : ObjectEntries p.commands
  authority : ObjectEntries p.observedAuthority

/-- The command events of the log carry a `command_id`. -/
def CommandsIdentified (log : List EventRecord) : Prop :=
  ∀ record ∈ log, record.type = .commandIssued ∨ record.type = .commandStatusChanged →
    ∃ payload, record.payload = .object payload ∧ (get? payload "command_id").isSome = true

/-! ## The checkpoint of a projection passes the checks -/

section Forms

variable {α : Type} {f : α → Except Failure Unit}

theorem forM_ok {l : List α} (h : ∀ a ∈ l, f a = .ok ()) : l.forM f = .ok () := by
  induction l with
  | nil => rfl
  | cons a l ih =>
      show (f a >>= fun _ => l.forM f) = .ok ()
      rw [h a List.mem_cons_self, ok_bind]
      exact ih fun b hb => h b (List.mem_cons_of_mem _ hb)

theorem of_forM_ok {l : List α} (h : l.forM f = .ok ()) : ∀ a ∈ l, f a = .ok () := by
  induction l with
  | nil => exact nofun
  | cons a l ih =>
      obtain ⟨u, ha, hl⟩ := bind_eq_ok (f := fun _ => l.forM f) h
      intro b hb
      rcases List.mem_cons.mp hb with rfl | hb
      · exact ha
      · exact ih hl b hb

end Forms

theorem validateObjectEntries_ok {what : String} {entries : Object} (h : ObjectEntries entries) :
    validateObjectEntries what entries = .ok () := by
  refine forM_ok fun e he => ?_
  obtain ⟨fields, hf⟩ := h e he
  rw [hf]

theorem objectEntries_of_validate {what : String} {entries : Object}
    (h : validateObjectEntries what entries = .ok ()) : ObjectEntries entries := by
  intro e he
  have hentry := of_forM_ok h e he
  split at hentry
  · next fields hf => exact ⟨fields, hf⟩
  · cases hentry

theorem validateCheckpointRecord_recordValue {record : EventRecord} (hver : record.version = 1)
    (hseq : record.sequence ≠ 0) : validateCheckpointRecord (recordValue record) = .ok () := by
  have hcode : (UInt64.ofNat record.type.code).toNat = record.type.code := by
    have := record.type.code_le
    rw [UInt64.toNat_ofNat']
    omega
  have hsequence : get? (eventObject (recordFields record)) "sequence" =
      some (.unsignedInteger record.sequence) := get?_eventObject _ _
  have htype : get? (eventObject (recordFields record)) "type" =
      some (.unsignedInteger (UInt64.ofNat record.type.code)) := get?_eventObject _ _
  have hversion : get? (eventObject (recordFields record)) "version" =
      some (.unsignedInteger record.version.toUInt64) := get?_eventObject _ _
  have hpayload : get? (eventObject (recordFields record)) "payload" = some record.payload :=
    get?_eventObject _ _
  unfold validateCheckpointRecord recordValue
  simp only [checkpointUnsigned_of hsequence, checkpointUnsigned_of htype,
    checkpointUnsigned_of hversion, checkpointField, hpayload, ok_bind, hseq, if_false, hcode,
    EventType.ofCode_code, Option.isNone_some, Bool.false_eq_true, hver]
  rfl

theorem validateCheckpointRecordArray_records {object : Object} {name : String}
    {records : List EventRecord} (h : get? object name = some (recordsValue records))
    (hstored : Stored records) : validateCheckpointRecordArray object name = .ok () := by
  unfold validateCheckpointRecordArray
  rw [checkpointArray_of h, ok_bind]
  refine forM_ok fun v hv => ?_
  obtain ⟨record, hr, rfl⟩ := List.mem_map.mp hv
  exact validateCheckpointRecord_recordValue (hstored record hr).1 (hstored record hr).2

theorem validateCheckpointProjection_payload {p : SerializedWorldState}
    (h : Checkpointable p) (hsession : p.session ≠ 0) :
    validateCheckpointProjection (.object (eventObject (checkpointFields p))) = .ok () := by
  have object : ∀ {name : String} (fields : Object),
      (checkpointFields p).lookup name = some (.object fields) →
      checkpointObject (eventObject (checkpointFields p)) name = .ok fields := fun fields hl =>
    checkpointObject_of (by rw [get?_eventObject, hl])
  have records : ∀ {name : String} {records : List EventRecord},
      (checkpointFields p).lookup name = some (recordsValue records) → Stored records →
      validateCheckpointRecordArray (eventObject (checkpointFields p)) name = .ok () :=
    fun hl hs => validateCheckpointRecordArray_records (by rw [get?_eventObject, hl]) hs
  have hsessionField : checkpointUnsigned (eventObject (checkpointFields p)) "session" =
      .ok p.session := checkpointUnsigned_of (get?_eventObject _ _)
  have hposition : checkpointUnsigned (eventObject (checkpointFields p)) "replay_position" =
      .ok p.replayPosition := checkpointUnsigned_of (get?_eventObject _ _)
  have hobjects : checkpointObjectNames.forM (fun name => do
      let _ ← checkpointObject (eventObject (checkpointFields p)) name) =
      (.ok () : Except Failure Unit) := by
    refine forM_ok fun name hname => ?_
    simp only [checkpointObjectNames, List.mem_cons, List.not_mem_nil, or_false] at hname
    rcases hname with rfl | rfl | rfl | rfl | rfl | rfl | rfl | rfl <;>
      (rw [object _ rfl]; rfl)
  have harrays : checkpointArrayNames.forM
      (validateCheckpointRecordArray (eventObject (checkpointFields p))) = .ok () := by
    refine forM_ok fun name hname => ?_
    simp only [checkpointArrayNames, List.mem_cons, List.not_mem_nil, or_false] at hname
    rcases hname with rfl | rfl | rfl | rfl | rfl | rfl | rfl | rfl | rfl | rfl | rfl
    · exact records rfl h.stored.sessionEvents
    · exact records rfl h.stored.configurationEvents
    · exact records rfl h.stored.frameEvents
    · exact records rfl h.stored.resolutions
    · exact records rfl h.stored.commandAttempts
    · exact records rfl h.stored.reports
    · exact records rfl h.stored.observations
    · exact records rfl h.stored.failures
    · exact records rfl h.stored.recoveries
    · exact records rfl h.stored.retentions
    · exact records rfl h.stored.scripts
  have hcommands : checkpointObject (eventObject (checkpointFields p)) "commands" =
      .ok p.commands := object p.commands rfl
  have hauthority : checkpointObject (eventObject (checkpointFields p)) "observed_authority" =
      .ok p.observedAuthority := object p.observedAuthority rfl
  unfold validateCheckpointProjection
  simp only [hsessionField, ok_bind, hsession, if_false, hposition, hobjects, hcommands,
    hauthority, validateObjectEntries_ok h.commands, validateObjectEntries_ok h.authority]
  exact harrays

theorem validateCheckpointSession_payload {p : SerializedWorldState} (h : Checkpointable p)
    (hsession : p.session ≠ 0) :
    validateCheckpointSession (.object (eventObject (checkpointFields p))) p.session =
      .ok () := by
  have hfield : checkpointUnsigned (eventObject (checkpointFields p)) "session" =
      .ok p.session := checkpointUnsigned_of (get?_eventObject _ _)
  unfold validateCheckpointSession
  simp only [validateCheckpointProjection_payload h hsession, ok_bind, projectionObject, hfield,
    ne_eq, not_true_eq_false, if_false]
  rfl

/-! ## Every projection is checkpointable -/

theorem of_decodeRecord {value : Value} {record : EventRecord}
    (h : decodeRecord value = .ok record) : record.version = 1 ∧ record.sequence ≠ 0 := by
  unfold decodeRecord at h
  obtain ⟨object, -, h⟩ := bind_eq_ok h
  obtain ⟨code, -, h⟩ := bind_eq_ok h
  split at h
  · cases h
  · obtain ⟨version, -, h⟩ := bind_eq_ok h
    split at h
    · cases h
    · next hver =>
        obtain ⟨sequence, -, h⟩ := bind_eq_ok h
        split at h
        · cases h
        · next hseq =>
            obtain ⟨payload, -, h⟩ := bind_eq_ok h
            cases h
            exact ⟨by rw [not_not.mp hver]; rfl, hseq⟩

theorem stored_of_mapM {values : List Value} {records : List EventRecord}
    (h : values.mapM decodeRecord = .ok records) : Stored records := by
  induction values generalizing records with
  | nil =>
      cases h
      exact nofun
  | cons value values ih =>
      rw [List.mapM_cons] at h
      obtain ⟨record, hrecord, h⟩ := bind_eq_ok h
      obtain ⟨rest, hrest, h⟩ := bind_eq_ok h
      cases h
      intro r hr
      rcases List.mem_cons.mp hr with rfl | hr
      · exact of_decodeRecord hrecord
      · exact ih hrest r hr

theorem stored_of_field {checkpoint : Object} {name : String} {records : List EventRecord}
    (h : recordsFieldOrEmpty checkpoint name = .ok records) : Stored records := by
  unfold recordsFieldOrEmpty at h
  split at h
  · cases h
    exact nofun
  · exact stored_of_mapM h
  · cases h

theorem of_checkpointObject {object fields : Object} {name : String}
    (h : checkpointObject object name = .ok fields) :
    get? object name = some (.object fields) := by
  unfold checkpointObject checkpointField at h
  obtain ⟨field, hfield, h⟩ := bind_eq_ok h
  split at hfield
  · cases hfield
  · next f hf =>
      cases hfield
      split at h
      · cases h
        exact hf
      · cases h

/-- The entries that the shape check looks into. -/
theorem of_validateCheckpointProjection {projection : Value}
    (h : validateCheckpointProjection projection = .ok ()) :
    (∃ commands, get? (projectionObject projection) "commands" = some (.object commands) ∧
        ObjectEntries commands) ∧
      ∃ authority,
        get? (projectionObject projection) "observed_authority" = some (.object authority) ∧
        ObjectEntries authority := by
  unfold validateCheckpointProjection at h
  split at h
  · next object =>
      obtain ⟨session, -, h⟩ := bind_eq_ok h
      split at h
      · cases h
      · obtain ⟨position, -, h⟩ := bind_eq_ok h
        obtain ⟨u, -, h⟩ := bind_eq_ok h
        obtain ⟨commands, hcommands, h⟩ := bind_eq_ok h
        obtain ⟨u, hentries, h⟩ := bind_eq_ok h
        obtain ⟨authority, hauthority, h⟩ := bind_eq_ok h
        obtain ⟨u, hobjects, h⟩ := bind_eq_ok h
        exact ⟨⟨commands, of_checkpointObject hcommands, objectEntries_of_validate hentries⟩,
          authority, of_checkpointObject hauthority, objectEntries_of_validate hobjects⟩
  · cases h

theorem of_validateCheckpointAnchor {projection : Value} {session : SessionId}
    {sequence : RecordId} (h : validateCheckpointAnchor projection session sequence = .ok ()) :
    validateCheckpointProjection projection = .ok () := by
  unfold validateCheckpointAnchor at h
  obtain ⟨u, hsession, -⟩ := bind_eq_ok h
  unfold validateCheckpointSession at hsession
  obtain ⟨u, hprojection, -⟩ := bind_eq_ok hsession
  exact hprojection

/-- A restored checkpoint is checkpointable again, and belongs to the session. -/
theorem restoreCheckpoint_checkpointable {p p' : SerializedWorldState} {record : EventRecord}
    (h : restoreCheckpoint p record = .ok p') :
    Checkpointable p' ∧ p'.session = p.session := by
  unfold restoreCheckpoint at h
  obtain ⟨u, hanchor, h⟩ := bind_eq_ok h
  obtain ⟨⟨commands, hcommands, hentries⟩, authority, hauthority, hobjects⟩ :=
    of_validateCheckpointProjection (of_validateCheckpointAnchor hanchor)
  obtain ⟨checkpoint, hobject, h⟩ := bind_eq_ok h
  have hpayload : projectionObject record.payload = checkpoint := by
    unfold requireObject at hobject
    split at hobject
    · next fields hf =>
        cases hobject
        rw [hf]
        rfl
    · cases hobject
  rw [hpayload] at hcommands hauthority
  obtain ⟨u, -, h⟩ := bind_eq_ok h
  obtain ⟨position, -, h⟩ := bind_eq_ok h
  obtain ⟨topology, -, h⟩ := bind_eq_ok h
  obtain ⟨components, -, h⟩ := bind_eq_ok h
  obtain ⟨intents, -, h⟩ := bind_eq_ok h
  obtain ⟨commands', hcommands', h⟩ := bind_eq_ok h
  obtain ⟨observedState, -, h⟩ := bind_eq_ok h
  obtain ⟨authority', hauthority', h⟩ := bind_eq_ok h
  obtain ⟨configuration, -, h⟩ := bind_eq_ok h
  obtain ⟨generations, -, h⟩ := bind_eq_ok h
  obtain ⟨l₁, h₁, h⟩ := bind_eq_ok h
  obtain ⟨l₂, h₂, h⟩ := bind_eq_ok h
  obtain ⟨l₃, h₃, h⟩ := bind_eq_ok h
  obtain ⟨l₄, h₄, h⟩ := bind_eq_ok h
  obtain ⟨l₅, h₅, h⟩ := bind_eq_ok h
  obtain ⟨l₆, h₆, h⟩ := bind_eq_ok h
  obtain ⟨l₇, h₇, h⟩ := bind_eq_ok h
  obtain ⟨l₈, h₈, h⟩ := bind_eq_ok h
  obtain ⟨l₉, h₉, h⟩ := bind_eq_ok h
  obtain ⟨l₁₀, h₁₀, h⟩ := bind_eq_ok h
  obtain ⟨l₁₁, h₁₁, h⟩ := bind_eq_ok h
  rw [optionalObjectField_of hcommands] at hcommands'
  rw [objectFieldOrEmpty_of hauthority] at hauthority'
  cases hcommands'
  cases hauthority'
  cases h
  exact ⟨⟨⟨stored_of_field h₁, stored_of_field h₂, stored_of_field h₃, stored_of_field h₄,
    stored_of_field h₅, stored_of_field h₆, stored_of_field h₇, stored_of_field h₈,
    stored_of_field h₉, stored_of_field h₁₀, stored_of_field h₁₁⟩, hentries, hobjects⟩, rfl⟩

theorem mergeCommand_objects {commands commands' : Object} {record : EventRecord}
    {context : String} {payload : Object} (hpayload : record.payload = .object payload)
    (hid : (get? payload "command_id").isSome = true) (h : ObjectEntries commands)
    (hm : mergeCommand commands record context = .ok commands') : ObjectEntries commands' := by
  unfold mergeCommand at hm
  rw [hpayload, requireObject, ok_bind, Option.isNone_eq_false_iff.mpr hid] at hm
  simp only [Bool.false_eq_true, if_false] at hm
  obtain ⟨key, -, hm⟩ := bind_eq_ok hm
  have written : ∀ existing : Object,
      (do return Assoc.insert key (← Value.ofObject (mergedObject existing payload)) commands) =
        (.ok commands' : Except Failure Object) → ObjectEntries commands' := by
    intro existing hm
    obtain ⟨merged, hmerged, hm⟩ := bind_eq_ok hm
    unfold Value.ofObject at hmerged
    obtain ⟨u, -, hmerged⟩ := bind_eq_ok hmerged
    cases hmerged
    cases hm
    exact h.insert key _
  split at hm
  · exact written [] hm
  · next fields hfields => exact written fields hm
  · cases hm

theorem setObservedAuthority_objects {authority authority' : Object} {record : EventRecord}
    (h : ObjectEntries authority)
    (hs : setObservedAuthority authority record = .ok authority') : ObjectEntries authority' := by
  unfold setObservedAuthority at hs
  obtain ⟨payload, hpayload, hs⟩ := bind_eq_ok hs
  have hobject : record.payload = .object payload := by
    unfold requireObject at hpayload
    split at hpayload
    · next fields hf =>
        cases hpayload
        exact hf
    · cases hpayload
  split at hs
  · cases hs
    rw [hobject]
    exact h.insert _ _
  · cases hs
    exact h

/-- Whatever the kind of the record. -/
theorem projectRecord_checkpointable {p p' : SerializedWorldState} {first : Bool}
    {record : EventRecord} (h : Checkpointable p) (hver : record.version = 1)
    (hseq : record.sequence ≠ 0)
    (hid : record.type = .commandIssued ∨ record.type = .commandStatusChanged →
      ∃ payload, record.payload = .object payload ∧ (get? payload "command_id").isSome = true)
    (hp : projectRecord p first record = .ok p') :
    Checkpointable p' ∧ p'.session = p.session := by
  -- the two kinds of command events that are merged
  have command : record.type = .commandIssued ∨ record.type = .commandStatusChanged →
      (do return { p with commands := ← mergeCommand p.commands record "command" }) =
        (.ok p' : Except Failure SerializedWorldState) →
      Checkpointable p' ∧ p'.session = p.session := by
    intro htype hm
    obtain ⟨payload, hpayload, hsome⟩ := hid htype
    obtain ⟨commands, hcommands, hm⟩ := bind_eq_ok hm
    cases hm
    exact ⟨⟨{ h.stored with }, mergeCommand_objects hpayload hsome h.commands hcommands,
      h.authority⟩, rfl⟩
  by_cases hplain : plainType record.type = true
  · have hbeside := projectRecord_beside hplain hver hseq h.stored hp
    exact ⟨⟨hbeside.stored, hbeside.commands ▸ h.commands,
      hbeside.observedAuthority ▸ h.authority⟩, hbeside.session⟩
  · unfold projectRecord at hp
    cases ht : record.type with
    | commandIssued =>
        rw [ht] at hp
        exact command (.inl ht) hp
    | commandStatusChanged =>
        rw [ht] at hp
        exact command (.inr ht) hp
    | commandAttempted =>
        rw [ht] at hp
        cases hp
        exact ⟨⟨{ h.stored with commandAttempts := h.stored.commandAttempts.snoc hver hseq },
          h.commands, h.authority⟩, rfl⟩
    | observedStateChanged =>
        rw [ht] at hp
        obtain ⟨observed, -, hp⟩ := bind_eq_ok hp
        obtain ⟨authority, hauthority, hp⟩ := bind_eq_ok hp
        cases hp
        exact ⟨⟨{ h.stored with }, h.commands,
          setObservedAuthority_objects h.authority hauthority⟩, rfl⟩
    | checkpoint =>
        rw [ht] at hp
        simp only at hp
        split at hp
        · obtain ⟨payload, -, hp⟩ := bind_eq_ok hp
          split at hp
          · cases hp
          · exact restoreCheckpoint_checkpointable hp
        · exact restoreCheckpoint_checkpointable hp
    | _ => rw [ht] at hplain; exact absurd rfl hplain

/-! ## The loop -/

theorem projectStep_eq_ok {p q : SerializedWorldState} {expected expected' : RecordId}
    {first : Bool} {record : EventRecord}
    (h : projectStep p expected first record = .ok (q, expected')) :
    record.sequence ≠ 0 ∧ record.version = 1 ∧
      ∃ r, projectRecord p first record = .ok r ∧
        q = { r with replayPosition := record.sequence } ∧
        expected' = if record.sequence = maxU64 then 0 else record.sequence + 1 := by
  unfold projectStep at h
  by_cases hseq : record.sequence = 0
  · simp only [hseq, if_true, error_bind] at h
    cases h
  by_cases hgap : expected ≠ 0 ∧ record.sequence ≠ expected
  · simp only [hseq, if_false, if_pos hgap, error_bind] at h
    cases h
  by_cases hver : record.version ≠ 1
  · simp only [hseq, if_false, if_neg hgap, if_pos hver, error_bind] at h
    cases h
  simp only [hseq, if_false, if_neg hgap, if_neg hver] at h
  obtain ⟨r, hr, h⟩ := bind_eq_ok h
  cases h
  exact ⟨hseq, not_not.mp hver, r, hr, rfl, rfl⟩

/-- A loop that returned goes on with the records that follow. -/
theorem projectLoop_append {log : List EventRecord} {p p' : SerializedWorldState}
    {expected : RecordId} {first : Bool} (h : projectLoop p expected first log = .ok p')
    (hne : log ≠ []) (hlast : p'.replayPosition ≠ maxU64) (rest : List EventRecord) :
    projectLoop p expected first (log ++ rest) =
      projectLoop p' (p'.replayPosition + 1) false rest := by
  induction log generalizing p expected first with
  | nil => exact absurd rfl hne
  | cons record log ih =>
      simp only [projectLoop, List.cons_append] at h ⊢
      cases hstep : projectStep p expected first record with
      | error e => rw [hstep] at h; cases h
      | ok next =>
          obtain ⟨q, expected'⟩ := next
          rw [hstep] at h
          simp only at h ⊢
          split at h
          · cases h
          · next hmore =>
              cases log with
              | nil =>
                  cases h
                  -- the step left its own number as the replay position
                  have hq : expected' = p'.replayPosition + 1 := by
                    obtain ⟨-, -, r, -, hp', hexp⟩ := projectStep_eq_ok hstep
                    rw [hp'] at hlast ⊢
                    rw [hexp]
                    exact if_neg hlast
                  have hzero : expected' ≠ 0 := by
                    rw [hq]
                    unfold maxU64 at hlast
                    grind
                  rw [List.nil_append, if_neg (fun h => hzero h.1), hq]
              | cons next log =>
                  have hzero : expected' ≠ 0 := fun h0 => hmore ⟨h0, List.cons_ne_nil _ _⟩
                  rw [if_neg (fun h => hzero h.1)]
                  exact ih h (List.cons_ne_nil _ _)

theorem projectLoop_checkpointable {log : List EventRecord} {p p' : SerializedWorldState}
    {expected : RecordId} {first : Bool} (hp : Checkpointable p)
    (hid : CommandsIdentified log) (h : projectLoop p expected first log = .ok p') :
    Checkpointable p' ∧ p'.session = p.session := by
  induction log generalizing p expected first with
  | nil =>
      cases h
      exact ⟨hp, rfl⟩
  | cons record log ih =>
      simp only [projectLoop] at h
      cases hstep : projectStep p expected first record with
      | error e => rw [hstep] at h; cases h
      | ok next =>
          obtain ⟨q, expected'⟩ := next
          rw [hstep] at h
          simp only at h
          split at h
          · cases h
          · have hq : Checkpointable q ∧ q.session = p.session := by
              obtain ⟨hseq, hver, r, hr, rfl, -⟩ := projectStep_eq_ok hstep
              obtain ⟨hr, hsession⟩ := projectRecord_checkpointable hp hver hseq
                (hid record List.mem_cons_self) hr
              exact ⟨⟨{ hr.stored with }, hr.commands, hr.authority⟩, hsession⟩
            obtain ⟨hp', hsession⟩ := ih hq.1 (fun r hr => hid r (List.mem_cons_of_mem _ hr)) h
            exact ⟨hp', hsession.trans hq.2⟩

theorem initialProjection_checkpointable (metadata : EventStoreMetadata) :
    Checkpointable (initialProjection metadata) :=
  ⟨⟨nofun, nofun, nofun, nofun, nofun, nofun, nofun, nofun, nofun, nofun, nofun⟩, nofun, nofun⟩

theorem project_eq_ok {metadata : EventStoreMetadata} {log : List EventRecord}
    {p : SerializedWorldState} (h : project metadata log = .ok p) :
    (Value.string metadata.engineVersion).validate = .ok () ∧
      projectLoop (initialProjection metadata) 0 true log = .ok p := by
  unfold project at h
  cases hv : (Value.string metadata.engineVersion).validate with
  | error e => rw [hv] at h; cases h
  | ok u =>
      rw [hv] at h
      exact ⟨rfl, h⟩

theorem project_checkpointable {metadata : EventStoreMetadata} {log : List EventRecord}
    {p : SerializedWorldState} (hid : CommandsIdentified log)
    (h : project metadata log = .ok p) : Checkpointable p ∧ p.session = metadata.session :=
  projectLoop_checkpointable (initialProjection_checkpointable metadata) hid (project_eq_ok h).2

/-! ## Transparency -/

/-- The record that a checkpoint of `p` is written as, after the log of `p`. -/
def checkpointRecord (p : SerializedWorldState) (payload : Value) : EventRecord :=
  ⟨p.replayPosition + 1, .checkpoint, 1, payload⟩

/-- A turn of the loop on the checkpoint of `p`, in the state `p` or at the head of a log. -/
theorem projectStep_checkpoint {p q : SerializedWorldState} {payload : Value}
    {expected : RecordId} {first : Bool} (hp : Checkpointable p)
    (hpayload : checkpointPayload p = .ok payload) (hroom : p.replayPosition ≠ maxU64)
    (hsession : q.session = p.session) (hfirst : first = true ∨ q = p)
    (hexpected : expected = 0 ∨ expected = p.replayPosition + 1) :
    projectStep q expected first (checkpointRecord p payload) =
      .ok ({ p with replayPosition := p.replayPosition + 1 },
        if p.replayPosition + 1 = maxU64 then 0 else p.replayPosition + 1 + 1) := by
  have hseq : p.replayPosition + 1 ≠ 0 := by
    unfold maxU64 at hroom
    grind
  have hprev : p.replayPosition = p.replayPosition + 1 - 1 := by grind
  have hzero : p.session ≠ 0 := by
    intro h0
    unfold checkpointPayload at hpayload
    rw [if_pos h0] at hpayload
    cases hpayload
  have hvalid := validateCheckpointSession_payload hp hzero
  rw [← checkpointPayload_eq hpayload] at hvalid
  have hrestore := restoreCheckpoint_payload hsession hp.stored hpayload hvalid hseq hprev
  have hgap : ¬ (expected ≠ 0 ∧ p.replayPosition + 1 ≠ expected) := by
    rintro ⟨h0, hne⟩
    rcases hexpected with h | h
    · exact h0 h
    · exact hne h.symm
  have hrecord : projectRecord q first (checkpointRecord p payload) = .ok p := by
    unfold projectRecord checkpointRecord
    rcases hfirst with rfl | rfl
    · simpa using hrestore
    · simp only [hpayload, ok_bind, ne_eq, not_true_eq_false, if_false]
      cases first <;> simpa using hrestore
  unfold projectStep
  simp only [checkpointRecord, hseq, if_false, hgap, ne_eq, not_true_eq_false]
  unfold checkpointRecord at hrecord
  rw [hrecord]
  rfl

/-- Checkpoint and retention lose nothing: the checkpoint of an accepted log, written next,
    is accepted after the log and in its place; it advances the replay position and nothing
    else, and every continuation is projected alike after both. -/
theorem project_checkpoint {metadata : EventStoreMetadata} {log : List EventRecord}
    {p : SerializedWorldState} {payload : Value} (hid : CommandsIdentified log)
    (h : project metadata log = .ok p) (hpayload : checkpointPayload p = .ok payload)
    (hroom : p.replayPosition ≠ maxU64) :
    project metadata (log ++ [checkpointRecord p payload]) =
        .ok { p with replayPosition := p.replayPosition + 1 } ∧
      project metadata [checkpointRecord p payload] =
        .ok { p with replayPosition := p.replayPosition + 1 } ∧
      ∀ rest, project metadata (log ++ [checkpointRecord p payload] ++ rest) =
        project metadata ([checkpointRecord p payload] ++ rest) := by
  obtain ⟨hengine, hloop⟩ := project_eq_ok h
  obtain ⟨hp, hsession⟩ := project_checkpointable hid h
  have hproject : ∀ records, project metadata records =
      projectLoop (initialProjection metadata) 0 true records := by
    intro records
    unfold project
    rw [hengine]
  have hinitial : (initialProjection metadata).session = p.session := hsession.symm
  -- the loop on the checkpoint, in front and after the log
  have hhead : ∀ rest, projectLoop (initialProjection metadata) 0 true
      (checkpointRecord p payload :: rest) =
        if (if p.replayPosition + 1 = maxU64 then 0 else p.replayPosition + 1 + 1) = 0 ∧
            rest ≠ [] then
          .error (.eventStoreError "records follow exhausted replay sequence")
        else projectLoop { p with replayPosition := p.replayPosition + 1 }
          (if p.replayPosition + 1 = maxU64 then 0 else p.replayPosition + 1 + 1) false rest := by
    intro rest
    rw [projectLoop, projectStep_checkpoint hp hpayload hroom hinitial (.inl rfl) (.inl rfl)]
  have hsame : ∀ rest, projectLoop (initialProjection metadata) 0 true
      (log ++ checkpointRecord p payload :: rest) =
        projectLoop (initialProjection metadata) 0 true (checkpointRecord p payload :: rest) := by
    intro rest
    cases log with
    | nil => rfl
    | cons record log =>
        rw [projectLoop_append hloop (List.cons_ne_nil _ _) hroom, hhead, projectLoop,
          projectStep_checkpoint hp hpayload hroom rfl (.inr rfl) (.inr rfl)]
  have hone : projectLoop (initialProjection metadata) 0 true [checkpointRecord p payload] =
      .ok { p with replayPosition := p.replayPosition + 1 } := by
    rw [hhead, if_neg fun h => h.2 rfl]
    rfl
  refine ⟨?_, ?_, fun rest => ?_⟩
  · rw [hproject, hsame, hone]
  · rw [hproject, hone]
  · rw [hproject, hproject, List.append_assoc]
    exact hsame rest

/-- A session with one command. -/
def issuedMetadata : EventStoreMetadata :=
  { session := 7, engineVersion := utf8 "v1", feedbackTiming := .deferred }

def issuedPayload : Object := [(utf8 "command_id", .unsignedInteger 1)]

def issuedLog : List EventRecord := [⟨1, .commandIssued, 1, .object issuedPayload⟩]

def issuedProjection : SerializedWorldState :=
  { initialProjection issuedMetadata with
    replayPosition := 1
    commands := [(utf8 "command:1", .object issuedPayload)] }

theorem project_checkpoint_issued :
    project issuedMetadata issuedLog = .ok issuedProjection ∧
      ∃ payload, checkpointPayload issuedProjection = .ok payload ∧
        project issuedMetadata [checkpointRecord issuedProjection payload] =
          .ok { issuedProjection with replayPosition := 2 } := by
  have hlog : project issuedMetadata issuedLog = .ok issuedProjection := by decide +kernel
  have hid : CommandsIdentified issuedLog := by
    intro record hr _
    rw [List.mem_singleton.mp hr]
    exact ⟨issuedPayload, rfl, by decide +kernel⟩
  have hpayload : checkpointPayload issuedProjection =
      .ok (.object (eventObject (checkpointFields issuedProjection))) := by decide +kernel
  exact ⟨hlog, _, hpayload, (project_checkpoint hid hlog hpayload (by decide)).2.1⟩

end LiquidLayer
