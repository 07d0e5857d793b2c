/-
  What `ReplayProjector::project` makes of a log the runtime writes.

  `Replayed metadata log p ledger`: the projection `p` of `log` says what `ledger` says.
  `Book.project`: the projection of a book is replayed in this sense; it fails only when some
  command's desired value leaves no room for the two fields a status record adds to the
  command's object (`Ledger.Small`).
-/
import LiquidLayer.Events.Project
import LiquidLayer.Effects.Ledger

namespace LiquidLayer

namespace Effects

/-! ## Keys -/

theorem commandText_inj {id id' : UInt64} : commandText id = commandText id' ↔ id = id' := by
  refine ⟨fun h => ?_, fun h => h ▸ rfl⟩
  exact UInt64.toNat_inj.mp (decimal_inj (List.append_cancel_left h))

/-- The first separator ends the first part. -/
theorem observedText_inj {route route' : AdapterRoute} {target target' : EffectTarget} :
    observedText route target = observedText route' target' ↔
      targetKey route target = targetKey route' target' := by
  have hcolon : utf8 ":" = [58] := by decide
  refine ⟨fun h => ?_, fun h => ?_⟩
  · simp only [observedText, hcolon, List.append_assoc, List.singleton_append] at h
    obtain ⟨h1, h2⟩ := append_cons_inj route.colon_not_mem route'.colon_not_mem h
    rw [targetKey, targetKey, h1, h2]
  · rw [targetKey_inj] at h
    rw [h.1, h.2]

/-! ## Commands -/

/-- The fields only a `CommandIssued` record has. -/
def fixedFields (command : EffectCommand) : List (String × Value) :=
  [("route", .string command.effect.adapterRoute.value),
    ("target", .string command.effect.target.value),
    ("desired", command.effect.desiredValue),
    ("issued_at", .unsignedInteger command.issuedAtMs)]

/-- The fields of a command's object once its status has changed. -/
def mergedFields (command : EffectCommand) (status : CommandStatus) (reason : Bytes) :
    List (String × Value) :=
  statusFields command.commandId status reason ++ fixedFields command

/-- The object the projection holds for a command. -/
inductive CommandObject (entry : LedgerEntry) : Object → Prop where
  | issued : entry.status = .pending →
      CommandObject entry (eventObject (issuedFields entry.command))
  | changed (reason : Bytes) :
      CommandObject entry (eventObject (mergedFields entry.command entry.status reason))

/-- A field that an earlier one hides may be left out. -/
theorem lookup_hidden {fields hidden rest : List (String × Value)}
    (h : hidden.map Prod.fst ⊆ fields.map Prod.fst) (name : String) :
    (fields ++ (hidden ++ rest)).lookup name = (fields ++ rest).lookup name := by
  simp only [List.lookup_append]
  by_cases hname : name ∈ fields.map Prod.fst
  · obtain ⟨f, hf, rfl⟩ := List.mem_map.mp hname
    obtain ⟨v, hv⟩ := Option.isSome_iff_exists.mp
      (List.lookup_isSome_iff.mpr ⟨f, hf, beq_self_eq_true f.1⟩)
    simp [hv]
  · have hnone : hidden.lookup name = none := by
      refine List.lookup_eq_none_iff.mpr fun f hf => bne_iff_ne.mpr ?_
      rintro rfl
      exact hname (h (List.mem_map_of_mem hf))
    simp [hnone]

theorem merged_issued (command : EffectCommand) (status : CommandStatus) (reason : Bytes) :
    mergedObject (eventObject (issuedFields command))
      (eventObject (statusFields command.commandId status reason)) =
      eventObject (mergedFields command status reason) := by
  rw [mergedObject_eventObject]
  refine eventObject_congr fun name => ?_
  refine @lookup_hidden _ ((issuedFields command).take 3) _ ?_ name
  simp [issuedFields, statusFields]

theorem merged_merged (command : EffectCommand) (status status' : CommandStatus)
    (reason reason' : Bytes) :
    mergedObject (eventObject (mergedFields command status reason))
      (eventObject (statusFields command.commandId status' reason')) =
      eventObject (mergedFields command status' reason') := by
  rw [mergedObject_eventObject]
  refine eventObject_congr fun name => ?_
  exact @lookup_hidden (statusFields command.commandId status' reason')
    (statusFields command.commandId status reason) _ (fun _ h => h) name

/-- The object of a command after a status record. -/
theorem CommandObject.merge {entry : LedgerEntry} {object : Object} (h : CommandObject entry object)
    (status : CommandStatus) (reason : Bytes) :
    mergedObject object (eventObject (statusFields entry.command.commandId status reason)) =
      eventObject (mergedFields entry.command status reason) := by
  cases h with
  | issued => exact merged_issued _ _ _
  | changed => exact merged_merged _ _ _ _ _

/-- A command that leaves room for the two fields of a status record. -/
def LedgerEntry.Small (entry : LedgerEntry) : Prop :=
  entry.command.effect.desiredValue.nodes + 9 ≤ ValueLimits.maxTotalNodes

/-- `merge_command` takes the merged object exactly when the command is small. -/
theorem mergedFields_ok_iff {entry : LedgerEntry} {status : CommandStatus} {reason : Bytes}
    {payload : Value} (hissued : Issuable entry.command.effect.desiredValue)
    (hpayload : eventPayload (statusFields entry.command.commandId status reason) = .ok payload) :
    eventPayload (mergedFields entry.command status reason) =
      .ok (.object (eventObject (mergedFields entry.command status reason))) ↔ entry.Small := by
  rw [(eventPayload_eq_ok hpayload).1, eventPayload_ok_iff rfl] at hpayload
  rw [eventPayload_ok_iff rfl]
  have hsum : 1 + ((mergedFields entry.command status reason).map fun f => f.2.nodes).sum =
      entry.command.effect.desiredValue.nodes + 9 := by
    simp only [mergedFields, statusFields, fixedFields, List.cons_append, List.nil_append,
      List.map_cons, List.map_nil, List.sum_cons, List.sum_nil, Value.nodes]
    omega
  rw [hsum, LedgerEntry.Small, and_iff_right_iff_imp]
  intro _ f hf
  rcases List.mem_append.mp hf with hf | hf
  · exact hpayload.1 f hf
  · simp only [fixedFields, List.mem_cons, List.not_mem_nil, or_false] at hf
    rcases hf with rfl | rfl | rfl | rfl
    · exact fits_route _
    · exact fits_target _
    · exact hissued.1
    · exact fits_unsigned _

/-! ## Ledgers -/

/-- What every entry of a book's ledger satisfies. -/
structure LedgerEntry.WF (metadata : EventStoreMetadata) (id : UInt64) (entry : LedgerEntry) :
    Prop where
  commandId : entry.command.commandId = id
  session : entry.command.sessionId = metadata.session
  valid : validateEffectCommand entry.command = .ok ()
  issuable : Issuable entry.command.effect.desiredValue

structure Ledger.WF (metadata : EventStoreMetadata) (ledger : Ledger) : Prop where
  entry : ∀ {id entry}, ledger.commands.find? id = some entry → entry.WF metadata id
  revisions : ∀ key, ledger.revisions.find? key = none ↔ ledger.observed.find? key = none

theorem Ledger.WF.rewrite {metadata : EventStoreMetadata} {ledger : Ledger}
    (h : ledger.WF metadata) {id : UInt64} {entry entry' : LedgerEntry}
    (he : ledger.commands.find? id = some entry) (hcommand : entry'.command = entry.command) :
    Ledger.WF metadata { ledger with commands := ledger.commands.insert id entry' } := by
  refine ⟨fun {id' e} hf => ?_, h.revisions⟩
  rw [OrdMap.find?_insert] at hf
  split at hf
  · next hi =>
      cases hf
      subst hi
      have := h.entry he
      exact ⟨hcommand ▸ this.commandId, hcommand ▸ this.session, hcommand ▸ this.valid,
        hcommand ▸ this.issuable⟩
  · exact h.entry hf

theorem Ledger.WF.observe {metadata : EventStoreMetadata} {ledger : Ledger}
    (h : ledger.WF metadata) (key : TargetKey) (value : Value) (revision : StateRevision) :
    (ledger.observe key value revision).WF metadata := by
  refine ⟨h.entry, fun key' => ?_⟩
  simp only [Ledger.observe, OrdMap.find?_insert]
  split
  · simp
  · exact h.revisions key'

theorem Book.wf {metadata : EventStoreMetadata} {limit : Nat} {log : List EventRecord}
    {ledger : Ledger} (h : Book metadata limit log ledger) : ledger.WF metadata := by
  induction h with
  | nil => exact ⟨fun hf => (nomatch hf), fun _ => by simp [Ledger.empty]⟩
  | snoc _ _ _ accounts ih =>
      revert accounts
      generalize EventRecord.type _ = type, EventRecord.payload _ = payload
      intro accounts
      cases accounts with
      | plain => exact ih
      | @issued command payload session valid above built =>
          refine ⟨fun {id e} hf => ?_, ih.revisions⟩
          simp only [Ledger.issue, OrdMap.find?_insert] at hf
          split at hf
          · next hi =>
              cases hf
              exact ⟨hi.symm, session, valid, (issuedFields_ok_iff _).mp ⟨_, built⟩⟩
          · exact ih.entry hf
      | attempted he => exact ih.rewrite he rfl
      | status he => exact ih.rewrite he rfl
      | committed => exact ih.observe _ _ _
      | external => exact ih.observe _ _ _
      | checkpoint => exact ih

theorem Book.numbered {metadata : EventStoreMetadata} {limit : Nat} {log : List EventRecord}
    {ledger : Ledger} (h : Book metadata limit log ledger) : NumberedFrom 1 log := by
  induction h with
  | nil => trivial
  | snoc _ version sequence _ ih => exact ih.snoc (by omega) version

/-! ## Attempts -/

/-- One `CommandAttempted` record: which command, and which attempt. -/
structure Attempt where
  id : UInt64
  number : Nat

/-- The higher of two attempts of the command `id`. -/
def laterAttempt (id : UInt64) (n : Nat) (attempt : Attempt) : Nat :=
  if attempt.id = id then max n attempt.number else n

/-- The highest attempt of a command in a list. -/
def lastAttempt (attempts : List Attempt) (id : UInt64) : Nat :=
  attempts.foldl (laterAttempt id) 0

theorem lastAttempt_snoc (attempts : List Attempt) (attempt : Attempt) (id : UInt64) :
    lastAttempt (attempts ++ [attempt]) id =
      if attempt.id = id then max (lastAttempt attempts id) attempt.number
      else lastAttempt attempts id := by
  simp [lastAttempt, List.foldl_append, laterAttempt]

theorem lastAttempt_eq_zero {attempts : List Attempt} {id : UInt64}
    (h : ∀ attempt ∈ attempts, attempt.id ≠ id) : lastAttempt attempts id = 0 := by
  induction attempts using List.reverseRecOn with
  | nil => rfl
  | append_singleton attempts attempt ih =>
      rw [lastAttempt_snoc, if_neg (h attempt (by simp))]
      exact ih fun a ha => h a (List.mem_append_left _ ha)

/-- A record of an attempt `restore_attempt` can read. -/
structure AttemptRecord (record : EventRecord) (attempt : Attempt) : Prop where
  type : record.type = .commandAttempted
  payload : ∃ now, record.payload =
    .object (eventObject (attemptFields attempt.id attempt.number now))
  pos : 1 ≤ attempt.number
  le : attempt.number ≤ EffectLimits.maxRetryDelays + 1

/-- The records of a projection's attempts, and the attempts the ledger has. -/
def Attempts (records : List EventRecord) (ledger : Ledger) : Prop :=
  ∃ attempts, List.Forall₂ AttemptRecord records attempts ∧
    (∀ attempt ∈ attempts, ledger.commands.find? attempt.id ≠ none) ∧
    ∀ {id entry}, ledger.commands.find? id = some entry → lastAttempt attempts id = entry.attempt

/-! ## Observed state -/

/-- The object behind an observed value. -/
structure ObservedObject (ledger : Ledger) (route : AdapterRoute) (target : EffectTarget)
    (object : Object) : Prop where
  routeField : get? object "route" = some (.string route.value)
  targetField : get? object "target" = some (.string target.value)
  observed : ∃ value, get? object "observed" = some value ∧
    ledger.observed.find? (targetKey route target) = some value
  revision : ∃ revision, get? object "state_revision" = some (.unsignedInteger revision) ∧
    revision ≠ 0 ∧ ledger.revisions.find? (targetKey route target) = some revision
  command : get? object "command_id" = none ∨ ∃ id,
    get? object "command_id" = some (.unsignedInteger id) ∧ ledger.commands.find? id ≠ none

/-! ## Projections -/

/-- The projection `p` of `log` says what `ledger` says. -/
structure Replayed (metadata : EventStoreMetadata) (log : List EventRecord)
    (p : SerializedWorldState) (ledger : Ledger) : Prop where
  session : p.session = metadata.session
  position : p.replayPosition.toNat = log.length
  stored : StoredLists p
  sortedCommands : Assoc.Sorted p.commands
  command : ∀ {id entry}, ledger.commands.find? id = some entry → ∃ object,
    Assoc.find? (commandText id) p.commands = some (.object object) ∧ CommandObject entry object
  known : ∀ {key value}, Assoc.find? key p.commands = some value → ∃ id,
    key = commandText id ∧ ledger.commands.find? id ≠ none
  attempts : Attempts p.commandAttempts ledger
  sortedState : Assoc.Sorted p.observedState
  sortedAuthority : Assoc.Sorted p.observedAuthority
  state : ∀ route target, Assoc.find? (observedText route target) p.observedState =
    ledger.observed.find? (targetKey route target)
  count : p.observedState.length = ledger.observed.size
  authority : ∀ {key value}, Assoc.find? key p.observedAuthority = some value →
    ∃ route target object, key = observedText route target ∧ value = .object object ∧
      ObservedObject ledger route target object
  covered : ∀ {key}, ledger.observed.find? key ≠ none → ∃ route target,
    key = targetKey route target ∧
      Assoc.find? (observedText route target) p.observedAuthority ≠ none

/-- The commands of `ledger` are commands of `ledger'`. -/
def Keeps (ledger ledger' : Ledger) : Prop :=
  ∀ id, ledger.commands.find? id ≠ none → ledger'.commands.find? id ≠ none

theorem keeps_insert (ledger : Ledger) (id : UInt64) (entry : LedgerEntry) :
    Keeps ledger { ledger with commands := ledger.commands.insert id entry } := by
  intro id' h
  rw [OrdMap.find?_insert]
  split
  · exact Option.some_ne_none _
  · exact h

section Growth

variable {metadata : EventStoreMetadata} {log : List EventRecord} {p : SerializedWorldState}
  {ledger ledger' : Ledger} {record : EventRecord}

theorem ObservedObject.mono {route : AdapterRoute} {target : EffectTarget} {object : Object}
    (h : ObservedObject ledger route target object) (keeps : Keeps ledger ledger')
    (hobserved : ledger'.observed.find? (targetKey route target) =
      ledger.observed.find? (targetKey route target))
    (hrevisions : ledger'.revisions.find? (targetKey route target) =
      ledger.revisions.find? (targetKey route target)) :
    ObservedObject ledger' route target object := by
  refine ⟨h.routeField, h.targetField, ?_, ?_, ?_⟩
  · rw [hobserved]; exact h.observed
  · rw [hrevisions]; exact h.revision
  · rcases h.command with hc | ⟨id, hc, hk⟩
    · exact .inl hc
    · exact .inr ⟨id, hc, keeps id hk⟩

/-- The observed state stays; commands may come. -/
theorem Replayed.observed_mono (h : Replayed metadata log p ledger) (keeps : Keeps ledger ledger')
    (hobserved : ledger'.observed = ledger.observed)
    (hrevisions : ledger'.revisions = ledger.revisions) {key : Bytes} {value : Value}
    (hv : Assoc.find? key p.observedAuthority = some value) :
    ∃ route target object, key = observedText route target ∧ value = .object object ∧
      ObservedObject ledger' route target object := by
  obtain ⟨route, target, object, hk, hval, ho⟩ := h.authority hv
  exact ⟨route, target, object, hk, hval,
    ho.mono keeps (by rw [hobserved]) (by rw [hrevisions])⟩

/-- A record that leaves commands and observed state alone. -/
theorem Replayed.same {p' : SerializedWorldState} (h : Replayed metadata log p ledger)
    (hsession : p'.session = p.session) (hposition : p'.replayPosition.toNat = log.length + 1)
    (stored : StoredLists p') (hcommands : p'.commands = p.commands)
    (hattempts : p'.commandAttempts = p.commandAttempts)
    (hstate : p'.observedState = p.observedState)
    (hauthority : p'.observedAuthority = p.observedAuthority) :
    Replayed metadata (log ++ [record]) p' ledger where
  session := hsession.trans h.session
  position := by rw [hposition, List.length_append, List.length_singleton]
  stored := stored
  sortedCommands := hcommands ▸ h.sortedCommands
  command := by rw [hcommands]; exact h.command
  known := by rw [hcommands]; exact h.known
  attempts := hattempts ▸ h.attempts
  sortedState := hstate ▸ h.sortedState
  sortedAuthority := hauthority ▸ h.sortedAuthority
  state := by rw [hstate]; exact h.state
  count := by rw [hstate]; exact h.count
  authority := by rw [hauthority]; exact h.authority
  covered := by rw [hauthority]; exact h.covered

/-! ### Commands -/

/-- A command's entry is written on both sides. -/
theorem Replayed.insert (h : Replayed metadata log p ledger) {id : UInt64} {entry : LedgerEntry}
    {object : Object} (hobject : CommandObject entry object)
    (hposition : record.sequence.toNat = log.length + 1)
    (attempts : Attempts p.commandAttempts
      { ledger with commands := ledger.commands.insert id entry }) :
    Replayed metadata (log ++ [record])
      { p with
        commands := Assoc.insert (commandText id) (.object object) p.commands
        replayPosition := record.sequence }
      { ledger with commands := ledger.commands.insert id entry } where
  session := h.session
  position := by simpa using hposition
  stored := { h.stored with }
  sortedCommands := Assoc.sorted_insert h.sortedCommands _ _
  command {id' entry'} he := by
    rw [OrdMap.find?_insert] at he
    rw [Assoc.find?_insert]
    split at he
    · next hi =>
        cases he
        rw [if_pos (congrArg commandText hi)]
        exact ⟨object, rfl, hobject⟩
    · next hi =>
        rw [if_neg fun hk => hi (commandText_inj.mp hk)]
        exact h.command he
  known {key value} hv := by
    rw [Assoc.find?_insert] at hv
    split at hv
    · next hk => exact ⟨id, hk, by simp⟩
    · obtain ⟨id', hk, hne⟩ := h.known hv
      exact ⟨id', hk, keeps_insert ledger id entry id' hne⟩
  attempts := attempts
  sortedState := h.sortedState
  sortedAuthority := h.sortedAuthority
  state := h.state
  count := h.count
  authority hv := h.observed_mono (keeps_insert ledger id entry) rfl rfl hv
  covered := h.covered

theorem Attempts.insert {records : List EventRecord} (h : Attempts records ledger) {id : UInt64}
    {entry : LedgerEntry}
    (hattempt : entry.attempt = match ledger.commands.find? id with
      | none => 0
      | some old => old.attempt) :
    Attempts records { ledger with commands := ledger.commands.insert id entry } := by
  obtain ⟨attempts, hrecords, hknown, hlast⟩ := h
  refine ⟨attempts, hrecords, fun a ha => keeps_insert ledger id entry _ (hknown a ha), ?_⟩
  intro id' entry' he
  rw [OrdMap.find?_insert] at he
  split at he
  · next hi =>
      cases he
      subst hi
      cases hold : ledger.commands.find? id' with
      | some old =>
          rw [hold] at hattempt
          rw [hlast hold, hattempt]
      | none =>
          -- no record speaks of a command that is not there
          rw [hold] at hattempt
          rw [hattempt]
          exact lastAttempt_eq_zero fun attempt ha hid => hknown attempt ha (hid ▸ hold)
  · exact hlast he

theorem mergeCommand_of {commands existing : Object} {fields : List (String × Value)}
    {record : EventRecord} {id : UInt64} (hpayload : record.payload = .object (eventObject fields))
    (hid : fields.lookup "command_id" = some (.unsignedInteger id))
    (hexisting : Assoc.find? (commandText id) commands = none ∧ existing = [] ∨
      Assoc.find? (commandText id) commands = some (.object existing)) :
    mergeCommand commands record "command" = (do
      let value ← Value.ofObject (mergedObject existing (eventObject fields))
      return Assoc.insert (commandText id) value commands) := by
  have hget : get? (eventObject fields) "command_id" = some (.unsignedInteger id) := by
    rw [get?_eventObject, hid]
  have hkey : commandKey (eventObject fields) "command" = .ok (commandText id) := by
    rw [commandKey, requireUnsigned_of hget]
    rfl
  unfold mergeCommand
  rw [hpayload]
  simp only [requireObject, ok_bind, hget, Option.isNone_some, Bool.false_eq_true, if_false, hkey]
  rcases hexisting with ⟨hnone, rfl⟩ | hsome
  · rw [hnone]
  · rw [hsome]

theorem Value.ofObject_eq (fields : List (String × Value)) :
    Value.ofObject (eventObject fields) = eventPayload fields := by
  unfold Value.ofObject eventPayload
  cases (Value.object (eventObject fields)).validate <;> rfl

theorem Replayed.issued (h : Replayed metadata log p ledger) {command : EffectCommand}
    {payload : Value} {first : Bool} (htype : record.type = .commandIssued)
    (hpayload : record.payload = payload)
    (hposition : record.sequence.toNat = log.length + 1)
    (hnew : ledger.commands.find? command.commandId = none)
    (built : eventPayload (issuedFields command) = .ok payload) :
    ∃ p', projectRecord p first record = .ok p' ∧
      Replayed metadata (log ++ [record]) { p' with replayPosition := record.sequence }
        (ledger.issue command) := by
  have hobject := (eventPayload_eq_ok built).1
  have hnone : Assoc.find? (commandText command.commandId) p.commands = none := by
    by_contra hne
    obtain ⟨value, hv⟩ := Option.ne_none_iff_exists'.mp hne
    obtain ⟨id, hk, hid⟩ := h.known hv
    exact hid (commandText_inj.mp hk ▸ hnew)
  have hmerge : mergeCommand p.commands record "command" =
      .ok (Assoc.insert (commandText command.commandId) payload p.commands) := by
    rw [mergeCommand_of (hpayload.trans hobject) rfl (.inl ⟨hnone, rfl⟩)]
    have : mergedObject [] (eventObject (issuedFields command)) =
        eventObject (issuedFields command) := by
      have := mergedObject_eventObject [] (issuedFields command)
      rwa [List.append_nil] at this
    rw [this, Value.ofObject_eq, built]
    rfl
  refine ⟨{ p with commands := Assoc.insert (commandText command.commandId) payload p.commands },
    ?_, ?_⟩
  · unfold projectRecord
    rw [htype]
    simp only [hmerge, ok_bind]
    rfl
  · subst hobject
    have entry : CommandObject ⟨command, .pending, 0⟩ (eventObject (issuedFields command)) :=
      .issued rfl
    exact h.insert entry hposition (h.attempts.insert (by rw [hnew]))

/-- A status record; the merged object may be too large. -/
theorem Replayed.status (h : Replayed metadata log p ledger) {id : UInt64} {entry : LedgerEntry}
    {status : CommandStatus} {reason : Bytes} {payload : Value} {first : Bool}
    (htype : record.type = .commandStatusChanged) (hpayload : record.payload = payload)
    (hposition : record.sequence.toNat = log.length + 1)
    (he : ledger.commands.find? id = some entry) (wf : entry.WF metadata id)
    (built : eventPayload (statusFields id status reason) = .ok payload) :
    (∃ e, projectRecord p first record = .error e) ∧ ¬entry.Small ∨
    ∃ p', projectRecord p first record = .ok p' ∧
      Replayed metadata (log ++ [record]) { p' with replayPosition := record.sequence }
        (ledger.setStatus id entry status) ∧ entry.Small := by
  obtain ⟨object, hf, hobject⟩ := h.command he
  obtain rfl := wf.commandId
  have hmerge : mergeCommand p.commands record "command" = (do
      let value ← eventPayload (mergedFields entry.command status reason)
      return Assoc.insert (commandText entry.command.commandId) value p.commands) := by
    rw [mergeCommand_of (hpayload.trans (eventPayload_eq_ok built).1) rfl (.inr hf),
      hobject.merge, Value.ofObject_eq]
  have hproject : projectRecord p first record = (do
      let value ← eventPayload (mergedFields entry.command status reason)
      return { p with
        commands := Assoc.insert (commandText entry.command.commandId) value p.commands }) := by
    unfold projectRecord
    rw [htype]
    simp only [hmerge]
    cases eventPayload (mergedFields entry.command status reason) <;> rfl
  have hsmall := mergedFields_ok_iff wf.issuable built
  rw [hproject]
  cases hv : eventPayload (mergedFields entry.command status reason) with
  | error e =>
      refine .inl ⟨⟨e, rfl⟩, fun small => ?_⟩
      rw [hsmall.mpr small] at hv
      cases hv
  | ok value =>
      obtain rfl := (eventPayload_eq_ok hv).1
      refine .inr ⟨_, rfl, ?_, hsmall.mp hv⟩
      have object' : CommandObject { entry with status }
          (eventObject (mergedFields entry.command status reason)) := .changed reason
      exact h.insert object' hposition (h.attempts.insert (by rw [he]))

/-! ### Attempts -/

theorem Replayed.attempted (h : Replayed metadata log p ledger) {id : UInt64}
    {entry : LedgerEntry} {n : Nat} {now : UInt64} {payload : Value} {first : Bool}
    (htype : record.type = .commandAttempted) (hver : record.version = 1)
    (hpayload : record.payload = payload)
    (hposition : record.sequence.toNat = log.length + 1)
    (he : ledger.commands.find? id = some entry) (hlt : entry.attempt < n)
    (hle : n ≤ EffectLimits.maxRetryDelays + 1)
    (built : eventPayload (attemptFields id n now) = .ok payload) :
    ∃ p', projectRecord p first record = .ok p' ∧
      Replayed metadata (log ++ [record]) { p' with replayPosition := record.sequence }
        (ledger.attempt id entry n) := by
  have hseq : record.sequence ≠ 0 := by
    intro h0
    rw [h0] at hposition
    simp at hposition
  obtain ⟨attempts, hrecords, hknown, hlast⟩ := h.attempts
  have keeps : Keeps ledger (ledger.attempt id entry n) := keeps_insert _ _ _
  refine ⟨{ p with commandAttempts := p.commandAttempts ++ [record] }, ?_, ?_⟩
  · unfold projectRecord
    rw [htype]
    rfl
  · refine { h with
      position := by simpa using hposition
      stored := { h.stored with
        commandAttempts := h.stored.commandAttempts.snoc hver hseq }
      command := fun {id' entry'} he' => ?_
      known := fun {key value} hv => ?_
      attempts := ⟨attempts ++ [⟨id, n⟩], ?_, ?_, ?_⟩
      authority := fun hv => h.observed_mono keeps rfl rfl hv }
    · simp only [Ledger.attempt, OrdMap.find?_insert] at he'
      split at he'
      · next hi =>
          cases he'
          obtain ⟨object, hf, hobject⟩ := h.command he
          refine ⟨object, hi ▸ hf, ?_⟩
          cases hobject with
          | issued hp =>
              have : CommandObject { entry with attempt := n }
                (eventObject (issuedFields entry.command)) := .issued hp
              exact this
          | changed reason =>
              have : CommandObject { entry with attempt := n }
                (eventObject (mergedFields entry.command entry.status reason)) := .changed reason
              exact this
      · exact h.command he'
    · obtain ⟨id', hk, hne⟩ := h.known hv
      exact ⟨id', hk, keeps id' hne⟩
    · refine List.rel_append hrecords (.cons ⟨htype, ⟨now, ?_⟩, by dsimp only; omega, hle⟩ .nil)
      exact hpayload.trans (eventPayload_eq_ok built).1
    · intro a ha
      rcases List.mem_append.mp ha with ha | ha
      · exact keeps _ (hknown a ha)
      · rw [List.mem_singleton.mp ha]
        exact keeps _ (by rw [he]; exact Option.some_ne_none _)
    · intro id' entry' he'
      rw [lastAttempt_snoc]
      simp only [Ledger.attempt, OrdMap.find?_insert] at he'
      split at he'
      · next hi =>
          cases he'
          rw [if_pos hi.symm, hi, hlast he]
          dsimp only
          omega
      · next hi =>
          rw [if_neg fun hk => hi hk.symm]
          exact hlast he'

/-! ### Observed state -/

/-- The fields both kinds of `ObservedStateChanged` records have. -/
structure ObservedFields (route : AdapterRoute) (target : EffectTarget) (value : Value)
    (revision : StateRevision) (fields : List (String × Value)) : Prop where
  keyField : fields.lookup "key" = some (.string (observedText route target))
  valueField : fields.lookup "value" = some value
  routeField : fields.lookup "route" = some (.string route.value)
  targetField : fields.lookup "target" = some (.string target.value)
  observedField : fields.lookup "observed" = some value
  revisionField : fields.lookup "state_revision" = some (.unsignedInteger revision)

theorem committedFields_observed (route : AdapterRoute) (target : EffectTarget) (value : Value)
    (revision : StateRevision) (commandId : UInt64) :
    ObservedFields route target value revision
      (committedFields route target value revision commandId) :=
  ⟨rfl, rfl, rfl, rfl, rfl, rfl⟩

theorem externalFields_observed (observation : ExternalObservation) :
    ObservedFields observation.adapterRoute observation.target observation.observedValue
      observation.stateRevision (externalFields observation) :=
  ⟨rfl, rfl, rfl, rfl, rfl, rfl⟩

theorem projectRecord_observed {fields : List (String × Value)} {route : AdapterRoute}
    {target : EffectTarget} {value : Value} {revision : StateRevision} {first : Bool}
    (htype : record.type = .observedStateChanged)
    (hpayload : record.payload = .object (eventObject fields))
    (hfields : ObservedFields route target value revision fields) :
    projectRecord p first record = .ok { p with
      observedState := Assoc.insert (observedText route target) value p.observedState
      observedAuthority := Assoc.insert (observedText route target) (.object (eventObject fields))
        p.observedAuthority } := by
  have hget : ∀ {name v}, fields.lookup name = some v →
      get? (eventObject fields) name = some v := fun h => by rw [get?_eventObject, h]
  have hset : setEntry p.observedState record "observed state" =
      .ok (Assoc.insert (observedText route target) value p.observedState) := by
    unfold setEntry
    rw [hpayload, requireObject, ok_bind, requireKey_of (hget hfields.keyField), ok_bind,
      requireField_of (hget hfields.valueField), ok_bind]
  have htry : setObserved p.observedState record =
      .ok (Assoc.insert (observedText route target) value p.observedState) := by
    unfold setObserved trySetEntry
    simp only [hpayload, hget hfields.keyField, hget hfields.valueField, Option.isNone_some,
      Bool.or_self, Bool.false_eq_true, if_false, hset, ok_bind]
    rfl
  have hauth : setObservedAuthority p.observedAuthority record =
      .ok (Assoc.insert (observedText route target) (.object (eventObject fields))
        p.observedAuthority) := by
    unfold setObservedAuthority
    simp only [hpayload, requireObject, ok_bind, hget hfields.routeField, hget hfields.targetField]
    rfl
  unfold projectRecord
  rw [htype]
  simp only [htry, hauth, ok_bind]
  rfl

theorem Replayed.observed (h : Replayed metadata log p ledger)
    {fields : List (String × Value)} {route : AdapterRoute}
    {target : EffectTarget} {value : Value} {revision : StateRevision} {first : Bool}
    (htype : record.type = .observedStateChanged)
    (hpayload : record.payload = .object (eventObject fields))
    (hposition : record.sequence.toNat = log.length + 1)
    (hfields : ObservedFields route target value revision fields) (hrevision : revision ≠ 0)
    (hcommand : fields.lookup "command_id" = none ∨ ∃ id,
      fields.lookup "command_id" = some (.unsignedInteger id) ∧
        ledger.commands.find? id ≠ none) :
    ∃ p', projectRecord p first record = .ok p' ∧
      Replayed metadata (log ++ [record]) { p' with replayPosition := record.sequence }
        (ledger.observe (targetKey route target) value revision) := by
  refine ⟨_, projectRecord_observed htype hpayload hfields, ?_⟩
  refine { h with
    position := by simpa using hposition
    stored := { h.stored with }
    sortedState := Assoc.sorted_insert h.sortedState _ _
    sortedAuthority := Assoc.sorted_insert h.sortedAuthority _ _
    state := fun route' target' => ?_
    count := ?_
    authority := fun {key v} hv => ?_
    covered := fun {key} hk => ?_ }
  · simp only [Ledger.observe, OrdMap.find?_insert, Assoc.find?_insert, observedText_inj, h.state]
    split <;> rfl
  · have hcontains : ledger.observed.contains (targetKey route target) =
        (Assoc.find? (observedText route target) p.observedState).isSome := by
      rw [h.state]
      rfl
    simp only [Ledger.observe, OrdMap.size_insert, Assoc.length_insert _ _ h.sortedState,
      hcontains, h.count]
  · rw [Assoc.find?_insert] at hv
    split at hv
    · next hk =>
        cases hv
        refine ⟨route, target, _, hk, rfl, ?_⟩
        refine ⟨?_, ?_, ⟨value, ?_, ?_⟩, ⟨revision, ?_, hrevision, ?_⟩, ?_⟩
        · rw [get?_eventObject, hfields.routeField]
        · rw [get?_eventObject, hfields.targetField]
        · rw [get?_eventObject, hfields.observedField]
        · exact OrdMap.find?_insert_self _ _ _
        · rw [get?_eventObject, hfields.revisionField]
        · exact OrdMap.find?_insert_self _ _ _
        · rw [get?_eventObject]
          exact hcommand
    · next hne =>
        obtain ⟨route', target', object, hk, hval, ho⟩ := h.authority hv
        have hkey : targetKey route' target' ≠ targetKey route target := by
          intro heq
          exact hne (hk.trans (observedText_inj.mpr heq))
        exact ⟨route', target', object, hk, hval,
          ho.mono (fun _ h => h) (OrdMap.find?_insert_ne _ hkey _)
            (OrdMap.find?_insert_ne _ hkey _)⟩
  · simp only [Ledger.observe, OrdMap.find?_insert] at hk
    split at hk
    · next heq =>
        refine ⟨route, target, heq, ?_⟩
        rw [Assoc.find?_insert_self]
        exact Option.some_ne_none _
    · obtain ⟨route', target', heq, hne⟩ := h.covered hk
      refine ⟨route', target', heq, ?_⟩
      rw [Assoc.find?_insert]
      split
      · exact Option.some_ne_none _
      · exact hne

/-! ### Checkpoints -/

theorem Replayed.position_eq (h : Replayed metadata log p ledger)
    (hposition : record.sequence.toNat = log.length + 1) :
    p.replayPosition = record.sequence - 1 := by
  have hle : (1 : UInt64) ≤ record.sequence := by
    rw [UInt64.le_iff_toNat_le, UInt64.toNat_one]
    omega
  refine UInt64.toNat_inj.mp ?_
  rw [h.position, UInt64.toNat_sub_of_le _ _ hle, hposition]
  rfl

theorem Replayed.checkpoint (h : Replayed metadata log p ledger) {payload : Value} {first : Bool}
    (htype : record.type = .checkpoint) (hver : record.version = 1)
    (hpayload : record.payload = payload)
    (hposition : record.sequence.toNat = log.length + 1)
    (hcheckpoint : checkpointPayload p = .ok payload)
    (hsession : validateCheckpointSession payload metadata.session = .ok ()) :
    ∃ p', projectRecord p first record = .ok p' ∧
      Replayed metadata (log ++ [record]) { p' with replayPosition := record.sequence }
        ledger := by
  have hseq : record.sequence ≠ 0 := by
    intro h0
    rw [h0] at hposition
    simp at hposition
  have hprev := h.position_eq hposition
  obtain ⟨sequence, type, version, payload'⟩ := record
  simp only at htype hver hpayload hposition hseq hprev
  subst htype hver hpayload
  refine ⟨p, ?_, h.same rfl ?_ { h.stored with } rfl rfl rfl rfl⟩
  · unfold projectRecord
    simp only [hcheckpoint, ok_bind, ne_eq, not_true_eq_false, if_false]
    have := restoreCheckpoint_payload (@rfl _ p.session) h.stored hcheckpoint
      (h.session ▸ hsession) hseq hprev
    cases first <;> simpa using this
  · exact hposition

end Growth

/-! ## The projection of a book -/

/-- Every command leaves room for the fields of a status record. -/
def Ledger.Small (ledger : Ledger) : Prop :=
  ∀ id entry, ledger.commands.find? id = some entry → entry.Small

theorem Accounts.small {metadata : EventStoreMetadata} {limit : Nat} {log : List EventRecord}
    {ledger ledger' : Ledger} {type : EventType} {payload : Value}
    (h : Accounts metadata limit log ledger type payload ledger') (small : ledger'.Small) :
    ledger.Small := by
  intro id entry he
  have rewritten : ∀ {id' entry'} (entry''), ledger.commands.find? id' = some entry' →
      entry''.command = entry'.command →
      (∀ id e, (ledger.commands.insert id' entry'').find? id = some e → e.Small) →
      entry.Small := by
    intro id' entry' entry'' he' hcommand hsmall
    by_cases hi : id = id'
    · subst hi
      rw [he] at he'
      cases he'
      have := hsmall _ _ (OrdMap.find?_insert_self _ _ _)
      rwa [LedgerEntry.Small, hcommand] at this
    · exact hsmall _ _ ((OrdMap.find?_insert_ne _ hi _).trans he)
  cases h with
  | plain => exact small _ _ he
  | issued session valid above built =>
      refine small _ _ ((OrdMap.find?_insert_ne _ (fun hi => ?_) _).trans he)
      exact lt_irrefl _ (hi ▸ above id (by rw [he]; exact Option.some_ne_none _))
  | @attempted _ entry' n _ _ he' => exact rewritten { entry' with attempt := n } he' rfl small
  | @status _ entry' status _ _ he' => exact rewritten { entry' with status } he' rfl small
  | committed => exact small _ _ he
  | external => exact small _ _ he
  | checkpoint => exact small _ _ he

/-- The record, if it is a status record, is about a command that leaves room for it. -/
def Mergeable (ledger : Ledger) (type : EventType) (payload : Value) : Prop :=
  type = .commandStatusChanged → ∀ id entry,
    get? (projectionObject payload) "command_id" = some (.unsignedInteger id) →
    ledger.commands.find? id = some entry → entry.Small

theorem Ledger.Small.mergeable {ledger : Ledger} (small : ledger.Small) (type : EventType)
    (payload : Value) : Mergeable ledger type payload := fun _ id entry _ he => small id entry he

/-- One record more: either its merged object is too large, or the relation goes on. -/
theorem Replayed.record {metadata : EventStoreMetadata} {limit : Nat} {log : List EventRecord}
    {p : SerializedWorldState} {ledger ledger' : Ledger} {record : EventRecord} {first : Bool}
    (hlimit : limit ≤ EffectLimits.maxRetryDelays) (replayed : Replayed metadata log p ledger)
    (hp : project metadata log = .ok p) (wf : ledger.WF metadata) (version : record.version = 1)
    (sequence : record.sequence.toNat = log.length + 1)
    (accounts : Accounts metadata limit log ledger record.type record.payload ledger') :
    (∃ e, projectRecord p first record = .error e) ∧
        ¬Mergeable ledger record.type record.payload ∨
      ∃ p', projectRecord p first record = .ok p' ∧
        Replayed metadata (log ++ [record]) { p' with replayPosition := record.sequence } ledger' ∧
        Mergeable ledger record.type record.payload := by
  have hseq : record.sequence ≠ 0 := by
    intro h0
    rw [h0] at sequence
    simp at sequence
  generalize htype : record.type = type at accounts
  generalize hpayload : record.payload = payload at accounts
  have taken : type ≠ .commandStatusChanged → (∃ p', projectRecord p first record = .ok p' ∧
      Replayed metadata (log ++ [record]) { p' with replayPosition := record.sequence } ledger') →
      ∃ p', projectRecord p first record = .ok p' ∧
        Replayed metadata (log ++ [record]) { p' with replayPosition := record.sequence } ledger' ∧
        Mergeable ledger type payload := by
    rintro hne ⟨p', h1, h2⟩
    exact ⟨p', h1, h2, fun h => absurd h hne⟩
  cases accounts with
  | plain hplain projectable =>
      obtain ⟨p', hp'⟩ := projectable p first record.sequence
      have hrec : ({ sequence := record.sequence, type, payload } : EventRecord) = record := by
        rw [← htype, ← hpayload, ← version]
      rw [hrec] at hp'
      have b := projectRecord_beside (htype ▸ hplain) version hseq replayed.stored hp'
      refine .inr (taken ?_ ⟨p', hp', replayed.same b.session sequence { b.stored with } b.commands
        b.commandAttempts b.observedState b.observedAuthority⟩)
      rintro rfl
      cases hplain
  | @issued command _ session valid above built =>
      refine .inr (taken nofun (replayed.issued htype hpayload sequence ?_ built))
      by_contra hne
      exact lt_irrefl _ (above _ hne)
  | attempted he hlt hle built =>
      exact .inr (taken nofun
        (replayed.attempted htype version hpayload sequence he hlt (by omega) built))
  | @status id entry status reason _ he built =>
      have hid : get? (projectionObject payload) "command_id" = some (.unsignedInteger id) := by
        rw [(eventPayload_eq_ok built).1]
        exact get?_eventObject _ _
      rcases replayed.status htype hpayload sequence he (wf.entry he) built with
        ⟨herror, hsmall⟩ | ⟨p', hp', replayed', hsmall⟩
      · exact .inl ⟨herror, fun h => hsmall (h rfl id entry hid he)⟩
      · refine .inr ⟨p', hp', replayed', fun _ id' entry' hid' he' => ?_⟩
        rw [hid] at hid'
        cases hid'
        rw [he] at he'
        cases he'
        exact hsmall
  | committed hknown hrevision built =>
      exact .inr (taken nofun (replayed.observed htype
        (hpayload.trans (eventPayload_eq_ok built).1) sequence (committedFields_observed _ _ _ _ _)
        hrevision (.inr ⟨_, rfl, hknown⟩)))
  | external hrevision built =>
      exact .inr (taken nofun (replayed.observed htype
        (hpayload.trans (eventPayload_eq_ok built).1) sequence (externalFields_observed _)
        hrevision (.inl rfl)))
  | checkpoint hproject hcheckpoint hsession =>
      rw [hp] at hproject
      cases hproject
      exact .inr (taken nofun
        (replayed.checkpoint htype version hpayload sequence hcheckpoint hsession))

/-- The projection of an empty log. -/
theorem replayed_nil {metadata : EventStoreMetadata}
    (hversion : (Value.string metadata.engineVersion).validate = .ok ()) :
    project metadata [] = .ok (initialProjection metadata) ∧
      Replayed metadata [] (initialProjection metadata) .empty := by
  constructor
  · rw [project, hversion]
    rfl
  · refine ⟨rfl, rfl, ?_, .nil, fun h => (nomatch h), fun h => (nomatch h),
      ⟨[], .nil, fun _ h => (nomatch h), fun h => (nomatch h)⟩, .nil, .nil, fun _ _ => rfl,
      rfl, fun h => (nomatch h), fun h => absurd rfl h⟩
    constructor <;> exact fun _ h => (nomatch h)

theorem Book.replay {metadata : EventStoreMetadata} {limit : Nat} {log : List EventRecord}
    {ledger : Ledger} (hversion : (Value.string metadata.engineVersion).validate = .ok ())
    (hlimit : limit ≤ EffectLimits.maxRetryDelays) (h : Book metadata limit log ledger) :
    (∃ e, project metadata log = .error e) ∧ ¬ledger.Small ∨
      ∃ p, project metadata log = .ok p ∧ Replayed metadata log p ledger := by
  induction h with
  | nil => exact .inr ⟨_, replayed_nil hversion⟩
  | @snoc log ledger ledger' record book version sequence accounts ih =>
      rw [project_snoc metadata book.numbered sequence version]
      rcases ih with ⟨⟨e, he⟩, hsmall⟩ | ⟨p, hp, replayed⟩
      · exact .inl ⟨⟨e, by rw [he]; rfl⟩, fun small => hsmall (accounts.small small)⟩
      rw [hp, ok_bind]
      rcases replayed.record hlimit hp book.wf version sequence accounts with
        ⟨⟨e, he⟩, hmerge⟩ | ⟨p', hp', replayed', _⟩
      · refine .inl ⟨⟨e, by rw [he]; rfl⟩, fun small => hmerge ?_⟩
        exact (accounts.small small).mergeable _ _
      · exact .inr ⟨_, by rw [hp']; rfl, replayed'⟩

end Effects

end LiquidLayer
