/-
  What `RuntimeEffectsState::restore` makes of a log the runtime writes.

  `Restored s₀ r ledger`: the loop of `restore` has rebuilt in `r`, on top of the members `s₀`,
  what `ledger` says. `Book.restored`: it does so on every book; a checkpoint in the middle of
  the log clears the maps and rebuilds them from the projection.
-/
import LiquidLayer.Effects.Restore
import LiquidLayer.Effects.Replayed

namespace LiquidLayer

namespace Effects

/-! ## Reading -/

section Fields

variable {object : Object} {name context : String}

theorem requiredField_of {value : Value} (h : get? object name = some value) :
    requiredField object name context = .ok value := by
  rw [requiredField, h]

theorem requiredUnsigned_of {n : UInt64} (h : get? object name = some (.unsignedInteger n)) :
    requiredUnsigned object name context = .ok n := by
  rw [requiredUnsigned, requiredField_of h]
  rfl

theorem requiredString_of {text : Bytes} (h : get? object name = some (.string text)) :
    requiredString object name context = .ok text := by
  rw [requiredString, requiredField_of h]
  rfl

end Fields

/-- The command an entry is restored to. -/
def LedgerEntry.restored (entry : LedgerEntry) : CommandState :=
  { restoredCommand entry.command entry.status with retryIndex := entry.attempt - 1 }

structure Restored (s₀ : RuntimeEffectsState) (r : Restoring) (ledger : Ledger) : Prop where
  rest : r.state = { s₀ with
    commands := r.state.commands
    latestByTarget := r.state.latestByTarget
    authoritativeByTarget := r.state.authoritativeByTarget
    observed := r.state.observed
    observedRevisions := r.state.observedRevisions }
  commands : ∀ id, r.state.commands.find? id =
    (ledger.commands.find? id).map LedgerEntry.restored
  latest : ∀ {key id}, r.state.latestByTarget.find? key = some id →
    (∃ entry, ledger.commands.find? id = some entry ∧ entry.key = key) ∧
      ∀ {id' entry}, ledger.commands.find? id' = some entry → entry.key = key → id' ≤ id
  indexed : ∀ {id entry}, ledger.commands.find? id = some entry →
    r.state.latestByTarget.find? entry.key ≠ none
  above : ∀ {id}, ledger.commands.find? id ≠ none → id ≤ r.maximumCommandId
  maximum : r.maximumCommandId = 0 ∨ ledger.commands.find? r.maximumCommandId ≠ none
  observed : r.state.observed = ledger.observed
  revisions : r.state.observedRevisions = ledger.revisions

section Loop

variable {s₀ : RuntimeEffectsState} {r : Restoring} {ledger : Ledger}
  {metadata : EventStoreMetadata}

theorem Restored.session (h : Restored s₀ r ledger) : r.state.session = s₀.session := by
  rw [h.rest]

/-! ## Commands -/

/-- An object `restore_command` reads as this command. -/
structure Readable (command : EffectCommand) (status : CommandStatus) (object : Object) :
    Prop where
  flat : ∀ nested, get? object "value" ≠ some (.object nested)
  id : get? object "command_id" = some (.unsignedInteger command.commandId)
  route : get? object "route" = some (.string command.effect.adapterRoute.value)
  target : get? object "target" = some (.string command.effect.target.value)
  desired : get? object "desired" = some command.effect.desiredValue
  issuedAt : get? object "issued_at" = some (.unsignedInteger command.issuedAtMs)
  status : recordedStatus object = .ok status

theorem readable_issued (command : EffectCommand) :
    Readable command .pending (eventObject (issuedFields command)) where
  flat nested h := by
    rw [get?_eventObject] at h
    cases (h : some (Value.string (utf8 "pending")) = some (.object nested))
  id := get?_eventObject _ _
  route := get?_eventObject _ _
  target := get?_eventObject _ _
  desired := get?_eventObject _ _
  issuedAt := get?_eventObject _ _
  status := by
    unfold recordedStatus
    rw [get?_eventObject]
    rfl

theorem readable_merged (command : EffectCommand) (status : CommandStatus) (reason : Bytes) :
    Readable command status (eventObject (mergedFields command status reason)) where
  flat nested h := by
    rw [get?_eventObject] at h
    cases (h : some (Value.string (utf8 (statusName status))) = some (.object nested))
  id := get?_eventObject _ _
  route := get?_eventObject _ _
  target := get?_eventObject _ _
  desired := get?_eventObject _ _
  issuedAt := get?_eventObject _ _
  status := by
    unfold recordedStatus
    rw [get?_eventObject]
    exact parseStatus_statusName status

theorem CommandObject.readable {entry : LedgerEntry} {object : Object}
    (h : CommandObject entry object) : Readable entry.command entry.status object := by
  cases h with
  | issued hp => rw [hp]; exact readable_issued _
  | changed reason => exact readable_merged _ _ _

theorem Readable.recordedCommandObject {command : EffectCommand} {status : CommandStatus}
    {object : Object} (h : Readable command status object) :
    recordedCommandObject object = object := by
  unfold Effects.recordedCommandObject
  split
  · next nested hn => exact absurd hn (h.flat nested)
  · rfl

theorem restoreCommand_of {command : EffectCommand} {status : CommandStatus} {object : Object}
    (h : Readable command status object) (hsession : command.sessionId = r.state.session)
    (hvalid : validateEffectCommand command = .ok ()) :
    restoreCommand r object = .ok (insertRestored r command status) := by
  have hcommand : (⟨r.state.session, command.commandId, ⟨command.effect.adapterRoute,
      command.effect.target, command.effect.desiredValue⟩, command.issuedAtMs⟩ : EffectCommand) =
      command := by
    rw [← hsession]
  unfold restoreCommand
  simp only [h.recordedCommandObject, requiredUnsigned_of h.id, requiredString_of h.route,
    requiredString_of h.target, requiredField_of h.desired, requiredUnsigned_of h.issuedAt,
    ok_bind, AdapterRoute.make_value, EffectTarget.make_value, hcommand, hvalid, h.status]
  rfl

/-- The later command stands for its target. -/
theorem insertRestored_latest (r : Restoring) (command : EffectCommand) (status : CommandStatus)
    (key : TargetKey) :
    (insertRestored r command status).state.latestByTarget.find? key =
      if key = command.effect.key then
        some (match r.state.latestByTarget.find? key with
          | none => command.commandId
          | some latest => max latest command.commandId)
      else r.state.latestByTarget.find? key := by
  unfold insertRestored
  by_cases hk : key = command.effect.key
  · subst hk
    rw [if_pos rfl]
    cases hl : r.state.latestByTarget.find? command.effect.key with
    | none =>
        simp only [hl]
        exact OrdMap.find?_insert_self r.state.latestByTarget _ _
    | some latest =>
        simp only [hl]
        split
        · next hlt => rw [OrdMap.find?_insert_self, max_eq_right (le_of_lt hlt)]
        · next hge => rw [hl, max_eq_left (not_lt.mp hge)]
  · rw [if_neg hk]
    dsimp only
    split
    · exact OrdMap.find?_insert_ne _ hk _
    · split
      · exact OrdMap.find?_insert_ne _ hk _
      · rfl

/-- A new command on both sides. -/
theorem Restored.insert (h : Restored s₀ r ledger) {command : EffectCommand}
    (status : CommandStatus) (hnew : ledger.commands.find? command.commandId = none) :
    Restored s₀ (insertRestored r command status)
      { ledger with
        commands := ledger.commands.insert command.commandId ⟨command, status, 0⟩ } := by
  have old : ∀ {id entry}, ledger.commands.find? id = some entry →
      (ledger.commands.insert command.commandId ⟨command, status, 0⟩).find? id =
        some entry := by
    intro id entry he
    refine (OrdMap.find?_insert_ne _ ?_ _).trans he
    rintro rfl
    rw [hnew] at he
    cases he
  have inv : ∀ {id entry}, (ledger.commands.insert command.commandId
      ⟨command, status, 0⟩).find? id = some entry →
      (id = command.commandId ∧ entry.key = command.effect.key) ∨
        ledger.commands.find? id = some entry := by
    intro id entry he
    rw [OrdMap.find?_insert] at he
    split at he
    · next hi => cases he; exact .inl ⟨hi, rfl⟩
    · exact .inr he
  have self : (ledger.commands.insert command.commandId ⟨command, status, 0⟩).find?
      command.commandId = some ⟨command, status, 0⟩ := OrdMap.find?_insert_self _ _ _
  refine ⟨?_, fun id => ?_, fun {key id} hl => ?_, fun {id entry} he => ?_, fun {id} he => ?_, ?_,
    h.observed, h.revisions⟩
  · unfold insertRestored
    rw [h.rest]
  · simp only [insertRestored, OrdMap.find?_insert]
    split
    · rfl
    · exact h.commands id
  · rw [insertRestored_latest] at hl
    split at hl
    · next hk =>
        cases hlat : r.state.latestByTarget.find? key with
        | none =>
            rw [hlat] at hl
            cases hl
            refine ⟨⟨_, self, hk.symm⟩, fun {id' entry} he' hk' => ?_⟩
            rcases inv he' with ⟨rfl, _⟩ | he'
            · exact le_refl _
            · exact absurd hlat (hk' ▸ h.indexed he')
        | some latest =>
            rw [hlat] at hl
            obtain rfl : max latest command.commandId = id := Option.some.inj hl
            obtain ⟨⟨entry, he, hke⟩, hmax⟩ := h.latest hlat
            refine ⟨?_, fun {id' entry'} he' hk' => ?_⟩
            · rcases max_choice latest command.commandId with hm | hm <;> rw [hm]
              · exact ⟨entry, old he, hke⟩
              · exact ⟨_, self, hk.symm⟩
            · rcases inv he' with ⟨rfl, _⟩ | he'
              · exact le_max_right _ _
              · exact le_trans (hmax he' hk') (le_max_left _ _)
    · next hk =>
        obtain ⟨⟨entry, he, hke⟩, hmax⟩ := h.latest hl
        refine ⟨⟨entry, old he, hke⟩, fun {id' entry'} he' hk' => ?_⟩
        rcases inv he' with ⟨_, hc⟩ | he'
        · exact absurd (hk'.symm.trans hc) hk
        · exact hmax he' hk'
  · rw [insertRestored_latest]
    split
    · exact Option.some_ne_none _
    · next hk =>
        rcases inv he with ⟨_, hc⟩ | he
        · exact absurd hc hk
        · exact h.indexed he
  · show id ≤ max r.maximumCommandId command.commandId
    obtain ⟨entry, he⟩ := Option.ne_none_iff_exists'.mp he
    rcases inv he with ⟨rfl, _⟩ | he
    · exact le_max_right _ _
    · exact le_trans (h.above (by rw [he]; exact Option.some_ne_none _)) (le_max_left _ _)
  · refine .inr ?_
    show (ledger.commands.insert command.commandId ⟨command, status, 0⟩).find?
      (max r.maximumCommandId command.commandId) ≠ none
    rcases max_choice r.maximumCommandId command.commandId with hm | hm <;> rw [hm]
    · rcases h.maximum with h0 | hne
      · -- nothing was restored yet, so the new command is the maximum
        rw [h0] at hm ⊢
        have hz : command.commandId = 0 := by
          have := le_max_right 0 command.commandId
          rw [hm] at this
          exact UInt64.le_antisymm this (UInt64.zero_le)
        rw [← hz, self]
        exact Option.some_ne_none _
      · obtain ⟨entry, he⟩ := Option.ne_none_iff_exists'.mp hne
        rw [old he]
        exact Option.some_ne_none _
    · rw [self]
      exact Option.some_ne_none _

/-- An entry is rewritten on both sides. -/
theorem Restored.rewrite (h : Restored s₀ r ledger) {id : UInt64} {entry : LedgerEntry}
    (he : ledger.commands.find? id = some entry) (entry' : LedgerEntry)
    (hcommand : entry'.command = entry.command) {r' : Restoring}
    (hr : r' = { r with state := { r.state with
      commands := r.state.commands.insert id entry'.restored } }) :
    Restored s₀ r' { ledger with commands := ledger.commands.insert id entry' } := by
  subst hr
  have hkey : entry'.key = entry.key := by rw [LedgerEntry.key, hcommand]; rfl
  have old : ∀ {id' e}, (ledger.commands.insert id entry').find? id' = some e →
      ∃ e', ledger.commands.find? id' = some e' ∧ e'.key = e.key := by
    intro id' e hf
    rw [OrdMap.find?_insert] at hf
    split at hf
    · next hi => cases hf; exact ⟨entry, hi ▸ he, hkey.symm⟩
    · exact ⟨e, hf, rfl⟩
  refine ⟨by rw [h.rest], fun id' => ?_, fun {key id'} hl => ?_, fun {id' e} hf => ?_,
    fun {id'} hf => ?_, ?_, h.observed, h.revisions⟩
  · simp only [OrdMap.find?_insert]
    split
    · rfl
    · exact h.commands id'
  · obtain ⟨⟨e, hf, hk⟩, hmax⟩ := h.latest hl
    refine ⟨?_, fun {id'' e'} hf' hk' => ?_⟩
    · by_cases hi : id' = id
      · subst hi
        rw [he] at hf
        cases hf
        exact ⟨entry', OrdMap.find?_insert_self _ _ _, hkey.trans hk⟩
      · exact ⟨e, (OrdMap.find?_insert_ne _ hi _).trans hf, hk⟩
    · obtain ⟨e'', hf'', hk''⟩ := old hf'
      exact hmax hf'' (hk''.trans hk')
  · obtain ⟨e', hf', hk'⟩ := old hf
    exact hk' ▸ h.indexed hf'
  · obtain ⟨e, hf⟩ := Option.ne_none_iff_exists'.mp hf
    obtain ⟨e', hf', _⟩ := old hf
    exact h.above (by rw [hf']; exact Option.some_ne_none _)
  · rcases h.maximum with h0 | hne
    · exact .inl h0
    · exact .inr (keeps_insert ledger id entry' _ hne)

theorem Restored.attempt (h : Restored s₀ r ledger) {id : UInt64} {entry : LedgerEntry} {n : Nat}
    {now : UInt64} (he : ledger.commands.find? id = some entry) (hn : 1 ≤ n)
    (hle : n ≤ EffectLimits.maxRetryDelays + 1) :
    ∃ r', restoreAttempt r (eventObject (attemptFields id n now)) = .ok r' ∧
      Restored s₀ r' { ledger with
        commands := ledger.commands.insert id { entry with attempt := max entry.attempt n } } := by
  have hid : get? (eventObject (attemptFields id n now)) "command_id" =
      some (.unsignedInteger id) := get?_eventObject _ _
  have hattempt : get? (eventObject (attemptFields id n now)) "attempt" =
      some (.unsignedInteger (UInt64.ofNat n)) := get?_eventObject _ _
  have hlimit : EffectLimits.maxRetryDelays = 32 := rfl
  have htoNat : (UInt64.ofNat n).toNat = n := by
    rw [UInt64.toNat_ofNat']
    omega
  have hrange : ¬(UInt64.ofNat n = 0 ∨ (UInt64.ofNat n).toNat > EffectLimits.maxRetryDelays + 1) := by
    rintro (h0 | hgt)
    · have := congrArg UInt64.toNat h0
      rw [htoNat, UInt64.toNat_zero] at this
      omega
    · omega
  have hst : r.state.commands.find? id = some entry.restored := by rw [h.commands, he]; rfl
  refine ⟨_, ?_, h.rewrite he { entry with attempt := max entry.attempt n } rfl rfl⟩
  unfold restoreAttempt
  rw [requiredUnsigned_of hid, ok_bind]
  simp only [hst]
  rw [requiredUnsigned_of hattempt, ok_bind, if_neg hrange, htoNat]
  have hmax : max (entry.attempt - 1) (n - 1) = max entry.attempt n - 1 := by omega
  simp only [LedgerEntry.restored, restoredCommand, hmax]
  rfl

theorem Restored.status (h : Restored s₀ r ledger) {id : UInt64} {entry : LedgerEntry}
    {status : CommandStatus} {reason : Bytes} (he : ledger.commands.find? id = some entry) :
    ∃ r', restoreStatus r (eventObject (statusFields id status reason)) = .ok r' ∧
      Restored s₀ r' (ledger.setStatus id entry status) := by
  have hid : get? (eventObject (statusFields id status reason)) "command_id" =
      some (.unsignedInteger id) := get?_eventObject _ _
  have hstatus : get? (eventObject (statusFields id status reason)) "status" =
      some (.string (utf8 (statusName status))) := get?_eventObject _ _
  have hst : r.state.commands.find? id = some entry.restored := by rw [h.commands, he]; rfl
  refine ⟨_, ?_, h.rewrite he { entry with status } rfl rfl⟩
  unfold restoreStatus
  rw [requiredUnsigned_of hid, ok_bind]
  simp only [hst]
  rw [requiredString_of hstatus, ok_bind, parseStatus_statusName, ok_bind]
  rfl

/-! ## Observed state -/

/-- An observed value is written on both sides. -/
theorem Restored.observe (h : Restored s₀ r ledger) {route : AdapterRoute}
    {target : EffectTarget} {value : Value} {revision : StateRevision} {object : Object}
    (hroute : get? object "route" = some (.string route.value))
    (htarget : get? object "target" = some (.string target.value))
    (hobserved : get? object "observed" = some value)
    (hrevision : get? object "state_revision" = some (.unsignedInteger revision))
    (hne : revision ≠ 0)
    (hcommand : get? object "command_id" = none ∨ ∃ id,
      get? object "command_id" = some (.unsignedInteger id) ∧ ledger.commands.find? id ≠ none) :
    ∃ r', restoreObservedRecord r object = .ok r' ∧
      Restored s₀ r' (ledger.observe (targetKey route target) value revision) := by
  have hrest : ∀ authoritative, Restored s₀
      { r with state := { r.state with
          observed := r.state.observed.insert (targetKey route target) value
          observedRevisions := r.state.observedRevisions.insert (targetKey route target) revision
          authoritativeByTarget := authoritative } }
      (ledger.observe (targetKey route target) value revision) := by
    intro authoritative
    refine { h with rest := by rw [h.rest], observed := ?_, revisions := ?_ }
    · simp only [h.observed]; rfl
    · simp only [h.revisions]; rfl
  unfold restoreObservedRecord
  simp only [requiredString_of hroute, requiredString_of htarget, requiredField_of hobserved,
    requiredUnsigned_of hrevision, ok_bind, AdapterRoute.make_value, EffectTarget.make_value, hne,
    if_false]
  unfold restoreAuthority
  rcases hcommand with hc | ⟨id, hc, hknown⟩
  · rw [hc]
    exact ⟨_, rfl, hrest r.state.authoritativeByTarget⟩
  · rw [hc]
    have hcontains : r.state.commands.contains id = true := by
      rw [OrdMap.contains, h.commands, Option.isSome_map, ← Option.ne_none_iff_isSome]
      exact hknown
    simp only [hcontains, if_true]
    exact ⟨_, rfl, hrest _⟩

/-! ## Checkpoints -/

/-- The loop over a checkpoint's commands rebuilds the entries it names, without attempts. -/
theorem Restored.checkpointCommands {part : Ledger} (entries : Object)
    (h : Restored s₀ r part) (hsession : s₀.session = metadata.session)
    (hentries : ∀ e ∈ entries, ∃ id entry object, e = (commandText id, .object object) ∧
      ledger.commands.find? id = some entry ∧ CommandObject entry object ∧ entry.WF metadata id)
    (hsorted : Assoc.Sorted entries)
    (hfresh : ∀ id, commandText id ∈ entries.map Prod.fst → part.commands.find? id = none) :
    ∃ r' part', entries.foldlM restoreCheckpointCommand r = .ok r' ∧ Restored s₀ r' part' ∧
      part'.observed = part.observed ∧ part'.revisions = part.revisions ∧
      ∀ id, part'.commands.find? id =
        if commandText id ∈ entries.map Prod.fst then
          (ledger.commands.find? id).map fun entry => { entry with attempt := 0 }
        else part.commands.find? id := by
  induction entries generalizing r part with
  | nil => exact ⟨r, part, rfl, h, rfl, rfl, fun id => by simp⟩
  | cons e entries ih =>
      obtain ⟨id, entry, object, rfl, he, hobject, wf⟩ := hentries e List.mem_cons_self
      obtain rfl := wf.commandId
      obtain ⟨hlt, hsorted⟩ := List.pairwise_cons.mp hsorted
      have hread := hobject.readable
      have hnew := hfresh entry.command.commandId (by simp)
      have hstep : restoreCheckpointCommand r
          (commandText entry.command.commandId, .object object) =
          .ok (insertRestored r entry.command entry.status) := by
        unfold restoreCheckpointCommand asObject
        rw [ok_bind, restoreCommand_of hread (by rw [h.session, hsession, wf.session]) wf.valid,
          ok_bind, hread.recordedCommandObject, requiredUnsigned_of hread.id, ok_bind]
        simp only [ne_eq, not_true_eq_false, if_false]
        rfl
      -- the keys that follow are of other commands
      have hnot : commandText entry.command.commandId ∉ entries.map Prod.fst := by
        intro hm
        obtain ⟨e', he', hk⟩ := List.mem_map.mp hm
        exact absurd (hlt e' he') (by rw [hk]; exact lt_irrefl _)
      obtain ⟨r', part', hfold, hr', hobs, hrev, hfind⟩ := ih (h.insert entry.status hnew)
        (fun e' he' => hentries e' (List.mem_cons_of_mem _ he')) hsorted (fun id hid => by
          refine (OrdMap.find?_insert_ne _ ?_ _).trans
            (hfresh id (List.mem_cons_of_mem _ hid))
          rintro rfl
          exact hnot hid)
      refine ⟨r', part', by rw [List.foldlM_cons, hstep, ok_bind, hfold], hr', hobs, hrev,
        fun id => ?_⟩
      rw [hfind id, List.map_cons]
      by_cases hid : id = entry.command.commandId
      · subst hid
        rw [if_neg hnot, if_pos List.mem_cons_self, OrdMap.find?_insert_self, he]
        rfl
      · have hne : commandText id ≠ commandText entry.command.commandId := fun hc =>
          hid (commandText_inj.mp hc)
        rw [OrdMap.find?_insert_ne _ hid]
        simp only [List.mem_cons, hne, false_or]

/-- The loop over a checkpoint's attempts counts them for each command. -/
theorem Restored.checkpointAttempts {part : Ledger} {records : List EventRecord}
    {attempts : List Attempt} (h : Restored s₀ r part)
    (hrecords : List.Forall₂ AttemptRecord records attempts)
    (hknown : ∀ attempt ∈ attempts, part.commands.find? attempt.id ≠ none) :
    ∃ r' part', (records.map recordValue).foldlM restoreCheckpointAttempt r = .ok r' ∧
      Restored s₀ r' part' ∧ part'.observed = part.observed ∧ part'.revisions = part.revisions ∧
      ∀ id, part'.commands.find? id = (part.commands.find? id).map fun entry =>
        { entry with attempt := attempts.foldl (laterAttempt id) entry.attempt } := by
  induction hrecords generalizing r part with
  | nil => exact ⟨r, part, rfl, h, rfl, rfl, fun id => by simp⟩
  | @cons record attempt records attempts hrecord _ ih =>
      obtain ⟨entry, he⟩ := Option.ne_none_iff_exists'.mp (hknown attempt List.mem_cons_self)
      obtain ⟨now, hpayload⟩ := hrecord.payload
      obtain ⟨r₁, hr₁, h₁⟩ := @Restored.attempt _ _ _ h _ _ _ now he hrecord.pos hrecord.le
      have htype : get? (eventObject (recordFields record)) "type" =
          some (.unsignedInteger (UInt64.ofNat record.type.code)) := get?_eventObject _ _
      have hpay : get? (eventObject (recordFields record)) "payload" = some record.payload :=
        get?_eventObject _ _
      have hstep : restoreCheckpointAttempt r (recordValue record) = .ok r₁ := by
        unfold restoreCheckpointAttempt recordValue asObject
        rw [ok_bind, requiredUnsigned_of htype, ok_bind, hrecord.type]
        simp only [ne_eq, not_true_eq_false, if_false]
        rw [requiredField_of hpay, ok_bind, hpayload]
        exact hr₁
      obtain ⟨r', part', hfold, hr', hobs, hrev, hfind⟩ := ih h₁ (fun a ha =>
        keeps_insert part attempt.id _ _ (hknown a (List.mem_cons_of_mem _ ha)))
      refine ⟨r', part', by rw [List.map_cons, List.foldlM_cons, hstep, ok_bind, hfold], hr', hobs,
        hrev, fun id => ?_⟩
      rw [hfind id]
      by_cases hid : id = attempt.id
      · subst hid
        rw [OrdMap.find?_insert_self, he]
        simp [laterAttempt]
      · rw [OrdMap.find?_insert_ne _ hid]
        simp [laterAttempt, Ne.symm hid]

/-- The loop over a checkpoint's authority records rebuilds the observed state they name. -/
theorem Restored.checkpointObserved {part : Ledger} {values : Object} (entries : Object)
    (h : Restored s₀ r part) (hcommands : ∀ id, ledger.commands.find? id ≠ none →
      part.commands.find? id ≠ none)
    (hvalues : ∀ route target, Assoc.find? (observedText route target) values =
      ledger.observed.find? (targetKey route target))
    (hentries : ∀ e ∈ entries, ∃ route target object, e.1 = observedText route target ∧
      e.2 = .object object ∧ ObservedObject ledger route target object) :
    ∃ r' part', entries.foldlM (restoreObservedEntry values) r = .ok r' ∧ Restored s₀ r' part' ∧
      part'.commands = part.commands ∧
      ∀ key, (part'.observed.find? key = part.observed.find? key ∧
          part'.revisions.find? key = part.revisions.find? key ∧
          ∀ route target, key = targetKey route target →
            observedText route target ∉ entries.map Prod.fst) ∨
        (part'.observed.find? key = ledger.observed.find? key ∧
          part'.revisions.find? key = ledger.revisions.find? key ∧
          ledger.observed.find? key ≠ none) := by
  induction entries generalizing r part with
  | nil => exact ⟨r, part, rfl, h, rfl, fun key => .inl ⟨rfl, rfl, fun _ _ _ => by simp⟩⟩
  | cons e entries ih =>
      obtain ⟨k, v⟩ := e
      obtain ⟨route, target, object, hk, hv, ho⟩ := hentries _ List.mem_cons_self
      simp only at hk hv
      subst hk hv
      obtain ⟨value, hobserved, hval⟩ := ho.observed
      obtain ⟨revision, hrevision, hne, hrev⟩ := ho.revision
      obtain ⟨r₁, hr₁, h₁⟩ := h.observe ho.routeField ho.targetField hobserved hrevision hne
        (ho.command.imp id fun ⟨id, hc, hknown⟩ => ⟨id, hc, hcommands id hknown⟩)
      have hstep : restoreObservedEntry values r
          (observedText route target, .object object) = .ok r₁ := by
        have htext : route.value ++ utf8 ":" ++ target.value = observedText route target := rfl
        unfold restoreObservedEntry asObject
        rw [ok_bind, requiredString_of ho.routeField, ok_bind, requiredString_of ho.targetField,
          ok_bind]
        simp only [htext, ne_eq, not_true_eq_false, if_false, requiredField_of hobserved, ok_bind,
          hvalues, hval]
        exact hr₁
      obtain ⟨r', part', hfold, hr', hcom, hfind⟩ := ih h₁ hcommands
        (fun e' he' => hentries e' (List.mem_cons_of_mem _ he'))
      refine ⟨r', part', by rw [List.foldlM_cons, hstep, ok_bind, hfold], hr', hcom,
        fun key => ?_⟩
      rcases hfind key with ⟨h1, h2, h3⟩ | hdone
      · by_cases hkey : key = targetKey route target
        · subst hkey
          refine .inr ⟨h1.trans ?_, h2.trans ?_, by rw [hval]; exact Option.some_ne_none _⟩
          · rw [hval]; exact OrdMap.find?_insert_self _ _ _
          · rw [hrev]; exact OrdMap.find?_insert_self _ _ _
        · refine .inl ⟨h1.trans (OrdMap.find?_insert_ne _ hkey _),
            h2.trans (OrdMap.find?_insert_ne _ hkey _), fun route' target' hk' hm => ?_⟩
          rcases List.mem_cons.mp hm with hm | hm
          · exact hkey (hk'.trans (observedText_inj.mp hm))
          · exact h3 route' target' hk' hm
      · exact .inr hdone

theorem restored_cleared (h : Restored s₀ r ledger) (horder : s₀.terminalOrder = []) :
    Restored s₀ { state := cleared r.state, maximumCommandId := 0 } .empty := by
  refine ⟨?_, fun _ => rfl, fun h => (nomatch h), fun h => (nomatch h), fun h => absurd rfl h,
    .inl rfl, rfl, rfl⟩
  unfold cleared
  rw [h.rest]
  simp only [horder]

/-- A checkpoint record: the maps are rebuilt from the projection. -/
theorem Replayed.restore {log : List EventRecord} {p : SerializedWorldState} {part : Ledger}
    {record : EventRecord} (replayed : Replayed metadata log p ledger)
    (wf : ledger.WF metadata) (h : Restored s₀ r part) (hsession : s₀.session = metadata.session)
    (horder : s₀.terminalOrder = []) (hposition : record.sequence.toNat = log.length + 1)
    (hpayload : checkpointPayload p = .ok record.payload)
    (hvalid : validateCheckpointSession record.payload metadata.session = .ok ()) :
    ∃ r', restoreFromCheckpoint r record = .ok r' ∧ Restored s₀ r' ledger := by
  have hobject := checkpointPayload_eq hpayload
  have hseq : record.sequence ≠ 0 := by
    intro h0
    rw [h0] at hposition
    simp at hposition
  have hanchor : validateCheckpointAnchor record.payload r.state.session record.sequence =
      .ok () := by
    rw [hobject] at hvalid ⊢
    rw [h.session, hsession, ← replayed.session]
    exact validateCheckpointAnchor_payload (replayed.session ▸ hvalid) hseq
      (replayed.position_eq hposition)
  have hcommands : get? (eventObject (checkpointFields p)) "commands" = some (.object p.commands) :=
    get?_eventObject _ _
  have hattempts : get? (eventObject (checkpointFields p)) "command_attempts" =
      some (recordsValue p.commandAttempts) := get?_eventObject _ _
  have hauthority : get? (eventObject (checkpointFields p)) "observed_authority" =
      some (.object p.observedAuthority) := get?_eventObject _ _
  have hstate : get? (eventObject (checkpointFields p)) "observed_state" =
      some (.object p.observedState) := get?_eventObject _ _
  -- the commands, then their attempts, then the observed state
  have hentries : ∀ e ∈ p.commands, ∃ id entry object, e = (commandText id, .object object) ∧
      ledger.commands.find? id = some entry ∧ CommandObject entry object ∧
      entry.WF metadata id := by
    intro e he
    have hf := Assoc.find?_of_mem replayed.sortedCommands (k := e.1) (v := e.2) he
    obtain ⟨id, hk, hne⟩ := replayed.known hf
    obtain ⟨entry, hentry⟩ := Option.ne_none_iff_exists'.mp hne
    obtain ⟨object, hfo, hobj⟩ := replayed.command hentry
    rw [hk, hfo] at hf
    exact ⟨id, entry, object, Prod.ext hk (Option.some.inj hf).symm, hentry, hobj,
      wf.entry hentry⟩
  obtain ⟨r₁, part₁, hfold₁, h₁, hobs₁, hrev₁, hfind₁⟩ :=
    (restored_cleared h horder).checkpointCommands p.commands hsession hentries
      replayed.sortedCommands (fun _ _ => rfl)
  have hfound₁ : ∀ id, part₁.commands.find? id =
      (ledger.commands.find? id).map fun entry => { entry with attempt := 0 } := by
    intro id
    rw [hfind₁ id]
    split
    · rfl
    · next hnot =>
        cases hl : ledger.commands.find? id with
        | none => rfl
        | some entry =>
            obtain ⟨object, hf, _⟩ := replayed.command hl
            exact absurd (List.mem_map_of_mem (f := Prod.fst) (Assoc.mem_of_find? hf)) hnot
  obtain ⟨attempts, hrecords, hknown, hlast⟩ := replayed.attempts
  obtain ⟨r₂, part₂, hfold₂, h₂, hobs₂, hrev₂, hfind₂⟩ := h₁.checkpointAttempts hrecords
    (fun a ha => by rw [hfound₁, Ne, Option.map_eq_none_iff]; exact hknown a ha)
  have hcommands₂ : part₂.commands = ledger.commands := by
    refine OrdMap.ext_find? fun id => ?_
    rw [hfind₂, hfound₁]
    cases hl : ledger.commands.find? id with
    | none => rfl
    | some entry =>
        have hcount : attempts.foldl (laterAttempt id) 0 = entry.attempt := hlast hl
        simp only [Option.map_some, hcount]
  obtain ⟨r₃, part₃, hfold₃, h₃, hcom₃, hfind₃⟩ := h₂.checkpointObserved p.observedAuthority
    (by rw [hcommands₂]; exact fun _ h => h) replayed.state (fun e he => replayed.authority
      (Assoc.find?_of_mem replayed.sortedAuthority (k := e.1) (v := e.2) he))
  have hledger : part₃ = ledger := by
    have hnone : ∀ key, part₂.observed.find? key = none ∧ part₂.revisions.find? key = none := by
      intro key
      rw [hobs₂, hobs₁, hrev₂, hrev₁]
      exact ⟨rfl, rfl⟩
    have hkey : ∀ key, part₃.observed.find? key = ledger.observed.find? key ∧
        part₃.revisions.find? key = ledger.revisions.find? key := by
      intro key
      rcases hfind₃ key with ⟨h1, h2, h3⟩ | ⟨h1, h2, _⟩
      · -- a target no authority record names has no observed value
        have hnot : ledger.observed.find? key = none := by
          by_contra hne
          obtain ⟨route, target, hk, hf⟩ := replayed.covered hne
          obtain ⟨value, hv⟩ := Option.ne_none_iff_exists'.mp hf
          exact h3 route target hk (List.mem_map_of_mem (f := Prod.fst) (Assoc.mem_of_find? hv))
        rw [h1, h2, (hnone key).1, (hnone key).2, hnot, (wf.revisions key).mpr hnot]
        exact ⟨rfl, rfl⟩
      · exact ⟨h1, h2⟩
    obtain ⟨c, o, v⟩ := part₃
    obtain ⟨c', o', v'⟩ := ledger
    simp only at hcom₃ hcommands₂ hkey
    rw [hcom₃, hcommands₂, OrdMap.ext_find? fun k => (hkey k).1,
      OrdMap.ext_find? fun k => (hkey k).2]
  subst hledger
  refine ⟨r₃, ?_, h₃⟩
  unfold restoreFromCheckpoint requiredObjectPayload
  rw [hobject] at hanchor ⊢
  simp only [ok_bind, hanchor, checkpointObject_of hcommands, hfold₁,
    checkpointArray_of hattempts, hfold₂, checkpointObject_of hauthority,
    checkpointObject_of hstate]
  unfold restoreObservedCheckpoint
  rw [hfold₃, ok_bind, h₃.observed]
  simp only [← replayed.count, ne_eq, not_true_eq_false, if_false]
  rfl

end Loop

/-! ## The loop over a book -/

theorem Book.restored {metadata : EventStoreMetadata} {limit : Nat} {log : List EventRecord}
    {ledger : Ledger} {s₀ : RuntimeEffectsState}
    (hversion : (Value.string metadata.engineVersion).validate = .ok ())
    (hlimit : limit ≤ EffectLimits.maxRetryDelays) (book : Book metadata limit log ledger)
    (hsession : s₀.session = metadata.session) (horder : s₀.terminalOrder = [])
    (hstart : Restored s₀ { state := s₀, maximumCommandId := 0 } .empty) :
    ∃ r, log.foldlM restoreRecord { state := s₀, maximumCommandId := 0 } = .ok r ∧
      Restored s₀ r ledger := by
  induction book with
  | nil => exact ⟨_, rfl, hstart⟩
  | @snoc log ledger ledger' record book version sequence accounts ih =>
      obtain ⟨r, hfold, h⟩ := ih
      suffices hrecord : ∃ r', restoreRecord r record = .ok r' ∧ Restored s₀ r' ledger' by
        obtain ⟨r', hr', h'⟩ := hrecord
        refine ⟨r', ?_, h'⟩
        rw [List.foldlM_append, hfold, ok_bind, List.foldlM_cons, hr', ok_bind]
        rfl
      generalize htype : record.type = type at accounts
      generalize hpayload : record.payload = payload at accounts
      unfold restoreRecord
      rw [htype]
      have hobject : ∀ {fields context}, eventPayload fields = .ok payload →
          requiredObjectPayload record context = .ok (eventObject fields) := by
        intro fields context built
        rw [requiredObjectPayload, hpayload, (eventPayload_eq_ok built).1]
      cases accounts with
      | plain hplain =>
          refine ⟨r, ?_, h⟩
          cases type <;> first | rfl | cases hplain
      | @issued command _ session valid above built =>
          refine ⟨_, ?_, h.insert .pending ?_⟩
          · simp only [hobject built, ok_bind]
            exact restoreCommand_of (readable_issued command)
              (by rw [h.session, hsession, session]) valid
          · by_contra hne
            exact lt_irrefl _ (above _ hne)
      | @attempted id entry n now _ he hlt hle built =>
          simp only [hobject built, ok_bind]
          obtain ⟨r', hr', h'⟩ := @Restored.attempt _ _ _ h _ _ _ now he (by omega)
            (by omega : n ≤ EffectLimits.maxRetryDelays + 1)
          rw [max_eq_right (le_of_lt hlt)] at h'
          exact ⟨r', hr', h'⟩
      | status he built =>
          simp only [hobject built, ok_bind]
          exact h.status he
      | committed hknown hrevision built =>
          simp only [hobject built, ok_bind]
          exact h.observe (get?_eventObject _ _) (get?_eventObject _ _) (get?_eventObject _ _)
            (get?_eventObject _ _) hrevision (.inr ⟨_, get?_eventObject _ _, hknown⟩)
      | external hrevision built =>
          simp only [hobject built, ok_bind]
          exact h.observe (get?_eventObject _ _) (get?_eventObject _ _) (get?_eventObject _ _)
            (get?_eventObject _ _) hrevision (.inl (get?_eventObject _ _))
      | checkpoint hproject hcheckpoint hvalid =>
          subst hpayload
          rcases book.replay hversion hlimit with ⟨⟨e, herror⟩, _⟩ | ⟨p, hp, replayed⟩
          · rw [hproject] at herror
            cases herror
          · rw [hproject] at hp
            cases hp
            exact replayed.restore book.wf h hsession horder sequence hcheckpoint hvalid

end Effects

end LiquidLayer
