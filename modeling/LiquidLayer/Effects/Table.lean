/-
  The command table: `commands`, `latestByTarget` and `terminalOrder`.

  `Listed`: every command that has ended is in `terminalOrder`. Steps (`Step`) leave that queue
  open, so the operations are gone through once more here, for the queue alone.

  * `perform_listed`: every operation keeps `Listed`.
  * `Reclaims`: what pruning may rely on, and what it leaves.
  * `table_kept`: the bookkeeping in every state of a run.
-/
import LiquidLayer.Effects.Transparent

namespace LiquidLayer

namespace Effects

open Prog

/-- Every command that has ended is in the queue. -/
def Listed (s : RuntimeEffectsState) : Prop :=
  ∀ id state, s.commands.find? id = some state → active state.status = false →
    id ∈ s.terminalOrder

/-- Nothing is lost from the queue between the two states. -/
def Lists (s s' : RuntimeEffectsState) : Prop := Listed s → Listed s'

theorem lists_refl (s : RuntimeEffectsState) : Lists s s := id

theorem lists_trans (a b c : RuntimeEffectsState) (h : Lists a b) (h' : Lists b c) : Lists a c :=
  h' ∘ h

section Writes

variable {s s' : RuntimeEffectsState}

theorem lists_of_eq (hcommands : s'.commands = s.commands)
    (horder : s'.terminalOrder = s.terminalOrder) : Lists s s' := by
  intro h id state hid hend
  rw [hcommands] at hid
  rw [horder]
  exact h id state hid hend

/-- An entry that is rewritten without ending. -/
theorem lists_insert {id : UInt64} {state : CommandState}
    (hcommands : s'.commands = s.commands.insert id state)
    (horder : s'.terminalOrder = s.terminalOrder)
    (hstate : active state.status = false → ∃ before, s.commands.find? id = some before ∧
      active before.status = false) : Lists s s' := by
  intro h j found hj hend
  rw [horder]
  rw [hcommands, OrdMap.find?_insert] at hj
  split at hj
  · next heq =>
      cases hj
      obtain ⟨before, hbefore, hended⟩ := hstate hend
      rw [heq]
      exact h id before hbefore hended
  · exact h j found hj hend

theorem lists_withStatus {id : UInt64} {state : CommandState} {status : CommandStatus}
    (found : s.commands.find? id = some state) : Lists s (withStatus id state status s) := by
  intro h j now hj hend
  unfold withStatus at hj ⊢
  dsimp only at hj ⊢
  rw [OrdMap.find?_insert] at hj
  split at hj
  · next heq =>
      cases hj
      dsimp only at hend
      rw [heq]
      cases hbefore : active state.status with
      | true =>
          rw [hend]
          exact List.mem_append_right _ List.mem_cons_self
      | false => exact h id state found hbefore
  · have hmem := h j now hj hend
    split
    · exact List.mem_append_left _ hmem
    · exact hmem

theorem lists_withTerminalReport {id : UInt64} {report : EffectReport} :
    Lists s (withTerminalReport id report s) := by
  intro h j now hj hend
  unfold withTerminalReport at hj ⊢
  dsimp only at hj ⊢
  rw [OrdMap.find?_modify] at hj
  split at hj
  · next heq =>
      cases hfound : s.commands.find? id with
      | none => rw [hfound] at hj; cases hj
      | some before =>
          rw [hfound] at hj
          cases hj
          rw [heq]
          exact h id before hfound hend
  · exact h j now hj hend

end Writes

/-! ## Pruning -/

section Pruning

variable {s : RuntimeEffectsState}

/-- A command that is still there after a turn of the loop. -/
theorem listed_pruneOne {id : UInt64} {rest : List UInt64}
    (h : ∀ j state, s.commands.find? j = some state → active state.status = false →
      j ∈ id :: rest) :
    ∀ j state, (pruneOne id s).commands.find? j = some state → active state.status = false →
      j ∈ rest := by
  intro j state hj hend
  obtain ⟨hbefore, hother⟩ := pruneOne_find? hj
  rcases List.mem_cons.mp (h j state hbefore hend) with heq | hmem
  · exact absurd heq (hother hend)
  · exact hmem

theorem listed_pruneLoop {targetSize : Nat} {order : List UInt64}
    (h : ∀ j state, s.commands.find? j = some state → active state.status = false → j ∈ order) :
    Listed (pruneLoop targetSize order s) := by
  induction order generalizing s with
  | nil => exact h
  | cons id rest ih =>
      rw [pruneLoop]
      split
      · exact ih (listed_pruneOne h)
      · exact h

/-- What pruning leaves alone: active commands, and the entries that name them. -/
structure Spares (s s' : RuntimeEffectsState) : Prop where
  commands : ∀ id state, s.commands.find? id = some state → active state.status = true →
    s'.commands.find? id = some state
  latest : ∀ key id state, s.latestByTarget.find? key = some id →
    s.commands.find? id = some state → active state.status = true →
    s'.latestByTarget.find? key = some id

theorem Spares.trans {s' s'' : RuntimeEffectsState} (h : Spares s s') (h' : Spares s' s'') :
    Spares s s'' where
  commands id state hid hact := h'.commands id state (h.commands id state hid hact) hact
  latest key id state hkey hid hact :=
    h'.latest key id state (h.latest key id state hkey hid hact) (h.commands id state hid hact)
      hact

theorem spares_pruneOne (id : UInt64) : Spares s (pruneOne id s) := by
  cases hfound : s.commands.find? id with
  | none =>
      have hsame : pruneOne id s = s := by simp only [pruneOne, hfound]
      rw [hsame]
      exact ⟨fun _ _ h _ => h, fun _ _ _ h _ _ => h⟩
  | some ended =>
      cases hended : active ended.status with
      | true =>
          have hsame : pruneOne id s = s := by simp only [pruneOne, hfound, hended, if_true]
          rw [hsame]
          exact ⟨fun _ _ h _ => h, fun _ _ _ h _ _ => h⟩
      | false =>
          rw [pruneOne_eq hfound hended]
          have hother : ∀ j state, s.commands.find? j = some state →
              active state.status = true → j ≠ id := by
            rintro j state hj hact rfl
            rw [hfound] at hj
            cases hj
            rw [hended] at hact
            cases hact
          refine ⟨fun j state hj hact => ?_, fun key j state hkey hj hact => ?_⟩
          · dsimp only
            rw [OrdMap.find?_erase, if_neg (hother j state hj hact)]
            exact hj
          · dsimp only
            split
            · next hlatest =>
                rw [OrdMap.find?_erase]
                split
                · next hsame =>
                    rw [hsame, hlatest] at hkey
                    exact absurd (Option.some.inj hkey).symm (hother j state hj hact)
                · exact hkey
            · exact hkey

theorem spares_pruneLoop (targetSize : Nat) (order : List UInt64) :
    Spares s (pruneLoop targetSize order s) := by
  induction order generalizing s with
  | nil => exact ⟨fun _ _ h _ => h, fun _ _ _ h _ _ => h⟩
  | cons id rest ih =>
      rw [pruneLoop]
      split
      · exact (spares_pruneOne id).trans ih
      · exact ⟨fun _ _ h _ => h, fun _ _ _ h _ _ => h⟩

/-- The number of active commands. -/
def activeCount (s : RuntimeEffectsState) : Nat :=
  (s.commands.entries.filter fun entry => active entry.2.status).length

/-- `prune_terminal_history` from this state. -/
structure Reclaims (s : RuntimeEffectsState) (reserveCommandSlot : Bool) : Prop where
  size : ∀ s', pruneTerminalHistory reserveCommandSlot s = .ok () s' →
    s'.commands.size ≤ s.maximumRetainedCommands - reserveCommandSlot.toNat
  spares : Spares s (after (pruneTerminalHistory reserveCommandSlot) s)
  throws : ∀ e s', pruneTerminalHistory reserveCommandSlot s = .error e s' →
    s.maximumRetainedCommands - reserveCommandSlot.toNat < activeCount s

/-- When the loop does not get down to its target, only active commands are left. -/
theorem activeCount_of_pruneLoop {targetSize : Nat} (h : Listed s)
    (hsize : targetSize < (pruneLoop targetSize s.terminalOrder s).commands.size) :
    targetSize < activeCount s := by
  rcases pruneLoop_done targetSize s.terminalOrder s with hle | hdone
  · exact absurd hle (Nat.not_le.mpr hsize)
  refine lt_of_lt_of_le hsize ?_
  let left := (pruneLoop targetSize s.terminalOrder s).commands
  have hleft : ∀ id state, left.find? id = some state →
      s.commands.find? id = some state ∧ active state.status = true := by
    intro id state hid
    obtain ⟨hbefore, hlisted⟩ := hdone hid
    refine ⟨hbefore, ?_⟩
    cases hact : active state.status with
    | true => rfl
    | false => exact absurd (h id state hbefore hact) (hlisted hact)
  have hsub : left.keys ⊆
      (s.commands.entries.filter fun entry => active entry.2.status).map Prod.fst := by
    intro id hid
    obtain ⟨state, hstate⟩ := OrdMap.mem_keys.mp hid
    obtain ⟨hbefore, hact⟩ := hleft id state hstate
    exact List.mem_map.mpr ⟨(id, state),
      List.mem_filter.mpr ⟨OrdMap.mem_entries.mpr hbefore, hact⟩, rfl⟩
  have hlen := (left.nodup_keys.subperm hsub).length_le
  rw [List.length_map] at hlen
  calc left.size = left.keys.length := (List.length_map _).symm
    _ ≤ _ := hlen

theorem reclaims_of_listed (h : Listed s) (reserveCommandSlot : Bool) :
    Reclaims s reserveCommandSlot := by
  have hrun := pruneTerminalHistory_eq reserveCommandSlot s
  refine ⟨fun s' hok => ?_, ?_, fun e s' herror => ?_⟩
  · rw [hrun] at hok
    split at hok
    · cases hok
    · next hsize =>
        cases hok
        exact Nat.le_of_not_gt hsize
  · have hafter : after (pruneTerminalHistory reserveCommandSlot) s =
        prunedState reserveCommandSlot s := by
      unfold after
      rw [hrun]
      split
      · next hok => split at hok <;> cases hok; rfl
      · next herror => split at herror <;> cases herror; rfl
    rw [hafter]
    exact spares_pruneLoop _ _
  · rw [hrun] at herror
    split at herror
    · next hsize => exact activeCount_of_pruneLoop h hsize
    · cases herror

end Pruning

/-! ## The operations -/

section Operations

theorem lists_check {α : Type} (x : Except Failure α) : Within Lists (check x) := by
  cases x with
  | ok a => exact within_pure lists_refl a
  | error e => exact within_throw lists_refl e

/-- A program that starts from a look at the state it goes on from. -/
theorem lists_get {α : Type} {f : RuntimeEffectsState → Effects α}
    (hf : ∀ s, Lists s (after (f s) s)) : Within Lists (get >>= f) := hf

/-- A program that starts from an entry of the table. -/
theorem lists_commandAt {α : Type} {id : UInt64} {f : CommandState → Effects α}
    (hf : ∀ s state, s.commands.find? id = some state → Lists s (after (f state) s)) :
    Within Lists (commandAt id >>= f) := by
  intro s
  rw [← wp_after (P := Lists s), wp_bind, commandAt, wp_bind, wp_get]
  cases hfound : s.commands.find? id with
  | none => exact (wp_throw _).mpr (lists_refl s)
  | some state => exact (wp_pure _).mpr (wp_after.mpr (hf s state hfound))

theorem lists_appendBatch (events : List EventData) (durability : Durability) :
    Within Lists (appendBatch events durability) := by
  refine lists_get fun s => ?_
  rw [← wp_after (P := Lists s), wp_bind, wp_set]
  have hset : Lists s { s with store := (s.store.appendBatch events durability).2 } :=
    lists_of_eq rfl rfl
  split
  · exact (wp_pure _).mpr hset
  · exact (wp_throw _).mpr hset

theorem lists_flush : Within Lists flush := by
  refine lists_get fun s => ?_
  rw [← wp_after (P := Lists s), wp_bind, wp_set]
  have hset : Lists s { s with store := s.store.flush.2 } := lists_of_eq rfl rfl
  split
  · exact (wp_pure _).mpr hset
  · exact (wp_throw _).mpr hset

theorem lists_record (type : EventType) (fields : List (String × Value)) :
    Within Lists (record type fields) :=
  within_bind lists_trans (lists_check _) fun _ => lists_appendBatch _ _

theorem lists_setStatus (id : UInt64) (status : CommandStatus) :
    Within Lists (setStatus id status) :=
  lists_commandAt fun _ _ found => lists_withStatus found

theorem lists_transition (id : UInt64) (status : CommandStatus) (reason : Bytes) :
    Within Lists (transition id status reason) :=
  within_bind lists_trans (lists_record _ _) fun _ => lists_setStatus _ _

theorem lists_recordStatus (id : UInt64) (reason : Bytes) :
    Within Lists (recordStatus id reason) :=
  lists_commandAt fun s _ _ => lists_record _ _ s

/-- A write that leaves the table alone. -/
theorem lists_quiet {f : RuntimeEffectsState → RuntimeEffectsState}
    (hcommands : ∀ s, (f s).commands = s.commands)
    (horder : ∀ s, (f s).terminalOrder = s.terminalOrder) :
    Within Lists (modify f : Effects Unit) :=
  within_modify fun s => lists_of_eq (hcommands s) (horder s)

theorem lists_commitAuthoritative (route : AdapterRoute) (target : EffectTarget) (value : Value)
    (revision : StateRevision) (commandId : UInt64) :
    Within Lists (commitAuthoritative route target value revision commandId) :=
  within_bind lists_trans (lists_record _ _) fun _ => lists_quiet (fun _ => rfl) fun _ => rfl

theorem lists_commitReport (report : EffectReport) (value : Value) :
    Within Lists (commitReport report value) := by
  refine lists_get fun s => ?_
  split
  · exact lists_commitAuthoritative _ _ _ _ _ s
  · split
    · exact lists_refl s
    · split
      · split
        · exact lists_refl s
        · exact lists_record _ _ s
      · exact lists_commitAuthoritative _ _ _ _ _ s

theorem lists_commitAccepted (report : EffectReport) : Within Lists (commitAccepted report) := by
  unfold commitAccepted
  refine within_ite ?_ (within_pure lists_refl _)
  split
  · exact lists_commitReport _ _
  · exact within_pure lists_refl _

theorem lists_acceptReport (report : EffectReport) (status : CommandStatus) :
    Within Lists (acceptReport report status) := by
  refine within_bind lists_trans (lists_record _ _) fun _ => ?_
  have hrest : Within Lists (do
      modify fun s => withAccepted report (withTerminalReport report.commandId report s)
      commitAccepted report) :=
    within_bind lists_trans (within_modify fun _ => lists_withTerminalReport) fun _ =>
      lists_commitAccepted report
  dsimp only
  split
  · exact within_bind lists_trans (lists_transition _ _ _) fun _ => hrest
  · exact hrest

theorem lists_applyReport (report : EffectReport) : Within Lists (applyReport report) := by
  refine within_bind lists_trans (lists_check _) fun _ => lists_get fun s => ?_
  split
  · exact lists_record _ _ s
  · split
    · exact lists_record _ _ s
    · split
      · exact lists_record _ _ s
      · split
        · split
          · exact lists_record _ _ s
          · exact lists_record _ _ s
        · split
          · exact lists_record _ _ s
          · exact lists_acceptReport _ _ s

theorem lists_applyObservation (observation : ExternalObservation) :
    Within Lists (applyObservation observation) := by
  refine within_bind lists_trans (lists_check _) fun _ => within_get fun s => ?_
  refine within_bind lists_trans (lists_record _ _) fun _ => ?_
  refine within_ite ?_ (within_pure lists_refl _)
  exact within_bind lists_trans (lists_record _ _) fun _ =>
    lists_quiet (fun _ => rfl) fun _ => rfl

theorem lists_applyDeferred (report : EffectReport) : Within Lists (applyDeferred report) :=
  within_bind lists_trans (lists_applyReport _) fun _ => lists_quiet (fun _ => rfl) fun _ => rfl

theorem lists_receiveReport (report : EffectReport) : Within Lists (receiveReport report) := by
  refine within_bind lists_trans (lists_quiet (fun _ => rfl) fun _ => rfl) fun _ => ?_
  refine within_tryCatch lists_trans (lists_applyReport _) fun e => ?_
  exact within_bind lists_trans (lists_quiet (fun _ => rfl) fun _ => rfl) fun _ =>
    within_throw lists_refl e

theorem lists_receiveObservation (observation : ExternalObservation) :
    Within Lists (receiveObservation observation) :=
  within_bind lists_trans (lists_quiet (fun _ => rfl) fun _ => rfl) fun _ =>
    lists_applyObservation _

theorem lists_processFeedback : Within Lists processFeedback := by
  refine within_get fun s => ?_
  refine within_bind lists_trans ?_ fun _ => within_bind lists_trans ?_ fun _ => ?_
  · exact within_forM lists_refl lists_trans _ fun report _ => lists_applyDeferred report
  · exact within_forM lists_refl lists_trans _ fun report _ => lists_receiveReport report
  · exact within_forM lists_refl lists_trans _ fun observation _ =>
      lists_receiveObservation observation

theorem lists_attachAdapter (adapter : Adapter) (route : AdapterRoute)
    (capabilities : AdapterCapabilities) (indeterminate : List UInt64) (id : UInt64) :
    Within Lists (attachAdapter adapter route capabilities indeterminate id) := by
  refine lists_commandAt fun s state found => ?_
  have hrest : Within Lists (if id ∈ indeterminate then setStatus id .indeterminate
      else pure PUnit.unit) :=
    within_ite (lists_setStatus _ _) (within_pure lists_refl _)
  split
  · have hattach : Lists s (withAdapter id state adapter capabilities s) :=
      lists_insert rfl rfl fun hend => ⟨state, found, hend⟩
    exact lists_trans _ _ _ hattach (hrest _)
  · exact lists_refl s

theorem lists_registerAdapter (adapter : Option Adapter) (route : AdapterRoute)
    (capabilitiesAnswer : Except Failure AdapterCapabilities) :
    Within Lists (registerAdapter adapter route capabilitiesAnswer) := by
  cases adapter with
  | none => exact within_throw lists_refl _
  | some adapter =>
      refine within_bind lists_trans (lists_check _) fun capabilities => within_get fun s => ?_
      refine within_ite (within_throw lists_refl _) ?_
      refine within_bind lists_trans ?_ fun statusEvents => ?_
      · generalize unsafeRetries s route capabilities = ids
        induction ids with
        | nil => exact within_pure lists_refl _
        | cons id ids ih =>
            rw [List.mapM_cons]
            refine within_bind lists_trans ?_ fun _ =>
              within_bind lists_trans ih fun _ => within_pure lists_refl _
            exact within_bind lists_trans (lists_check _) fun _ => within_pure lists_refl _
      · refine within_bind lists_trans (lists_quiet (fun _ => rfl) fun _ => rfl) fun _ => ?_
        refine within_bind lists_trans ?_ fun _ => ?_
        · refine within_tryCatch lists_trans (lists_appendBatch _ _) fun e => ?_
          exact within_bind lists_trans (lists_quiet (fun _ => rfl) fun _ => rfl) fun _ =>
            within_throw lists_refl e
        · exact within_forM lists_refl lists_trans _ fun id _ => lists_attachAdapter _ _ _ _ id

theorem lists_dispatchThrew (id : UInt64) (nativeIdempotency : Bool) (e : Failure) :
    Within Lists (dispatchThrew id nativeIdempotency e) :=
  within_ite (within_throw lists_refl e)
    (within_ite (lists_recordStatus _ _) (lists_transition _ _ _))

theorem lists_dispatchReturned (id : UInt64) (result : DispatchResult) :
    Within Lists (dispatchReturned id result) := by
  unfold dispatchReturned
  split
  · exact lists_transition _ _ _
  · exact lists_transition _ _ _
  · split
    · exact within_pure lists_refl _
    · refine within_get fun s => ?_
      refine within_ite (lists_applyReport _) (within_ite (lists_transition _ _ _) ?_)
      exact lists_quiet (fun _ => rfl) fun _ => rfl

/-- What `dispatch` does with the command it has found. -/
theorem lists_dispatched (id now : UInt64) (answer : DispatchAnswer) (state : CommandState) :
    Within Lists (do
      record .commandAttempted (attemptFields id (state.retryIndex + 1) now)
      flush
      modify (withCall state now answer.sends)
      match dispatchOutcome answer state.command with
      | .error e => dispatchThrew id state.capabilities.nativeIdempotency e
      | .ok result => dispatchReturned id result) := by
  refine within_bind lists_trans (lists_record _ _) fun _ => ?_
  refine within_bind lists_trans lists_flush fun _ => ?_
  refine within_bind lists_trans (lists_quiet (fun _ => rfl) fun _ => rfl) fun _ => ?_
  split
  · exact lists_dispatchThrew _ _ _
  · exact lists_dispatchReturned _ _

theorem lists_dispatch (id now : UInt64) (answer : DispatchAnswer) :
    Within Lists (dispatch id now answer) :=
  lists_commandAt fun s state _ => lists_dispatched id now answer state s

theorem lists_retryCommand (now : UInt64) (answers : UInt64 → DispatchAnswer) (id : UInt64) :
    Within Lists (retryCommand now answers id) := by
  refine within_get fun s => lists_commandAt fun s' state found => ?_
  split
  · exact lists_refl s'
  · dsimp only
    split
    · exact lists_transition _ _ _ s'
    · have hretry : Lists s' (withRetry id state s') :=
        lists_insert rfl rfl fun hend => ⟨state, found, hend⟩
      rw [← wp_after (P := Lists s'), wp_bind]
      refine wp_check (fun delay _ => ?_) fun _ => lists_refl s'
      cases delay with
      | none => exact (wp_pure _).mpr (lists_refl s')
      | some delay =>
          dsimp only
          split
          · exact (wp_pure _).mpr (lists_refl s')
          · rw [wp_bind, wp_modify]
            exact wp_after.mpr (lists_trans _ _ _ hretry (lists_dispatch _ _ _ _))

theorem lists_retryDue (now : UInt64) (answers : UInt64 → DispatchAnswer) :
    Within Lists (retryDue now answers) :=
  within_get fun _ => within_forM lists_refl lists_trans _ fun id _ => lists_retryCommand _ _ id

theorem lists_pruneTerminalHistory (reserveCommandSlot : Bool) :
    Within Lists (pruneTerminalHistory reserveCommandSlot) := by
  refine within_get fun s => within_bind lists_trans ?_ fun _ => within_get fun s' => ?_
  · exact within_modify fun _ h => listed_pruneLoop h
  · exact within_ite (within_throw lists_refl _) (within_pure lists_refl _)

theorem lists_supersedePrior (effect : ResolvedEffect) :
    Within Lists (supersedePrior effect) := by
  refine within_get fun s => ?_
  split
  · exact within_pure lists_refl _
  · refine lists_commandAt fun s' prior _ => ?_
    split
    · exact lists_refl s'
    · split
      · exact lists_refl s'
      · split
        · exact within_bind lists_trans (lists_transition _ _ _)
            (fun _ => within_pure lists_refl true) s'
        · exact lists_refl s'

theorem lists_takeCommandId : Within Lists takeCommandId := by
  refine lists_get fun s => ?_
  split
  · exact lists_refl s
  · exact lists_of_eq rfl rfl

theorem lists_issueCommand (effect : ResolvedEffect) (now : UInt64) (adapter : Adapter)
    (capabilitiesAnswer : Except Failure AdapterCapabilities) (answer : DispatchAnswer) :
    Within Lists (issueCommand effect now adapter capabilitiesAnswer answer) := by
  refine within_bind lists_trans (lists_pruneTerminalHistory true) fun _ => ?_
  refine within_bind lists_trans lists_takeCommandId fun id => within_get fun s => ?_
  refine within_bind lists_trans (lists_check _) fun _ => ?_
  refine within_bind lists_trans (lists_check _) fun capabilities => ?_
  refine within_bind lists_trans (lists_record _ _) fun _ => within_get fun s' => ?_
  refine within_ite (within_throw lists_refl _) ?_
  refine within_bind lists_trans ?_ fun _ => ?_
  · -- the new command is pending
    exact within_modify fun s => lists_insert rfl rfl fun hend => nomatch hend
  · exact within_bind lists_trans (lists_dispatch _ _ _) fun _ => within_pure lists_refl _

theorem lists_issue (effect : ResolvedEffect) (now : UInt64)
    (capabilitiesAnswer : Except Failure AdapterCapabilities) (answer : DispatchAnswer) :
    Within Lists (issue effect now capabilitiesAnswer answer) := by
  refine within_bind lists_trans (lists_check _) fun _ => within_get fun s => ?_
  split
  · exact within_throw lists_refl _
  · refine within_bind lists_trans (lists_supersedePrior _) fun proceed => ?_
    refine within_ite (within_get fun s' => ?_) (within_pure lists_refl _)
    refine within_ite (within_pure lists_refl _) ?_
    exact within_bind lists_trans (lists_issueCommand _ _ _ _ _) fun _ =>
      within_pure lists_refl _

theorem lists_clearDesire (route : AdapterRoute) (target : EffectTarget) :
    Within Lists (clearDesire route target) := by
  refine within_get fun s => ?_
  split
  · exact within_pure lists_refl _
  · refine lists_commandAt fun s' prior _ => ?_
    split
    · exact lists_transition _ _ _ s'
    · exact lists_refl s'

theorem lists_reconcileIndeterminate (route : AdapterRoute) (target : EffectTarget)
    (observedValue : Value) :
    Within Lists (reconcileIndeterminate route target observedValue) := by
  refine within_bind lists_trans (lists_check _) fun _ => within_get fun s => ?_
  split
  · exact within_throw lists_refl _
  · refine lists_commandAt fun s' state _ => ?_
    by_cases hstatus : state.status ≠ .indeterminate
    · rw [if_pos hstatus]
      exact lists_refl s'
    · rw [if_neg hstatus]
      refine within_get (fun _ => ?_) s'
      refine within_bind lists_trans (lists_check _) fun revision => within_get fun _ => ?_
      refine within_bind lists_trans (lists_transition _ _ _) fun _ => ?_
      refine within_bind lists_trans (lists_commitAuthoritative _ _ _ _ _) fun _ => ?_
      exact within_bind lists_trans (within_modify fun _ => lists_withTerminalReport) fun _ =>
        lists_flush

theorem lists_checkpoint : Within Lists checkpoint := by
  refine within_get fun s => ?_
  refine within_bind lists_trans (lists_check _) fun _ => ?_
  refine within_bind lists_trans (lists_check _) fun _ => ?_
  refine within_bind lists_trans (lists_check _) fun _ => ?_
  refine within_bind lists_trans (lists_appendBatch _ _) fun _ => ?_
  exact within_bind lists_trans lists_flush fun _ => within_pure lists_refl _

theorem perform_listed (op : Op) (s : RuntimeEffectsState) : Lists s (perform op s) := by
  cases op with
  | registerAdapter => exact lists_registerAdapter _ _ _ s
  | issue =>
      exact within_bind lists_trans (lists_issue _ _ _ _) (fun _ => within_pure lists_refl _) s
  | retryDue => exact lists_retryDue _ _ s
  | clearDesire => exact lists_clearDesire _ _ s
  | reconcileIndeterminate => exact lists_reconcileIndeterminate _ _ _ s
  | applyReport => exact lists_applyReport _ s
  | applyObservation => exact lists_applyObservation _ s
  | processFeedback => exact lists_processFeedback s
  | send => exact lists_quiet (fun _ => rfl) (fun _ => rfl) s
  | pruneTerminalHistory => exact lists_pruneTerminalHistory _ s
  | checkpoint =>
      exact within_bind lists_trans lists_checkpoint (fun _ => within_pure lists_refl _) s

end Operations

/-! ## Runs -/

/-- The bookkeeping of one state. -/
structure Kept (s : RuntimeEffectsState) : Prop where
  latest : ∀ key id, s.latestByTarget.find? key = some id →
    ∃ state, s.commands.find? id = some state ∧ state.key = key
  listed : Listed s
  reclaims : ∀ reserveCommandSlot, Reclaims s reserveCommandSlot

theorem kept_of_listed {s : RuntimeEffectsState} (wf : WF s) (h : Listed s) : Kept s :=
  ⟨fun _ _ => wf.latest, h, reclaims_of_listed h⟩

/-- Before `restore` prunes, it has put every command that has ended into the queue. -/
theorem listed_resumed (r : Restoring) : Listed (resumed r) := by
  intro id state hid hend
  refine List.mem_append_right _ (List.mem_map.mpr ⟨(id, state), List.mem_filter.mpr ?_, rfl⟩)
  exact ⟨OrdMap.mem_entries.mpr hid, by rw [hend]; rfl⟩

theorem Constructed.listed {options : RuntimeOptions} {store : EventStore}
    {s : RuntimeEffectsState} (ledgered : Ledgered store)
    (h : Constructed (initial options store) s) : Listed s := by
  rcases h.result with ⟨_, _, payload, rfl⟩ | ⟨_, hok⟩
  · exact fun _ _ h => nomatch h
  · obtain ⟨ledger, book⟩ := ledgered.book
    have restarts : Restarts (initial options store) ledger :=
      ⟨fresh_initial options store, h.named, h.session, h.policy, Nat.pos_of_ne_zero h.space,
        ledgered.sequenced, book⟩
    obtain ⟨r, hr, heq⟩ := restarts.restore_eq
    rw [heq, finishRestore] at hok
    split at hok
    · cases hok
    split at hok
    · cases hok
    split at hok
    · cases hok
    · cases hok
      exact listed_pruneLoop (listed_resumed r)

/-- The command table in every state of a run, where `issue` prunes it and where `restore`
    does. -/
theorem table_kept {options : RuntimeOptions} {store : EventStore}
    {s₀ s : RuntimeEffectsState} (written : Written store)
    (built : construct options (initial options store) = .ok () s₀)
    (run : Reaches perform (fun _ _ => True) s₀ s) :
    Kept s ∧
    (∀ effect t, supersedePrior effect s = .ok true t → Kept t) ∧
    (∀ effect now capabilities answer command t,
      issue effect now capabilities answer s = .ok command t →
        t.commands.size ≤ t.maximumRetainedCommands) ∧
    ∀ r : Restoring, Reclaims (resumed r) false := by
  obtain ⟨_, constructed⟩ := construct_inv built
  have sim : Sim True s := Sim.reaches anyStep_open (fun op s _ => op.allowed_anyStep s)
    (constructed.sim written.ledgered) run
  have listed : Listed s :=
    run.induct (constructed.listed written.ledgered) fun op s h _ => perform_listed op s h
  refine ⟨kept_of_listed sim.wf listed, ?_, ?_, fun r => reclaims_of_listed (listed_resumed r) _⟩
  · intro effect t ht
    have hmoves := (wp_ok (wp_supersedePrior anyStep_open sim.wf .refl) ht).1
    refine kept_of_listed (hmoves.of_clean.wf sim.wf) ?_
    have hafter : after (supersedePrior effect) s = t := by rw [after, ht]
    rw [← hafter]
    exact lists_supersedePrior effect s listed
  · intro effect now capabilities answer command t ht
    have hafter : perform (.issue effect now capabilities answer) s = t := by
      show after (issue effect now capabilities answer >>= fun _ => pure ()) s = t
      have hrun : (issue effect now capabilities answer >>= fun _ => pure ()) s = .ok () t := by
        simp only [bind, EStateM.bind, ht]
        rfl
      rw [after, hrun]
    have hmoves := perform_moves anyStep_open sim.wf
      (Op.allowed_anyStep (.issue effect now capabilities answer) s)
    have hroom := (hmoves.sim sim).room.1
    rw [hafter] at hroom
    exact hroom

/-- Two commands for the lamp, of which the first has ended. -/
def lampSwitched : RuntimeEffectsState :=
  [lampRegister, lampIssue (.boolean true), lampIssue (.boolean false)].foldl
    (fun s op => perform op s) lampStart

theorem table_kept_lamp : Kept lampSwitched ∧ lampSwitched.commands.size = 2 ∧
    lampSwitched.terminalOrder = [1] ∧ activeCount lampSwitched = 1 := by
  have run : Reaches perform (fun _ _ => True) lampStart lampSwitched :=
    .along .start _ fun _ _ _ => trivial
  exact ⟨(table_kept (.empty lampStore_empty) construct_lamp run).1, by decide +kernel,
    by decide +kernel, by decide +kernel⟩



end Effects

end LiquidLayer
