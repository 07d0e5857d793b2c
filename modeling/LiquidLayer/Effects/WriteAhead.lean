/-
  Write-ahead dispatch, across crashes and restarts.

  `Lives policy store calls`: runtimes with one retry policy have written the store, one after
  the other, each constructed on what the one before has left or on what a crash has left of it;
  `calls` are the dispatch calls their adapters have seen. A crash may take any records that
  were not flushed.

  `write_ahead`: whenever an adapter was called, the command and this very attempt were on the
  flushed log, and they are on it still; the attempts of a command count upwards over all lives.
-/
import LiquidLayer.Effects.Transparent
import LiquidLayer.Effects.Refinement

namespace LiquidLayer

namespace Effects

open Prog

/-! ## What the log says before a call -/

/-- The command and the attempt are the last things on the log an adapter is called under. -/
structure Announced (policy : RetryPolicy) (call : DispatchCall) : Prop where
  issued : ∃ record ∈ call.log, record.type = .commandIssued ∧
    eventPayload (issuedFields call.command) = .ok record.payload
  attempted : ∃ record, call.log.getLast? = some record ∧ record.type = .commandAttempted ∧
    eventPayload (attemptFields call.command.commandId call.attempt call.now) = .ok record.payload
  bounded : call.attempt ≤ policy.retryDelays.length + 1
  early : call.attempt = 1 ∨ (elapsedSince call.command.issuedAtMs call.now).toNat <
    policy.overallTimeout.toNat

/-- A later call for the same command is a later attempt. -/
def Upwards (earlier later : DispatchCall) : Prop :=
  earlier.command.commandId = later.command.commandId → earlier.attempt < later.attempt

/-! ### The ledger and the records behind it -/

/-- Every command of the ledger is on record. -/
theorem Book.issued_mem {metadata : EventStoreMetadata} {limit : Nat} {log : List EventRecord}
    {ledger : Ledger} (book : Book metadata limit log ledger) {id : UInt64} {entry : LedgerEntry}
    (he : ledger.commands.find? id = some entry) :
    ∃ record ∈ log, record.type = .commandIssued ∧
      eventPayload (issuedFields entry.command) = .ok record.payload := by
  induction book generalizing id entry with
  | nil => cases he
  | @snoc log ledger ledger' record _ _ _ accounts ih =>
      have old : ∀ {id entry}, ledger.commands.find? id = some entry →
          ∃ r ∈ log ++ [record], r.type = .commandIssued ∧
            eventPayload (issuedFields entry.command) = .ok r.payload := by
        intro id entry he
        obtain ⟨r, hr, h⟩ := ih he
        exact ⟨r, List.mem_append_left _ hr, h⟩
      have rewritten : ∀ {id' e new}, ledger.commands.find? id' = some e →
          new.command = e.command → (ledger.commands.insert id' new).find? id = some entry →
          ∃ r ∈ log ++ [record], r.type = .commandIssued ∧
            eventPayload (issuedFields entry.command) = .ok r.payload := by
        intro id' e new he' hcommand hf
        rw [OrdMap.find?_insert] at hf
        split at hf
        · cases hf
          rw [hcommand]
          exact old he'
        · exact old hf
      generalize htype : record.type = type at accounts
      generalize hpayload : record.payload = payload at accounts
      cases accounts with
      | plain => exact old he
      | @issued command _ session valid above built =>
          simp only [Ledger.issue, OrdMap.find?_insert] at he
          split at he
          · cases he
            exact ⟨record, List.mem_append_right _ List.mem_cons_self, htype, hpayload ▸ built⟩
          · exact old he
      | @attempted _ e n _ _ he' => exact @rewritten _ e { e with attempt := n } he' rfl he
      | @status _ e status _ _ he' => exact @rewritten _ e { e with status } he' rfl he
      | committed => exact old he
      | external => exact old he
      | checkpoint => exact old he

/-- The fields of an attempt can be read back. -/
theorem attemptFields_inj {id id' : UInt64} {n n' : Nat} {now now' : UInt64} {payload : Value}
    (h : eventPayload (attemptFields id n now) = .ok payload)
    (h' : eventPayload (attemptFields id' n' now') = .ok payload)
    (hn : n < 2 ^ 64) (hn' : n' < 2 ^ 64) : id = id' ∧ n = n' := by
  have heq : eventObject (attemptFields id n now) = eventObject (attemptFields id' n' now') :=
    Value.object.inj ((eventPayload_eq_ok h).1.symm.trans (eventPayload_eq_ok h').1)
  have hid : get? (eventObject (attemptFields id n now)) "command_id" =
      some (.unsignedInteger id) := get?_eventObject _ _
  have hid' : get? (eventObject (attemptFields id' n' now')) "command_id" =
      some (.unsignedInteger id') := get?_eventObject _ _
  have hat : get? (eventObject (attemptFields id n now)) "attempt" =
      some (.unsignedInteger (UInt64.ofNat n)) := get?_eventObject _ _
  have hat' : get? (eventObject (attemptFields id' n' now')) "attempt" =
      some (.unsignedInteger (UInt64.ofNat n')) := get?_eventObject _ _
  rw [heq, hid'] at hid
  rw [heq, hat'] at hat
  refine ⟨(Value.unsignedInteger.inj (Option.some.inj hid)).symm, ?_⟩
  have hnat := congrArg UInt64.toNat (Value.unsignedInteger.inj (Option.some.inj hat))
  rw [UInt64.toNat_ofNat', UInt64.toNat_ofNat', Nat.mod_eq_of_lt hn', Nat.mod_eq_of_lt hn] at hnat
  exact hnat.symm

/-- No record takes an attempt back. -/
theorem Accounts.attempt_le {metadata : EventStoreMetadata} {limit : Nat}
    {log : List EventRecord} {ledger ledger' : Ledger} {type : EventType} {payload : Value}
    (h : Accounts metadata limit log ledger type payload ledger') {id : UInt64}
    {entry : LedgerEntry} (he : ledger.commands.find? id = some entry) :
    ∃ entry', ledger'.commands.find? id = some entry' ∧ entry.attempt ≤ entry'.attempt := by
  have rewritten : ∀ {id' old new}, ledger.commands.find? id' = some old →
      old.attempt ≤ new.attempt → ∃ entry', (ledger.commands.insert id' new).find? id =
        some entry' ∧ entry.attempt ≤ entry'.attempt := by
    intro id' old new hold hle
    rw [OrdMap.find?_insert]
    split
    · next hid =>
        subst hid
        rw [hold] at he
        cases he
        exact ⟨new, rfl, hle⟩
    · exact ⟨entry, he, le_rfl⟩
  cases h with
  | plain => exact ⟨entry, he, le_rfl⟩
  | issued session valid above =>
      have hne : id ≠ _ := (above id (by rw [he]; exact Option.some_ne_none _)).ne
      exact ⟨entry, (OrdMap.find?_insert_ne _ hne _).trans he, le_rfl⟩
  | attempted hold hlt => exact rewritten hold hlt.le
  | @status _ old status _ _ hold =>
      have hle : old.attempt ≤ ({ old with status } : LedgerEntry).attempt := le_rfl
      exact rewritten hold hle
  | committed => exact ⟨entry, he, le_rfl⟩
  | external => exact ⟨entry, he, le_rfl⟩
  | checkpoint => exact ⟨entry, he, le_rfl⟩

/-- The ledger counts every attempt on record. -/
theorem Book.attempt_mem {metadata : EventStoreMetadata} {limit : Nat} {log : List EventRecord}
    {ledger : Ledger} (book : Book metadata limit log ledger) (hlimit : limit + 1 < 2 ^ 64)
    {id : UInt64} {n : Nat} {now : UInt64} {record : EventRecord} (hr : record ∈ log)
    (htype : record.type = .commandAttempted) (hn : n < 2 ^ 64)
    (hpayload : eventPayload (attemptFields id n now) = .ok record.payload) :
    ∃ entry, ledger.commands.find? id = some entry ∧ n ≤ entry.attempt := by
  induction book with
  | nil => cases hr
  | @snoc log ledger ledger' last _ _ _ accounts ih =>
      rcases List.mem_append.mp hr with hr | hr
      · obtain ⟨entry, he, hle⟩ := ih hr
        obtain ⟨entry', he', hle'⟩ := accounts.attempt_le he
        exact ⟨entry', he', hle.trans hle'⟩
      · obtain rfl := List.mem_singleton.mp hr
        generalize record.payload = payload at accounts hpayload
        rw [htype] at accounts
        cases accounts with
        | plain plain => cases plain
        | attempted hold _ hbound built =>
            obtain ⟨rfl, rfl⟩ := attemptFields_inj hpayload built hn (by omega)
            exact ⟨_, OrdMap.find?_insert_self _ _ _, le_rfl⟩

/-! ## What one step adds -/

/-- The call a step makes, if it makes one. -/
inductive Called (s s' : RuntimeEffectsState) (call : DispatchCall) : Prop where
  | first {payload issuedPayload : Value} (number : call.command.commandId = s.nextCommand)
      (attempt : call.attempt = 1)
      (built : eventPayload (issuedFields call.command) = .ok issuedPayload)
      (builtAttempt : eventPayload (attemptFields call.command.commandId call.attempt call.now) =
        .ok payload)
      (log : call.log = s.store.records ++
        [⟨s.store.nextSequence, .commandIssued, 1, issuedPayload⟩,
          ⟨s.store.nextSequence + 1, .commandAttempted, 1, payload⟩])
  | again {state : CommandState} {payload : Value}
      (found : s.commands.find? call.command.commandId = some state)
      (command : call.command = state.command) (attempt : call.attempt = state.retryIndex + 2)
      (left : state.retryIndex < s.retry.retryDelays.length)
      (early : (elapsedSince call.command.issuedAtMs call.now).toNat <
        s.retry.overallTimeout.toNat)
      (builtAttempt : eventPayload (attemptFields call.command.commandId call.attempt call.now) =
        .ok payload)
      (log : call.log = s.store.records ++ [⟨s.store.nextSequence, .commandAttempted, 1, payload⟩])

/-- The log is flushed and `call` has been made with all of it on the medium. -/
structure Calls (s s' : RuntimeEffectsState) (call : DispatchCall) : Prop where
  calls : s'.calls = s.calls ++ [call]
  called : Called s s' call
  log : call.log = s'.store.records
  flushed : s'.store.flushed = s'.store.records.length

/-- The adapter is called once everything up to the attempt is flushed. -/
theorem attempted_called (sends : List Feedback) (state : CommandState) (now : UInt64)
    (payload : Value) (s : RuntimeEffectsState) :
    ∃ call, (attempted (.called sends) state now payload s).calls = s.calls ++ [call] ∧
      call.command = state.command ∧ call.attempt = state.retryIndex + 1 ∧ call.now = now ∧
      call.log = s.store.records ++ [⟨s.store.nextSequence, .commandAttempted, 1, payload⟩] ∧
      call.log = (attempted (.called sends) state now payload s).store.records ∧
      (attempted (.called sends) state now payload s).store.flushed =
        (attempted (.called sends) state now payload s).store.records.length :=
  ⟨_, rfl, rfl, rfl, rfl, List.take_length, List.take_length, rfl⟩

theorem Step.calls {A : Allow} {s s' : RuntimeEffectsState} (wf : WF s) (h : Step A s s') :
    s'.calls = s.calls ∨ ∃ call, Calls s s' call := by
  cases h with
  | @issued command adapter capabilities payload attemptPayload stage number nonzero last session
      valid desired free space fresh built builtAttempt =>
      cases stage with
      | refusedAttempt => exact .inl rfl
      | unflushed => exact .inl rfl
      | called sends =>
          obtain ⟨call, hcalls, hcommand, hattempt, hnow, hlog, hrecords, hflushed⟩ :=
            attempted_called sends (newCommand command adapter capabilities) command.issuedAtMs
              attemptPayload (withCommand (newCommand command adapter capabilities)
                { Effects.recorded .commandIssued payload s with nextCommand := s.nextCommand + 1 })
          have hattempt : call.attempt = 1 := hattempt
          have hcommand : call.command = command := hcommand
          refine .inr ⟨call, hcalls, .first (by rw [hcommand]; exact number) hattempt
            (by rw [hcommand]; exact built) (by rw [hcommand, hattempt, hnow]; exact builtAttempt)
            (hlog.trans ?_), hrecords, hflushed⟩
          exact List.append_assoc _ _ _
  | @retried id state now attemptPayload stage found pending early left builtAttempt =>
      cases stage with
      | refusedAttempt => exact .inl rfl
      | unflushed => exact .inl rfl
      | called sends =>
          obtain ⟨call, hcalls, hcommand, hattempt, hnow, hlog, hrecords, hflushed⟩ :=
            attempted_called sends { state with retryIndex := state.retryIndex + 1 } now
              attemptPayload (withRetry id state s)
          have hattempt : call.attempt = state.retryIndex + 2 := hattempt
          have hcommand : call.command = state.command := hcommand
          have hid : call.command.commandId = id := by rw [hcommand, wf.commandId found]
          exact .inr ⟨call, hcalls, .again (by rw [hid]; exact found) hcommand hattempt left
            (by rw [hcommand, hnow]; exact early) (by rw [hid, hattempt, hnow]; exact builtAttempt)
            hlog, hrecords, hflushed⟩
  | accept => unfold acceptedState; split <;> exact .inl rfl
  | prune found ended => rw [pruneOne_eq found ended]; exact .inl rfl
  | _ => exact .inl rfl

/-- What is flushed stays flushed. -/
theorem Step.flushed {A : Allow} {s s' : RuntimeEffectsState} (h : Step A s s')
    (hs : s.store.flushed ≤ s.store.records.length) :
    s.store.flushed ≤ s'.store.flushed ∧ s'.store.flushed ≤ s'.store.records.length := by
  have pushed : ∀ (store : EventStore) (events : List EventData) (durability : Durability),
      store.flushed ≤ store.records.length →
      store.flushed ≤ (store.push events durability).flushed ∧
        (store.push events durability).flushed ≤
          (store.push events durability).records.length := by
    intro store events durability hstore
    simp only [EventStore.push, List.length_append, EventStore.length_numbered]
    split <;> omega
  cases h with
  | quiet => exact ⟨le_rfl, hs⟩
  | store idle =>
      have hrecords := congrArg List.length idle.records
      rcases idle.flushed with hf | hf <;> dsimp only <;> omega
  | inert => exact pushed _ _ _ hs
  | transition => exact pushed _ _ _ hs
  | @accept report state p q =>
      have hfirst := pushed s.store [{ type := .reportReceived, payload := p }] .buffered hs
      by_cases hsup : state.status = .superseded
      · simp only [acceptedState, hsup, if_true]
        exact hfirst
      · simp only [acceptedState, hsup, if_false]
        have hsecond := pushed _ [{ type := .commandStatusChanged, payload := q }] .buffered
          hfirst.2
        exact ⟨hfirst.1.trans hsecond.1, hsecond.2⟩
  | torn => exact pushed _ _ _ hs
  | terminal => exact ⟨le_rfl, hs⟩
  | @issued command adapter capabilities payload attemptPayload stage =>
      have hfirst := pushed s.store [{ type := .commandIssued, payload }] .buffered hs
      have hsecond := pushed _ [{ type := .commandAttempted, payload := attemptPayload }] .buffered
        hfirst.2
      cases stage with
      | refusedAttempt => exact hfirst
      | unflushed => exact ⟨hfirst.1.trans hsecond.1, hsecond.2⟩
      | called sends => exact ⟨(hfirst.1.trans hsecond.1).trans hsecond.2, le_rfl⟩
  | skipped => exact ⟨le_rfl, hs⟩
  | unrecorded => exact ⟨le_rfl, hs⟩
  | @retried id state now attemptPayload stage =>
      have hfirst := pushed s.store [{ type := .commandAttempted, payload := attemptPayload }]
        .buffered hs
      cases stage with
      | refusedAttempt => exact ⟨le_rfl, hs⟩
      | unflushed => exact hfirst
      | called sends => exact ⟨hfirst.1.trans hfirst.2, le_rfl⟩
  | commit => exact pushed _ _ _ hs
  | observe => exact pushed _ _ _ hs
  | prune found ended => rw [pruneOne_eq found ended]; exact ⟨le_rfl, hs⟩
  | @register adapter route capabilities events commands store' new built taken =>
      have hstore : store' = (s.store.appendBatch events .durable).2 :=
        congrArg Prod.snd taken.symm
      dsimp only
      rw [hstore]
      unfold EventStore.appendBatch
      split
      · exact ⟨le_rfl, hs⟩
      · split
        · exact pushed _ _ _ hs
        · exact ⟨le_rfl, hs⟩

theorem take_prefix_take {α : Type} {l l' : List α} {n n' : Nat} (h : l <+: l') (hn : n ≤ l.length)
    (hle : n ≤ n') : l.take n <+: l'.take n' := by
  obtain ⟨rest, rfl⟩ := h
  have htake : (l ++ rest).take n = l.take n := List.take_append_of_le_length hn
  rw [← htake]
  exact List.take_prefix_take_left hle

theorem Step.durable {A : Allow} {s s' : RuntimeEffectsState} (h : Step A s s')
    (hs : s.store.flushed ≤ s.store.records.length) :
    s.store.durableRecords <+: s'.store.durableRecords := by
  obtain ⟨records, grows⟩ := h.writes
  exact take_prefix_take ⟨records, grows.log.symm⟩ hs (h.flushed hs).1

/-! ## Lives -/

/-- A restored state has made no calls. -/
theorem Restarts.calls {s₀ s : RuntimeEffectsState} {ledger : Ledger} (h : Restarts s₀ ledger)
    (hok : restore s₀ s₀.store.records = .ok s) : s.calls = s₀.calls := by
  obtain ⟨r, hr, heq⟩ := h.restore_eq
  rw [heq, finishRestore] at hok
  split at hok
  · cases hok
  split at hok
  · cases hok
  split at hok
  · cases hok
  · obtain rfl := Except.ok.inj hok
    obtain ⟨commands, latest, order, hp⟩ := pruneLoop_eq
      ((resumed r).maximumRetainedCommands - false.toNat) (resumed r).terminalOrder (resumed r)
    rw [prunedState, hp, resumed, hr.rest]


/-- Runtimes with one retry policy, one after the other, and the calls they have made. -/
inductive Lives (policy : RetryPolicy) : EventStore → List DispatchCall → Prop where
  | empty {store : EventStore} : EventStore.Empty store → store.flushed = 0 → Lives policy store []
  | ran {options : RuntimeOptions} {store : EventStore} {s₀ s : RuntimeEffectsState}
      {calls : List DispatchCall} : Lives policy store calls → options.retryPolicy = policy →
      construct options (initial options store) = .ok () s₀ →
      Reaches perform (fun _ _ => True) s₀ s → Lives policy s.store (calls ++ s.calls)
  | refused {options : RuntimeOptions} {store : EventStore} {e : Failure}
      {s : RuntimeEffectsState} {calls : List DispatchCall} : Lives policy store calls →
      construct options (initial options store) = .error e s → Lives policy s.store calls
  /-- Opened again, after a crash or not: what was flushed is there, and is there for good. -/
  | opened {store store' : EventStore} {calls : List DispatchCall} : Lives policy store calls →
      store'.metadata = store.metadata → store'.records <+: store.records →
      store.durableRecords <+: store'.durableRecords →
      store'.flushed ≤ store'.records.length →
      store'.nextSequence = UInt64.ofNat (store'.records.length + 1) → Lives policy store' calls

theorem Lives.written {policy : RetryPolicy} {store : EventStore} {calls : List DispatchCall}
    (h : Lives policy store calls) : Written store := by
  induction h with
  | empty empty => exact .empty empty
  | ran _ _ start run ih => exact .ran ih start run
  | refused _ hthrow ih => exact .refused ih hthrow
  | opened _ hmeta hlog _ _ hnext ih => exact .opened ih hmeta hlog hnext

/-- What is true of the calls made so far, and of the log. -/
structure Ahead (policy : RetryPolicy) (store : EventStore) (calls : List DispatchCall) : Prop where
  flushed : store.flushed ≤ store.records.length
  announced : ∀ call ∈ calls, call.log <+: store.durableRecords ∧ Announced policy call
  upwards : calls.Pairwise Upwards

theorem Ahead.grow {policy : RetryPolicy} {store store' : EventStore} {calls : List DispatchCall}
    (h : Ahead policy store calls) (hflushed : store'.flushed ≤ store'.records.length)
    (hlog : store.durableRecords <+: store'.durableRecords) : Ahead policy store' calls where
  flushed := hflushed
  announced call hcall := ⟨(h.announced call hcall).1.trans hlog, (h.announced call hcall).2⟩
  upwards := h.upwards

theorem Called.announced {s s' : RuntimeEffectsState} {call : DispatchCall} {ledger : Ledger}
    {skip : Prop} (h : Called s s' call)
    (book : Book s.store.metadata EffectLimits.maxRetryDelays s.store.records ledger)
    (live : Live skip s ledger) : Announced s.retry call := by
  cases h with
  | @first payload issuedPayload number attempt built builtAttempt log =>
      refine ⟨⟨⟨s.store.nextSequence, .commandIssued, 1, issuedPayload⟩, ?_, rfl, built⟩,
        ⟨⟨s.store.nextSequence + 1, .commandAttempted, 1, payload⟩, ?_, rfl, builtAttempt⟩,
        by omega, .inl attempt⟩
      · rw [log]
        exact List.mem_append_right _ List.mem_cons_self
      · rw [log, List.getLast?_append]
        rfl
  | @again state payload found command attempt left early builtAttempt log =>
      obtain ⟨entry, he, hcommand, _⟩ := live.found found
      obtain ⟨record, hr, htype, hbuilt⟩ := book.issued_mem he
      refine ⟨⟨record, ?_, htype, ?_⟩, ⟨⟨s.store.nextSequence, .commandAttempted, 1, payload⟩, ?_,
        rfl, builtAttempt⟩, by omega, .inr early⟩
      · rw [log]
        exact List.mem_append_left _ hr
      · rw [command, ← hcommand]
        exact hbuilt
      · rw [log, List.getLast?_append]
        rfl

/-- A new call is a later attempt than every call whose attempt is on the log. -/
theorem Called.upwards {s s' : RuntimeEffectsState} {call earlier : DispatchCall}
    {ledger : Ledger} {skip : Prop} (h : Called s s' call)
    (book : Book s.store.metadata EffectLimits.maxRetryDelays s.store.records ledger)
    (live : Live skip s ledger) (policy : s.retry.validate = .ok ())
    (hlog : earlier.log <+: s.store.records) (announced : Announced s.retry earlier) :
    Upwards earlier call := by
  intro hid
  obtain ⟨record, hlast, htype, hbuilt⟩ := announced.attempted
  have hmem : record ∈ s.store.records := hlog.subset (List.mem_of_getLast? hlast)
  have hbounded := announced.bounded
  have hlength := RetryPolicy.length_le_of_validate policy
  have hlimit : EffectLimits.maxRetryDelays = 32 := rfl
  obtain ⟨entry, he, hle⟩ := book.attempt_mem (by decide) hmem htype (by omega) hbuilt
  cases h with
  | first number =>
      have hbound := live.bound (by rw [he]; exact Option.some_ne_none _)
      rw [hid, number] at hbound
      exact absurd hbound (lt_irrefl _)
  | again found _ attempt =>
      obtain ⟨entry', he', _, _, hattempt, _⟩ := live.found found
      rw [hid, he'] at he
      cases he
      omega

theorem Step.ahead {s s' : RuntimeEffectsState} {prior : List DispatchCall}
    (h : Step anyStep s s') (sim : Sim anyStep.skip s)
    (ahead : Ahead s.retry s.store (prior ++ s.calls)) :
    Ahead s'.retry s'.store (prior ++ s'.calls) := by
  obtain ⟨hflushed, hflushed'⟩ := h.flushed ahead.flushed
  have hdurable := h.durable ahead.flushed
  have hgrown := ahead.grow hflushed' hdurable
  rw [h.constants.2.1]
  rcases h.calls sim.wf with hsame | ⟨call, hcalls, called, hlog, hall⟩
  · rw [hsame]
    exact hgrown
  · obtain ⟨ledger, book, live⟩ := sim.book
    rw [hcalls, ← List.append_assoc]
    refine ⟨hgrown.flushed, fun c hc => ?_, List.pairwise_append.mpr ⟨ahead.upwards,
      List.pairwise_singleton _ _, fun earlier hearlier later hlater => ?_⟩⟩
    · rcases List.mem_append.mp hc with hc | hc
      · exact hgrown.announced c hc
      · obtain rfl := List.mem_singleton.mp hc
        refine ⟨?_, called.announced book live⟩
        rw [hlog, EventStore.durableRecords, hall, List.take_length]
    · obtain rfl := List.mem_singleton.mp hlater
      obtain ⟨hbegins, announced⟩ := ahead.announced earlier hearlier
      exact called.upwards book live sim.policy (hbegins.trans (List.take_prefix _ _)) announced

theorem ahead_reaches {s s' : RuntimeEffectsState} {prior : List DispatchCall}
    (run : Reaches perform (fun _ _ => True) s s') (sim : Sim anyStep.skip s)
    (ahead : Ahead s.retry s.store (prior ++ s.calls)) :
    s'.retry = s.retry ∧ Ahead s'.retry s'.store (prior ++ s'.calls) := by
  obtain ⟨_, h⟩ : Sim anyStep.skip s' ∧
      s'.retry = s.retry ∧ Ahead s'.retry s'.store (prior ++ s'.calls) := by
    refine run.induct (P := fun s' => Sim anyStep.skip s' ∧ s'.retry = s.retry ∧
      Ahead s'.retry s'.store (prior ++ s'.calls)) ⟨sim, rfl, ahead⟩ fun op v hv _ => ?_
    have moves := perform_moves anyStep_open hv.1.wf (op.allowed_anyStep v)
    generalize perform op v = v' at moves ⊢
    induction moves with
    | refl => exact hv
    | tail _ step ih =>
        obtain ⟨hsim, hretry, hahead⟩ := ih
        exact ⟨step.sim hsim, step.constants.2.1.trans hretry, step.ahead hsim hahead⟩
  exact h

/-- A constructor makes no calls, and what it writes comes after what is there. -/
theorem Constructed.ahead {options : RuntimeOptions} {store : EventStore}
    {s : RuntimeEffectsState} {calls : List DispatchCall}
    (h : Constructed (initial options store) s) (ledgered : Ledgered store)
    (ahead : Ahead options.retryPolicy store calls) :
    s.retry = options.retryPolicy ∧ s.calls = [] ∧ Ahead s.retry s.store calls := by
  rcases h.result with ⟨hnil, _, payload, rfl⟩ | ⟨_, hok⟩
  · refine ⟨rfl, rfl, ahead.grow le_rfl ?_⟩
    have hnil : store.records = [] := hnil
    rw [EventStore.durableRecords, hnil, List.take_nil]
    exact List.nil_prefix
  · obtain ⟨ledger, book⟩ := ledgered.book
    have restarts : Restarts (initial options store) ledger :=
      ⟨fresh_initial options store, h.named, h.session, h.policy, Nat.pos_of_ne_zero h.space,
        ledgered.sequenced, book⟩
    obtain ⟨hstore, hretry, _⟩ := restarts.sim hok
    rw [hretry, hstore]
    exact ⟨rfl, restarts.calls hok, ahead⟩

/-- A constructor that throws takes nothing from the log either. -/
theorem Ahead.refused {options : RuntimeOptions} {store : EventStore} {e : Failure}
    {s : RuntimeEffectsState} {calls : List DispatchCall} {policy : RetryPolicy}
    (ahead : Ahead policy store calls)
    (hthrow : construct options (initial options store) = .error e s) :
    Ahead policy s.store calls := by
  have hwp : wp (construct options) (fun _ _ => True) (fun _ s => Ahead policy s.store calls)
      (initial options store) := by
    refine wp_construct (fun _ _ _ => trivial) ahead ?_ fun hnil _ payload => ?_
    · exact ahead.grow ahead.flushed List.prefix_rfl
    · have hnil : store.records = [] := hnil
      have hflushed : store.flushed = 0 := by
        have := ahead.flushed
        rw [hnil] at this
        exact Nat.le_zero.mp this
      refine ahead.grow ?_ ?_
      · show store.flushed ≤ _
        rw [hflushed]
        exact Nat.zero_le _
      · rw [EventStore.durableRecords, hnil, List.take_nil]
        exact List.nil_prefix
  rw [wp, hthrow] at hwp
  exact hwp

/-- However often the runtime crashes and is started again. -/
theorem write_ahead {policy : RetryPolicy} {store : EventStore} {calls : List DispatchCall}
    (lives : Lives policy store calls) : Ahead policy store calls := by
  induction lives with
  | empty empty hflushed =>
      exact ⟨by rw [hflushed]; exact Nat.zero_le _, fun _ h => (nomatch h), .nil⟩
  | @ran options store s₀ s calls lives hpolicy start run ih =>
      have ledgered := lives.written.ledgered
      have constructed := (construct_inv start).2
      subst hpolicy
      obtain ⟨hretry, hcalls, hahead⟩ := constructed.ahead ledgered ih
      have hstart : Ahead s₀.retry s₀.store (calls ++ s₀.calls) := by
        rw [hcalls, List.append_nil]
        exact hahead
      obtain ⟨hsame, h⟩ := ahead_reaches run (constructed.sim ledgered) hstart
      rwa [hsame, hretry] at h
  | refused _ hthrow ih => exact ih.refused hthrow
  | opened _ _ _ hdurable hflushed _ ih => exact ih.grow hflushed hdurable

/-! ### A lamp whose runtime dies between two attempts -/

/-- The adapter, once it can tell a repeated command. -/
def lampRegisterAgain : Op :=
  .registerAdapter (some 0) lampRoute (.ok { nativeIdempotency := true })

/-- The second runtime, on the log the first one left. -/
def lampSecond : RuntimeEffectsState :=
  after (construct lampOptions) (initial lampOptions lampOn.store)

def lampRetried : RuntimeEffectsState :=
  perform (.retryDue 200 fun _ => ⟨[], .ok ⟨.accepted, none, []⟩⟩)
    (perform lampRegisterAgain lampSecond)

theorem lampRetried_lives : Lives lampOptions.retryPolicy lampRetried.store
    (lampOn.calls ++ lampRetried.calls) := by
  have first : Lives lampOptions.retryPolicy lampOn.store ([] ++ lampOn.calls) :=
    .ran (.empty lampStore_empty rfl) rfl construct_lamp
      (.next (lampIssue (.boolean true)) (.next lampRegister .start trivial) trivial)
  exact .ran first rfl (rfl : construct lampOptions (initial lampOptions lampOn.store) =
    .ok () lampSecond) (.next _ (.next lampRegisterAgain .start trivial) trivial)

theorem write_ahead_lamp :
    Ahead lampOptions.retryPolicy lampRetried.store (lampOn.calls ++ lampRetried.calls) ∧
      (lampOn.calls ++ lampRetried.calls).map DispatchCall.attempt = [1, 2] := by
  exact ⟨write_ahead lampRetried_lives, by decide +kernel⟩

end Effects

end LiquidLayer
