/-
  Every step keeps the invariant of a run (`Sim`): the log stays a book, and the state holds
  what its ledger says.

  * `Recorded.status`, `Recorded.accept`, ...: one lemma for each kind of step.
  * `Step.sim`, `Moves.sim`: the step form and the run form.
-/
import LiquidLayer.Effects.Ledger

namespace LiquidLayer

namespace Effects

/-! ## Steps -/

theorem Step.constants {A : Allow} {s s' : RuntimeEffectsState} (h : Step A s s') :
    s'.store.metadata = s.store.metadata ∧ s'.retry = s.retry ∧
      s'.maximumRetainedCommands = s.maximumRetainedCommands := by
  cases h with
  | store idle => exact ⟨idle.metadata, rfl, rfl⟩
  | issued stage => cases stage <;> exact ⟨rfl, rfl, rfl⟩
  | retried stage => cases stage <;> exact ⟨rfl, rfl, rfl⟩
  | accept => unfold acceptedState; split <;> exact ⟨rfl, rfl, rfl⟩
  | prune found ended => rw [pruneOne_eq found ended]; exact ⟨rfl, rfl, rfl⟩
  | register new built taken attached =>
      refine ⟨?_, rfl, rfl⟩
      have hstore := congrArg Prod.snd taken
      unfold EventStore.appendBatch at hstore
      split at hstore
      · simp only at hstore; rw [← hstore]
      · split at hstore
        · simp only at hstore; rw [← hstore]; rfl
        · simp only at hstore; rw [← hstore]; rfl
  | _ => exact ⟨rfl, rfl, rfl⟩

theorem Step.size {A : Allow} {s s' : RuntimeEffectsState} (h : Step A s s')
    (hroom : s.commands.size ≤ s.maximumRetainedCommands)
    (hpos : 0 < s.maximumRetainedCommands) : s'.commands.size ≤ s'.maximumRetainedCommands := by
  rw [h.constants.2.2]
  have hins : ∀ {id : UInt64} {state state' : CommandState},
      s.commands.find? id = some state → (s.commands.insert id state').size = s.commands.size := by
    intro id state state' hf
    rw [OrdMap.size_insert, OrdMap.contains, hf]
    rfl
  cases h with
  | transition found => exact (hins found).trans_le hroom
  | accept acceptable =>
      rw [acceptedState_commands acceptable.found]
      exact (hins acceptable.found).trans_le hroom
  | terminal report found =>
      exact (OrdMap.size_modify _ _ _).trans_le hroom
  | @issued command adapter capabilities _ attemptPayload stage number nonzero last session valid
      desired free space fresh =>
      obtain ⟨store, calls, feedback, he⟩ := attempted_eq stage
        (newCommand command adapter capabilities) command.issuedAtMs attemptPayload
        (withCommand (newCommand command adapter capabilities)
          { recorded .commandIssued _ s with nextCommand := s.nextCommand + 1 })
      rw [he]
      show (s.commands.insert command.commandId _).size ≤ _
      rw [OrdMap.size_insert, OrdMap.contains, fresh]
      simp only [Option.isSome_none, Bool.false_eq_true, if_false]
      omega
  | @retried id state now attemptPayload stage found =>
      obtain ⟨store, calls, feedback, he⟩ := attempted_eq stage
        { state with retryIndex := state.retryIndex + 1 } now attemptPayload (withRetry id state s)
      rw [he]
      exact (hins found).trans_le hroom
  | @prune id state found ended =>
      rw [pruneOne_eq found ended]
      have := OrdMap.size_erase_of_find? found
      dsimp only
      omega
  | register new built taken attached =>
      refine le_trans (le_of_eq (OrdMap.size_eq_of_keys fun id => ?_)) hroom
      rw [attached id, Option.map_eq_none_iff]
  | _ => exact hroom

theorem Ledger.setStatus_self {ledger : Ledger} {id : UInt64} {entry : LedgerEntry}
    {status : CommandStatus} (h : ledger.commands.find? id = some entry)
    (hs : entry.status = status) : ledger.setStatus id entry status = ledger := by
  subst hs
  show { ledger with commands := ledger.commands.insert id entry } = ledger
  rw [OrdMap.insert_of_find? h]

section Steps

variable {A : Allow} {s : RuntimeEffectsState}

theorem Recorded.inert {type : EventType} {payload : Value} {durability : Durability}
    (rec : Recorded A.skip s) (inert : Inert s type payload) (room : s.store.nextSequence ≠ 0) :
    Recorded A.skip (recorded type payload s durability) := by
  obtain ⟨ledger, book, live⟩ := rec.book
  have hlive : Live A.skip (recorded type payload s durability) ledger :=
    live.of_agrees ⟨rfl, rfl, rfl, rfl, le_rfl⟩ rfl
  refine ⟨rec.sequenced.push room _ _, ledger, book.push rec.sequenced room ?_, hlive⟩
  cases inert with
  | session => exact .plain rfl fun _ _ _ => ⟨_, rfl⟩
  | report => exact .plain rfl fun _ _ _ => ⟨_, rfl⟩
  | observation => exact .plain rfl fun _ _ _ => ⟨_, rfl⟩
  | status found built =>
      obtain ⟨entry, he, _, hs, _⟩ := live.found found
      have h : Accounts s.store.metadata EffectLimits.maxRetryDelays s.store.records ledger
          .commandStatusChanged payload (ledger.setStatus _ entry _) := .status he built
      rwa [Ledger.setStatus_self he hs] at h
  | checkpoint hp hpay hsess => exact .checkpoint hp hpay hsess

/-- A status change that is recorded first. -/
theorem Recorded.status {id : UInt64} {state state' : CommandState} {status : CommandStatus}
    {reason : Bytes} {payload : Value} {s' : RuntimeEffectsState} (rec : Recorded A.skip s)
    (found : s.commands.find? id = some state)
    (built : eventPayload (statusFields id status reason) = .ok payload)
    (room : s.store.nextSequence ≠ 0)
    (hstore : s'.store = s.store.push [{ type := .commandStatusChanged, payload }] .buffered)
    (h : Agrees s s') (hc : s'.commands = s.commands.insert id state')
    (hcommand : state'.command = state.command) (hstatus : state'.status = status)
    (hretry : state'.retryIndex = state.retryIndex) : Recorded A.skip s' := by
  obtain ⟨ledger, book, live⟩ := rec.book
  obtain ⟨entry, he, hcom, _, hle, htight⟩ := live.found found
  refine ⟨hstore ▸ rec.sequenced.push room _ _, ledger.setStatus id entry status, ?_, ?_⟩
  · rw [hstore]
    exact book.push rec.sequenced room (.status he built)
  · exact live.rewrite h state' { entry with status } found he hc hcommand rfl hstatus.symm
      (hretry ▸ hle) (fun hz => hretry.trans (htight (h.of_refused_zero hz)))
      (hretry ▸ live.retries found)

/-- A change the ledger does not see. -/
theorem Recorded.unseen {id : UInt64} {state state' : CommandState}
    {s' : RuntimeEffectsState} (rec : Recorded A.skip s)
    (found : s.commands.find? id = some state) (hstore : s'.store = s.store) (h : Agrees s s')
    (hc : s'.commands = s.commands.insert id state')
    (hcommand : state'.command = state.command) (hstatus : state'.status = state.status)
    (hretry : state'.retryIndex = state.retryIndex) : Recorded A.skip s' := by
  obtain ⟨ledger, book, live⟩ := rec.book
  obtain ⟨entry, he, hcom, hs, hle, htight⟩ := live.found found
  refine ⟨hstore ▸ rec.sequenced, ledger, by rw [hstore]; exact book, ?_⟩
  have := live.rewrite h state' entry found he hc hcommand rfl (hs.trans hstatus.symm) (hretry ▸ hle)
      (fun hz => hretry.trans (htight (h.of_refused_zero hz)))
      (hretry ▸ live.retries found)
  rwa [OrdMap.insert_of_find? he] at this

/-- A report on record. -/
theorem Recorded.report {payload : Value} (rec : Recorded A.skip s)
    (room : s.store.nextSequence ≠ 0) :
    Recorded A.skip (recorded .reportReceived payload s) := by
  obtain ⟨ledger, book, live⟩ := rec.book
  exact ⟨rec.sequenced.push room _ _, ledger,
    book.push rec.sequenced room (.plain rfl fun _ _ _ => ⟨_, rfl⟩),
    live.of_agrees ⟨rfl, rfl, rfl, rfl, le_rfl⟩ rfl⟩

theorem Recorded.accept {report : EffectReport} {state : CommandState}
    {reportPayload statusPayload : Value} (rec : Recorded A.skip s)
    (acceptable : Acceptable s report state)
    (built : eventPayload (statusFields report.commandId report.status report.diagnostic) =
      .ok statusPayload)
    (room : s.store.nextSequence ≠ 0)
    (room' : state.status ≠ .superseded → s.store.nextSequence + 1 ≠ 0) :
    Recorded A.skip (acceptedState report state reportPayload statusPayload s) := by
  have rec' : Recorded A.skip (recorded .reportReceived reportPayload s) := rec.report room
  have hcommands := acceptedState_commands acceptable.found reportPayload statusPayload
  by_cases hsup : state.status = .superseded
  · simp only [hsup, if_true] at hcommands
    refine rec'.unseen acceptable.found ?_ ?_ hcommands rfl hsup.symm rfl
    · simp only [acceptedState, hsup, if_true]
      rfl
    · simp only [acceptedState, hsup, if_true]
      exact ⟨rfl, rfl, rfl, rfl, le_rfl⟩
  · simp only [hsup, if_false] at hcommands
    refine rec'.status acceptable.found built (room' hsup) ?_ ?_ hcommands rfl rfl rfl
    · simp only [acceptedState, hsup, if_false]
      rfl
    · simp only [acceptedState, hsup, if_false]
      exact ⟨rfl, rfl, rfl, rfl, le_rfl⟩

/-- Nothing has changed but what is flushed, counted or queued. -/
theorem Recorded.of_agrees {s' : RuntimeEffectsState} (rec : Recorded A.skip s)
    (h : Agrees s s') (hc : s'.commands = s.commands) (idle : Idle s.store s'.store) :
    Recorded A.skip s' := by
  obtain ⟨ledger, book, live⟩ := rec.book
  refine ⟨idle.sequenced rec.sequenced, ledger, ?_, live.of_agrees h hc⟩
  rw [idle.metadata, idle.records]
  exact book

/-- The stages of a dispatch, once the attempt is on record. -/
theorem Recorded.stage {stage : Stage} {state : CommandState} {now : UInt64} {payload : Value}
    (rec : Recorded A.skip (recorded .commandAttempted payload s))
    (hstage : stage ≠ .refusedAttempt) : Recorded A.skip (attempted stage state now payload s) := by
  cases stage with
  | refusedAttempt => exact absurd rfl hstage
  | unflushed =>
      exact rec.of_agrees ⟨rfl, rfl, rfl, rfl, le_rfl⟩ rfl ⟨rfl, rfl, rfl, .inl rfl, le_rfl⟩
  | called sends =>
      exact rec.of_agrees ⟨rfl, rfl, rfl, rfl, le_rfl⟩ rfl ⟨rfl, rfl, rfl, .inr rfl, le_rfl⟩

/-- An attempt on record, and the retry index that goes with it. -/
theorem Live.attempt {skip : Prop} {ledger : Ledger} {id : UInt64} {state : CommandState}
    {entry : LedgerEntry} {payload : Value} {n : Nat} (live : Live skip s ledger)
    (found : s.commands.find? id = some state) (he : ledger.commands.find? id = some entry)
    (hs : entry.status = state.status) (hn : 1 ≤ n) (hle : n ≤ EffectLimits.maxRetryDelays + 1) :
    Live skip (recorded .commandAttempted payload
      { s with commands := s.commands.insert id { state with retryIndex := n - 1 } })
      (ledger.attempt id entry n) := by
  have hagrees : Agrees s (recorded .commandAttempted payload
      { s with commands := s.commands.insert id { state with retryIndex := n - 1 } }) :=
    ⟨rfl, rfl, rfl, rfl, le_rfl⟩
  exact live.rewrite hagrees { state with retryIndex := n - 1 } { entry with attempt := n } found
    he rfl rfl rfl hs (by dsimp only; omega) (fun _ => rfl) (by dsimp only; omega)

theorem Recorded.retried {id : UInt64} {state : CommandState} {now : UInt64} {payload : Value}
    {stage : Stage} (rec : Recorded A.skip s) (policy : s.retry.validate = .ok ())
    (found : s.commands.find? id = some state) (left : state.retryIndex < s.retry.retryDelays.length)
    (built : eventPayload (attemptFields id (state.retryIndex + 2) now) = .ok payload)
    (room : stage ≠ .refusedAttempt → s.store.nextSequence ≠ 0) :
    Recorded A.skip (attempted stage { state with retryIndex := state.retryIndex + 1 } now
      payload (withRetry id state s)) := by
  obtain ⟨ledger, book, live⟩ := rec.book
  obtain ⟨entry, he, hcom, hs, hle, htight⟩ := live.found found
  have left := lt_of_lt_of_le left (RetryPolicy.length_le_of_validate policy)
  by_cases hstage : stage = .refusedAttempt
  · subst hstage
    refine ⟨(idle_refuse s.store).sequenced rec.sequenced, ledger, book, ?_⟩
    have hagrees : Agrees s (attempted .refusedAttempt
        { state with retryIndex := state.retryIndex + 1 } now payload (withRetry id state s)) :=
      ⟨rfl, rfl, rfl, rfl, Nat.le_succ _⟩
    have := live.rewrite hagrees { state with retryIndex := state.retryIndex + 1 } entry found he
      rfl rfl rfl hs (Nat.le_succ_of_le hle) (fun hz => absurd hz (Nat.succ_ne_zero _)) left
    rwa [OrdMap.insert_of_find? he] at this
  · refine Recorded.stage ?_ hstage
    have room := room hstage
    refine ⟨rec.sequenced.push room _ _, ledger.attempt id entry (state.retryIndex + 2),
      book.push rec.sequenced room (.attempted he (by omega) (by omega) built), ?_⟩
    exact live.attempt found he hs (Nat.le_add_left 1 _) (Nat.succ_le_succ left)

/-- A new command enters the ledger and the state. -/
theorem Live.issued {skip : Prop} {ledger : Ledger} {command : EffectCommand} {adapter : Adapter}
    {capabilities : AdapterCapabilities} {payload : Value} (wf : WF s) (live : Live skip s ledger)
    (number : command.commandId = s.nextCommand) (last : s.nextCommand ≠ maxU64) :
    Live skip (withCommand (newCommand command adapter capabilities)
      { recorded .commandIssued payload s with nextCommand := s.nextCommand + 1 })
      (ledger.issue command) := by
  have hnew : ledger.commands.find? command.commandId = none := by
    by_contra hne
    exact absurd (number ▸ live.bound hne) (lt_irrefl _)
  have hlt : s.nextCommand < s.nextCommand + 1 := by
    unfold maxU64 at last
    grind
  have hbelow : ∀ {id entry}, ledger.commands.find? id = some entry → id < command.commandId := by
    intro id entry hf
    rw [number]
    exact live.bound (by rw [hf]; exact Option.some_ne_none _)
  refine ⟨fun {id st} hf => ?_, fun {id e} hf ha => ?_, fun {id} hf => ?_,
    fun {k id} hl {id' e} hf hk => ?_, fun {id st} hf hmax => ?_, ?_, live.observed,
    live.revisions, fun {id st} hf => ?_⟩
  · simp only [withCommand, newCommand, recorded, OrdMap.find?_insert] at hf
    simp only [Ledger.issue, OrdMap.find?_insert]
    split at hf
    · next hi =>
        cases hf
        rw [if_pos hi]
        exact ⟨_, rfl, rfl, rfl, Nat.zero_le _, fun _ => rfl⟩
    · next hi =>
        rw [if_neg hi]
        exact live.found hf
  · simp only [Ledger.issue, OrdMap.find?_insert] at hf
    simp only [withCommand, newCommand, recorded, OrdMap.find?_insert]
    split at hf
    · next hi => rw [if_pos hi]; exact Option.some_ne_none _
    · next hi => rw [if_neg hi]; exact live.active hf ha
  · simp only [Ledger.issue, OrdMap.find?_insert] at hf
    show id < s.nextCommand + 1
    split at hf
    · next hi => rw [hi, number]; exact hlt
    · exact lt_trans (live.bound hf) hlt
  · simp only [withCommand, newCommand, recorded, OrdMap.find?_insert] at hl
    simp only [Ledger.issue, OrdMap.find?_insert] at hf
    split at hl
    · next hkey =>
        cases hl
        split at hf
        · next hi => exact le_of_eq hi
        · exact le_of_lt (hbelow hf)
    · next hkey =>
        split at hf
        · cases hf
          exact absurd hk.symm hkey
        · exact live.latest hl hf hk
  · simp only [withCommand, newCommand, recorded, OrdMap.find?_insert] at hf ⊢
    split at hf
    · next hi =>
        cases hf
        rw [if_pos rfl, hi]
    · next hi =>
        -- an older command of the new command's target is not its latest
        have hne : st.key ≠ command.effect.key := by
          intro hk
          have hle : command.commandId ≤ id := hmax (OrdMap.find?_insert_self _ _ _) hk.symm
          have := wf.issued hf
          rw [← number] at this
          exact absurd this (not_lt.mpr hle)
        refine (if_neg hne).trans ?_
        refine live.indexed hf fun {id' e} hf' hk' => ?_
        refine hmax (?_ : (ledger.issue command).commands.find? id' = some e) hk'
        simp only [Ledger.issue, OrdMap.find?_insert]
        split
        · next hi' => rw [hi', hnew] at hf'; cases hf'
        · exact hf'
  · refine .inr (.inr (.inr ?_))
    show (ledger.commands.insert command.commandId _).find? (s.nextCommand + 1 - 1) ≠ none
    have : s.nextCommand + 1 - 1 = command.commandId := by rw [number]; grind
    rw [this, OrdMap.find?_insert_self]
    exact Option.some_ne_none _
  · simp only [withCommand, newCommand, recorded, OrdMap.find?_insert] at hf
    split at hf
    · cases hf; exact Nat.zero_le _
    · exact live.retries hf

/-- A new observed value on both sides. -/
theorem Live.observe {skip : Prop} {s' : RuntimeEffectsState} {ledger : Ledger}
    {key : TargetKey} {value : Value} {revision : StateRevision} (live : Live skip s ledger)
    (hcommands : s'.commands = s.commands) (hlatest : s'.latestByTarget = s.latestByTarget)
    (hnext : s'.nextCommand = s.nextCommand) (hrefused : s'.store.refused = s.store.refused)
    (hobserved : s'.observed = s.observed.insert key value)
    (hrevisions : s'.observedRevisions = s.observedRevisions.insert key revision) :
    Live skip s' (ledger.observe key value revision) where
  found hst := by rw [hcommands] at hst; rw [hrefused]; exact live.found hst
  active he ha := by rw [hcommands]; exact live.active he ha
  bound he := by rw [hnext]; exact live.bound he
  latest hl := by rw [hlatest] at hl; exact live.latest hl
  indexed hst hmax := by
    rw [hcommands] at hst
    rw [hlatest]
    exact live.indexed hst hmax
  next := by rw [hrefused, hnext]; exact live.next
  observed := by rw [hobserved, live.observed]; rfl
  revisions := by rw [hrevisions, live.revisions]; rfl
  retries hst := by rw [hcommands] at hst; exact live.retries hst

/-- An ended command leaves the state; the ledger keeps it. -/
theorem Live.prune {skip : Prop} {ledger : Ledger} {id : UInt64} {state : CommandState}
    (live : Live skip s ledger) (found : s.commands.find? id = some state)
    (ended : LiquidLayer.active state.status = false) : Live skip (pruneOne id s) ledger := by
  rw [pruneOne_eq found ended]
  have hsub : ∀ {id' st}, (s.commands.erase id).find? id' = some st →
      id' ≠ id ∧ s.commands.find? id' = some st := by
    intro id' st hf
    rw [OrdMap.find?_erase] at hf
    split at hf
    · cases hf
    · next hi => exact ⟨hi, hf⟩
  refine ⟨fun hf => live.found (hsub hf).2, fun {id' e} hf ha => ?_, live.bound,
    fun {k id'} hl => ?_, fun {id' st} hf hmax => ?_, live.next, live.observed, live.revisions,
    fun hf => live.retries (hsub hf).2⟩
  · simp only [OrdMap.find?_erase]
    split
    · next hi =>
        -- the ledger agrees that the pruned command has ended
        obtain ⟨entry, he, _, hs, _⟩ := live.found found
        rw [hi, he] at hf
        cases hf
        rw [hs, ended] at ha
        cases ha
    · exact live.active hf ha
  · refine live.latest ?_
    simp only at hl
    split at hl
    · rw [OrdMap.find?_erase] at hl
      split at hl
      · cases hl
      · exact hl
    · exact hl
  · obtain ⟨hne, hst⟩ := hsub hf
    have hl := live.indexed hst hmax
    simp only
    split
    · next hold =>
        rw [OrdMap.find?_erase, if_neg]
        · exact hl
        · intro hk
          rw [hk, hold] at hl
          exact hne (Option.some.inj hl).symm
    · exact hl

/-! ## Registration: a batch of status changes -/

/-- The commands `ids` become indeterminate. -/
def Ledger.suspend (ledger : Ledger) (ids : List UInt64) : Ledger :=
  { ledger with
    commands := ids.foldl
      (fun commands id => commands.modify id fun entry => { entry with status := .indeterminate })
      ledger.commands }

theorem Ledger.find?_suspend (ledger : Ledger) (ids : List UInt64) (id : UInt64) :
    (ledger.suspend ids).commands.find? id = (ledger.commands.find? id).map fun entry =>
      if id ∈ ids then { entry with status := .indeterminate } else entry := by
  simp only [Ledger.suspend]
  induction ids generalizing ledger with
  | nil => simp
  | cons first ids ih =>
      rw [List.foldl_cons,
        ih { ledger with commands := ledger.commands.modify first _ }, OrdMap.find?_modify]
      by_cases hid : id = first
      · subst hid
        cases ledger.commands.find? id <;> simp
      · simp [hid]

/-- A batch of status changes appended to a book. -/
theorem Book.suspend {metadata : EventStoreMetadata} {limit : Nat} {ids : List UInt64}
    {events : List EventData} {reason : Bytes}
    (built : List.Forall₂ (fun id event => event.type = .commandStatusChanged ∧
      event.version = 1 ∧ eventPayload (statusFields id .indeterminate reason) =
        .ok event.payload) ids events)
    {log : List EventRecord} {ledger : Ledger} {first : RecordId}
    (book : Book metadata limit log ledger)
    (known : ∀ id ∈ ids, ledger.commands.find? id ≠ none)
    (number : events ≠ [] → first.toNat = log.length + 1)
    (fits : log.length + events.length < 2 ^ 64) :
    Book metadata limit (log ++ EventStore.numbered first events) (ledger.suspend ids) := by
  induction built generalizing log ledger first with
  | nil => simpa [EventStore.numbered, Ledger.suspend] using book
  | @cons id event ids events hevent built ih =>
      obtain ⟨htype, hversion, hpayload⟩ := hevent
      obtain ⟨entry, he⟩ := Option.ne_none_iff_exists'.mp (known id (List.mem_cons_self ..))
      have hfirst := number (List.cons_ne_nil _ _)
      have hset : ledger.setStatus id entry .indeterminate = ledger.suspend [id] := by
        simp only [Ledger.suspend, Ledger.setStatus, List.foldl_cons, List.foldl_nil,
          modify_of_find? he]
      have book' : Book metadata limit
          (log ++ [⟨first, event.type, event.version, event.payload⟩]) (ledger.suspend [id]) := by
        refine .snoc book hversion hfirst ?_
        simp only [htype, ← hset]
        exact .status he hpayload
      have hlen : (log ++ [(⟨first, event.type, event.version, event.payload⟩ : EventRecord)]).length
          = log.length + 1 := by simp
      rw [List.length_cons] at fits
      rw [EventStore.numbered, ← List.singleton_append, ← List.append_assoc]
      refine ih book' ?_ ?_ ?_
      · intro id' hid'
        rw [Ledger.find?_suspend, Ne, Option.map_eq_none_iff]
        exact known id' (List.mem_cons_of_mem _ hid')
      · intro _
        rw [hlen, UInt64.toNat_add, hfirst, UInt64.toNat_one]
        have : events.length ≠ 0 := by simpa using ‹events ≠ []›
        omega
      · rw [hlen]
        omega

/-- What a store that takes a batch has room for. -/
theorem Sequenced.admitted {store : EventStore} {events : List EventData} (h : Sequenced store)
    (admits : store.admits events = true) (hne : events ≠ []) :
    store.nextSequence.toNat = store.records.length + 1 ∧
      store.records.length + events.length < 2 ^ 64 := by
  simp only [EventStore.admits, Bool.and_eq_true, decide_eq_true_eq, bne_iff_ne] at admits
  obtain ⟨⟨⟨_, hzero⟩, hroom⟩, _⟩ := admits
  obtain ⟨hnext, _⟩ := h.toNat_of_ne_zero hzero
  have hlen : events.length ≠ 0 := by simpa using hne
  have hmax : maxU64.toNat = 2 ^ 64 - 1 := rfl
  refine ⟨hnext, ?_⟩
  omega

theorem Recorded.register {adapter : Adapter} {route : AdapterRoute}
    {capabilities : AdapterCapabilities} {events : List EventData}
    {commands : OrdMap UInt64 CommandState} {store' : EventStore} (rec : Recorded A.skip s)
    (built : List.Forall₂ (fun id event => event.type = .commandStatusChanged ∧
      event.version = 1 ∧ eventPayload
        (statusFields id .indeterminate (restartReason capabilities)) = .ok event.payload)
      (unsafeRetries s route capabilities) events)
    (taken : s.store.appendBatch events .durable = (true, store'))
    (attached : ∀ id, commands.find? id = (s.commands.find? id).map
      (registeredCommand adapter route capabilities (unsafeRetries s route capabilities) id)) :
    Recorded A.skip { s with
      adapters := s.adapters.insert route.value adapter
      commands := commands
      store := store' } := by
  obtain ⟨ledger, book, live⟩ := rec.book
  have known : ∀ id ∈ unsafeRetries s route capabilities, ledger.commands.find? id ≠ none := by
    intro id hid
    obtain ⟨state, hst, _⟩ := of_mem_unsafeRetries hid
    obtain ⟨entry, he, _⟩ := live.found hst
    rw [he]
    exact Option.some_ne_none _
  have hstore : Sequenced store' ∧ store'.refused = s.store.refused ∧
      Book store'.metadata EffectLimits.maxRetryDelays store'.records
        (ledger.suspend (unsafeRetries s route capabilities)) := by
    unfold EventStore.appendBatch at taken
    split at taken
    · next hempty =>
        obtain rfl : s.store = store' := congrArg Prod.snd taken
        rw [List.isEmpty_iff] at hempty
        subst hempty
        rw [List.forall₂_nil_right_iff.mp built]
        exact ⟨rec.sequenced, rfl, book⟩
    · next hempty =>
        rw [List.isEmpty_iff] at hempty
        split at taken
        · next admits =>
            obtain rfl : s.store.push events .durable = store' := congrArg Prod.snd taken
            obtain ⟨hnext, hfits⟩ := rec.sequenced.admitted admits hempty
            refine ⟨⟨?_, ?_⟩, rfl, book.suspend built known (fun _ => hnext) hfits⟩
            · simp only [EventStore.push, List.length_append, EventStore.length_numbered,
                UInt64.toNat_add, hnext, UInt64.toNat_ofNat']
              omega
            · simpa only [EventStore.push, List.length_append,
                EventStore.length_numbered] using hfits
        · cases taken
  refine ⟨hstore.1, _, hstore.2.2, ?_⟩
  have hagrees : Agrees s { s with
      adapters := s.adapters.insert route.value adapter
      commands := commands
      store := store' } := ⟨rfl, rfl, rfl, rfl, hstore.2.1.ge⟩
  refine live.pointwise hagrees _ _ attached (ledger.find?_suspend _) rfl rfl ?_ ?_ ?_ ?_
  · intro id state hst
    have hr := live.retries hst
    unfold registeredCommand
    split <;> exact ⟨rfl, hr⟩
  · intro id entry _
    split <;> rfl
  · intro id state entry hst _ hs hle htight
    unfold registeredCommand
    by_cases hid : id ∈ unsafeRetries s route capabilities
    · obtain ⟨state', hst', hroute, _⟩ := of_mem_unsafeRetries hid
      rw [hst] at hst'
      cases hst'
      simp only [hid, if_true, hroute]
      exact ⟨trivial, hle, htight⟩
    · simp only [hid, if_false]
      split <;> exact ⟨hs, hle, htight⟩
  · intro id entry hnone _
    rw [if_neg]
    intro hid
    obtain ⟨state, hst, _⟩ := of_mem_unsafeRetries hid
    rw [hnone] at hst
    cases hst

/-! ## Issuing and observing -/

theorem Recorded.issued {command : EffectCommand} {adapter : Adapter}
    {capabilities : AdapterCapabilities} {payload attemptPayload : Value} {stage : Stage}
    (rec : Recorded A.skip s) (wf : WF s) (session : command.sessionId = s.store.metadata.session)
    (number : command.commandId = s.nextCommand) (last : s.nextCommand ≠ maxU64)
    (valid : validateEffectCommand command = .ok ())
    (built : eventPayload (issuedFields command) = .ok payload)
    (builtAttempt : eventPayload (attemptFields command.commandId 1 command.issuedAtMs) =
      .ok attemptPayload)
    (room : s.store.nextSequence ≠ 0)
    (room' : stage ≠ .refusedAttempt → s.store.nextSequence + 1 ≠ 0) :
    Recorded A.skip (attempted stage (newCommand command adapter capabilities)
      command.issuedAtMs attemptPayload
      (withCommand (newCommand command adapter capabilities)
        { recorded .commandIssued payload s with nextCommand := s.nextCommand + 1 })) := by
  obtain ⟨ledger, book, live⟩ := rec.book
  have hbelow : ∀ id, ledger.commands.find? id ≠ none → id < command.commandId := by
    intro id hid
    rw [number]
    exact live.bound hid
  have book₁ : Book s.store.metadata EffectLimits.maxRetryDelays
      (s.store.push [{ type := .commandIssued, payload }] .buffered).records
      (ledger.issue command) :=
    book.push rec.sequenced room (.issued session valid hbelow built)
  have live₁ : Live A.skip (withCommand (newCommand command adapter capabilities)
      { recorded .commandIssued payload s with nextCommand := s.nextCommand + 1 })
      (ledger.issue command) := live.issued wf number last
  have seq₁ := rec.sequenced.push room { type := .commandIssued, payload } .buffered
  by_cases hstage : stage = .refusedAttempt
  · subst hstage
    exact ⟨(idle_refuse _).sequenced seq₁, _, book₁,
      live₁.of_agrees ⟨rfl, rfl, rfl, rfl, Nat.le_succ _⟩ rfl⟩
  · refine Recorded.stage ?_ hstage
    have he : (ledger.issue command).commands.find? command.commandId =
        some ⟨command, .pending, 0⟩ := OrdMap.find?_insert_self _ _ _
    refine ⟨seq₁.push (room' hstage) _ _, _, book₁.push seq₁ (room' hstage)
      (.attempted he Nat.zero_lt_one (Nat.le_add_left 1 _) builtAttempt), ?_⟩
    have hfound : (withCommand (newCommand command adapter capabilities)
        { recorded .commandIssued payload s with nextCommand := s.nextCommand + 1 }).commands.find?
          command.commandId = some (newCommand command adapter capabilities) :=
      OrdMap.find?_insert_self _ _ _
    have hlive := @Live.attempt _ A.skip _ _ _ _ attemptPayload 1 live₁ hfound he rfl le_rfl
      (Nat.le_add_left 1 _)
    -- the retry index is what it was
    have hsame : ({ newCommand command adapter capabilities with retryIndex := 1 - 1 } :
        CommandState) = newCommand command adapter capabilities := rfl
    rwa [hsame, OrdMap.insert_of_find? hfound] at hlive

theorem Recorded.observe {key : TargetKey} {value : Value} {revision : StateRevision}
    (payload : Value) {s' : RuntimeEffectsState} (rec : Recorded A.skip s)
    (room : s.store.nextSequence ≠ 0)
    (hstore : s'.store = s.store.push [{ type := .observedStateChanged, payload }] .buffered)
    (accounts : ∀ {ledger}, Live A.skip s ledger →
      Accounts s.store.metadata EffectLimits.maxRetryDelays s.store.records ledger
        .observedStateChanged payload (ledger.observe key value revision))
    (hcommands : s'.commands = s.commands) (hlatest : s'.latestByTarget = s.latestByTarget)
    (hnext : s'.nextCommand = s.nextCommand)
    (hobserved : s'.observed = s.observed.insert key value)
    (hrevisions : s'.observedRevisions = s.observedRevisions.insert key revision) :
    Recorded A.skip s' := by
  obtain ⟨ledger, book, live⟩ := rec.book
  refine ⟨hstore ▸ rec.sequenced.push room _ _, ledger.observe key value revision, ?_,
    live.observe hcommands hlatest hnext (by rw [hstore]; rfl) hobserved hrevisions⟩
  rw [hstore]
  exact book.push rec.sequenced room (accounts live)

/-- A command number is taken in vain. -/
theorem Recorded.skip {s' : RuntimeEffectsState} (rec : Recorded A.skip s)
    (last : s.nextCommand ≠ maxU64) (hnext : s'.nextCommand = s.nextCommand + 1)
    (hcommands : s'.commands = s.commands) (hlatest : s'.latestByTarget = s.latestByTarget)
    (hobserved : s'.observed = s.observed) (hrevisions : s'.observedRevisions = s.observedRevisions)
    (idle : Idle s.store s'.store)
    (reason : A.skip ∨ s'.store.refused ≠ 0) : Recorded A.skip s' := by
  obtain ⟨ledger, book, live⟩ := rec.book
  refine ⟨idle.sequenced rec.sequenced, ledger, ?_, ?_⟩
  · rw [idle.metadata, idle.records]
    exact book
  have hlt : s.nextCommand < s.nextCommand + 1 := by
    unfold maxU64 at last
    grind
  refine ⟨fun hst => ?_, fun he ha => ?_, fun hid => ?_, fun hl => ?_, fun hst hmax => ?_, ?_,
    by rw [hobserved]; exact live.observed, by rw [hrevisions]; exact live.revisions,
    fun hst => ?_⟩
  · rw [hcommands] at hst
    obtain ⟨entry, he, h1, h2, h3, h4⟩ := live.found hst
    exact ⟨entry, he, h1, h2, h3, fun hz => h4 (Nat.le_zero.mp (hz ▸ idle.refused))⟩
  · rw [hcommands]; exact live.active he ha
  · rw [hnext]
    exact lt_trans (live.bound hid) hlt
  · rw [hlatest] at hl; exact live.latest hl
  · rw [hcommands] at hst
    rw [hlatest]
    exact live.indexed hst hmax
  · rcases reason with h | h
    · exact .inl h
    · exact .inr (.inl h)
  · rw [hcommands] at hst
    exact live.retries hst

/-! ## The step and the run -/

theorem Step.recorded {s' : RuntimeEffectsState} (h : Step A s s') (sim : Sim A.skip s) :
    Recorded A.skip s' := by
  have hrec := sim.toRecorded
  have same : ∀ {s' : RuntimeEffectsState}, Agrees s s' → s'.commands = s.commands →
      Idle s.store s'.store → Recorded A.skip s' := fun hagrees hc idle =>
    hrec.of_agrees hagrees hc idle
  cases h with
  | quiet => exact same ⟨rfl, rfl, rfl, rfl, le_rfl⟩ rfl ⟨rfl, rfl, rfl, .inl rfl, le_rfl⟩
  | store idle => exact same ⟨rfl, rfl, rfl, rfl, idle.refused⟩ rfl idle
  | inert inert durability room => exact hrec.inert inert room
  | @transition id state status reason payload found cause built room =>
      have hagrees : Agrees s
          (withStatus id state status (Effects.recorded .commandStatusChanged payload s)) :=
        ⟨rfl, rfl, rfl, rfl, le_rfl⟩
      refine hrec.status found built room ?_ hagrees
        (rfl : _ = s.commands.insert id { state with status }) ?_ ?_ ?_
      all_goals rfl
  | accept acceptable allowed builtReport builtStatus room room' =>
      exact hrec.accept acceptable builtStatus room room'
  | torn broken acceptable builtReport room => exact hrec.report room
  | @terminal id state report found ended =>
      have hagrees : Agrees s (withTerminalReport id report s) := ⟨rfl, rfl, rfl, rfl, le_rfl⟩
      refine hrec.unseen found ?_ hagrees (modify_of_find? found _) ?_ ?_ ?_
      all_goals rfl
  | issued stage number nonzero last session valid desired free space fresh built builtAttempt
      broken room room' =>
      exact hrec.issued sim.wf (session.trans sim.session.symm) number last valid built
        builtAttempt room room'
  | skipped skip nonzero last =>
      refine hrec.skip last ?_ ?_ ?_ ?_ ?_ ⟨rfl, rfl, rfl, .inl rfl, le_rfl⟩ (.inl skip)
      all_goals rfl
  | unrecorded broken nonzero last =>
      refine hrec.skip last ?_ ?_ ?_ ?_ ?_ (idle_refuse _) (.inr (Nat.succ_ne_zero _))
      all_goals rfl
  | retried stage found pending early left builtAttempt broken room =>
      exact hrec.retried sim.policy found left builtAttempt room
  | @commit route target value revision commandId state payload found key revised newer built
      room =>
      refine hrec.observe payload room ?_ (fun {ledger} live => ?_) ?_ ?_ ?_
        (rfl : _ = s.observed.insert (targetKey route target) value)
        (rfl : _ = s.observedRevisions.insert (targetKey route target) revision)
      · rfl
      · obtain ⟨entry, he, _⟩ := live.found found
        exact .committed (by rw [he]; exact Option.some_ne_none _) revised built
      all_goals rfl
  | @observe observation payload valid newer built room =>
      refine hrec.observe payload room ?_ (fun {ledger} live => ?_) ?_ ?_ ?_
        (rfl : _ = s.observed.insert observation.key observation.observedValue)
        (rfl : _ = s.observedRevisions.insert observation.key observation.stateRevision)
      · rfl
      · exact .external (of_validateExternalObservation valid).1 built
      all_goals rfl
  | prune found ended =>
      obtain ⟨ledger, book, live⟩ := hrec.book
      have hlive := live.prune found ended
      rw [pruneOne_eq found ended] at hlive ⊢
      exact ⟨hrec.sequenced, ledger, book, hlive⟩
  | register new built taken attached => exact hrec.register built taken attached

theorem Step.sim {s' : RuntimeEffectsState} (h : Step A s s') (sim : Sim A.skip s) :
    Sim A.skip s' where
  toRecorded := h.recorded sim
  wf := h.wf sim.wf
  session := by rw [h.constants.1, h.session]; exact sim.session
  policy := by rw [h.constants.2.1]; exact sim.policy
  room := ⟨h.size sim.room.1 sim.room.2, by rw [h.constants.2.2]; exact sim.room.2⟩

theorem Moves.sim {s' : RuntimeEffectsState} (h : Moves A s s') (sim : Sim A.skip s) :
    Sim A.skip s' := by
  induction h with
  | refl => exact sim
  | tail _ step ih => exact step.sim ih

end Steps

end Effects

end LiquidLayer
