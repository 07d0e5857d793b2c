/-
  The log of a run as a ledger.

  `Ledger` is what a log says about commands and observed state. `Book metadata limit log ledger`:
  the log is one the runtime writes, record by record, and `ledger` is what it says; the relation
  is closed under prefixes by construction. `Live` connects a ledger with a running
  `RuntimeEffectsState`: same active commands, same observed state.

  `Sim` is the invariant of a run; `Live.rewrite` and its siblings say which changes of the state
  and of the ledger go together.
-/
import LiquidLayer.Events.Project
import LiquidLayer.Effects.Moves

namespace LiquidLayer

namespace Effects

/-! ## Ledgers -/

structure LedgerEntry where
  command : EffectCommand
  status : CommandStatus
  /-- The last attempt on record; none is 0. -/
  attempt : Nat

def LedgerEntry.key (entry : LedgerEntry) : TargetKey := entry.command.effect.key

structure Ledger where
  commands : OrdMap UInt64 LedgerEntry
  observed : OrdMap TargetKey Value
  revisions : OrdMap TargetKey StateRevision

namespace Ledger

def empty : Ledger := ⟨.empty, .empty, .empty⟩

def issue (ledger : Ledger) (command : EffectCommand) : Ledger :=
  { ledger with commands := ledger.commands.insert command.commandId ⟨command, .pending, 0⟩ }

def attempt (ledger : Ledger) (id : UInt64) (entry : LedgerEntry) (n : Nat) : Ledger :=
  { ledger with
    commands := ledger.commands.insert id { entry with attempt := n } }

def setStatus (ledger : Ledger) (id : UInt64) (entry : LedgerEntry) (status : CommandStatus) :
    Ledger :=
  { ledger with commands := ledger.commands.insert id { entry with status } }

def observe (ledger : Ledger) (key : TargetKey) (value : Value) (revision : StateRevision) :
    Ledger :=
  { ledger with
    observed := ledger.observed.insert key value
    revisions := ledger.revisions.insert key revision }

end Ledger

/-- A record that every projection takes. -/
def Projectable (type : EventType) (payload : Value) : Prop :=
  ∀ state first sequence, ∃ state',
    projectRecord state first { sequence, type, payload } = .ok state'

/-- What a record written after `log` adds to the ledger. The attempts of a command are numbered
    upwards, to `limit + 1` at most. -/
inductive Accounts (metadata : EventStoreMetadata) (limit : Nat) (log : List EventRecord)
    (ledger : Ledger) : EventType → Value → Ledger → Prop where
  | plain {type payload} : plainType type = true → Projectable type payload →
      Accounts metadata limit log ledger type payload ledger
  | issued {command payload} : command.sessionId = metadata.session →
      validateEffectCommand command = .ok () →
      (∀ id, ledger.commands.find? id ≠ none → id < command.commandId) →
      eventPayload (issuedFields command) = .ok payload →
      Accounts metadata limit log ledger .commandIssued payload (ledger.issue command)
  | attempted {id entry n now payload} : ledger.commands.find? id = some entry →
      entry.attempt < n → n ≤ limit + 1 →
      eventPayload (attemptFields id n now) = .ok payload →
      Accounts metadata limit log ledger .commandAttempted payload (ledger.attempt id entry n)
  | status {id entry status reason payload} : ledger.commands.find? id = some entry →
      eventPayload (statusFields id status reason) = .ok payload →
      Accounts metadata limit log ledger .commandStatusChanged payload
        (ledger.setStatus id entry status)
  | committed {route target value revision commandId payload} :
      ledger.commands.find? commandId ≠ none → revision ≠ 0 →
      eventPayload (committedFields route target value revision commandId) = .ok payload →
      Accounts metadata limit log ledger .observedStateChanged payload
        (ledger.observe (targetKey route target) value revision)
  | external {observation payload} : observation.stateRevision ≠ 0 →
      eventPayload (externalFields observation) = .ok payload →
      Accounts metadata limit log ledger .observedStateChanged payload
        (ledger.observe observation.key observation.observedValue observation.stateRevision)
  | checkpoint {projection payload} : project metadata log = .ok projection →
      checkpointPayload projection = .ok payload →
      validateCheckpointSession payload metadata.session = .ok () →
      Accounts metadata limit log ledger .checkpoint payload ledger

/-- A log the runtime writes, and what it says. -/
inductive Book (metadata : EventStoreMetadata) (limit : Nat) :
    List EventRecord → Ledger → Prop where
  | nil : Book metadata limit [] .empty
  | snoc {log ledger ledger'} {record : EventRecord} : Book metadata limit log ledger →
      record.version = 1 → record.sequence.toNat = log.length + 1 →
      Accounts metadata limit log ledger record.type record.payload ledger' →
      Book metadata limit (log ++ [record]) ledger'

/-! ## A ledger and the running state -/

/-- The number of a store's next record. -/
structure Sequenced (store : EventStore) : Prop where
  next : store.nextSequence.toNat = (store.records.length + 1) % 2 ^ 64
  length : store.records.length < 2 ^ 64

theorem Sequenced.toNat_of_ne_zero {store : EventStore} (h : Sequenced store)
    (hne : store.nextSequence ≠ 0) :
    store.nextSequence.toNat = store.records.length + 1 ∧ store.records.length + 1 < 2 ^ 64 := by
  have hpos : store.nextSequence.toNat ≠ 0 := fun h0 => hne (UInt64.toNat_inj.mp (by simpa using h0))
  have hn := h.next
  have hl := h.length
  omega

/-- The state holds what the ledger says. `skip`: command numbers may have been taken in vain. -/
structure Live (skip : Prop) (s : RuntimeEffectsState) (ledger : Ledger) : Prop where
  found : ∀ {id state}, s.commands.find? id = some state →
    ∃ entry, ledger.commands.find? id = some entry ∧ entry.command = state.command ∧
      entry.status = state.status ∧ entry.attempt ≤ state.retryIndex + 1 ∧
      (s.store.refused = 0 → state.retryIndex = entry.attempt - 1)
  active : ∀ {id entry}, ledger.commands.find? id = some entry → active entry.status = true →
    s.commands.find? id ≠ none
  bound : ∀ {id}, ledger.commands.find? id ≠ none → id < s.nextCommand
  latest : ∀ {key id}, s.latestByTarget.find? key = some id →
    ∀ {id' entry}, ledger.commands.find? id' = some entry → entry.key = key → id' ≤ id
  indexed : ∀ {id state}, s.commands.find? id = some state →
    (∀ {id' entry}, ledger.commands.find? id' = some entry → entry.key = state.key → id' ≤ id) →
    s.latestByTarget.find? state.key = some id
  next : skip ∨ s.store.refused ≠ 0 ∨ s.nextCommand = 1 ∨
    ledger.commands.find? (s.nextCommand - 1) ≠ none
  observed : s.observed = ledger.observed
  revisions : s.observedRevisions = ledger.revisions
  retries : ∀ {id state}, s.commands.find? id = some state →
    state.retryIndex ≤ EffectLimits.maxRetryDelays

/-- The log is a book whose ledger the state holds. -/
structure Recorded (skip : Prop) (s : RuntimeEffectsState) : Prop where
  sequenced : Sequenced s.store
  book : ∃ ledger, Book s.store.metadata EffectLimits.maxRetryDelays s.store.records ledger ∧
    Live skip s ledger

/-- The invariant of a run. -/
structure Sim (skip : Prop) (s : RuntimeEffectsState) : Prop extends Recorded skip s where
  wf : WF s
  session : s.store.metadata.session = s.session
  policy : s.retry.validate = .ok ()
  room : s.commands.size ≤ s.maximumRetainedCommands ∧ 0 < s.maximumRetainedCommands

/-! ## One record more -/

theorem Sequenced.push {store : EventStore} (h : Sequenced store) (hne : store.nextSequence ≠ 0)
    (event : EventData) (durability : Durability) : Sequenced (store.push [event] durability) := by
  obtain ⟨hn, hl⟩ := h.toNat_of_ne_zero hne
  refine ⟨?_, ?_⟩
  · simp only [EventStore.push, EventStore.numbered, List.length_append, List.length_singleton]
    rw [UInt64.toNat_add, hn]
    simp
  · simpa only [EventStore.push, EventStore.numbered, List.length_append,
      List.length_singleton] using hl

/-- A record appended to a book. -/
theorem Book.push {store : EventStore} {limit : Nat} {ledger ledger' : Ledger}
    (h : Sequenced store) (book : Book store.metadata limit store.records ledger)
    (hne : store.nextSequence ≠ 0)
    {type : EventType} {payload : Value} {durability : Durability}
    (accounts : Accounts store.metadata limit store.records ledger type payload ledger') :
    Book store.metadata limit (store.push [{ type, payload }] durability).records ledger' :=
  .snoc book rfl (h.toNat_of_ne_zero hne).1 accounts

theorem Idle.sequenced {store store' : EventStore} (idle : Idle store store')
    (h : Sequenced store) : Sequenced store' :=
  ⟨by rw [idle.nextSequence, idle.records]; exact h.next, by rw [idle.records]; exact h.length⟩

/-! ## What a step leaves alone -/

/-- Two states that differ in the commands and the store at most. -/
structure Agrees (s s' : RuntimeEffectsState) : Prop where
  latestByTarget : s'.latestByTarget = s.latestByTarget
  nextCommand : s'.nextCommand = s.nextCommand
  observed : s'.observed = s.observed
  observedRevisions : s'.observedRevisions = s.observedRevisions
  refused : s.store.refused ≤ s'.store.refused

theorem Agrees.of_refused_zero {s s' : RuntimeEffectsState} (h : Agrees s s')
    (hz : s'.store.refused = 0) : s.store.refused = 0 := Nat.le_zero.mp (hz ▸ h.refused)

theorem Live.next_of_agrees {skip : Prop} {s s' : RuntimeEffectsState} {ledger ledger' : Ledger}
    (live : Live skip s ledger) (h : Agrees s s')
    (hkeys : ∀ id, ledger.commands.find? id ≠ none → ledger'.commands.find? id ≠ none) :
    skip ∨ s'.store.refused ≠ 0 ∨ s'.nextCommand = 1 ∨
      ledger'.commands.find? (s'.nextCommand - 1) ≠ none := by
  rw [h.nextCommand]
  rcases live.next with hs | hr | hn | hf
  · exact .inl hs
  · exact .inr (.inl fun hz => hr (h.of_refused_zero hz))
  · exact .inr (.inr (.inl hn))
  · exact .inr (.inr (.inr (hkeys _ hf)))

/-- Nothing the ledger speaks about has changed. -/
theorem Live.of_agrees {skip : Prop} {s s' : RuntimeEffectsState} {ledger : Ledger}
    (live : Live skip s ledger) (h : Agrees s s') (hc : s'.commands = s.commands) :
    Live skip s' ledger where
  found hst := by
    rw [hc] at hst
    obtain ⟨entry, he, h1, h2, h3, h4⟩ := live.found hst
    exact ⟨entry, he, h1, h2, h3, fun hz => h4 (h.of_refused_zero hz)⟩
  active he ha := by rw [hc]; exact live.active he ha
  bound he := by rw [h.nextCommand]; exact live.bound he
  latest hl := by rw [h.latestByTarget] at hl; exact live.latest hl
  indexed hst hmax := by
    rw [hc] at hst
    rw [h.latestByTarget]
    exact live.indexed hst hmax
  next := live.next_of_agrees h fun _ h => h
  observed := by rw [h.observed]; exact live.observed
  revisions := by rw [h.observedRevisions]; exact live.revisions
  retries hst := by rw [hc] at hst; exact live.retries hst

/-- Commands change on both sides together, and none comes or goes. -/
theorem Live.pointwise {skip : Prop} {s s' : RuntimeEffectsState} {ledger ledger' : Ledger}
    (live : Live skip s ledger) (h : Agrees s s') (f : UInt64 → CommandState → CommandState)
    (g : UInt64 → LedgerEntry → LedgerEntry)
    (hc : ∀ id, s'.commands.find? id = (s.commands.find? id).map (f id))
    (hl : ∀ id, ledger'.commands.find? id = (ledger.commands.find? id).map (g id))
    (hobserved : ledger'.observed = ledger.observed)
    (hrevisions : ledger'.revisions = ledger.revisions)
    (hf : ∀ {id state}, s.commands.find? id = some state →
      (f id state).command = state.command ∧
        (f id state).retryIndex ≤ EffectLimits.maxRetryDelays)
    (hg : ∀ {id entry}, ledger.commands.find? id = some entry →
      (g id entry).command = entry.command)
    (pair : ∀ {id state entry}, s.commands.find? id = some state →
      ledger.commands.find? id = some entry → entry.status = state.status →
      entry.attempt ≤ state.retryIndex + 1 →
      (s'.store.refused = 0 → state.retryIndex = entry.attempt - 1) →
      (g id entry).status = (f id state).status ∧
        (g id entry).attempt ≤ (f id state).retryIndex + 1 ∧
        (s'.store.refused = 0 → (f id state).retryIndex = (g id entry).attempt - 1))
    (gone : ∀ {id entry}, s.commands.find? id = none →
      ledger.commands.find? id = some entry → (g id entry).status = entry.status) :
    Live skip s' ledger' := by
  have hback : ∀ {id state'}, s'.commands.find? id = some state' →
      ∃ state, s.commands.find? id = some state ∧ state' = f id state := by
    intro id state' hst
    rw [hc, Option.map_eq_some_iff] at hst
    obtain ⟨state, hst, hs⟩ := hst
    exact ⟨state, hst, hs.symm⟩
  have hentry : ∀ {id entry'}, ledger'.commands.find? id = some entry' →
      ∃ entry, ledger.commands.find? id = some entry ∧ entry' = g id entry := by
    intro id entry' he
    rw [hl, Option.map_eq_some_iff] at he
    obtain ⟨entry, he, hs⟩ := he
    exact ⟨entry, he, hs.symm⟩
  have hnone : ∀ {id}, ledger'.commands.find? id = none ↔ ledger.commands.find? id = none := by
    intro id
    rw [hl, Option.map_eq_none_iff]
  refine ⟨fun {id state'} hst' => ?_, fun {id entry'} he' ha => ?_, fun {id} he => ?_,
    fun {key id} hk {id' entry'} he' hkey => ?_, fun {id state'} hst' hmax => ?_, ?_, ?_, ?_,
    fun {id state'} hst' => ?_⟩
  · obtain ⟨state, hst, rfl⟩ := hback hst'
    obtain ⟨entry, he, h1, h2, h3, h4⟩ := live.found hst
    obtain ⟨hs, hle, htight⟩ := pair hst he h2 h3 fun hz => h4 (h.of_refused_zero hz)
    refine ⟨g id entry, by rw [hl, he]; rfl, ?_, hs, hle, htight⟩
    rw [hg he, h1, (hf hst).1]
  · obtain ⟨entry, he, rfl⟩ := hentry he'
    rw [hc, Ne, Option.map_eq_none_iff]
    intro hst
    rw [gone hst he] at ha
    exact live.active he ha hst
  · rw [h.nextCommand]
    exact live.bound fun hn => he (hnone.mpr hn)
  · obtain ⟨entry, he, rfl⟩ := hentry he'
    rw [h.latestByTarget] at hk
    refine live.latest hk he ?_
    rw [← hkey, LedgerEntry.key, LedgerEntry.key, hg he]
  · obtain ⟨state, hst, rfl⟩ := hback hst'
    have hkey : (f id state).key = state.key := by
      rw [CommandState.key, CommandState.key, (hf hst).1]
    rw [h.latestByTarget, hkey]
    refine live.indexed hst fun {id' entry} he hk => ?_
    refine hmax (by rw [hl, he]; rfl : ledger'.commands.find? id' = some (g id' entry)) ?_
    rw [hkey, ← hk, LedgerEntry.key, LedgerEntry.key, hg he]
  · exact live.next_of_agrees h fun id hne hn => hne (hnone.mp hn)
  · rw [h.observed, hobserved]; exact live.observed
  · rw [h.observedRevisions, hrevisions]; exact live.revisions
  · obtain ⟨state, hst, rfl⟩ := hback hst'
    exact (hf hst).2

/-- An insertion at a key that is there, as a map over the entries. -/
theorem find?_insert_eq_map {α : Type} {m : OrdMap UInt64 α} {id : UInt64} {old : α}
    (h : m.find? id = some old) (new : α) (id' : UInt64) :
    (m.insert id new).find? id' =
      (m.find? id').map fun v => if id' = id then new else v := by
  rw [OrdMap.find?_insert]
  split
  · next hi => rw [hi, h]; rfl
  · simp

/-- One command's entry is rewritten on both sides. -/
theorem Live.rewrite {skip : Prop} {s s' : RuntimeEffectsState} {ledger : Ledger}
    (live : Live skip s ledger) (h : Agrees s s') {id : UInt64} {state : CommandState}
    {entry : LedgerEntry} (state' : CommandState) (entry' : LedgerEntry)
    (hst : s.commands.find? id = some state)
    (he : ledger.commands.find? id = some entry)
    (hc : s'.commands = s.commands.insert id state') (hcommand : state'.command = state.command)
    (hcommand' : entry'.command = entry.command) (hstatus : entry'.status = state'.status)
    (hretry : entry'.attempt ≤ state'.retryIndex + 1)
    (htight : s'.store.refused = 0 → state'.retryIndex = entry'.attempt - 1)
    (hbound : state'.retryIndex ≤ EffectLimits.maxRetryDelays) :
    Live skip s' { ledger with commands := ledger.commands.insert id entry' } := by
  refine live.pointwise h (fun id' st => if id' = id then state' else st)
    (fun id' e => if id' = id then entry' else e) ?_ ?_ rfl rfl ?_ ?_ ?_ ?_
  · rw [hc]
    exact find?_insert_eq_map hst state'
  · exact find?_insert_eq_map he entry'
  · intro id' st hf
    split
    · next hi =>
        rw [hi, hst] at hf
        cases hf
        exact ⟨hcommand, hbound⟩
    · exact ⟨rfl, live.retries hf⟩
  · intro id' e hf
    split
    · next hi =>
        rw [hi, he] at hf
        cases hf
        exact hcommand'
    · rfl
  · intro id' st e _ _ hs hle htight'
    split
    · exact ⟨hstatus, hretry, htight⟩
    · exact ⟨hs, hle, htight'⟩
  · intro id' e hnone _
    split
    · next hi =>
        rw [hi, hst] at hnone
        cases hnone
    · rfl

end Effects

end LiquidLayer
