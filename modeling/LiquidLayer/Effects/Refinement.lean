/-
  Restart refinement: a state constructed from the log of a run is the state of the run, as far
  as the effects it will have.

  `Restartable` is the condition on the steps: an `issue` never asks the adapter in vain, and
  the desired value leaves room for the command's records. `restart_refines`: in every run of
  such steps, whatever the adapters answer, the constructor returns on the log, and the state
  it returns has the same next command, active commands, blocked targets and observed state.
-/
import LiquidLayer.Effects.Run
import LiquidLayer.Effects.Writes

namespace LiquidLayer

namespace Effects

open Prog

/-! ## Desired values in the log -/

/-- The desired value of every `CommandIssued` record satisfies `D`. -/
def DesiredIn (D : Value → Prop) (log : List EventRecord) : Prop :=
  ∀ record ∈ log, record.type = .commandIssued → ∀ value,
    get? (projectionObject record.payload) "desired" = some value → D value

theorem DesiredIn.append {D : Value → Prop} {log log' : List EventRecord} (h : DesiredIn D log)
    (h' : DesiredIn D log') : DesiredIn D (log ++ log') := by
  intro record hr
  rcases List.mem_append.mp hr with hr | hr
  · exact h record hr
  · exact h' record hr

theorem desiredIn_of_ne {D : Value → Prop} {record : EventRecord}
    (h : record.type ≠ .commandIssued) : DesiredIn D [record] := by
  intro r hr ht
  rw [List.mem_singleton.mp hr] at ht
  exact absurd ht h

theorem Step.desiredIn {A : Allow} {s s' : RuntimeEffectsState} (h : Step A s s')
    (hlog : DesiredIn A.desired s.store.records) : DesiredIn A.desired s'.store.records := by
  obtain ⟨records, grows⟩ := h.writes
  rw [grows.log]
  refine hlog.append fun record hr ht value hv => ?_
  cases grows.wrote record hr with
  | inert inert => rw [ht] at inert; cases inert
  | status type => rw [ht] at type; cases type
  | accepted type => rw [ht] at type; cases type
  | @issued command type number desired built =>
      rw [(eventPayload_eq_ok built).1] at hv
      have hdesired : get? (eventObject (issuedFields command)) "desired" =
          some command.effect.desiredValue := get?_eventObject _ _
      rw [projectionObject, hdesired] at hv
      cases hv
      exact desired
  | attempted type => rw [ht] at type; cases type
  | observed type => rw [ht] at type; cases type

theorem Moves.desiredIn {A : Allow} {s s' : RuntimeEffectsState} (h : Moves A s s')
    (hlog : DesiredIn A.desired s.store.records) : DesiredIn A.desired s'.store.records := by
  induction h with
  | refl => exact hlog
  | tail _ step ih => exact step.desiredIn ih

/-- A ledger takes its desired values from the log. -/
theorem Book.desired {D : Value → Prop} {metadata : EventStoreMetadata} {limit : Nat}
    {log : List EventRecord} {ledger : Ledger} (book : Book metadata limit log ledger)
    (hlog : DesiredIn D log) {id : UInt64} {entry : LedgerEntry}
    (he : ledger.commands.find? id = some entry) : D entry.command.effect.desiredValue := by
  induction book generalizing id entry with
  | nil => cases he
  | @snoc log ledger ledger' record _ _ _ accounts ih =>
      have hbefore : DesiredIn D log := fun r hr => hlog r (List.mem_append_left _ hr)
      have hlast := hlog record (List.mem_append_right _ List.mem_cons_self)
      have old : ∀ {id entry}, ledger.commands.find? id = some entry →
          D entry.command.effect.desiredValue := fun he => ih hbefore he
      have rewritten : ∀ {id' e new}, ledger.commands.find? id' = some e →
          new.command = e.command → (ledger.commands.insert id' new).find? id = some entry →
          D entry.command.effect.desiredValue := by
        intro id' e new he' hcommand hf
        rw [OrdMap.find?_insert] at hf
        split at hf
        · cases hf; rw [hcommand]; exact old he'
        · exact old hf
      generalize htype : record.type = type at accounts
      generalize hpayload : record.payload = payload at accounts
      cases accounts with
      | plain => exact old he
      | @issued command _ session valid above built =>
          simp only [Ledger.issue, OrdMap.find?_insert] at he
          split at he
          · cases he
            refine hlast htype _ ?_
            rw [hpayload, (eventPayload_eq_ok built).1]
            exact get?_eventObject _ _
          · exact old he
      | @attempted _ e n _ _ he' => exact @rewritten _ e { e with attempt := n } he' rfl he
      | @status _ e status _ _ he' => exact @rewritten _ e { e with status } he' rfl he
      | committed => exact old he
      | external => exact old he
      | checkpoint => exact old he

/-! ## Refinement -/

/-- What a restart has to keep of a command: nothing once it has ended. -/
def activeCommand (s : RuntimeEffectsState) (id : UInt64) :
    Option (EffectCommand × CommandStatus × Nat) :=
  (s.commands.find? id).bind fun state =>
    if active state.status then some (state.command, state.status, state.retryIndex) else none

/-- The target's latest command, if it is active. -/
def activeLatest (s : RuntimeEffectsState) (key : TargetKey) : Option UInt64 :=
  (s.latestByTarget.find? key).filter fun id => (activeCommand s id).isSome

structure Refines (s s' : RuntimeEffectsState) : Prop where
  nextCommand : s'.nextCommand = s.nextCommand
  active : ∀ id, activeCommand s' id = activeCommand s id
  latest : ∀ key, activeLatest s' key = activeLatest s key
  observed : s'.observed = s.observed
  revisions : s'.observedRevisions = s.observedRevisions

theorem activeCommand_eq_some {s : RuntimeEffectsState} {id : UInt64}
    {c : EffectCommand × CommandStatus × Nat} : activeCommand s id = some c ↔
      ∃ state, s.commands.find? id = some state ∧ active state.status = true ∧
        c = (state.command, state.status, state.retryIndex) := by
  unfold activeCommand
  rw [Option.bind_eq_some_iff]
  refine exists_congr fun state => and_congr_right fun _ => ?_
  split
  · next ha => simp [ha, eq_comm]
  · next ha => simp [ha]

/-- Two states that hold the ledger of one log refine each other. -/
theorem Live.refines {s s' : RuntimeEffectsState} {ledger : Ledger}
    {metadata : EventStoreMetadata} (hledger : ledger.WF metadata) (wf : WF s) (wf' : WF s')
    (live : Live False s ledger) (live' : Live False s' ledger)
    (hrefused : s.store.refused = 0) (hrefused' : s'.store.refused = 0) : Refines s s' := by
  have keep : ∀ {a b : RuntimeEffectsState}, Live False a ledger → Live False b ledger →
      a.store.refused = 0 → b.store.refused = 0 → ∀ {id c}, activeCommand a id = some c →
      activeCommand b id = some c := by
    intro a b la lb ha hb id c hc
    obtain ⟨state, hst, hactive, rfl⟩ := activeCommand_eq_some.mp hc
    obtain ⟨state', hst', h1, h2, h3⟩ := la.agree_command lb ha hb hst hactive
    exact activeCommand_eq_some.mpr ⟨state', hst', h2 ▸ hactive, by rw [h1, h2, h3]⟩
  have same : ∀ id, activeCommand s' id = activeCommand s id := fun id =>
    Option.ext fun c => ⟨keep live' live hrefused' hrefused, keep live live' hrefused hrefused'⟩
  have keepLatest : ∀ {a b : RuntimeEffectsState}, WF a → Live False a ledger →
      Live False b ledger → (∀ id, activeCommand b id = activeCommand a id) → ∀ {key id},
      activeLatest a key = some id → activeLatest b key = some id := by
    intro a b wfa la lb hab key id hl
    obtain ⟨hfind, hsome⟩ := Option.filter_eq_some_iff.mp hl
    obtain ⟨c, hc⟩ := Option.isSome_iff_exists.mp hsome
    obtain ⟨state, hst, hactive, _⟩ := activeCommand_eq_some.mp hc
    refine Option.filter_eq_some_iff.mpr ⟨la.agree_latest wfa lb hfind hst hactive, ?_⟩
    rw [hab]
    exact hsome
  refine ⟨live.agree_next hledger live' hrefused hrefused', same, fun key => ?_, ?_, ?_⟩
  · exact Option.ext fun id => ⟨keepLatest wf' live' live fun id => (same id).symm,
      keepLatest wf live live' same⟩
  · rw [live.observed, live'.observed]
  · rw [live.revisions, live'.revisions]

/-- An `issue` whose command number is not taken in vain, with a desired value that leaves room
    for the records of its command. -/
def Op.Restartable (op : Op) (_ : RuntimeEffectsState) : Prop :=
  match op with
  | .issue effect _ capabilities _ => effect.desiredValue.validate = .ok () →
      (∃ c, capabilities = .ok c) ∧ effect.desiredValue.fits 1 = true ∧
        effect.desiredValue.nodes + 9 ≤ ValueLimits.maxTotalNodes
  | _ => True

/-- What the steps of such a run are. -/
def restartable : Allow where
  report _ _ := True
  desired value := value.nodes + 9 ≤ ValueLimits.maxTotalNodes
  skip := False
  broken := True

theorem restartable_open : restartable.Open := ⟨trivial, fun _ _ _ _ _ => trivial⟩

theorem Op.Restartable.allowed {op : Op} {s : RuntimeEffectsState} (h : op.Restartable s) :
    op.allowed restartable s := by
  cases op with
  | issue =>
      intro hv
      obtain ⟨⟨c, hc⟩, hfits, hnodes⟩ := h hv
      refine ⟨hnodes, ?_⟩
      rintro (hcap | hiss)
      · exact hcap c hc
      · exact hiss ⟨hfits, by omega⟩
  | applyReport => exact fun _ _ => trivial
  | processFeedback => exact fun _ _ _ _ => trivial
  | _ => trivial

/-- What a run never changes about the state it started from. -/
structure Within (s₀ s : RuntimeEffectsState) : Prop where
  metadata : s.store.metadata = s₀.store.metadata
  retry : s.retry = s₀.retry
  space : s.maximumRetainedCommands = s₀.maximumRetainedCommands
  log : ∃ records, s.store.records = s₀.store.records ++ records

theorem Moves.within {A : Allow} {s s' : RuntimeEffectsState} (h : Moves A s s') : Within s s' := by
  induction h with
  | refl => exact ⟨rfl, rfl, rfl, [], (List.append_nil _).symm⟩
  | tail _ step ih =>
      obtain ⟨hm, hr, hs⟩ := step.constants
      obtain ⟨records, grows⟩ := step.writes
      obtain ⟨before, hlog⟩ := ih.log
      exact ⟨hm.trans ih.metadata, hr.trans ih.retry, hs.trans ih.space, before ++ records,
        by rw [grows.log, hlog, List.append_assoc]⟩

theorem Within.trans {s s' s'' : RuntimeEffectsState} (h : Within s s') (h' : Within s' s'') :
    Within s s'' := by
  obtain ⟨r, hr⟩ := h.log
  obtain ⟨r', hr'⟩ := h'.log
  exact ⟨h'.metadata.trans h.metadata, h'.retry.trans h.retry, h'.space.trans h.space, r ++ r',
    by rw [hr', hr, List.append_assoc]⟩

/-- What the constructor leaves of its options and of an empty store. -/
theorem Constructed.initial_eq {options : RuntimeOptions} {store : EventStore}
    {s₀ : RuntimeEffectsState} (empty : EventStore.Empty store)
    (h : Constructed (initial options store) s₀) :
    s₀.store.metadata = store.metadata ∧ s₀.retry = options.retryPolicy ∧
      s₀.maximumRetainedCommands = options.maxRetainedCommands ∧
      ∃ payload, s₀.store.records = [⟨1, .sessionStarted, 1, payload⟩] := by
  rcases h.result with ⟨_, _, payload, rfl⟩ | ⟨hne, _⟩
  · refine ⟨rfl, rfl, rfl, payload, ?_⟩
    show store.records ++ EventStore.numbered store.nextSequence _ = _
    rw [empty.records, empty.nextSequence]
    rfl
  · exact absurd empty.records hne

theorem restart_refines {options : RuntimeOptions} {store : EventStore}
    {s₀ s : RuntimeEffectsState} (empty : EventStore.Empty store)
    (start : construct options (initial options store) = .ok () s₀)
    (run : Reaches perform Op.Restartable s₀ s) (appended : s.store.refused = 0) :
    ∃ s', construct options (initial options s.store) = .ok () s' ∧ Refines s s' := by
  obtain ⟨hcapacity, constructed⟩ := construct_inv start
  obtain ⟨hmetadata, hretry, hspace, payload, hrecords⟩ := constructed.initial_eq empty
  -- the invariant along the run
  obtain ⟨sim, hdesired, within⟩ : Sim False s ∧
      DesiredIn restartable.desired s.store.records ∧ Within s₀ s := by
    refine run.induct (P := fun s => Sim False s ∧
      DesiredIn restartable.desired s.store.records ∧ Within s₀ s) ?_ ?_
    · refine ⟨constructed.sim empty.ledgered, ?_, Moves.within (A := restartable) .refl⟩
      rw [hrecords]
      exact desiredIn_of_ne nofun
    · rintro op s ⟨hs, hd, hw⟩ hop
      have moves := perform_moves restartable_open hs.wf hop.allowed
      exact ⟨moves.sim hs, moves.desiredIn hd, hw.trans moves.within⟩
  obtain ⟨ledger, book, live⟩ := sim.book
  have small : ledger.Small := fun id entry he => book.desired hdesired he
  have hmeta : s.store.metadata = store.metadata := within.metadata.trans hmetadata
  have restarts : Restarts (initial options s.store) ledger := by
    refine ⟨fresh_initial options s.store, constructed.named, ?_, constructed.policy,
      Nat.pos_of_ne_zero constructed.space, sim.sequenced, ?_⟩
    · exact (congrArg EventStoreMetadata.session hmeta).trans constructed.session
    · exact book
  have hroom : s.commands.size ≤ options.maxRetainedCommands := by
    have := sim.room.1
    rwa [within.space, hspace] at this
  obtain ⟨s', hs'⟩ := restarts.restore_ok small live hroom
  obtain ⟨hstore, _, _, _, hlive⟩ := restarts.sim hs'
  refine ⟨s', construct_of_restore hcapacity constructed.named constructed.policy constructed.space
    restarts.session ?_ ?_ hs', ?_⟩
  · exact (congrArg EventStoreMetadata.feedbackTiming hmeta).trans constructed.timing
  · obtain ⟨records, hlog⟩ := within.log
    show s.store.records ≠ []
    rw [hlog, hrecords]
    exact List.cons_ne_nil _ _
  · refine live.refines book.wf sim.wf (hlive False).2.wf (hlive False).1 appended ?_
    rw [hstore]
    exact appended

/-- A lamp that has been switched on. -/
def lampOn : RuntimeEffectsState :=
  perform (lampIssue (.boolean true)) (perform lampRegister lampStart)

theorem restart_refines_lamp : ∃ s',
    construct lampOptions (initial lampOptions lampOn.store) = .ok () s' ∧ Refines lampOn s' := by
  refine restart_refines lampStore_empty construct_lamp ?_ (by decide +kernel)
  refine .next (lampIssue (.boolean true)) (.next lampRegister .start trivial) fun _ => ?_
  exact ⟨⟨_, rfl⟩, by decide, by decide⟩

/-- A desired value of 16377 nodes: its `CommandIssued` record is as large as a value may be. -/
def heavyValue : Value :=
  .array (List.replicate 4 (.array (List.replicate 4093 (.boolean true))))

/-- The heavy command is issued and then superseded. -/
def heavyState : RuntimeEffectsState :=
  perform (.clearDesire lampRoute lampTarget)
    (perform (lampIssue heavyValue) (perform lampRegister lampStart))

set_option maxRecDepth 10000 in
theorem heavyState_unreadable :
    (match construct lampOptions (initial lampOptions heavyState.store) with
      | .ok _ _ => true
      | .error _ _ => false) = false := by decide +kernel

set_option maxRecDepth 10000 in
/-- Every append succeeds, and yet the log cannot be read back: the status record makes the
    command's merged object too large. -/
theorem restart_fails_heavy : EventStore.Empty lampStore ∧
    construct lampOptions (initial lampOptions lampStore) = .ok () lampStart ∧
    Reaches perform (fun _ _ => True) lampStart heavyState ∧ heavyState.store.refused = 0 ∧
    ∀ s', construct lampOptions (initial lampOptions heavyState.store) ≠ .ok () s' := by
  refine ⟨lampStore_empty, construct_lamp, ?_, by decide +kernel, fun s' h => ?_⟩
  · exact .next _ (.next _ (.next _ .start trivial) trivial) trivial
  · have hfails := heavyState_unreadable
    rw [h] at hfails
    cases hfails

end Effects

end LiquidLayer
