/-
  Checkpoints are transparent to `restore`.

  `Written store`: runtimes have written the store, one after the other, each constructed on what
  the one before has left, or on what a crash has left of it. `withoutCheckpoints log`: the log
  with the checkpoint records taken out and the others numbered anew.

  A book stays a book without its checkpoints, with the same ledger (`Book.withoutCheckpoints`),
  the two projections fail together (`Book.project_withoutCheckpoints`), and a ledger determines
  what `restore` rebuilds (`Restored.same`).
-/
import LiquidLayer.Effects.Run

namespace LiquidLayer

namespace Effects

open Prog

/-! ## Stores that runtimes have written -/

inductive Written : EventStore → Prop where
  | empty {store : EventStore} : EventStore.Empty store → Written store
  | ran {options : RuntimeOptions} {store : EventStore} {s₀ s : RuntimeEffectsState} :
      Written store → construct options (initial options store) = .ok () s₀ →
      Reaches perform (fun _ _ => True) s₀ s → Written s.store
  | refused {options : RuntimeOptions} {store : EventStore} {e : Failure}
      {s : RuntimeEffectsState} :
      Written store → construct options (initial options store) = .error e s → Written s.store
  /-- Opened again, after a crash or not: a part of the log is there. -/
  | opened {store store' : EventStore} : Written store → store'.metadata = store.metadata →
      store'.records <+: store.records →
      store'.nextSequence = UInt64.ofNat (store'.records.length + 1) → Written store'

/-- A book is one up to every record. -/
theorem Book.take {metadata : EventStoreMetadata} {limit : Nat} {log : List EventRecord}
    {ledger : Ledger} (h : Book metadata limit log ledger) {log' : List EventRecord}
    (hlog : log' <+: log) : ∃ ledger', Book metadata limit log' ledger' := by
  induction h with
  | nil =>
      obtain rfl := List.prefix_nil.mp hlog
      exact ⟨_, .nil⟩
  | @snoc log ledger ledger' record book version sequence accounts ih =>
      rcases List.prefix_concat_iff.mp hlog with rfl | hlog
      · exact ⟨_, .snoc book version sequence accounts⟩
      · exact ih hlog

/-- A constructor that throws leaves a store the next one can work with. -/
theorem construct_ledgered {options : RuntimeOptions} {store : EventStore} {e : Failure}
    {s : RuntimeEffectsState} (h : Ledgered store)
    (hthrow : construct options (initial options store) = .error e s) : Ledgered s.store := by
  have hwp : wp (construct options) (fun _ _ => True) (fun _ s => Ledgered s.store)
      (initial options store) := by
    refine wp_construct (fun _ _ _ => trivial) h ?_ fun hnil hroom payload => ?_
    · exact ⟨(idle_refuse store).sequenced h.sequenced, h.book⟩
    · have hsession : Recorded True
          (recorded .sessionStarted payload (initial options store)) := h.session hnil hroom
      obtain ⟨ledger, book, _⟩ := hsession.book
      exact ⟨⟨hsession.sequenced.next, hsession.sequenced.length⟩, ledger, book⟩
  rw [wp, hthrow] at hwp
  exact hwp

/-- Every step allowed. -/
def anyStep : Allow where
  report _ _ := True
  desired _ := True
  skip := True
  broken := True

theorem anyStep_open : anyStep.Open := ⟨trivial, fun _ _ _ _ _ => trivial⟩

theorem Op.allowed_anyStep (op : Op) (s : RuntimeEffectsState) : op.allowed anyStep s := by
  cases op with
  | issue => exact fun _ => ⟨trivial, fun _ => trivial⟩
  | applyReport => exact fun _ _ => trivial
  | processFeedback => exact fun _ _ _ _ => trivial
  | _ => trivial

theorem Written.ledgered {store : EventStore} (h : Written store) : Ledgered store := by
  induction h with
  | empty empty => exact empty.ledgered
  | ran _ start run ih =>
      have sim : Sim anyStep.skip _ := (construct_inv start).2.sim ih
      have sim := sim.reaches anyStep_open (fun op s _ => op.allowed_anyStep s) run
      obtain ⟨ledger, book, _⟩ := sim.book
      exact ⟨sim.sequenced, ledger, book⟩
  | refused _ hthrow ih => exact construct_ledgered ih hthrow
  | @opened store store' _ hmeta hlog hnext ih =>
      obtain ⟨ledger, book⟩ := ih.book
      obtain ⟨ledger', book'⟩ := book.take hlog
      have hlength := hlog.length_le
      have hbound := ih.sequenced.length
      refine ⟨⟨?_, by omega⟩, ledger', hmeta ▸ book'⟩
      rw [hnext, UInt64.toNat_ofNat']

/-! ## Books without checkpoints -/

/-- The records with the numbers `n`, `n + 1`, ... -/
def renumbered (n : Nat) : List EventRecord → List EventRecord
  | [] => []
  | record :: rest => { record with sequence := UInt64.ofNat n } :: renumbered (n + 1) rest

def withoutCheckpoints (log : List EventRecord) : List EventRecord :=
  renumbered 1 (log.filter fun record => record.type != .checkpoint)

@[simp] theorem length_renumbered (n : Nat) (log : List EventRecord) :
    (renumbered n log).length = log.length := by
  induction log generalizing n with
  | nil => rfl
  | cons record log ih => rw [renumbered, List.length_cons, ih, List.length_cons]

theorem renumbered_snoc (n : Nat) (log : List EventRecord) (record : EventRecord) :
    renumbered n (log ++ [record]) =
      renumbered n log ++ [{ record with sequence := UInt64.ofNat (n + log.length) }] := by
  induction log generalizing n with
  | nil => rfl
  | cons first log ih =>
      rw [List.cons_append, renumbered, ih, renumbered, List.cons_append, List.length_cons,
        Nat.add_right_comm, Nat.add_assoc n]

theorem length_withoutCheckpoints (log : List EventRecord) :
    (withoutCheckpoints log).length ≤ log.length := by
  rw [withoutCheckpoints, length_renumbered]
  exact List.length_filter_le _ _

theorem withoutCheckpoints_checkpoint {record : EventRecord} (log : List EventRecord)
    (h : record.type = .checkpoint) :
    withoutCheckpoints (log ++ [record]) = withoutCheckpoints log := by
  have hdrop : (record.type != .checkpoint) = false := by rw [h]; rfl
  rw [withoutCheckpoints, withoutCheckpoints, List.filter_append,
    List.filter_cons_of_neg (by rw [hdrop]; exact Bool.false_ne_true), List.filter_nil,
    List.append_nil]

theorem withoutCheckpoints_snoc {record : EventRecord} (log : List EventRecord)
    (h : record.type ≠ .checkpoint) :
    withoutCheckpoints (log ++ [record]) = withoutCheckpoints log ++
      [{ record with sequence := UInt64.ofNat ((withoutCheckpoints log).length + 1) }] := by
  have hkeep : (record.type != .checkpoint) = true := bne_iff_ne.mpr h
  rw [withoutCheckpoints, withoutCheckpoints, List.filter_append,
    List.filter_cons_of_pos (p := fun r : EventRecord => r.type != .checkpoint) hkeep,
    List.filter_nil, renumbered_snoc, length_renumbered, Nat.add_comm 1]

/-- Only a checkpoint depends on the log before it. -/
theorem Accounts.elsewhere {metadata : EventStoreMetadata} {limit : Nat}
    {log : List EventRecord} {ledger ledger' : Ledger} {type : EventType} {payload : Value}
    (h : Accounts metadata limit log ledger type payload ledger') (hne : type ≠ .checkpoint)
    (log' : List EventRecord) : Accounts metadata limit log' ledger type payload ledger' := by
  cases h with
  | plain hplain projectable => exact .plain hplain projectable
  | issued session valid above built => exact .issued session valid above built
  | attempted he hlt hle built => exact .attempted he hlt hle built
  | status he built => exact .status he built
  | committed hknown hrevision built => exact .committed hknown hrevision built
  | external hrevision built => exact .external hrevision built
  | checkpoint => exact absurd rfl hne

theorem Accounts.of_checkpoint {metadata : EventStoreMetadata} {limit : Nat}
    {log : List EventRecord} {ledger ledger' : Ledger} {type : EventType} {payload : Value}
    (h : Accounts metadata limit log ledger type payload ledger') (htype : type = .checkpoint) :
    ledger' = ledger ∧ ∃ p, project metadata log = .ok p := by
  subst htype
  cases h with
  | plain hplain => cases hplain
  | checkpoint hproject => exact ⟨rfl, _, hproject⟩

section Without

variable {metadata : EventStoreMetadata} {limit : Nat} {log : List EventRecord}
  {ledger ledger' : Ledger} {record : EventRecord}

/-- The number a record gets once the checkpoints before it are gone. -/
theorem sequence_withoutCheckpoints (sequence : record.sequence.toNat = log.length + 1) :
    (UInt64.ofNat ((withoutCheckpoints log).length + 1)).toNat =
      (withoutCheckpoints log).length + 1 := by
  rw [UInt64.toNat_ofNat']
  have hlength := length_withoutCheckpoints log
  have hbound := record.sequence.toNat_lt
  exact Nat.mod_eq_of_lt (by omega)

theorem Book.withoutCheckpoints (book : Book metadata limit log ledger) :
    Book metadata limit (withoutCheckpoints log) ledger := by
  induction book with
  | nil => exact .nil
  | @snoc log ledger ledger' record book version sequence accounts ih =>
      by_cases htype : record.type = .checkpoint
      · rw [withoutCheckpoints_checkpoint log htype, (accounts.of_checkpoint htype).1]
        exact ih
      · rw [withoutCheckpoints_snoc log htype]
        exact .snoc ih version (sequence_withoutCheckpoints sequence) (accounts.elsewhere htype _)

/-- The two projections fail together. -/
theorem Book.project_withoutCheckpoints
    (hversion : (Value.string metadata.engineVersion).validate = .ok ())
    (hlimit : limit ≤ EffectLimits.maxRetryDelays) (book : Book metadata limit log ledger) :
    (∃ e e', project metadata log = .error e ∧
      project metadata (Effects.withoutCheckpoints log) = .error e') ∨
    ∃ p p', (project metadata log = .ok p ∧ Replayed metadata log p ledger) ∧
      project metadata (Effects.withoutCheckpoints log) = .ok p' ∧
        Replayed metadata (Effects.withoutCheckpoints log) p' ledger := by
  induction book with
  | nil => exact .inr ⟨_, _, replayed_nil hversion, replayed_nil hversion⟩
  | @snoc log ledger ledger' record book version sequence accounts ih =>
      have hsnoc := project_snoc metadata book.numbered sequence version
      by_cases htype : record.type = .checkpoint
      · -- the checkpoint is there because the projection succeeded
        obtain ⟨rfl, p₀, hp₀⟩ := accounts.of_checkpoint htype
        rw [withoutCheckpoints_checkpoint log htype]
        rcases ih with ⟨e, _, he, _⟩ | ⟨p, p', ⟨hp, replayed⟩, hp', replayed'⟩
        · rw [hp₀] at he
          cases he
        rcases @Replayed.record _ _ _ _ _ _ _ log.isEmpty hlimit replayed hp book.wf version
          sequence accounts with ⟨_, hmerge⟩ | ⟨q, hq, next, _⟩
        · refine absurd (fun h => ?_) hmerge
          rw [htype] at h
          cases h
        · refine .inr ⟨_, p', ⟨?_, next⟩, hp', replayed'⟩
          rw [hsnoc, hp, ok_bind, hq]
          rfl
      · have sequence' := sequence_withoutCheckpoints sequence
        have hsnoc' := @project_snoc metadata _
          { record with sequence := UInt64.ofNat ((Effects.withoutCheckpoints log).length + 1) }
          book.withoutCheckpoints.numbered sequence' version
        rw [withoutCheckpoints_snoc log htype, hsnoc, hsnoc']
        rcases ih with ⟨e, e', he, he'⟩ | ⟨p, p', ⟨hp, replayed⟩, hp', replayed'⟩
        · exact .inl ⟨e, e', by rw [he]; rfl, by rw [he']; rfl⟩
        rw [hp, hp', ok_bind, ok_bind]
        have taken := @Replayed.record _ _ _ _ _ _ _ log.isEmpty hlimit replayed hp book.wf version
          sequence accounts
        have taken' := @Replayed.record _ _ _ _ _ _
          { record with sequence := UInt64.ofNat ((Effects.withoutCheckpoints log).length + 1) }
          (Effects.withoutCheckpoints log).isEmpty hlimit replayed' hp' book.wf version sequence'
          (accounts.elsewhere htype _)
        rcases taken with ⟨⟨e, he⟩, hmerge⟩ | ⟨q, hq, next, hmerge⟩ <;>
          rcases taken' with ⟨⟨e', he'⟩, hmerge'⟩ | ⟨q', hq', next', hmerge'⟩
        · exact .inl ⟨e, e', by rw [he]; rfl, by rw [he']; rfl⟩
        · exact absurd hmerge' hmerge
        · exact absurd hmerge hmerge'
        · exact .inr ⟨_, _, ⟨by rw [hq]; rfl, next⟩, by rw [hq']; rfl, next'⟩

end Without

/-! ## What a ledger determines -/

/-- Two ways of restoring one ledger differ in the authority of targets at most. -/
theorem Restored.same {s₀ : RuntimeEffectsState} {r r' : Restoring} {ledger : Ledger}
    (h : Restored s₀ r ledger) (h' : Restored s₀ r' ledger) :
    r'.maximumCommandId = r.maximumCommandId ∧ r'.state =
      { r.state with authoritativeByTarget := r'.state.authoritativeByTarget } := by
  have hcommands : r'.state.commands = r.state.commands :=
    OrdMap.ext_find? fun id => (h'.commands id).trans (h.commands id).symm
  have hle : ∀ {a b : Restoring}, Restored s₀ a ledger → Restored s₀ b ledger →
      a.maximumCommandId ≤ b.maximumCommandId := by
    intro a b ha hb
    rcases ha.maximum with h0 | hne
    · rw [h0]
      exact UInt64.zero_le
    · exact hb.above hne
  have hlatest : ∀ {a b : Restoring}, Restored s₀ a ledger → Restored s₀ b ledger →
      ∀ {key id}, a.state.latestByTarget.find? key = some id →
        b.state.latestByTarget.find? key = some id := by
    intro a b ha hb key id hl
    obtain ⟨⟨entry, he, rfl⟩, hmax⟩ := ha.latest hl
    obtain ⟨id', hl'⟩ := Option.ne_none_iff_exists'.mp (hb.indexed he)
    obtain ⟨⟨entry', he', hkey⟩, hmax'⟩ := hb.latest hl'
    rw [hl', le_antisymm (hmax he' hkey) (hmax' he rfl)]
  have hlatest : r'.state.latestByTarget = r.state.latestByTarget :=
    OrdMap.ext_find? fun key => Option.ext fun id => ⟨hlatest h' h, hlatest h h'⟩
  refine ⟨le_antisymm (hle h' h) (hle h h'), ?_⟩
  rw [h'.rest, h.rest]
  simp only [hcommands, hlatest, h.observed, h'.observed, h.revisions, h'.revisions]

/-- Pruning does not look at the authority of targets. -/
theorem pruneLoop_authoritative (targetSize : Nat) (order : List UInt64) (s : RuntimeEffectsState)
    (authority : OrdMap TargetKey UInt64) :
    pruneLoop targetSize order { s with authoritativeByTarget := authority } =
      { pruneLoop targetSize order s with authoritativeByTarget := authority } := by
  have one : ∀ id (s : RuntimeEffectsState),
      pruneOne id { s with authoritativeByTarget := authority } =
        { pruneOne id s with authoritativeByTarget := authority } := by
    intro id s
    unfold pruneOne
    cases s.commands.find? id with
    | none => rfl
    | some state => dsimp only; split <;> rfl
  induction order generalizing s with
  | nil => rfl
  | cons id order ih =>
      rw [pruneLoop, pruneLoop, one, ih]
      split <;> rfl

/-! ## Transparency -/

/-- What two restored states have in common. -/
structure SameRestored (s s' : RuntimeEffectsState) : Prop where
  commands : ∀ id, (s'.commands.find? id).map
    (fun state => (state.command, state.status, state.retryIndex)) =
      (s.commands.find? id).map fun state => (state.command, state.status, state.retryIndex)
  latestByTarget : s'.latestByTarget = s.latestByTarget
  observed : s'.observed = s.observed
  observedRevisions : s'.observedRevisions = s.observedRevisions
  nextCommand : s'.nextCommand = s.nextCommand

/-- Both restored, to the same, or neither. -/
inductive SameOutcome :
    Except Failure RuntimeEffectsState → Except Failure RuntimeEffectsState → Prop where
  | restored {s s' : RuntimeEffectsState} : SameRestored s s' → SameOutcome (.ok s) (.ok s')
  | thrown (e e' : Failure) : SameOutcome (.error e) (.error e')

theorem Restored.sameOutcome {s₀ : RuntimeEffectsState} {r r' : Restoring} {ledger : Ledger}
    {log log' : List EventRecord} (h : Restored s₀ r ledger) (h' : Restored s₀ r' ledger)
    (hproject : (∃ e e', project s₀.store.metadata log = .error e ∧
        project s₀.store.metadata log' = .error e') ∨
      ∃ p p', project s₀.store.metadata log = .ok p ∧ project s₀.store.metadata log' = .ok p') :
    SameOutcome (finishRestore s₀ r log) (finishRestore s₀ r' log') := by
  unfold finishRestore
  rcases hproject with ⟨e, e', he, he'⟩ | ⟨p, p', hp, hp'⟩
  · rw [he, he']
    exact .thrown e e'
  rw [hp, hp']
  obtain ⟨hmaximum, hstate⟩ := h.same h'
  obtain ⟨state, maximum⟩ := r
  obtain ⟨state', maximum'⟩ := r'
  dsimp only at hmaximum hstate ⊢
  subst hmaximum
  generalize state'.authoritativeByTarget = authority at hstate
  subst hstate
  by_cases hlast : maximum' = maxU64
  · rw [if_pos hlast, if_pos hlast]
    exact .thrown _ _
  rw [if_neg hlast, if_neg hlast]
  have hpruned : prunedState false
      (resumed ⟨{ state with authoritativeByTarget := authority }, maximum'⟩) =
        { prunedState false (resumed ⟨state, maximum'⟩) with
          authoritativeByTarget := authority } :=
    pruneLoop_authoritative _ _ (resumed ⟨state, maximum'⟩) authority
  rw [hpruned]
  dsimp only
  split
  · exact .thrown _ _
  · exact .restored ⟨fun _ => rfl, rfl, rfl, rfl, rfl⟩

/-- A lamp that was switched on, asked for a checkpoint and switched off. -/
def lampCheckpointed : RuntimeEffectsState :=
  perform (.clearDesire lampRoute lampTarget) (perform .checkpoint
    (perform (lampIssue (.boolean true)) (perform lampRegister lampStart)))

end Effects

end LiquidLayer
