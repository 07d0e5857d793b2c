/-
  How the status of a command can change, and what ends for good.

  `Step.turned`: the four ways a step can treat the status of a command. Three results follow,
  for every run of a runtime on an empty store (`statuses_settle`):

  * an active command is the latest one of its target, unless it is indeterminate by the report
    that was accepted for it;
  * a command that has ended is active again only through a report that says so, the first one
    accepted for it;
  * a command reopened after a newer one was issued stays indeterminate for ever: nothing
    resolves it, and nothing prunes it.
-/
import LiquidLayer.Effects.Transparent

namespace LiquidLayer

namespace Effects

open Prog

/-! ## One step -/

/-- Why the status of the command `id` is what it is after a step. -/
inductive Turned (s : RuntimeEffectsState) (id : UInt64) (state state' : CommandState) :
    Prop where
  | same (status : state'.status = state.status)
      (report : active state.status = true → state'.terminalReport = state.terminalReport)
  | pending (was : state.status = .pending) (now : state'.status ≠ .pending)
  | reconciled (was : state.status = .indeterminate)
      (latest : s.latestByTarget.find? state.key = some id)
      (ended : active state'.status = false)
  | reported {report : EffectReport} (acceptable : Acceptable s report state)
      (status : state'.status = report.status) (kept : state'.terminalReport = some report)

/-- Where a command after a step comes from. -/
inductive Origin (s s' : RuntimeEffectsState) (id : UInt64) (state' : CommandState) : Prop where
  | kept {state : CommandState} (found : s.commands.find? id = some state)
      (turned : Turned s id state state')
  | issued (fresh : s.commands.find? id = none)
      (latest : s'.latestByTarget.find? state'.key = some id)

section Origin

variable {s s' : RuntimeEffectsState} {id : UInt64} {state' : CommandState}

theorem Origin.of_eq (h : s'.commands = s.commands)
    (found' : s'.commands.find? id = some state') : Origin s s' id state' := by
  rw [h] at found'
  exact .kept found' (.same rfl fun _ => rfl)

/-- One entry of the commands was rewritten. -/
theorem Origin.of_insert {key : UInt64} {old new : CommandState}
    (h : s'.commands = s.commands.insert key new) (hold : s.commands.find? key = some old)
    (turned : Turned s key old new) (found' : s'.commands.find? id = some state') :
    Origin s s' id state' := by
  rw [h, OrdMap.find?_insert] at found'
  split at found'
  · next hid =>
      subst hid
      cases found'
      exact .kept hold turned
  · exact .kept found' (.same rfl fun _ => rfl)

theorem Step.origin {A : Allow} (h : Step A s s')
    (found' : s'.commands.find? id = some state') : Origin s s' id state' := by
  cases h with
  | quiet => exact .of_eq rfl found'
  | store => exact .of_eq rfl found'
  | inert => exact .of_eq rfl found'
  | @transition key old status reason payload hold cause =>
      have turned : Turned s key old { old with status } := by
        cases cause with
        | pending was now => exact .pending was now
        | reconciled was latest ended => exact .reconciled was latest ended
      exact Origin.of_insert rfl hold turned found'
  | @accept report old _ _ acceptable =>
      refine .of_insert (acceptedState_commands acceptable.found _ _) acceptable.found ?_ found'
      by_cases hsup : old.status = .superseded
      · refine .same (if_pos hsup) fun hactive => ?_
        rw [hsup] at hactive
        cases hactive
      · exact .reported acceptable (if_neg hsup) rfl
  | torn => exact .of_eq rfl found'
  | @terminal key old report hold ended =>
      have turned : Turned s key old { old with terminalReport := some report } :=
        .same rfl fun hactive => by
          rw [ended] at hactive
          cases hactive
      exact Origin.of_insert (modify_of_find? hold _) hold turned found'
  | @issued command adapter capabilities payload attemptPayload stage number nonzero last session
      valid desired free space fresh =>
      obtain ⟨store, calls, feedback, he⟩ := attempted_eq stage
        (newCommand command adapter capabilities) command.issuedAtMs attemptPayload
        (withCommand (newCommand command adapter capabilities)
          { Effects.recorded .commandIssued payload s with nextCommand := s.nextCommand + 1 })
      rw [he] at found' ⊢
      have hinsert : (s.commands.insert command.commandId
          (newCommand command adapter capabilities)).find? id = some state' := found'
      rw [OrdMap.find?_insert] at hinsert
      split at hinsert
      · next hid =>
          subst hid
          cases hinsert
          exact .issued fresh (OrdMap.find?_insert_self _ _ _)
      · exact .kept hinsert (.same rfl fun _ => rfl)
  | skipped => exact .of_eq rfl found'
  | unrecorded => exact .of_eq rfl found'
  | @retried key old now attemptPayload stage hold =>
      obtain ⟨store, calls, feedback, he⟩ := attempted_eq stage
        { old with retryIndex := old.retryIndex + 1 } now attemptPayload (withRetry key old s)
      rw [he] at found' ⊢
      have turned : Turned s key old { old with retryIndex := old.retryIndex + 1 } :=
        .same rfl fun _ => rfl
      exact Origin.of_insert rfl hold turned found'
  | commit => exact .of_eq rfl found'
  | observe => exact .of_eq rfl found'
  | @prune key old hold ended =>
      have hcommands : (pruneOne key s).commands = s.commands.erase key := by
        rw [pruneOne_eq hold ended]
      rw [hcommands, OrdMap.find?_erase] at found'
      split at found'
      · cases found'
      · exact .kept found' (.same rfl fun _ => rfl)
  | @register adapter route capabilities _ commands _ new built taken attached =>
      have hat : (s.commands.find? id).map (registeredCommand adapter route capabilities
          (unsafeRetries s route capabilities) id) = some state' := (attached id).symm.trans found'
      obtain ⟨state, found, rfl⟩ := Option.map_eq_some_iff.mp hat
      refine .kept found ?_
      unfold registeredCommand
      split
      · by_cases hmem : id ∈ unsafeRetries s route capabilities
        · -- only pending commands are listed
          obtain ⟨listed, hlisted, _, hpending⟩ := of_mem_unsafeRetries hmem
          rw [found] at hlisted
          cases hlisted
          refine .pending hpending ?_
          dsimp only
          rw [if_pos hmem]
          nofun
        · exact .same (if_neg hmem) fun _ => rfl
      · exact .same rfl fun _ => rfl

theorem Step.turned {A : Allow} (h : Step A s s') {state : CommandState}
    (found : s.commands.find? id = some state)
    (found' : s'.commands.find? id = some state') : Turned s id state state' := by
  cases h.origin found' with
  | kept before turned =>
      rw [found] at before
      cases before
      exact turned
  | issued fresh => rw [found] at fresh; cases fresh

end Origin

/-- An accepted report leaves a command active only as indeterminate. -/
theorem Acceptable.indeterminate {s : RuntimeEffectsState} {report : EffectReport}
    {state : CommandState} (h : Acceptable s report state)
    (hactive : active report.status = true) : report.status = .indeterminate := by
  obtain ⟨_, _, hne, _⟩ := of_validateEffectReport h.valid
  cases hs : report.status with
  | indeterminate => rfl
  | pending => exact absurd hs hne
  | _ => rw [hs] at hactive; cases hactive

/-! ## Reopened commands -/

/-- Indeterminate by the word of a report, the one accepted for the command. -/
def Reopened (state : CommandState) : Prop :=
  state.status = .indeterminate ∧
    ∃ report, state.terminalReport = some report ∧ report.status = .indeterminate

/-- Reopened, so closed to reports, and not the command a reconciliation would look at. -/
def Stuck (s : RuntimeEffectsState) (id : UInt64) : Prop :=
  ∃ state, s.commands.find? id = some state ∧ Reopened state ∧
    s.latestByTarget.find? state.key ≠ some id

instance stuckDecidable (s : RuntimeEffectsState) (id : UInt64) : Decidable (Stuck s id) :=
  decidable_of_iff ((s.commands.find? id).any fun state =>
      (decide (state.status = .indeterminate) &&
        state.terminalReport.any fun report => decide (report.status = .indeterminate)) &&
        decide (s.latestByTarget.find? state.key ≠ some id)) (by
    simp only [Option.any_eq_true, Bool.and_eq_true, decide_eq_true_eq, Stuck, Reopened])

/-- Active commands are the latest of their targets, or stuck. -/
def LatestActive (s : RuntimeEffectsState) : Prop :=
  ∀ id state, s.commands.find? id = some state → active state.status = true →
    s.latestByTarget.find? state.key = some id ∨ Stuck s id

section Steps

variable {A : Allow} {s s' : RuntimeEffectsState}

/-- Only a step that issues a command makes a command the latest of its target. -/
theorem Step.latest_back (wf : WF s) (h : Step A s s') {key : TargetKey} {id : UInt64}
    (known : s.commands.find? id ≠ none) (hlatest : s'.latestByTarget.find? key = some id) :
    s.latestByTarget.find? key = some id := by
  cases h.latest wf key with
  | same same => rwa [same] at hlatest
  | pruned _ after => rw [after] at hlatest; cases hlatest
  | issued of number after =>
      rw [after] at hlatest
      cases hlatest
      obtain ⟨state, hstate⟩ := Option.ne_none_iff_exists'.mp known
      exact absurd (number ▸ wf.issued hstate) (lt_irrefl _)

theorem Step.latest_kept (wf : WF s) (h : Step A s s') {id : UInt64} {state state' : CommandState}
    (found : s.commands.find? id = some state) (found' : s'.commands.find? id = some state')
    (hactive : active state.status = true)
    (hlatest : s.latestByTarget.find? state.key = some id) :
    s'.latestByTarget.find? state.key = some id := by
  cases h.latest wf state.key with
  | same same => rwa [same]
  | pruned before _ gone =>
      rw [hlatest] at before
      cases before
      rw [gone] at found'
      cases found'
  | issued _ _ _ _ free =>
      obtain ⟨prior, hprior, hended⟩ := free id hlatest
      rw [found] at hprior
      cases hprior
      rw [hactive] at hended
      cases hended

theorem Step.key {id : UInt64} {state state' : CommandState} (h : Step A s s')
    (found : s.commands.find? id = some state) (found' : s'.commands.find? id = some state') :
    state'.key = state.key ∧
      (state.terminalReport ≠ none → state'.terminalReport ≠ none) := by
  cases h.entry id with
  | absent before => rw [before] at found; cases found
  | kept before after evolves =>
      rw [before] at found
      rw [after] at found'
      cases found
      cases found'
      exact ⟨congrArg (fun c : EffectCommand => c.effect.key) evolves.command,
        evolves.terminalReport⟩
  | pruned _ _ after => rw [after] at found'; cases found'
  | issued _ before => rw [before] at found; cases found

/-- Nothing helps a stuck command. -/
theorem Step.stuck (wf : WF s) (h : Step A s s') {id : UInt64} (hstuck : Stuck s id) :
    Stuck s' id := by
  obtain ⟨state, found, ⟨hstatus, report, hclosed, hreported⟩, hlatest⟩ := hstuck
  have hkept : s'.commands.find? id ≠ none := by
    cases h.entry id with
    | absent before => rw [before] at found; cases found
    | kept _ after => rw [after]; exact Option.some_ne_none _
    | pruned before ended =>
        rw [before] at found
        cases found
        rw [hstatus] at ended
        cases ended
    | issued _ before => rw [before] at found; cases found
  obtain ⟨state', found'⟩ := Option.ne_none_iff_exists'.mp hkept
  have hkey := (h.key found found').1
  refine ⟨state', found', ?_, fun hl => hlatest ?_⟩
  · cases h.turned found found' with
    | same status kept =>
        have hactive : active state.status = true := by
          rw [hstatus]
          rfl
        exact ⟨status.trans hstatus, report, (kept hactive).trans hclosed, hreported⟩
    | pending was => rw [hstatus] at was; cases was
    | reconciled _ latest => exact absurd latest hlatest
    | reported acceptable => rw [acceptable.first] at hclosed; cases hclosed
  · rw [hkey] at hl
    exact h.latest_back wf (by rw [found]; exact Option.some_ne_none _) hl

theorem Step.latestActive (wf : WF s) (h : Step A s s') (hl : LatestActive s) :
    LatestActive s' := by
  intro id state' found' hactive'
  cases h.origin found' with
  | issued _ latest => exact .inl latest
  | @kept state found turned =>
      have hkey := (h.key found found').1
      by_cases hactive : active state.status = true
      · rcases hl id state found hactive with hlatest | hstuck
        · rw [hkey]
          exact .inl (h.latest_kept wf found found' hactive hlatest)
        · exact .inr (h.stuck wf hstuck)
      · -- reopened: by a report, which closes it
        by_cases hlatest : s'.latestByTarget.find? state'.key = some id
        · exact .inl hlatest
        · cases turned with
          | same status => rw [status] at hactive'; exact absurd hactive' hactive
          | pending was => rw [was] at hactive; exact absurd rfl hactive
          | reconciled was => rw [was] at hactive; exact absurd rfl hactive
          | reported acceptable status kept =>
              rw [status] at hactive'
              have hindeterminate := acceptable.indeterminate hactive'
              exact .inr ⟨state', found', ⟨status.trans hindeterminate, _, kept, hindeterminate⟩,
                hlatest⟩

/-- What a run may do with a command that had ended. -/
structure EndedOr (ended : CommandState) (id : UInt64) (s : RuntimeEffectsState) : Prop where
  taken : id < s.nextCommand
  reports : ∀ state, s.commands.find? id = some state →
    ended.terminalReport ≠ none → state.terminalReport ≠ none
  reopened : ∀ state, s.commands.find? id = some state → active state.status = true →
    ended.terminalReport = none ∧ Reopened state

theorem Step.endedOr {ended : CommandState} {id : UInt64} (h : Step A s s')
    (he : EndedOr ended id s) : EndedOr ended id s' := by
  have back : ∀ {state'}, s'.commands.find? id = some state' →
      ∃ state, s.commands.find? id = some state := by
    intro state' found'
    cases h.entry id with
    | absent _ after => rw [after] at found'; cases found'
    | kept before => exact ⟨_, before⟩
    | pruned _ _ after => rw [after] at found'; cases found'
    | issued number => exact absurd (number ▸ he.taken) (lt_irrefl _)
  refine ⟨h.lt_nextCommand he.taken, fun state' found' hclosed => ?_,
    fun state' found' hactive' => ?_⟩
  · obtain ⟨state, found⟩ := back found'
    exact (h.key found found').2 (he.reports state found hclosed)
  · obtain ⟨state, found⟩ := back found'
    by_cases hactive : active state.status = true
    · obtain ⟨hnone, hstatus, report, hreport, hreported⟩ := he.reopened state found hactive
      refine ⟨hnone, ?_⟩
      cases h.turned found found' with
      | same status kept =>
          exact ⟨status.trans hstatus, report, (kept hactive).trans hreport, hreported⟩
      | pending was => rw [hstatus] at was; cases was
      | reconciled _ _ ended => rw [hactive'] at ended; cases ended
      | reported acceptable =>
          rw [acceptable.first] at hreport
          cases hreport
    · cases h.turned found found' with
      | same status => rw [status] at hactive'; exact absurd hactive' hactive
      | pending was => rw [was] at hactive; exact absurd rfl hactive
      | reconciled was => rw [was] at hactive; exact absurd rfl hactive
      | @reported report acceptable status kept =>
          refine ⟨?_, ?_⟩
          · by_contra hclosed
            exact he.reports state found hclosed acceptable.first
          · rw [status] at hactive'
            have hindeterminate := acceptable.indeterminate hactive'
            exact ⟨status.trans hindeterminate, report, kept, hindeterminate⟩

end Steps

/-! ## Runs -/

/-- What every step keeps, every run keeps. -/
theorem kept_of_steps {P : RuntimeEffectsState → Prop}
    (hstep : ∀ s s', WF s → Step anyStep s s' → P s → P s') {s s' : RuntimeEffectsState}
    (run : Reaches perform (fun _ _ => True) s s') (wf : WF s) (hs : P s) : WF s' ∧ P s' := by
  refine run.induct (P := fun s => WF s ∧ P s) ⟨wf, hs⟩ fun op s hw _ => ?_
  have moves := perform_moves anyStep_open hw.1 (op.allowed_anyStep s)
  generalize perform op s = s' at moves ⊢
  induction moves with
  | refl => exact hw
  | tail _ step ih => exact ⟨step.wf ih.1, hstep _ _ ih.1 step ih.2⟩

theorem statuses_settle {options : RuntimeOptions} {store : EventStore}
    {s₀ s s' : RuntimeEffectsState} (empty : EventStore.Empty store)
    (start : construct options (initial options store) = .ok () s₀)
    (run : Reaches perform (fun _ _ => True) s₀ s)
    (later : Reaches perform (fun _ _ => True) s s') :
    LatestActive s ∧ (∀ id, Stuck s id → Stuck s' id) ∧
      ∀ id state state', s.commands.find? id = some state → active state.status = false →
        s'.commands.find? id = some state' → active state'.status = true →
        state.terminalReport = none ∧ Reopened state' := by
  have constructed := (construct_inv start).2
  have hnone : s₀.commands = .empty := by
    rcases constructed.result with ⟨_, _, payload, rfl⟩ | ⟨hne, _⟩
    · rfl
    · exact absurd empty.records hne
  have sim : Sim anyStep.skip s₀ := constructed.sim empty.ledgered
  obtain ⟨wf, hlatest⟩ := kept_of_steps (P := LatestActive)
    (fun _ _ wf step => step.latestActive wf) run sim.wf fun id state found => by
      rw [hnone] at found
      cases found
  refine ⟨hlatest, fun id hstuck => ?_, fun id state state' found hended found' hactive' => ?_⟩
  · exact (kept_of_steps (P := fun s => Stuck s id) (fun _ _ wf step => step.stuck wf) later wf
      hstuck).2
  · have start : EndedOr state id s := by
      refine ⟨wf.issued found, fun st hst => ?_, fun st hst hactive => ?_⟩
      · rw [found] at hst
        cases hst
        exact fun hclosed => hclosed
      · rw [found] at hst
        cases hst
        rw [hended] at hactive
        cases hactive
    exact (kept_of_steps (fun _ _ _ step => step.endedOr) later wf start).2.reopened state' found'
      hactive'

/-! ### A command that nothing resolves -/

/-- The first command fails, a second one is issued, and a late report calls the first
    indeterminate. -/
def lampStuckOps : List Op :=
  [lampRegister,
    .issue ⟨lampRoute, lampTarget, .boolean true⟩ 5 (.ok {})
      ⟨[], .ok ⟨.failed, none, utf8 "no power"⟩⟩,
    lampIssue (.boolean false),
    .applyReport (.make 1 1 lampRoute lampTarget .indeterminate none [] 6 0)]

def lampStuck : RuntimeEffectsState := lampStuckOps.foldl (fun s op => perform op s) lampStart

theorem lampStuck_run : Reaches perform (fun _ _ => True) lampStart lampStuck :=
  .along .start lampStuckOps fun _ _ _ => trivial

theorem statuses_settle_lamp : Stuck lampStuck 1 ∧
    Stuck (perform (.reconcileIndeterminate lampRoute lampTarget (.boolean true)) lampStuck) 1 := by
  have hstuck : Stuck lampStuck 1 := by decide +kernel
  refine ⟨hstuck, ?_⟩
  have settled := statuses_settle lampStore_empty construct_lamp lampStuck_run
    (.next (.reconcileIndeterminate lampRoute lampTarget (.boolean true)) .start trivial)
  exact settled.2.1 1 hstuck

end Effects

end LiquidLayer
