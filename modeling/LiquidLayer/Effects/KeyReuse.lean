/-
  A key reused for another command (`require_same_command`, `finish_failure` of
  IdempotentDispatcher.cpp).

  * `Recorded`: a successful outcome the dispatcher can still find.
  * `Faithful`: what the calls made since then are told, as long as the outcome stands.
  * `alone`: one call of `dispatch` from its start to its end.
  * `reuse_contained_iff`: a conflicting call does no harm if and only if memory has the outcome.
-/
import LiquidLayer.Effects.DispatchOnce

namespace LiquidLayer

namespace Dispatch

open Prog

variable {σ : Type} {cache : Option (PersistentOutcomeCache σ)} {s s' : Dispatcher σ}
  {key : DispatchKey} {id : CallId} {call : Call} {point : DispatchPoint}
  {stored : σ → DispatchKey → Option CachedDispatchOutcome} {outcome : CachedDispatchOutcome}

/-! ## A recorded outcome -/

/-- The outcome is in memory, or a durable cache holds it. -/
inductive Recorded (cache : Option (PersistentOutcomeCache σ))
    (stored : σ → DispatchKey → Option CachedDispatchOutcome) (s : Dispatcher σ)
    (outcome : CachedDispatchOutcome) : Prop
  | memory : s.memory.find? (keyFor outcome.command) = some outcome →
      Recorded cache stored s outcome
  | persistent : Durable cache stored →
      stored s.persistent (keyFor outcome.command) = some outcome →
      Valid outcome outcome.command → Recorded cache stored s outcome

/-- The key is not in the uncertain table, nor about to be. -/
structure Clean (s : Dispatcher σ) (key : DispatchKey) : Prop where
  uncertain : s.uncertain.find? key = none
  failing : ∀ {id : CallId} {call : Call} {error : Failure}, s.calls.find? id = some call →
    call.key = key → call.point ≠ .failing error

theorem Recorded.stands (h : Recorded cache stored s outcome)
    (backed : Durable cache stored → Backed stored s)
    (clean : Clean s (keyFor outcome.command)) :
    Stands cache stored (keyFor outcome.command) s ⟨outcome.command, .ok outcome.result⟩ := by
  cases h with
  | memory hmemory => exact .memory hmemory
  | persistent hdurable hheld hvalid =>
      cases hmemory : s.memory.find? (keyFor outcome.command) with
      | some cached =>
          cases ((backed hdurable).memory hmemory).symm.trans hheld
          exact .memory hmemory
      | none => exact .persistent hdurable hmemory clean.uncertain hheld hvalid clean.failing

/-- An outcome that stands is in memory, or nothing is, and the uncertain table has nothing. -/
theorem Stands.found (h : Stands cache stored key s ⟨outcome.command, .ok outcome.result⟩)
    (sound : Sound s) :
    s.uncertain.find? key = none ∧
      (s.memory.find? key = some outcome ∨ s.memory.find? key = none) := by
  obtain ⟨command, result⟩ := outcome
  cases h with
  | memory hmemory => exact ⟨(sound.memory hmemory).2.2.1, .inl hmemory⟩
  | persistent _ hmemory huncertain => exact ⟨huncertain, .inr hmemory⟩

/-- While an outcome stands, calls in flight under its key are about to find it. -/
theorem Stands.leader {command : EffectCommand} {result : DispatchResult}
    (h : Stands cache stored key s ⟨command, .ok result⟩) (sound : Sound s)
    (backed : Durable cache stored → Backed stored s) (hcall : s.calls.find? id = some call)
    (hkey : call.key = key) (hlead : call.point.leads = true) :
    (call.point = .leading ∨ call.point = .remembering ⟨command, result⟩) ∧
      Durable cache stored ∧ stored s.persistent key = some ⟨command, result⟩ := by
  have hflight := sound.leads hcall hlead
  rw [hkey] at hflight
  cases h with
  | memory hmemory => exact nomatch hflight.symm.trans (sound.memory hmemory).2.2.2
  | @persistent outcome hdurable _ _ hheld _ hcalm =>
      refine ⟨?_, hdurable, hheld⟩
      have hbacks := (backed hdurable).call hcall
      rw [hkey] at hbacks
      cases hpoint : call.point with
      | leading => exact .inl rfl
      | remembering other =>
          rw [hpoint] at hbacks
          cases hheld.symm.trans hbacks
          exact .inr rfl
      | failing error => exact absurd hpoint (hcalm hcall hkey)
      | invoking | dispatched =>
          rw [hpoint] at hbacks
          exact nomatch hheld.symm.trans hbacks
      | entered | duplicate | full | finished =>
          rw [hpoint] at hlead
          cases hlead

/-- The adapter is not called under a key with an outcome that stands. -/
theorem Stands.invocations {command : EffectCommand} {result : DispatchResult}
    (h : Stands cache stored key s ⟨command, .ok result⟩) (sound : Sound s)
    (backed : Durable cache stored → Backed stored s) (action : Action) :
    invocations (Dispatch.step cache action s) key = invocations s key := by
  unfold Dispatch.invocations
  rcases invoked_step cache action s with hsame | ⟨id, call, hcall, hpoint, hnone, -, hnew⟩
  · rw [hsame]
  · rw [hnew]
    refine congrArg List.length (List.filter_cons_of_neg ?_)
    intro hkey
    have hkey : call.key = key := of_decide_eq_true hkey
    obtain ⟨-, hdurable, hheld⟩ := h.leader sound backed hcall hkey (by rw [hpoint]; rfl)
    have hasked := hdurable.asked (s := s) call.command
    rw [show keyFor call.command = key from hkey, hheld] at hasked
    exact nomatch hasked.symm.trans hnone

/-! ## The calls made since -/

variable (cache) in
theorem call_step (hcall : s.calls.find? id = some call) (action : Action) :
    ∃ after, (step cache action s).calls.find? id = some after ∧
      after.adapterRoute = call.adapterRoute ∧ after.command = call.command ∧
      (∀ answer, call.point = .finished answer → after.point = .finished answer) ∧
      (call.point.leads = true →
        after.point.leads = true ∨ ∃ answer, after.point = .finished answer) := by
  have hsame : ∀ {t : Dispatcher σ}, t.calls.find? id = some call → ∃ after,
      t.calls.find? id = some after ∧ after.adapterRoute = call.adapterRoute ∧
      after.command = call.command ∧
      (∀ answer, call.point = .finished answer → after.point = .finished answer) ∧
      (call.point.leads = true →
        after.point.leads = true ∨ ∃ answer, after.point = .finished answer) :=
    fun h => ⟨call, h, rfl, rfl, fun _ h => h, fun h => .inl h⟩
  have hmoves : ∀ {t : Dispatcher σ} {j other p}, t.calls = s.calls →
      s.calls.find? j = some other → (∀ answer, other.point ≠ .finished answer) →
      (other.point.leads = true → p.leads = true ∨ ∃ answer, p = .finished answer) →
      ∃ after, (t.move j p).calls.find? id = some after ∧
        after.adapterRoute = call.adapterRoute ∧ after.command = call.command ∧
        (∀ answer, call.point = .finished answer → after.point = .finished answer) ∧
        (call.point.leads = true →
          after.point.leads = true ∨ ∃ answer, after.point = .finished answer) := by
    intro t j other p hcalls hj hopen hp
    have hcall' : t.calls.find? id = some call := (congrArg (OrdMap.find? · id) hcalls).trans hcall
    by_cases heq : id = j
    · subst heq
      cases hcall.symm.trans hj
      exact ⟨_, find?_move_self _ hcall', rfl, rfl, fun answer h => absurd h (hopen answer), hp⟩
    · exact hsame ((find?_move_ne heq).trans hcall')
  have hfresh : ∀ {j}, s.calls.find? j = none → id ≠ j := by
    rintro j hnone rfl
    cases hcall.symm.trans hnone
  have hhappens := step_happens cache action s
  generalize step cache action s = s' at hhappens
  cases hhappens with
  | nothing => exact hsame hcall
  | refused fresh => exact hsame ((OrdMap.find?_insert_ne _ (hfresh fresh) _).trans hcall)
  | admitted fresh => exact hsame ((OrdMap.find?_insert_ne _ (hfresh fresh) _).trans hcall)
  | looks hj hwaits hlooks =>
      have hopen := Sound.not_finished hwaits
      cases hlooks <;> exact hmoves rfl hj hopen fun hlead =>
        nomatch (Sound.waits_leads hwaits).symm.trans hlead
  | consults hj hpoint hconsulted =>
      have hopen := @Sound.lead_not_finished _ (by rw [hpoint]; rfl)
      cases hconsulted <;> exact hmoves rfl hj hopen fun _ => .inl rfl
  | answered hj hpoint =>
      exact hmoves rfl hj (Sound.lead_not_finished (by rw [hpoint]; rfl)) fun _ => .inl rfl
  | threw hj hpoint =>
      exact hmoves rfl hj (Sound.lead_not_finished (by rw [hpoint]; rfl)) fun _ => .inl rfl
  | stores hj hpoint =>
      exact hmoves rfl hj (Sound.lead_not_finished (by rw [hpoint]; rfl)) fun _ => .inl rfl
  | loses hj hpoint =>
      exact hmoves rfl hj (Sound.lead_not_finished (by rw [hpoint]; rfl)) fun _ => .inl rfl
  | remembers hj hpoint =>
      exact hmoves (t := s) rfl hj (Sound.lead_not_finished (by rw [hpoint]; rfl))
        fun _ => .inr ⟨_, rfl⟩
  | fails hj hpoint =>
      exact hmoves (t := s) rfl hj (Sound.lead_not_finished (by rw [hpoint]; rfl))
        fun _ => .inr ⟨_, rfl⟩
  | clears => exact hsame hcall

/-- A call that waits for another was waiting before, or has just found it in flight. -/
theorem duplicate_step {action : Action} {leader : CallId}
    (h : (step cache action s).calls.find? id = some call) (hpoint : call.point = .duplicate leader) :
    ∃ before, s.calls.find? id = some before ∧ before.command = call.command ∧
      (before.point = .duplicate leader ∨ s.inFlight.find? call.key = some leader) := by
  have hsame : ∀ {t : Dispatcher σ} {j other p}, t.calls = s.calls →
      s.calls.find? j = some other → (t.move j p).calls.find? id = some call →
      (p = .duplicate leader → s.inFlight.find? other.key = some leader) →
      ∃ before, s.calls.find? id = some before ∧ before.command = call.command ∧
        (before.point = .duplicate leader ∨ s.inFlight.find? call.key = some leader) := by
    intro t j other p hcalls hj hmoved hwaits
    rcases find?_move_cases ((congrArg (OrdMap.find? · j) hcalls).trans hj) hmoved with
      ⟨rfl, rfl⟩ | ⟨-, hbefore⟩
    · exact ⟨other, hj, rfl, .inr (hwaits hpoint)⟩
    · exact ⟨call, (congrArg (OrdMap.find? · id) hcalls).symm.trans hbefore, rfl, .inl hpoint⟩
  have hhappens := step_happens cache action s
  generalize step cache action s = s' at hhappens h
  cases hhappens with
  | nothing => exact ⟨call, h, rfl, .inl hpoint⟩
  | refused | admitted =>
      rw [OrdMap.find?_insert] at h
      split at h
      · cases h
        cases hpoint
      · exact ⟨call, h, rfl, .inl hpoint⟩
  | looks hj _ hlooks =>
      cases hlooks with
      | gives => exact hsame rfl hj h nofun
      | duplicate _ _ hflight =>
          exact hsame rfl hj h fun heq => by
            cases heq
            exact hflight
      | full => exact hsame rfl hj h nofun
      | leads => exact hsame rfl hj h nofun
  | consults hj _ hconsulted => cases hconsulted <;> exact hsame rfl hj h nofun
  | answered hj => exact hsame rfl hj h nofun
  | threw hj => exact hsame rfl hj h nofun
  | stores hj => exact hsame rfl hj h nofun
  | loses hj => exact hsame rfl hj h nofun
  | remembers hj => exact hsame (t := s) rfl hj h nofun
  | fails hj => exact hsame (t := s) rfl hj h nofun
  | clears => exact ⟨call, h, rfl, .inl hpoint⟩

/-- What is so of the calls under the outcome's key that `old` does not know: those that have
    ended were told the outcome, and those that wait for a call wait for one that returns it. -/
structure Faithful (old s : Dispatcher σ) (outcome : CachedDispatchOutcome) : Prop where
  ends : ∀ {id : CallId} {call : Call} {answer : Answer}, old.calls.find? id = none →
    s.calls.find? id = some call → call.key = keyFor outcome.command →
    Admitted call.adapterRoute call.command → call.point = .finished answer →
    answer = Verdict.told ⟨outcome.command, .ok outcome.result⟩ call.command
  waits : ∀ {id leader : CallId} {call : Call}, old.calls.find? id = none →
    s.calls.find? id = some call → call.key = keyFor outcome.command →
    call.point = .duplicate leader →
    ∃ other, s.calls.find? leader = some other ∧ (other.point.leads = true ∨
      (other.command = outcome.command ∧ other.point = .finished (.ok outcome.result)))

/-- A call in flight under the outcome's key goes on, or returns the outcome. -/
theorem Stands.leader_step
    (h : Stands cache stored (keyFor outcome.command) s ⟨outcome.command, .ok outcome.result⟩)
    (sound : Sound s) (backed : Durable cache stored → Backed stored s)
    (hcall : s.calls.find? id = some call) (hkey : call.key = keyFor outcome.command)
    (hlead : call.point.leads = true) (action : Action) :
    ∃ after, (Dispatch.step cache action s).calls.find? id = some after ∧
      (after.point.leads = true ∨
        (after.command = outcome.command ∧ after.point = .finished (.ok outcome.result))) := by
  obtain ⟨after, hafter, hroute, hcommand, -, hgoes⟩ := call_step cache hcall action
  refine ⟨after, hafter, (hgoes hlead).imp (fun h => h) fun ⟨answer, hended⟩ => ?_⟩
  have hadmitted := sound.admits hcall (Sound.lead_not_finished hlead)
  rw [← hroute, ← hcommand] at hadmitted
  obtain ⟨before, hbefore, -, -, hby⟩ := ends_step hafter hended hadmitted
  cases hcall.symm.trans hbefore
  obtain ⟨hat, -⟩ := h.leader sound backed hcall hkey hlead
  cases hby with
  | before hpoint => exact absurd hpoint (Sound.lead_not_finished hlead answer)
  | gives _ hwaits => exact nomatch (Sound.waits_leads hwaits).symm.trans hlead
  | remembers _ hpoint hanswer =>
      rcases hat with hat | hat
      · cases hat.symm.trans hpoint
      · cases hat.symm.trans hpoint
        refine ⟨?_, hanswer ▸ hended⟩
        rw [hcommand]
        exact (sound.outcome hcall (.inr hpoint)).1.symm
  | fails _ _ hpoint =>
      rcases hat with hat | hat <;> cases hat.symm.trans hpoint

namespace Faithful

variable {old : Dispatcher σ}

theorem start (s : Dispatcher σ) (outcome : CachedDispatchOutcome) : Faithful s s outcome where
  ends hold hcall := nomatch hold.symm.trans hcall
  waits hold hcall := nomatch hold.symm.trans hcall

theorem step (h : Faithful old s outcome)
    (hstands : Stands cache stored (keyFor outcome.command) s
      ⟨outcome.command, .ok outcome.result⟩)
    (sound : Sound s) (backed : Durable cache stored → Backed stored s) (action : Action) :
    Faithful old (Dispatch.step cache action s) outcome where
  ends := by
    intro id call answer hold hcall hkey hadmitted hpoint
    obtain ⟨before, hbefore, hroute, hcommand, hby⟩ := ends_step hcall hpoint hadmitted
    have hkey' : before.key = keyFor outcome.command := (congrArg keyFor hcommand).trans hkey
    have hadmitted' : Admitted before.adapterRoute before.command := by
      rw [hroute, hcommand]
      exact hadmitted
    rw [← hcommand]
    cases hby with
    | before hat => exact h.ends hold hbefore hkey' hadmitted' hat
    | gives _ _ hgives =>
        -- what is told without a wait is what stands; a wait was for a call that returned it
        rw [← hkey'] at hstands
        have hfound := hstands.found sound
        cases hgives with
        | @memory cached hmemory =>
            rw [told_recorded (sound.memory hmemory).2.1]
            rcases hfound.2 with hheld | hnone
            · cases hmemory.symm.trans hheld
              rfl
            · exact nomatch hnone.symm.trans hmemory
        | uncertain huncertain | reused huncertain =>
            exact nomatch hfound.1.symm.trans huncertain
        | @failed leader entry failure hat hentry hcompleted hfailure =>
            obtain ⟨other, hother, -, -, hended⟩ := waited_for sound hbefore hat hentry hcompleted
            obtain ⟨other', hother', hwaits⟩ := h.waits hold hbefore hkey' hat
            cases hother.symm.trans hother'
            rcases hended with ⟨_, hnone, -⟩ | ⟨error, -, herror⟩
            · exact nomatch hnone.symm.trans hfailure
            · rcases hwaits with hlead | ⟨-, hok⟩
              · exact absurd herror (Sound.lead_not_finished hlead _)
              · cases hok.symm.trans herror
        | @shared leader entry kept hat hentry hcompleted hfailure houtcome =>
            obtain ⟨other, hother, -, -, hended⟩ := waited_for sound hbefore hat hentry hcompleted
            obtain ⟨other', hother', hwaits⟩ := h.waits hold hbefore hkey' hat
            cases hother.symm.trans hother'
            rcases hended with ⟨kept', -, hsome, hsame, hvalid, hok⟩ | ⟨error, hsome, -⟩
            · cases houtcome.symm.trans hsome
              rw [told_recorded ⟨rfl, hvalid⟩]
              rcases hwaits with hlead | ⟨hfirst, hok'⟩
              · exact absurd hok (Sound.lead_not_finished hlead _)
              · rw [hsame, hfirst, DispatchPoint.finished.inj (hok.symm.trans hok')]
            · exact nomatch hfailure.symm.trans hsome
    | remembers _ hat hanswer =>
        obtain ⟨hpoints, -⟩ := hstands.leader sound backed hbefore hkey' (by rw [hat]; rfl)
        rcases hpoints with hpoint' | hpoint'
        · cases hat.symm.trans hpoint'
        · cases hat.symm.trans hpoint'
          unfold Verdict.told
          rw [if_pos (sound.outcome hbefore (.inr hat)).1, hanswer]
    | fails _ _ hat =>
        obtain ⟨hpoints, -⟩ := hstands.leader sound backed hbefore hkey' (by rw [hat]; rfl)
        rcases hpoints with hpoint' | hpoint' <;> cases hat.symm.trans hpoint'
  waits := by
    intro id leader call hold hcall hkey hpoint
    obtain ⟨before, hbefore, hcommand, hwhy⟩ := duplicate_step hcall hpoint
    have hkey' : before.key = keyFor outcome.command := (congrArg keyFor hcommand).trans hkey
    have hleads : ∀ {other}, s.calls.find? leader = some other →
        other.key = keyFor outcome.command → other.point.leads = true →
        ∃ after, (Dispatch.step cache action s).calls.find? leader = some after ∧
          (after.point.leads = true ∨
            (after.command = outcome.command ∧ after.point = .finished (.ok outcome.result))) :=
      fun hother hkeyOf hlead => hstands.leader_step sound backed hother hkeyOf hlead action
    rcases hwhy with hat | hflight
    · obtain ⟨other, hother, hlead | ⟨hfirst, hok⟩⟩ := h.waits hold hbefore hkey' hat
      · obtain ⟨other', _, hother', -, hkeyOf⟩ := sound.duplicate hbefore hat
        cases hother.symm.trans hother'
        exact hleads hother (hkeyOf.trans hkey') hlead
      · obtain ⟨after, hafter, -, hsame, hends, -⟩ := call_step cache hother action
        exact ⟨after, hafter, .inr ⟨hsame.trans hfirst, hends _ hok⟩⟩
    · obtain ⟨other, _, hother, -, hkeyOf, hlead⟩ := sound.flight hflight
      exact hleads hother (hkeyOf.trans hkey) hlead

end Faithful

/-! ## One call alone -/

/-- One call of `dispatch` from its start to its end, if it needs no adapter. -/
def alone (cache : Option (PersistentOutcomeCache σ)) (id : CallId) (route : AdapterRoute)
    (command : EffectCommand) (first : DispatchKey) (s : Dispatcher σ) : Dispatcher σ :=
  [Action.call id route command, .lock id, .consult id, .remember id, .fail id first].foldl
    (fun s action => step cache action s) s

/-- How the call `id` ended, if it has. -/
def answerOf (s : Dispatcher σ) (id : CallId) : Option Answer :=
  match s.calls.find? id with
  | some ⟨_, _, .finished answer⟩ => some answer
  | _ => none

theorem answerOf_of_finished {answer : Answer} (hcall : s.calls.find? id = some call)
    (hpoint : call.point = .finished answer) : answerOf s id = some answer := by
  obtain ⟨route, command, point⟩ := call
  cases hpoint
  unfold answerOf
  rw [hcall]

section Steps

variable {route : AdapterRoute} {command : EffectCommand}

theorem step_call (fresh : s.calls.find? id = none) (admitted : Admitted route command) :
    step cache (.call id route command) s =
      { s with calls := s.calls.insert id ⟨route, command, .entered⟩ } := by
  unfold step
  simp only
  rw [OrdMap.not_contains_iff.mpr fresh, if_neg Bool.false_ne_true, enter_eq, admitted]

theorem step_lock (hcall : s.calls.find? id = some ⟨route, command, .entered⟩) :
    step cache (.lock id) s = s.lookUp id command := by
  unfold step
  simp only [hcall]
  rfl

theorem step_consult (hcall : s.calls.find? id = some ⟨route, command, .leading⟩) :
    step cache (.consult id) s = s.consult cache id command := by
  unfold step
  simp only [hcall]

/-- A call that has ended takes no further part. -/
theorem steps_finished {answer : Answer} {first : DispatchKey}
    (hcall : s.calls.find? id = some ⟨route, command, .finished answer⟩) :
    step cache (.consult id) s = s ∧ step cache (.remember id) s = s ∧
      step cache (.fail id first) s = s := by
  unfold step
  simp only [hcall]
  exact ⟨trivial, trivial, trivial⟩

variable (cache) in
/-- A call whose key memory or the uncertain table knows ends at its first look. -/
theorem alone_known (first : DispatchKey) {answer : Answer} {t : Dispatcher σ}
    (fresh : s.calls.find? id = none) (admitted : Admitted route command)
    (hlook : ({ s with calls := s.calls.insert id ⟨route, command, .entered⟩ }).lookUp id command =
      t.finish id answer)
    (hcalls : t.calls = s.calls.insert id ⟨route, command, .entered⟩) :
    alone cache id route command first s = t.finish id answer ∧
      (t.finish id answer).calls.find? id = some ⟨route, command, .finished answer⟩ := by
  have hself : t.calls.find? id = some ⟨route, command, .entered⟩ := by
    rw [hcalls, OrdMap.find?_insert_self]
  have hended : (t.finish id answer).calls.find? id =
      some ⟨route, command, .finished answer⟩ := find?_move_self _ hself
  refine ⟨?_, hended⟩
  unfold alone
  simp only [List.foldl_cons, List.foldl_nil]
  obtain ⟨hconsult, hremember, hfail⟩ :=
    @steps_finished _ cache _ _ _ _ _ first hended
  rw [step_call fresh admitted, step_lock (OrdMap.find?_insert_self _ _ _), hlook, hconsult,
    hremember, hfail]

variable (cache) in
theorem alone_memory (first : DispatchKey) {cached : CachedDispatchOutcome}
    (fresh : s.calls.find? id = none) (admitted : Admitted route command)
    (hmemory : s.memory.find? (keyFor command) = some cached) :
    answerOf (alone cache id route command first s) id =
        some (Dispatcher.recorded cached command) ∧
      (alone cache id route command first s).memory = s.memory ∧
      (alone cache id route command first s).invoked = s.invoked ∧
      ∀ j, j ≠ id → (alone cache id route command first s).calls.find? j = s.calls.find? j := by
  have hlook : ({ s with calls := s.calls.insert id ⟨route, command, .entered⟩ }).lookUp id command =
      (({ s with calls := s.calls.insert id ⟨route, command, .entered⟩ }).touch
        (keyFor command)).finish id (Dispatcher.recorded cached command) := by
    unfold Dispatcher.lookUp
    simp only [hmemory]
  obtain ⟨heq, hended⟩ := alone_known cache first fresh admitted hlook rfl
  rw [heq]
  refine ⟨answerOf_of_finished hended rfl, rfl, rfl, fun j hj => ?_⟩
  exact (find?_move_ne hj).trans (OrdMap.find?_insert_ne _ hj _)

variable (cache) in
theorem alone_uncertain (first : DispatchKey) {failed : UncertainOutcome}
    (fresh : s.calls.find? id = none) (admitted : Admitted route command)
    (hmemory : s.memory.find? (keyFor command) = none)
    (huncertain : s.uncertain.find? (keyFor command) = some failed) :
    (∃ error, answerOf (alone cache id route command first s) id = some (.error error)) ∧
      (alone cache id route command first s).memory = s.memory ∧
      (alone cache id route command first s).uncertain = s.uncertain ∧
      ∀ j, j ≠ id → (alone cache id route command first s).calls.find? j = s.calls.find? j := by
  have hlook : ∃ error,
      ({ s with calls := s.calls.insert id ⟨route, command, .entered⟩ }).lookUp id command =
      ({ s with calls := s.calls.insert id ⟨route, command, .entered⟩ }).finish id
        (.error error) := by
    unfold Dispatcher.lookUp
    simp only [hmemory, huncertain]
    split
    · exact ⟨_, rfl⟩
    · exact ⟨_, rfl⟩
  obtain ⟨error, hlook⟩ := hlook
  obtain ⟨heq, hended⟩ := alone_known cache first fresh admitted hlook rfl
  rw [heq]
  refine ⟨⟨error, answerOf_of_finished hended rfl⟩, rfl, rfl, fun j hj => ?_⟩
  exact (find?_move_ne hj).trans (OrdMap.find?_insert_ne _ hj _)

/-- A conflicting call that finds the outcome in the persistent cache fails, and its failure is
    all that is known of the key from then on. -/
theorem alone_conflict {first : DispatchKey} (fresh : s.calls.find? id = none)
    (admitted : Admitted route command) (unknown : Unknown s (keyFor command))
    (room : s.inFlight.size < s.maximumConcurrentDispatches) (hdurable : Durable cache stored)
    (hheld : stored s.persistent (keyFor command) = some outcome)
    (hconflict : outcome.command ≠ command) (hbegins : s.begins (keyFor command) first = true) :
    (alone cache id route command first s).memory = s.memory ∧
      (alone cache id route command first s).uncertain.find? (keyFor command) =
        some ⟨command, reusedKey⟩ ∧
      ∀ j, j ≠ id → (alone cache id route command first s).calls.find? j = s.calls.find? j := by
  let s₁ : Dispatcher σ := { s with calls := s.calls.insert id ⟨route, command, .entered⟩ }
  have hentered : s₁.calls.find? id = some ⟨route, command, .entered⟩ :=
    OrdMap.find?_insert_self _ _ _
  let s₂ : Dispatcher σ := { s₁ with
    inFlight := s.inFlight.insert (keyFor command) id
    entries := s.entries.insert id {} }.move id .leading
  have hlook : s₁.lookUp id command = s₂ := by
    unfold Dispatcher.lookUp
    have hroom : ¬s.inFlight.size ≥ s.maximumConcurrentDispatches := Nat.not_le.mpr room
    simp only [s₁, unknown.memory, unknown.uncertain, unknown.inFlight, hroom, if_false]
    rfl
  have hleading : s₂.calls.find? id = some ⟨route, command, .leading⟩ := find?_move_self _ hentered
  let s₃ : Dispatcher σ :=
    { s₂ with persistent := (asked cache s₂ command).2 }.move id (.failing reusedKey)
  have hask : (asked cache s₂ command).1 = .ok (some outcome) :=
    (hdurable.asked (s := s₂) command).trans (congrArg Except.ok hheld)
  have hconsult : s₂.consult cache id command = s₃ := by
    have hsame : requireSameCommand outcome command = .error reusedKey := if_pos hconflict
    have hconsulted := consulted_consult cache s₂ id command
    generalize s₂.consult cache id command = t at hconsulted ⊢
    cases hconsulted with
    | invoke hnone => cases hask.symm.trans hnone
    | found hfound hok =>
        cases hask.symm.trans hfound
        cases hsame.symm.trans hok
    | conflict hfound herror =>
        cases hask.symm.trans hfound
        cases hsame.symm.trans herror
        rfl
    | throws herror => cases hask.symm.trans herror
  have hfailing : s₃.calls.find? id = some ⟨route, command, .failing reusedKey⟩ :=
    find?_move_self _ hleading
  have hremember : step cache (.remember id) s₃ = s₃ := by
    unfold step
    simp only [hfailing]
  have heq : alone cache id route command first s =
      s₃.finishFailure id command reusedKey first := by
    unfold alone
    simp only [List.foldl_cons, List.foldl_nil]
    rw [step_call fresh admitted, step_lock hentered, hlook, step_consult hleading, hconsult,
      hremember, step_fail hfailing rfl hbegins]
  rw [heq]
  refine ⟨rfl, OrdMap.find?_insert_self _ _ _, fun j hj => ?_⟩
  calc (s₃.finishFailure id command reusedKey first).calls.find? j
      = s₃.calls.find? j := find?_move_ne (s := s₃) hj
    _ = s₂.calls.find? j := find?_move_ne (s := s₂) hj
    _ = s₁.calls.find? j := find?_move_ne (s := s₁) hj
    _ = s.calls.find? j := OrdMap.find?_insert_ne _ hj _

end Steps

/-! ## A conflicting call -/

/-- What a call of another command under the outcome's key is meant to do: it throws, no adapter
    is called, and a call of the outcome's own command still returns the outcome. -/
def Contained (cache : Option (PersistentOutcomeCache σ)) (s : Dispatcher σ)
    (outcome : CachedDispatchOutcome) (id id' : CallId) (route route' : AdapterRoute)
    (command : EffectCommand) (first first' : DispatchKey) : Prop :=
  let after := alone cache id route command first s
  (∃ error, answerOf after id = some (.error error)) ∧
  after.invoked = s.invoked ∧
  answerOf (alone cache id' route' outcome.command first' after) id' = some (.ok outcome.result)

theorem contained_of_memory {id' : CallId} {route route' : AdapterRoute} {command : EffectCommand}
    {first first' : DispatchKey} (sound : Sound s) (fresh : s.calls.find? id = none)
    (fresh' : s.calls.find? id' = none) (hne : id' ≠ id) (admitted : Admitted route command)
    (admitted' : Admitted route' outcome.command)
    (hkey : keyFor command = keyFor outcome.command) (hother : command ≠ outcome.command)
    (hmemory : s.memory.find? (keyFor outcome.command) = some outcome) :
    Contained cache s outcome id id' route route' command first first' := by
  have hvalid := (sound.memory hmemory).2.1
  obtain ⟨hanswer, hkept, hinvoked, hcalls⟩ :=
    alone_memory cache first fresh admitted (hkey ▸ hmemory)
  refine ⟨⟨reusedKey, ?_⟩, hinvoked, ?_⟩
  · rw [hanswer, told_recorded hvalid, Verdict.told, if_neg (Ne.symm hother)]
  · obtain ⟨hanswer', -⟩ := alone_memory cache first'
      ((hcalls id' hne).trans fresh') admitted' (hkept ▸ hmemory)
    rw [hanswer', told_recorded hvalid, Verdict.told, if_pos rfl]

/-- A recorded outcome survives the reuse of its key for other commands. Over runs: as long as no
    such call gets to look into the persistent cache, every call made since is told the outcome,
    or that the key is taken, and no adapter is called. For one such call by itself: exactly if the
    outcome is still in memory. -/
theorem reuse_contained_iff {maxMemory maxConcurrent : Nat} {persistent : σ} {s₀ : Dispatcher σ}
    (made : idempotentDispatcher maxMemory persistent maxConcurrent = .ok s₀)
    (reached : Reaches (step cache) (fun _ _ => True) s₀ s)
    (recorded : Recorded cache stored s outcome) :
    (Clean s (keyFor outcome.command) →
      ∀ s', Reaches (step cache) (fun action s => Keeps cache stored (keyFor outcome.command) action s ∧
          FindsSame cache (keyFor outcome.command) action s) s s' →
        invocations s' (keyFor outcome.command) = invocations s (keyFor outcome.command) ∧
        ∀ id call answer, s.calls.find? id = none → s'.calls.find? id = some call →
          call.key = keyFor outcome.command → Admitted call.adapterRoute call.command →
          call.point = .finished answer →
          (call.command = outcome.command → answer = .ok outcome.result) ∧
          (call.command ≠ outcome.command → answer = .error reusedKey)) ∧
    ∀ id id' route route' command first first', s.calls.find? id = none →
      s.calls.find? id' = none → id' ≠ id → Admitted route command →
      Admitted route' outcome.command → keyFor command = keyFor outcome.command →
      command ≠ outcome.command → s.inFlight.find? (keyFor outcome.command) = none →
      s.inFlight.size < s.maximumConcurrentDispatches →
      s.begins (keyFor outcome.command) first = true →
      (Contained cache s outcome id id' route route' command first first' ↔
        s.memory.contains (keyFor outcome.command) = true) := by
  have hinv : Sound s ∧ (Durable cache stored → Backed stored s) := by
    have hempty := idempotentDispatcher_empty made
    refine reached.induct (P := fun s => Sound s ∧ (Durable cache stored → Backed stored s))
      ⟨Sound.start made, fun _ => ?_⟩ ?_
    · exact ⟨by rw [hempty.1]; exact nofun, by rw [hempty.2.1]; exact nofun⟩
    · rintro action s ⟨sound, backed⟩ -
      exact ⟨sound.step action, fun h => (backed h).step sound h action⟩
  obtain ⟨sound, backed⟩ := hinv
  refine ⟨fun clean s' hs' => ?_, ?_⟩
  · have hall := hs'.induct (P := fun t => Sound t ∧ (Durable cache stored → Backed stored t) ∧
        Stands cache stored (keyFor outcome.command) t ⟨outcome.command, .ok outcome.result⟩ ∧
        Faithful s t outcome ∧
        invocations t (keyFor outcome.command) = invocations s (keyFor outcome.command))
      ⟨sound, backed, recorded.stands backed clean, Faithful.start s outcome, rfl⟩ ?_
    · obtain ⟨-, -, -, hfaithful, hinvoked⟩ := hall
      refine ⟨hinvoked, fun id call answer hfresh hcall hkey hadmitted hpoint => ?_⟩
      rw [hfaithful.ends hfresh hcall hkey hadmitted hpoint]
      unfold Verdict.told
      exact ⟨fun h => if_pos h.symm, fun h => if_neg (Ne.symm h)⟩
    · rintro action t ⟨sound, backed, hstands, hfaithful, hinvoked⟩ ⟨keeps, same⟩
      exact ⟨sound.step action, fun h => (backed h).step sound h action,
        hstands.step sound backed keeps same, hfaithful.step hstands sound backed action,
        (hstands.invocations sound backed action).trans hinvoked⟩
  · intro id id' route route' command first first' fresh fresh' hne admitted admitted' hkey hother
      hidle room hbegins
    constructor
    · rintro ⟨-, -, hreturned⟩
      by_contra hmemory
      have hmemory := OrdMap.not_contains_iff.mp (Bool.eq_false_of_not_eq_true hmemory)
      -- the call of the outcome's command ends at the failure the other one has left
      have hpoisoned : ∃ failed, (alone cache id route command first s).memory = s.memory ∧
          (alone cache id route command first s).uncertain.find? (keyFor outcome.command) =
            some failed ∧
          (alone cache id route command first s).calls.find? id' = s.calls.find? id' := by
        cases huncertain : s.uncertain.find? (keyFor outcome.command) with
        | some failed =>
            obtain ⟨-, hmem, hunc, hcalls⟩ := alone_uncertain cache first
              fresh admitted (hkey ▸ hmemory) (hkey ▸ huncertain)
            exact ⟨failed, hmem, hunc ▸ huncertain, hcalls id' hne⟩
        | none =>
            cases recorded with
            | memory h => exact nomatch hmemory.symm.trans h
            | persistent hdurable hheld =>
                rw [← hkey] at hmemory huncertain hidle hheld hbegins
                obtain ⟨hmem, hunc, hcalls⟩ := alone_conflict fresh admitted
                  ⟨hmemory, huncertain, hidle⟩ room hdurable hheld (Ne.symm hother) hbegins
                exact ⟨_, hmem, hkey ▸ hunc, hcalls id' hne⟩
      obtain ⟨failed, hmem, hunc, hcalls⟩ := hpoisoned
      obtain ⟨⟨error, hthrows⟩, -⟩ := alone_uncertain cache first'
        (hcalls.trans fresh') admitted' ((congrArg (OrdMap.find? · _) hmem).trans hmemory) hunc
      cases hthrows.symm.trans hreturned
    · intro hcontains
      obtain ⟨cached, hcached⟩ := OrdMap.contains_iff.mp hcontains
      have hmemory : s.memory.find? (keyFor outcome.command) = some outcome := by
        cases recorded with
        | memory h => exact h
        | persistent hdurable hheld =>
            cases ((backed hdurable).memory hcached).symm.trans hheld
            exact hcached
      exact contained_of_memory sound fresh fresh' hne admitted admitted' hkey hother hmemory

/-! ### A lamp with a durable cache -/

abbrev Shelf := OrdMap DispatchKey CachedDispatchOutcome

/-- A cache that keeps every outcome it is given. -/
def shelf : PersistentOutcomeCache Shelf where
  find session command kept := (.ok (kept.find? ⟨session, command⟩), kept)
  store outcome kept := (.ok (), kept.insert (keyFor outcome.command) outcome)

theorem shelf_durable : Durable (some shelf) OrdMap.find? :=
  ⟨shelf, rfl, fun _ _ _ => rfl, fun _ _ _ _ => rfl,
    fun outcome kept _ => OrdMap.find?_insert_self kept _ outcome,
    fun outcome kept _ hne => OrdMap.find?_insert_ne kept hne outcome⟩

def shelfStart : Dispatcher Shelf :=
  { lampStart with maximumMemoryOutcomes := 1, persistent := .empty }

/-- A call that goes to the adapter, which accepts it. -/
def accepted (id : CallId) (command : EffectCommand) : List Action :=
  [.call id lampRoute command, .lock id, .consult id, .answer id (.ok lampDone), .store id,
    .remember id]

/-- The lamp's outcome is in memory and on the shelf. -/
def shelfOn : Dispatcher Shelf :=
  (accepted 1 (lampSwitch true)).foldl (fun s action => step (some shelf) action s) shelfStart

/-- Another command has taken its place in memory. -/
def shelfEvicted : Dispatcher Shelf :=
  (accepted 2 { lampSwitch true with commandId := 8 }).foldl
    (fun s action => step (some shelf) action s) shelfOn

def lampOutcome : CachedDispatchOutcome := ⟨lampSwitch true, lampDone⟩

theorem reuse_contained_lamp :
    Contained (some shelf) shelfOn lampOutcome 3 4 lampRoute lampRoute (lampSwitch false) lampKey
      lampKey := by
  have hmade : idempotentDispatcher 1 OrdMap.empty 1 = .ok shelfStart := rfl
  have hrecorded : Recorded (some shelf) OrdMap.find? shelfOn lampOutcome :=
    .memory (by decide +kernel)
  refine ((reuse_contained_iff hmade ?_ hrecorded).2 3 4 lampRoute lampRoute (lampSwitch false)
    lampKey lampKey ?_ ?_ ?_ ?_ ?_ ?_ ?_ ?_ ?_ ?_).mpr ?_
  · exact Reaches.start.along (accepted 1 (lampSwitch true)) fun _ _ _ => trivial
  · decide +kernel
  · decide +kernel
  · decide
  · exact (by decide +kernel : refusal lampRoute (lampSwitch false) = none)
  · exact (by decide +kernel : refusal lampRoute lampOutcome.command = none)
  · decide +kernel
  · decide +kernel
  · decide +kernel
  · decide +kernel
  · decide +kernel
  · decide +kernel

/-- Once the outcome is on the shelf only, a conflicting call takes its key: the lamp's own command
    is refused. -/
theorem reuse_poisons_lamp :
    Reaches (step (some shelf)) (fun _ _ => True) shelfStart shelfEvicted ∧
    Recorded (some shelf) OrdMap.find? shelfEvicted lampOutcome ∧
    ¬Contained (some shelf) shelfEvicted lampOutcome 3 4 lampRoute lampRoute (lampSwitch false)
      lampKey lampKey := by
  refine ⟨?_, .persistent shelf_durable (by decide +kernel) ⟨rfl, by decide +kernel⟩, fun h => ?_⟩
  · exact (Reaches.start.along (accepted 1 (lampSwitch true)) fun _ _ _ => trivial).along
      (accepted 2 _) fun _ _ _ => trivial
  · have hrefused : answerOf (alone (some shelf) 4 lampRoute lampOutcome.command lampKey
        (alone (some shelf) 3 lampRoute (lampSwitch false) lampKey shelfEvicted)) 4 =
          some (.error reusedUncertainKey) := by decide +kernel
    exact nomatch hrefused.symm.trans h.2.2

end Dispatch

end LiquidLayer
