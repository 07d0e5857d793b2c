/-
  Idempotent dispatch under concurrency (`IdempotentDispatcher::Impl::dispatch`).

  * `Durable`, `Backed`: a persistent cache that returns what was stored, and what it holds of the
    calls under way.
  * `Spent`: a key whose command has gone to the adapter is known to some table from then on.
  * `Verdict`, `Judged`: the first call that ends decides what every later one is told.
  * `dispatch_idempotent`: one invocation a key, one answer a command, bounded concurrency.
-/
import LiquidLayer.Effects.DispatchSound

namespace LiquidLayer

namespace Dispatch

open Prog

variable {σ : Type} {cache : Option (PersistentOutcomeCache σ)} {s s' : Dispatcher σ}
  {key : DispatchKey} {id : CallId} {call : Call} {point : DispatchPoint}
  {stored : σ → DispatchKey → Option CachedDispatchOutcome}

/-! ## The persistent cache -/

/-- A cache that returns what was stored: `stored` tells what it holds. A store that throws may
    have been made or not. -/
structure Returns (cache : PersistentOutcomeCache σ)
    (stored : σ → DispatchKey → Option CachedDispatchOutcome) : Prop where
  find : ∀ session command persistent,
    (cache.find session command persistent).1 = .ok (stored persistent ⟨session, command⟩)
  finds : ∀ session command persistent key,
    stored (cache.find session command persistent).2 key = stored persistent key
  store : ∀ outcome persistent, (cache.store outcome persistent).1 = .ok () →
    stored (cache.store outcome persistent).2 (keyFor outcome.command) = some outcome
  stores : ∀ outcome persistent key, key ≠ keyFor outcome.command →
    stored (cache.store outcome persistent).2 key = stored persistent key

def Durable (cache : Option (PersistentOutcomeCache σ))
    (stored : σ → DispatchKey → Option CachedDispatchOutcome) : Prop :=
  ∃ persistentCache, cache = some persistentCache ∧ Returns persistentCache stored

theorem Durable.asked (h : Durable cache stored) (command : EffectCommand) :
    (asked cache s command).1 = .ok (stored s.persistent (keyFor command)) := by
  obtain ⟨persistentCache, rfl, hreturns⟩ := h
  exact hreturns.find _ _ _

theorem Durable.asks (h : Durable cache stored) (command : EffectCommand) (key : DispatchKey) :
    stored (Dispatch.asked cache s command).2 key = stored s.persistent key := by
  obtain ⟨persistentCache, rfl, hreturns⟩ := h
  exact hreturns.finds _ _ _ _

theorem Durable.kept (h : Durable cache stored) {outcome : CachedDispatchOutcome}
    (hok : (kept cache s outcome).1 = .ok ()) :
    stored (Dispatch.kept cache s outcome).2 (keyFor outcome.command) = some outcome := by
  obtain ⟨persistentCache, rfl, hreturns⟩ := h
  exact hreturns.store _ _ hok

theorem Durable.keeps (h : Durable cache stored) {outcome : CachedDispatchOutcome}
    (hne : key ≠ keyFor outcome.command) :
    stored (Dispatch.kept cache s outcome).2 key = stored s.persistent key := by
  obtain ⟨persistentCache, rfl, hreturns⟩ := h
  exact hreturns.stores _ _ _ hne

/-! ## What the persistent cache holds of the calls under way -/

/-- What `stored` says of a call at `point`. -/
def Backs (held : Option CachedDispatchOutcome) : DispatchPoint → Prop
  | .invoking => held = none
  | .dispatched _ => held = none
  | .remembering outcome => held = some outcome
  | _ => True

structure Backed (stored : σ → DispatchKey → Option CachedDispatchOutcome) (s : Dispatcher σ) :
    Prop where
  call : ∀ {id call}, s.calls.find? id = some call →
    Backs (stored s.persistent call.key) call.point
  memory : ∀ {key cached}, s.memory.find? key = some cached →
    stored s.persistent key = some cached

namespace Backed

theorem persists (h : Backed stored s) {persistent : σ}
    (hsame : ∀ key, stored persistent key = stored s.persistent key) :
    Backed stored { s with persistent := persistent } where
  call hcall := (hsame _).symm ▸ h.call hcall
  memory hkey := (hsame _).trans (h.memory hkey)

theorem move (h : Backed stored s) (hcall : s.calls.find? id = some call)
    (hpoint : Backs (stored s.persistent call.key) point) : Backed stored (s.move id point) where
  call := by
    intro j other hj
    rcases find?_move_cases hcall hj with ⟨rfl, rfl⟩ | ⟨-, hother⟩
    · exact hpoint
    · exact h.call hother
  memory := h.memory

theorem enters (h : Backed stored s) {route : AdapterRoute} {command : EffectCommand}
    (hpoint : ∀ held, Backs held point) :
    Backed stored { s with calls := s.calls.insert id ⟨route, command, point⟩ } where
  call := by
    intro j other hj
    rw [OrdMap.find?_insert] at hj
    split at hj
    · cases hj
      exact hpoint _
    · exact h.call hj
  memory := h.memory

end Backed

theorem Backed.looks (h : Backed stored s) (hcall : s.calls.find? id = some call)
    (hlooks : Looks s id call s') : Backed stored s' := by
  cases hlooks with
  | gives => exact Backed.move ⟨h.call, h.memory⟩ hcall trivial
  | duplicate => exact Backed.move ⟨h.call, h.memory⟩ hcall trivial
  | full => exact Backed.move ⟨h.call, h.memory⟩ hcall trivial
  | leads => exact Backed.move ⟨h.call, h.memory⟩ hcall trivial

theorem Backed.consulted (h : Backed stored s) (hdurable : Durable cache stored)
    (hcall : s.calls.find? id = some call) (hconsulted : Consulted cache s id call.command s') :
    Backed stored s' := by
  have hpersists := h.persists (hdurable.asks call.command)
  have hasks : stored (asked cache s call.command).2 call.key = stored s.persistent call.key :=
    hdurable.asks call.command call.key
  have hasked := hdurable.asked (s := s) call.command
  cases hconsulted with
  | invoke hnone =>
      have hheld : stored s.persistent call.key = none :=
        Except.ok.inj (hasked.symm.trans hnone)
      exact Backed.move ⟨hpersists.call, hpersists.memory⟩ hcall (hasks.trans hheld)
  | found hsome =>
      have hheld : stored s.persistent call.key = some _ :=
        Except.ok.inj (hasked.symm.trans hsome)
      exact hpersists.move hcall (hasks.trans hheld)
  | conflict => exact hpersists.move hcall trivial
  | throws => exact hpersists.move hcall trivial

/-- Two calls in flight under one key are one call. -/
theorem Sound.leader_unique (h : Sound s) {id' : CallId} {other : Call}
    (hcall : s.calls.find? id = some call) (hlead : call.point.leads = true)
    (hother : s.calls.find? id' = some other) (hlead' : other.point.leads = true)
    (hkey : other.key = call.key) : id' = id := by
  have hflight := h.leads hcall hlead
  have hflight' := h.leads hother hlead'
  rw [hkey, hflight] at hflight'
  exact (Option.some.inj hflight').symm

/-- A store concerns the outcome's key only, and the calls under way know of it. -/
theorem Backed.stores (h : Backed stored s) (sound : Sound s) (hdurable : Durable cache stored)
    (hcall : s.calls.find? id = some call) {outcome : CachedDispatchOutcome}
    (hpoint : call.point = .dispatched outcome)
    (hbacks : Backs (stored (kept cache s outcome).2 call.key) point) :
    Backed stored ({ s with persistent := (kept cache s outcome).2 }.move id point) := by
  have hkeyOf : keyFor outcome.command = call.key :=
    congrArg keyFor (sound.outcome hcall (.inl hpoint)).1
  have hlead : call.point.leads = true := by rw [hpoint]; rfl
  have hother : ∀ {key}, key ≠ call.key →
      stored (kept cache s outcome).2 key = stored s.persistent key :=
    fun hne => hdurable.keeps (hkeyOf.symm ▸ hne)
  refine ⟨fun {j other} hj => ?_, fun {key cached} hkey => ?_⟩
  · rcases find?_move_cases hcall hj with ⟨rfl, rfl⟩ | ⟨hne, hj⟩
    · exact hbacks
    · show Backs (stored (kept cache s outcome).2 other.key) other.point
      by_cases hsame : other.key = call.key
      · -- no second call is in flight under the key
        have hidle : other.point.leads = false :=
          Bool.eq_false_iff.mpr fun hlead' =>
            hne (sound.leader_unique hcall hlead hj hlead' hsame)
        cases hat : other.point <;> rw [hat] at hidle <;> trivial
      · rw [hother hsame]
        exact h.call hj
  · have hne : key ≠ call.key := by
      rintro rfl
      exact nomatch (sound.unknown_of_flight (sound.leads hcall hlead)).1.symm.trans hkey
    exact (hother hne).trans (h.memory hkey)

theorem Backed.step (h : Backed stored s) (sound : Sound s) (hdurable : Durable cache stored)
    (action : Action) : Backed stored (step cache action s) := by
  have hhappens := step_happens cache action s
  generalize Dispatch.step cache action s = s' at hhappens
  cases hhappens with
  | nothing => exact h
  | refused => exact h.enters fun _ => trivial
  | admitted => exact h.enters fun _ => trivial
  | looks hcall _ hlooks => exact h.looks hcall hlooks
  | consults hcall _ hconsulted => exact h.consulted hdurable hcall hconsulted
  | answered hcall hpoint =>
      have hheld := h.call hcall
      rw [hpoint] at hheld
      exact h.move hcall hheld
  | threw hcall => exact h.move hcall trivial
  | @stores id call outcome hcall hpoint hok =>
      have hkeyOf : keyFor outcome.command = call.key :=
        congrArg keyFor (sound.outcome hcall (.inl hpoint)).1
      exact h.stores sound hdurable hcall hpoint (hkeyOf ▸ hdurable.kept hok)
  | loses hcall hpoint => exact h.stores sound hdurable hcall hpoint trivial
  | @remembers id call outcome hcall hpoint =>
      have hlead : call.point.leads = true := by rw [hpoint]; rfl
      obtain ⟨hmemory, -⟩ := sound.unknown_of_flight (sound.leads hcall hlead)
      obtain ⟨recency, memory, hexpired, heq⟩ :=
        sound.remember_expired id hmemory outcome
      have hheld := h.call hcall
      rw [hpoint] at hheld
      rw [heq]
      have hmoved : Backed stored (s.move id (.finished (.ok outcome.result))) := h.move hcall trivial
      refine ⟨hmoved.call, ?_⟩
      intro other cached hother
      have hbefore := hexpired.subset hother
      rw [OrdMap.find?_insert] at hbefore
      split at hbefore
      · next hsame =>
          cases hbefore
          exact hsame ▸ hheld
      · exact h.memory hbefore
  | @fails id call error first hcall =>
      have hmoved : Backed stored (s.move id (.finished (.error error))) := h.move hcall trivial
      exact ⟨hmoved.call, h.memory⟩
  | clears => exact ⟨h.call, nofun⟩

/-! ## At most once -/

/-- The step forgets no failure under `key`, and an outcome under `key` only if a persistent cache
    has it. -/
def Keeps (cache : Option (PersistentOutcomeCache σ))
    (stored : σ → DispatchKey → Option CachedDispatchOutcome) (key : DispatchKey)
    (action : Action) (s : Dispatcher σ) : Prop :=
  (s.uncertain.contains key = true → (step cache action s).uncertain.contains key = true) ∧
  (s.memory.contains key = true →
    (step cache action s).memory.contains key = true ∨ Durable cache stored)

/-- How often an adapter has been called with a command under `key`. -/
def invocations (s : Dispatcher σ) (key : DispatchKey) : Nat :=
  (s.invoked.filter fun command => decide (keyFor command = key)).length

/-- Some table knows that the adapter may have been called under `key`. -/
inductive Spent (cache : Option (PersistentOutcomeCache σ))
    (stored : σ → DispatchKey → Option CachedDispatchOutcome) (key : DispatchKey)
    (s : Dispatcher σ) : Prop
  | inFlight {id : CallId} {call : Call} : s.calls.find? id = some call → call.key = key →
      call.point.leads = true → call.point ≠ .leading → Spent cache stored key s
  | memory : s.memory.contains key = true → Spent cache stored key s
  | uncertain : s.uncertain.contains key = true → Spent cache stored key s
  | persistent : Durable cache stored → stored s.persistent key ≠ none → Spent cache stored key s

/-- A call that takes the lead takes it under a key that is not spent, or learns so. -/
theorem not_spent_of_invoke (sound : Sound s) (hcall : s.calls.find? id = some call)
    (hpoint : call.point = .leading) (hnone : (asked cache s call.command).1 = .ok none) :
    ¬Spent cache stored call.key s := by
  have hlead : call.point.leads = true := by rw [hpoint]; rfl
  obtain ⟨hmemory, huncertain⟩ := sound.unknown_of_flight (sound.leads hcall hlead)
  rintro (⟨hother, hkey, hlead', hpast⟩ | h | h | ⟨hdurable, hheld⟩)
  · have heq := sound.leader_unique hcall hlead hother hlead' hkey
    rw [heq, hcall] at hother
    exact hpast (Option.some.inj hother ▸ hpoint)
  · exact nomatch (OrdMap.not_contains_iff.mpr hmemory).symm.trans h
  · exact nomatch (OrdMap.not_contains_iff.mpr huncertain).symm.trans h
  · exact hheld (Except.ok.inj ((hdurable.asked call.command).symm.trans hnone))

/-- What a durable cache holds stays: a store is made under a key it holds nothing for. -/
theorem held_step (sound : Sound s) (hdurable : Durable cache stored) (backed : Backed stored s)
    {outcome : CachedDispatchOutcome} (hheld : stored s.persistent key = some outcome)
    (action : Action) : stored (step cache action s).persistent key = some outcome := by
  have hstore : ∀ {id call stores}, s.calls.find? id = some call →
      call.point = .dispatched stores →
      stored (kept cache s stores).2 key = some outcome := by
    intro id call stores hcall hpoint
    have hnone := backed.call hcall
    rw [hpoint] at hnone
    have hne : key ≠ keyFor stores.command := by
      rintro rfl
      rw [(sound.outcome hcall (.inl hpoint)).1] at hheld
      exact nomatch hnone.symm.trans hheld
    exact (hdurable.keeps hne).trans hheld
  have hhappens := step_happens cache action s
  generalize step cache action s = s' at hhappens
  cases hhappens with
  | nothing | refused | admitted | answered | threw | remembers | fails | clears => exact hheld
  | looks _ _ hlooks => cases hlooks <;> exact hheld
  | consults _ _ hconsulted => cases hconsulted <;> exact (hdurable.asks _ _).trans hheld
  | stores hcall hpoint => exact hstore hcall hpoint
  | loses hcall hpoint => exact hstore hcall hpoint

/-- The outcome just remembered is there. -/
theorem remembered (sound : Sound s) (hcall : s.calls.find? id = some call)
    {outcome : CachedDispatchOutcome} (hpoint : call.point = .remembering outcome) :
    (s.remember id call.key outcome).memory.find? call.key = some outcome := by
  have hlead : call.point.leads = true := by rw [hpoint]; rfl
  obtain ⟨hmemory, -⟩ := sound.unknown_of_flight (sound.leads hcall hlead)
  obtain ⟨recency, memory, hexpired, heq⟩ := sound.remember_expired id hmemory outcome
  rw [heq]
  show memory.find? call.key = some outcome
  rw [hexpired.find? _ (hexpired.newest sound.positive), OrdMap.find?_insert_self]

/-- A call past the look into the persistent cache stays so until its key is recorded. -/
theorem past_step (sound : Sound s) (hcall : s.calls.find? id = some call)
    (hlead : call.point.leads = true) (hpast : call.point ≠ .leading) (action : Action) :
    Spent cache stored call.key (step cache action s) := by
  have hstays : ∀ {t : Dispatcher σ}, t.calls.find? id = some call →
      Spent cache stored call.key t := fun h => .inFlight h rfl hlead hpast
  have hmoves : ∀ {t : Dispatcher σ} {j other p}, t.calls = s.calls →
      s.calls.find? j = some other → (j = id → p.leads = true ∧ p ≠ .leading) →
      Spent cache stored call.key (t.move j p) := by
    intro t j other p hcalls hj hp
    by_cases heq : id = j
    · obtain ⟨hlead', hne⟩ := hp heq.symm
      subst heq
      have hmoved := find?_move_self p ((congrArg (OrdMap.find? · id) hcalls).trans hcall)
      exact .inFlight hmoved rfl hlead' hne
    · exact hstays ((find?_move_ne heq).trans (hcalls ▸ hcall))
  have hsame : ∀ {j other}, s.calls.find? j = some other → j = id → other = call := by
    rintro j other hj rfl
    exact Option.some.inj (hj.symm.trans hcall)
  have hhappens := step_happens cache action s
  generalize step cache action s = s' at hhappens
  cases hhappens with
  | nothing => exact hstays hcall
  | refused fresh | admitted fresh =>
      refine hstays ((OrdMap.find?_insert_ne _ ?_ _).trans hcall)
      rintro rfl
      cases fresh.symm.trans hcall
  | looks hj hwaits hlooks =>
      have hother := fun heq => (hsame hj heq ▸ Sound.waits_leads hwaits).symm.trans hlead
      cases hlooks <;> exact hmoves rfl hj fun heq => nomatch hother heq
  | consults hj hpoint hconsulted =>
      have hother := fun heq => hpast (hsame hj heq ▸ hpoint)
      cases hconsulted <;> exact hmoves rfl hj fun heq => absurd heq hother
  | answered hj => exact hmoves rfl hj fun _ => ⟨rfl, nofun⟩
  | threw hj => exact hmoves rfl hj fun _ => ⟨rfl, nofun⟩
  | stores hj => exact hmoves rfl hj fun _ => ⟨rfl, nofun⟩
  | loses hj => exact hmoves rfl hj fun _ => ⟨rfl, nofun⟩
  | @remembers j other outcome hj hpoint =>
      by_cases heq : j = id
      · rw [← hsame hj heq]
        exact .memory (OrdMap.contains_iff.mpr ⟨_, remembered sound hj hpoint⟩)
      · refine hstays ?_
        have hlead' : other.point.leads = true := by rw [hpoint]; rfl
        obtain ⟨hmemory, -⟩ := sound.unknown_of_flight (sound.leads hj hlead')
        obtain ⟨recency, memory, -, hrem⟩ := sound.remember_expired j hmemory outcome
        rw [hrem]
        exact (find?_move_ne (Ne.symm heq)).trans hcall
  | @fails j other error first hj hpoint =>
      by_cases heq : j = id
      · rw [← hsame hj heq]
        exact .uncertain (OrdMap.contains_iff.mpr ⟨_, OrdMap.find?_insert_self _ _ _⟩)
      · exact hstays ((find?_move_ne (Ne.symm heq)).trans hcall)
  | clears => exact hstays hcall

theorem Spent.step (h : Spent cache stored key s) (sound : Sound s)
    (backed : Durable cache stored → Backed stored s) {action : Action}
    (keeps : Keeps cache stored key action s) :
    Spent cache stored key (Dispatch.step cache action s) := by
  cases h with
  | inFlight hcall hkey hlead hpast => exact hkey ▸ past_step sound hcall hlead hpast action
  | memory hmemory =>
      rcases keeps.2 hmemory with hkept | hdurable
      · exact .memory hkept
      · obtain ⟨outcome, houtcome⟩ := OrdMap.contains_iff.mp hmemory
        have hheld := held_step sound hdurable (backed hdurable)
          ((backed hdurable).memory houtcome) action
        exact .persistent hdurable (by rw [hheld]; exact nofun)
  | uncertain huncertain => exact .uncertain (keeps.1 huncertain)
  | persistent hdurable hheld =>
      obtain ⟨outcome, houtcome⟩ := Option.ne_none_iff_exists'.mp hheld
      have hstill := held_step sound hdurable (backed hdurable) houtcome action
      exact .persistent hdurable (by rw [hstill]; exact nofun)

/-- One step calls the adapter at most once, and only for a call that leads. -/
theorem invoked_step (cache : Option (PersistentOutcomeCache σ)) (action : Action)
    (s : Dispatcher σ) :
    (step cache action s).invoked = s.invoked ∨
    ∃ id call, s.calls.find? id = some call ∧ call.point = .leading ∧
      (asked cache s call.command).1 = .ok none ∧
      (step cache action s).calls.find? id = some { call with point := .invoking } ∧
      (step cache action s).invoked = call.command :: s.invoked := by
  have hhappens := step_happens cache action s
  generalize step cache action s = s' at hhappens
  cases hhappens with
  | looks _ _ hlooks => cases hlooks <;> exact .inl rfl
  | consults hcall hpoint hconsulted =>
      cases hconsulted with
      | invoke hnone =>
          exact .inr ⟨_, _, hcall, hpoint, hnone, find?_move_self _ hcall, rfl⟩
      | found => exact .inl rfl
      | conflict => exact .inl rfl
      | throws => exact .inl rfl
  | _ => exact .inl rfl

/-- At most one call of the adapter, and the key is spent once there has been one. -/
def Once (cache : Option (PersistentOutcomeCache σ))
    (stored : σ → DispatchKey → Option CachedDispatchOutcome) (key : DispatchKey)
    (s : Dispatcher σ) : Prop :=
  invocations s key = 0 ∨ (invocations s key = 1 ∧ Spent cache stored key s)

theorem Once.step (h : Once cache stored key s) (sound : Sound s)
    (backed : Durable cache stored → Backed stored s) {action : Action}
    (keeps : Keeps cache stored key action s) :
    Once cache stored key (Dispatch.step cache action s) := by
  have hcount : ∀ {invoked}, (Dispatch.step cache action s).invoked = invoked →
      invocations (Dispatch.step cache action s) key =
        (invoked.filter fun command => decide (keyFor command = key)).length := by
    rintro _ rfl
    rfl
  rcases invoked_step cache action s with hsame | ⟨id, call, hcall, hpoint, hnone, hafter, hnew⟩
  · have hcount := hcount hsame
    exact h.imp (fun h0 => hcount.trans h0) fun ⟨h1, hspent⟩ =>
      ⟨hcount.trans h1, hspent.step sound backed keeps⟩
  · have hcount := hcount hnew
    by_cases hkey : keyFor call.command = key
    · have hzero : invocations s key = 0 :=
        h.resolve_right fun ⟨_, hspent⟩ =>
          not_spent_of_invoke sound hcall hpoint hnone (hkey ▸ hspent)
      rw [List.filter_cons_of_pos (by simpa using hkey), List.length_cons] at hcount
      refine .inr ⟨hcount.trans (congrArg (· + 1) hzero), ?_⟩
      exact .inFlight hafter hkey rfl nofun
    · rw [List.filter_cons_of_neg (by simpa using hkey)] at hcount
      exact h.imp (fun h0 => hcount.trans h0) fun ⟨h1, hspent⟩ =>
        ⟨hcount.trans h1, hspent.step sound backed keeps⟩

/-! ## One answer -/

/-- What the first call to end under a key was about, and how it ended. -/
structure Verdict where
  command : EffectCommand
  answer : Answer

/-- What a call under the key is told. -/
def Verdict.told (verdict : Verdict) (command : EffectCommand) : Answer :=
  if verdict.command = command then verdict.answer
  else
    match verdict.answer with
    | .ok _ => .error reusedKey
    | .error _ => .error reusedUncertainKey

/-- Only the command that was judged is told an outcome. -/
theorem Verdict.of_ok {verdict : Verdict} {command : EffectCommand} {result : DispatchResult}
    (h : .ok result = verdict.told command) : verdict = ⟨command, .ok result⟩ := by
  obtain ⟨first, answer⟩ := verdict
  unfold Verdict.told at h
  simp only at h
  split at h
  · next hsame => rw [hsame, ← h]
  · split at h <;> cases h

/-- All calls under `key` that were admitted and have ended, ended with `P`. -/
def Ends (s : Dispatcher σ) (key : DispatchKey) (P : EffectCommand → Answer → Prop) : Prop :=
  ∀ {id : CallId} {call : Call} {answer : Answer}, s.calls.find? id = some call →
    call.key = key → Admitted call.adapterRoute call.command →
    call.point = .finished answer → P call.command answer

/-- The verdict stands in one of the tables, where the next call finds it. -/
inductive Stands (cache : Option (PersistentOutcomeCache σ))
    (stored : σ → DispatchKey → Option CachedDispatchOutcome) (key : DispatchKey)
    (s : Dispatcher σ) : Verdict → Prop
  | memory {outcome : CachedDispatchOutcome} : s.memory.find? key = some outcome →
      Stands cache stored key s ⟨outcome.command, .ok outcome.result⟩
  | uncertain {failed : UncertainOutcome} : s.uncertain.find? key = some failed →
      Stands cache stored key s ⟨failed.command, .error failed.failure⟩
  | persistent {outcome : CachedDispatchOutcome} : Durable cache stored →
      s.memory.find? key = none → s.uncertain.find? key = none →
      stored s.persistent key = some outcome → Valid outcome outcome.command →
      (∀ {id : CallId} {call : Call} {error : Failure}, s.calls.find? id = some call →
        call.key = key → call.point ≠ .failing error) →
      Stands cache stored key s ⟨outcome.command, .ok outcome.result⟩

/-- Either no call under the key has ended, or all have been told one verdict. -/
inductive Judged (cache : Option (PersistentOutcomeCache σ))
    (stored : σ → DispatchKey → Option CachedDispatchOutcome) (key : DispatchKey)
    (s : Dispatcher σ) : Prop
  | open_ : Ends s key (fun _ _ => False) → s.memory.find? key = none →
      s.uncertain.find? key = none → Judged cache stored key s
  | judged {verdict : Verdict} : Ends s key (fun command answer => answer = verdict.told command) →
      Stands cache stored key s verdict → Judged cache stored key s

theorem told_recorded {outcome : CachedDispatchOutcome} (hvalid : Valid outcome outcome.command)
    (command : EffectCommand) :
    Dispatcher.recorded outcome command =
      Verdict.told ⟨outcome.command, .ok outcome.result⟩ command := by
  unfold Dispatcher.recorded requireSameCommand Verdict.told
  by_cases hsame : outcome.command = command
  · subst hsame
    rw [if_neg (not_not.mpr rfl), hvalid.2, if_pos rfl]
  · rw [if_pos hsame, if_neg hsame]

/-- No call under `key` finds, in the persistent cache, the outcome of a different command. -/
def FindsSame (cache : Option (PersistentOutcomeCache σ)) (key : DispatchKey) (action : Action)
    (s : Dispatcher σ) : Prop :=
  ∀ {id : CallId} {call : Call} {outcome : CachedDispatchOutcome}, action = .consult id →
    s.calls.find? id = some call → call.key = key → call.point = .leading →
    (asked cache s call.command).1 = .ok (some outcome) → outcome.command = call.command

/-- A step crosses no commands under `key`: no call that waited for another to fail presents a
    different command, and none finds a different one in the persistent cache. -/
structure Straight (cache : Option (PersistentOutcomeCache σ)) (key : DispatchKey)
    (action : Action) (s : Dispatcher σ) : Prop where
  waited : ∀ {id leader : CallId} {call other : Call} {error : Failure}, action = .lock id →
    s.calls.find? id = some call → call.key = key → call.point = .duplicate leader →
    s.calls.find? leader = some other → other.point = .finished (.error error) →
    other.command = call.command
  found : FindsSame cache key action s

/-- The call whose completed entry a duplicate waited for. -/
theorem waited_for (sound : Sound s) (hcall : s.calls.find? id = some call) {leader : CallId}
    {entry : InFlightEntry} (hpoint : call.point = .duplicate leader)
    (hentry : s.entries.find? leader = some entry) (hcompleted : entry.completed = true) :
    ∃ other, s.calls.find? leader = some other ∧ other.key = call.key ∧
      Admitted other.adapterRoute other.command ∧ Completed entry other := by
  obtain ⟨other, _, hother, -, hkey⟩ := sound.duplicate hcall hpoint
  obtain ⟨other', hother', hadmitted, hends⟩ := sound.entry hentry
  cases hother.symm.trans hother'
  refine ⟨other, hother, hkey, hadmitted, ?_⟩
  exact (hends.resolve_left fun h => nomatch hcompleted.symm.trans h.1).2

/-- What a call under a judged key is told. -/
theorem Stands.told {verdict : Verdict} (h : Stands cache stored call.key s verdict)
    (sound : Sound s) (hends : Ends s call.key fun command answer => answer = verdict.told command)
    (hcall : s.calls.find? id = some call)
    (straight : Straight cache call.key (.lock id) s) {answer : Answer}
    (hgives : Gives s call answer) : answer = verdict.told call.command := by
  cases hgives with
  | @memory cached hmemory =>
      rw [told_recorded (sound.memory hmemory).2.1]
      cases h with
      | memory hstands => cases hmemory.symm.trans hstands; rfl
      | uncertain hstands => exact nomatch hstands.symm.trans (sound.memory hmemory).2.2.1
      | persistent _ hnone => exact nomatch hnone.symm.trans hmemory
  | @uncertain failed huncertain hsame =>
      cases h with
      | memory hstands => exact nomatch huncertain.symm.trans (sound.memory hstands).2.2.1
      | uncertain hstands =>
          cases huncertain.symm.trans hstands
          unfold Verdict.told
          rw [if_pos hsame]
      | persistent _ _ hnone => exact nomatch hnone.symm.trans huncertain
  | @reused failed huncertain hne =>
      cases h with
      | memory hstands => exact nomatch huncertain.symm.trans (sound.memory hstands).2.2.1
      | uncertain hstands =>
          cases huncertain.symm.trans hstands
          unfold Verdict.told
          rw [if_neg hne]
      | persistent _ _ hnone => exact nomatch hnone.symm.trans huncertain
  | @failed leader entry failure hpoint hentry hcompleted hfailure =>
      obtain ⟨other, hother, hkey, hadmitted', hended⟩ :=
        waited_for sound hcall hpoint hentry hcompleted
      rcases hended with ⟨_, hnone, -⟩ | ⟨error, hsome, hpoint'⟩
      · exact nomatch hnone.symm.trans hfailure
      · cases hfailure.symm.trans hsome
        have htold := hends hother hkey hadmitted' hpoint'
        rw [straight.waited rfl hcall rfl hpoint hother hpoint'] at htold
        exact htold
  | @shared leader entry outcome hpoint hentry hcompleted hfailure houtcome =>
      obtain ⟨other, hother, hkey, hadmitted', hended⟩ :=
        waited_for sound hcall hpoint hentry hcompleted
      rcases hended with ⟨outcome', -, hsome, hcommand, hvalid, hpoint'⟩ | ⟨error, hsome, -⟩
      · cases houtcome.symm.trans hsome
        have hverdict := Verdict.of_ok (hends hother hkey hadmitted' hpoint')
        rw [told_recorded ⟨rfl, hvalid⟩, hverdict, hcommand]
      · exact nomatch hfailure.symm.trans hsome

/-! ### Where entries and answers come from -/

theorem memory_step (sound : Sound s) {action : Action} {outcome : CachedDispatchOutcome}
    (h : (step cache action s).memory.find? key = some outcome) :
    s.memory.find? key = some outcome ∨
    ∃ id call, s.calls.find? id = some call ∧ call.key = key ∧
      call.point = .remembering outcome := by
  have hhappens := step_happens cache action s
  generalize step cache action s = s' at hhappens h
  cases hhappens with
  | looks _ _ hlooks => cases hlooks <;> exact .inl h
  | consults _ _ hconsulted => cases hconsulted <;> exact .inl h
  | @remembers id call remembered hcall hpoint =>
      have hlead : call.point.leads = true := by rw [hpoint]; rfl
      obtain ⟨hmemory, -⟩ := sound.unknown_of_flight (sound.leads hcall hlead)
      obtain ⟨recency, memory, hexpired, heq⟩ :=
        sound.remember_expired id hmemory remembered
      rw [heq] at h
      have hbefore := hexpired.subset h
      rw [OrdMap.find?_insert] at hbefore
      split at hbefore
      · next hsame =>
          cases hbefore
          exact .inr ⟨id, call, hcall, hsame.symm, hpoint⟩
      · exact .inl hbefore
  | clears => cases h
  | _ => exact .inl h

theorem uncertain_step {action : Action} {failed : UncertainOutcome}
    (h : (step cache action s).uncertain.find? key = some failed) :
    s.uncertain.find? key = some failed ∨
    ∃ id call error, s.calls.find? id = some call ∧ call.key = key ∧
      call.point = .failing error ∧ failed = ⟨call.command, error⟩ := by
  have hhappens := step_happens cache action s
  generalize step cache action s = s' at hhappens h
  cases hhappens with
  | looks _ _ hlooks => cases hlooks <;> exact .inl h
  | consults _ _ hconsulted => cases hconsulted <;> exact .inl h
  | @remembers id call remembered hcall hpoint =>
      exact .inl h
  | @fails id call error first hcall hpoint =>
      rw [Sound.finishFailure_eq] at h
      rw [show Dispatcher.uncertain _ =
        (Sound.spared s call.key first).insert call.key ⟨call.command, error⟩ from rfl,
        OrdMap.find?_insert] at h
      split at h
      · next hsame =>
          exact .inr ⟨id, call, error, hcall, hsame.symm, hpoint, (Option.some.inj h).symm⟩
      · exact .inl (Sound.find?_spared h)
  | clears => cases h
  | _ => exact .inl h

/-- Why a call is about to fail. -/
inductive Fails (cache : Option (PersistentOutcomeCache σ)) (s : Dispatcher σ) (action : Action)
    (id : CallId) (call : Call) (error : Failure) : Prop
  | before : call.point = .failing error → Fails cache s action id call error
  | conflict {outcome} : action = .consult id → call.point = .leading →
      (asked cache s call.command).1 = .ok (some outcome) →
      requireSameCommand outcome call.command = .error error → Fails cache s action id call error
  | find : call.point = .leading → (asked cache s call.command).1 = .error error →
      Fails cache s action id call error
  | adapter : call.point = .invoking → Fails cache s action id call error
  | store {outcome} : call.point = .dispatched outcome → Fails cache s action id call error

theorem failing_step {action : Action} {error : Failure}
    (h : (step cache action s).calls.find? id = some call) (hpoint : call.point = .failing error) :
    ∃ before, s.calls.find? id = some before ∧ before.command = call.command ∧
      Fails cache s action id before error := by
  have hsame : ∀ {t : Dispatcher σ} {j other p}, t.calls = s.calls →
      s.calls.find? j = some other → (t.move j p).calls.find? id = some call →
      (j = id → p = .failing error → Fails cache s action j other error) →
      ∃ before, s.calls.find? id = some before ∧ before.command = call.command ∧
        Fails cache s action id before error := by
    intro t j other p hcalls hj hmoved hfails
    rcases find?_move_cases ((congrArg (OrdMap.find? · j) hcalls).trans hj) hmoved with
      ⟨rfl, rfl⟩ | ⟨-, hbefore⟩
    · exact ⟨other, hj, rfl, hfails rfl hpoint⟩
    · exact ⟨call, (congrArg (OrdMap.find? · id) hcalls).symm.trans hbefore, rfl, .before hpoint⟩
  have hhappens := step_happens cache action s
  generalize step cache action s = s' at hhappens h
  cases hhappens with
  | nothing => exact ⟨call, h, rfl, .before hpoint⟩
  | refused | admitted =>
      rw [OrdMap.find?_insert] at h
      split at h
      · cases h
        cases hpoint
      · exact ⟨call, h, rfl, .before hpoint⟩
  | looks hj _ hlooks => cases hlooks <;> exact hsame rfl hj h fun _ h => nomatch h
  | consults hj hat hconsulted =>
      cases hconsulted with
      | invoke => exact hsame rfl hj h fun _ h => nomatch h
      | found => exact hsame rfl hj h fun _ h => nomatch h
      | conflict hfound hconflict =>
          exact hsame rfl hj h fun heq h => by
            cases h
            exact .conflict rfl hat hfound hconflict
      | throws hthrows =>
          exact hsame rfl hj h fun _ h => by
            cases h
            exact .find hat hthrows
  | answered hj => exact hsame rfl hj h fun _ h => nomatch h
  | threw hj hat => exact hsame rfl hj h fun _ _ => .adapter hat
  | stores hj => exact hsame rfl hj h fun _ h => nomatch h
  | loses hj hat => exact hsame rfl hj h fun _ _ => .store hat
  | @remembers j other outcome hj =>
      exact hsame (t := { s with
        entries := s.entries.insert j { completed := true, outcome := some outcome } })
        rfl hj h fun _ h => nomatch h
  | @fails j other error first hj =>
      exact hsame (t := s) rfl hj h fun _ h => nomatch h
  | clears => exact ⟨call, h, rfl, .before hpoint⟩

/-- How an admitted call came to its answer. -/
inductive EndsBy (s : Dispatcher σ) (action : Action) (id : CallId) (call : Call) (answer : Answer) :
    Prop
  | before : call.point = .finished answer → EndsBy s action id call answer
  | gives : action = .lock id → call.point.waits = true → Gives s call answer →
      EndsBy s action id call answer
  | remembers {outcome} : action = .remember id → call.point = .remembering outcome →
      answer = .ok outcome.result → EndsBy s action id call answer
  | fails {error first} : action = .fail id first → s.begins call.key first = true →
      call.point = .failing error → answer = .error error → EndsBy s action id call answer

theorem ends_step {action : Action} {answer : Answer}
    (h : (step cache action s).calls.find? id = some call) (hpoint : call.point = .finished answer)
    (hadmitted : Admitted call.adapterRoute call.command) :
    ∃ before, s.calls.find? id = some before ∧ before.adapterRoute = call.adapterRoute ∧
      before.command = call.command ∧ EndsBy s action id before answer := by
  have hsame : ∀ {t : Dispatcher σ} {j other p}, t.calls = s.calls →
      s.calls.find? j = some other → (t.move j p).calls.find? id = some call →
      (j = id → p = .finished answer → EndsBy s action j other answer) →
      ∃ before, s.calls.find? id = some before ∧ before.adapterRoute = call.adapterRoute ∧
        before.command = call.command ∧ EndsBy s action id before answer := by
    intro t j other p hcalls hj hmoved hends
    rcases find?_move_cases ((congrArg (OrdMap.find? · j) hcalls).trans hj) hmoved with
      ⟨rfl, rfl⟩ | ⟨-, hbefore⟩
    · exact ⟨other, hj, rfl, rfl, hends rfl hpoint⟩
    · exact ⟨call, (congrArg (OrdMap.find? · id) hcalls).symm.trans hbefore, rfl, rfl,
        .before hpoint⟩
  have hhappens := step_happens cache action s
  generalize step cache action s = s' at hhappens h
  cases hhappens with
  | nothing => exact ⟨call, h, rfl, rfl, .before hpoint⟩
  | refused _ hrefused =>
      rw [OrdMap.find?_insert] at h
      split at h
      · cases h
        exact nomatch hadmitted.symm.trans hrefused
      · exact ⟨call, h, rfl, rfl, .before hpoint⟩
  | admitted =>
      rw [OrdMap.find?_insert] at h
      split at h
      · cases h
        cases hpoint
      · exact ⟨call, h, rfl, rfl, .before hpoint⟩
  | looks hj hwaits hlooks =>
      cases hlooks with
      | gives hgives =>
          exact hsame rfl hj h fun heq h => by
            cases h
            exact .gives rfl hwaits hgives
      | duplicate => exact hsame rfl hj h fun _ h => nomatch h
      | full => exact hsame rfl hj h fun _ h => nomatch h
      | leads => exact hsame rfl hj h fun _ h => nomatch h
  | consults hj _ hconsulted => cases hconsulted <;> exact hsame rfl hj h fun _ h => nomatch h
  | answered hj => exact hsame rfl hj h fun _ h => nomatch h
  | threw hj => exact hsame rfl hj h fun _ h => nomatch h
  | stores hj => exact hsame rfl hj h fun _ h => nomatch h
  | loses hj => exact hsame rfl hj h fun _ h => nomatch h
  | @remembers j other outcome hj hat =>
      exact hsame (t := s) rfl hj h fun heq h => by
        cases h
        exact .remembers rfl hat rfl
  | @fails j other error first hj hat hbegins =>
      exact hsame (t := s) rfl hj h fun heq h => by
        cases h
        exact .fails rfl hbegins hat rfl
  | clears => exact ⟨call, h, rfl, rfl, .before hpoint⟩

/-! ### One verdict a key -/

/-- A standing verdict goes on to stand, if no step forgets it. -/
theorem Stands.step {verdict : Verdict} (h : Stands cache stored key s verdict) (sound : Sound s)
    (backed : Durable cache stored → Backed stored s) {action : Action}
    (keeps : Keeps cache stored key action s) (same : FindsSame cache key action s) :
    Stands cache stored key (Dispatch.step cache action s) verdict := by
  cases h with
  | @memory outcome hmemory =>
      obtain ⟨hkeyOf, hvalid, huncertain, hflight⟩ := sound.memory hmemory
      have hidle : ∀ {id call}, s.calls.find? id = some call → call.key = key →
          call.point.leads = false := by
        rintro id call hcall rfl
        exact Bool.eq_false_iff.mpr fun hlead => nomatch hflight.symm.trans (sound.leads hcall hlead)
      cases hafter : (Dispatch.step cache action s).memory.find? key with
      | some kept =>
          rcases memory_step sound hafter with hsame | ⟨id, call, hcall, hkey, hpoint⟩
          · cases hmemory.symm.trans hsame
            exact .memory hafter
          · have := hidle hcall hkey
            rw [hpoint] at this
            cases this
      | none =>
          rcases keeps.2 (OrdMap.contains_iff.mpr ⟨_, hmemory⟩) with hkept | hdurable
          · exact nomatch (OrdMap.not_contains_iff.mpr hafter).symm.trans hkept
          · refine .persistent hdurable hafter ?_ ?_ hvalid ?_
            · refine Option.eq_none_iff_forall_ne_some.mpr fun failed hfailed => ?_
              rcases uncertain_step hfailed with hbefore | ⟨id, call, error, hcall, hkey, hpoint, -⟩
              · exact nomatch huncertain.symm.trans hbefore
              · have := hidle hcall hkey
                rw [hpoint] at this
                cases this
            · exact held_step sound hdurable (backed hdurable)
                ((backed hdurable).memory hmemory) action
            · intro id call error hcall hkey hpoint
              obtain ⟨before, hbefore, hcommand, hfails⟩ := failing_step hcall hpoint
              have hlead := hidle hbefore ((congrArg keyFor hcommand).trans hkey)
              cases hfails with
              | before hat | conflict _ hat | find hat | adapter hat | store hat =>
                  rw [hat] at hlead
                  cases hlead
  | @uncertain failed huncertain =>
      obtain ⟨kept, hkept⟩ :=
        OrdMap.contains_iff.mp (keeps.1 (OrdMap.contains_iff.mpr ⟨_, huncertain⟩))
      rcases uncertain_step hkept with hsame | ⟨id, call, error, hcall, hkey, hpoint, -⟩
      · cases huncertain.symm.trans hsame
        exact .uncertain hkept
      · have hflight := (sound.uncertain huncertain).2
        rw [← hkey, sound.leads hcall (by rw [hpoint]; rfl)] at hflight
        cases hflight
  | @persistent outcome hdurable hmemory huncertain hheld hvalid hcalm =>
      have hstill := held_step sound hdurable (backed hdurable) hheld action
      cases hafter : (Dispatch.step cache action s).memory.find? key with
      | some kept =>
          rcases memory_step sound hafter with hsame | ⟨id, call, hcall, hkey, hpoint⟩
          · exact nomatch hmemory.symm.trans hsame
          · have hbacks := (backed hdurable).call hcall
            rw [hpoint, hkey] at hbacks
            cases hheld.symm.trans hbacks
            exact .memory hafter
      | none =>
          refine .persistent hdurable hafter ?_ hstill hvalid ?_
          · refine Option.eq_none_iff_forall_ne_some.mpr fun failed hfailed => ?_
            rcases uncertain_step hfailed with hbefore | ⟨id, call, error, hcall, hkey, hpoint, -⟩
            · exact nomatch huncertain.symm.trans hbefore
            · exact hcalm hcall hkey hpoint
          · intro id call error hcall hkey hpoint
            obtain ⟨before, hbefore, hcommand, hfails⟩ := failing_step hcall hpoint
            have hkey' : before.key = key := (congrArg keyFor hcommand).trans hkey
            have hbacks := (backed hdurable).call hbefore
            have hasked := hdurable.asked (s := s) before.command
            rw [show keyFor before.command = key from hkey', hheld] at hasked
            cases hfails with
            | before hat => exact hcalm hbefore hkey' hat
            | conflict haction hat hfound hconflict =>
                cases Except.ok.inj (hasked.symm.trans hfound)
                have hsame := same haction hbefore hkey' hat hfound
                unfold requireSameCommand at hconflict
                rw [if_neg (not_not.mpr hsame), ← hsame, hvalid.2] at hconflict
                cases hconflict
            | find _ hthrows => cases hasked.symm.trans hthrows
            | adapter hat | store hat =>
                rw [hat, hkey'] at hbacks
                exact nomatch hheld.symm.trans hbacks

theorem step_remember (hcall : s.calls.find? id = some call) {outcome : CachedDispatchOutcome}
    (hpoint : call.point = .remembering outcome) :
    step cache (.remember id) s = s.remember id call.key outcome := by
  obtain ⟨route, command, point⟩ := call
  cases hpoint
  unfold step
  simp only [hcall]
  rfl

theorem step_fail (hcall : s.calls.find? id = some call) {error : Failure}
    (hpoint : call.point = .failing error) {first : DispatchKey}
    (hbegins : s.begins call.key first = true) :
    step cache (.fail id first) s = s.finishFailure id call.command error first := by
  obtain ⟨route, command, point⟩ := call
  cases hpoint
  unfold step
  simp only [hcall]
  exact if_pos hbegins

/-- As long as nothing is recorded and no call has ended, the lock gives no answer. -/
theorem not_gives (sound : Sound s) (hends : Ends s call.key fun _ _ => False)
    (hmemory : s.memory.find? call.key = none) (huncertain : s.uncertain.find? call.key = none)
    (hcall : s.calls.find? id = some call) {answer : Answer} : ¬Gives s call answer := by
  have hopen : ∀ {leader entry}, call.point = .duplicate leader →
      s.entries.find? leader = some entry → entry.completed = true → False := by
    intro leader entry hpoint hentry hcompleted
    obtain ⟨other, hother, hkey, hadmitted, hended⟩ :=
      waited_for sound hcall hpoint hentry hcompleted
    rcases hended with ⟨_, -, -, -, -, hat⟩ | ⟨_, -, hat⟩
    · exact hends hother hkey hadmitted hat
    · exact hends hother hkey hadmitted hat
  intro hgives
  cases hgives with
  | memory h => exact nomatch hmemory.symm.trans h
  | uncertain h => exact nomatch huncertain.symm.trans h
  | reused h => exact nomatch huncertain.symm.trans h
  | failed hpoint hentry hcompleted => exact hopen hpoint hentry hcompleted
  | shared hpoint hentry hcompleted => exact hopen hpoint hentry hcompleted

/-- The first call to end under a key decides. -/
theorem Judged.step_open (hends : Ends s key fun _ _ => False)
    (hmemory : s.memory.find? key = none) (huncertain : s.uncertain.find? key = none)
    (sound : Sound s) (action : Action) : Judged cache stored key (Dispatch.step cache action s) := by
  have hfirst : ∀ {id call answer}, (Dispatch.step cache action s).calls.find? id = some call →
      call.key = key → Admitted call.adapterRoute call.command →
      call.point = .finished answer →
      ∃ before, s.calls.find? id = some before ∧ before.key = key ∧
        before.command = call.command ∧
        ((∃ outcome, before.point = .remembering outcome ∧ answer = .ok outcome.result ∧
          (Dispatch.step cache action s).memory.find? key = some outcome) ∨
        (∃ error, before.point = .failing error ∧ answer = .error error ∧
          (Dispatch.step cache action s).uncertain.find? key = some ⟨call.command, error⟩)) := by
    intro id call answer hcall hkey hadmitted hpoint
    obtain ⟨before, hbefore, hroute, hcommand, hby⟩ := ends_step hcall hpoint hadmitted
    have hkey' : before.key = key := (congrArg keyFor hcommand).trans hkey
    refine ⟨before, hbefore, hkey', hcommand, ?_⟩
    cases hby with
    | before hat =>
        exact (hends hbefore hkey' (by rw [hroute, hcommand]; exact hadmitted) hat).elim
    | gives _ _ hgives =>
        subst hkey'
        exact absurd hgives (not_gives sound hends hmemory huncertain hbefore)
    | remembers haction hat hanswer =>
        refine .inl ⟨_, hat, hanswer, ?_⟩
        rw [haction, step_remember hbefore hat, ← hkey']
        exact remembered sound hbefore hat
    | fails haction hbegins hat hanswer =>
        refine .inr ⟨_, hat, hanswer, ?_⟩
        rw [haction, step_fail hbefore hat hbegins, ← hkey', ← hcommand]
        exact OrdMap.find?_insert_self _ _ _
  cases hmemory' : (Dispatch.step cache action s).memory.find? key with
  | some outcome =>
      refine .judged (fun hcall hkey hadmitted hpoint => ?_) (.memory hmemory')
      obtain ⟨before, hbefore, hkey', hcommand, ⟨outcome', hat, hanswer, hmem⟩ | ⟨_, -, -, hunc⟩⟩ :=
        hfirst hcall hkey hadmitted hpoint
      · cases hmemory'.symm.trans hmem
        have hsame := (sound.outcome hbefore (.inr hat)).1.trans hcommand
        unfold Verdict.told
        rw [if_pos hsame, hanswer]
      · exact nomatch ((sound.step action).memory hmemory').2.2.1.symm.trans hunc
  | none =>
      cases huncertain' : (Dispatch.step cache action s).uncertain.find? key with
      | some failed =>
          refine .judged (fun hcall hkey hadmitted hpoint => ?_) (.uncertain huncertain')
          obtain ⟨before, hbefore, hkey', hcommand, ⟨_, -, -, hmem⟩ | ⟨error, hat, hanswer, hunc⟩⟩ :=
            hfirst hcall hkey hadmitted hpoint
          · exact nomatch hmemory'.symm.trans hmem
          · cases huncertain'.symm.trans hunc
            unfold Verdict.told
            rw [if_pos rfl, hanswer]
      | none =>
          refine .open_ (fun hcall hkey hadmitted hpoint => ?_) hmemory' huncertain'
          obtain ⟨before, hbefore, hkey', hcommand, ⟨_, -, -, hmem⟩ | ⟨_, -, -, hunc⟩⟩ :=
            hfirst hcall hkey hadmitted hpoint
          · exact nomatch hmemory'.symm.trans hmem
          · exact nomatch huncertain'.symm.trans hunc

theorem Judged.step (h : Judged cache stored key s) (sound : Sound s)
    (backed : Durable cache stored → Backed stored s) {action : Action}
    (keeps : Keeps cache stored key action s) (straight : Straight cache key action s) :
    Judged cache stored key (Dispatch.step cache action s) := by
  cases h with
  | open_ hends hmemory huncertain => exact step_open hends hmemory huncertain sound action
  | @judged verdict hends hstands =>
      refine .judged (fun hcall hkey hadmitted hpoint => ?_)
        (hstands.step sound backed keeps straight.found)
      obtain ⟨before, hbefore, hroute, hcommand, hby⟩ := ends_step hcall hpoint hadmitted
      have hkey' : before.key = key := (congrArg keyFor hcommand).trans hkey
      have hadmitted' : Admitted before.adapterRoute before.command := by
        rw [hroute, hcommand]
        exact hadmitted
      rw [← hcommand]
      cases hby with
      | before hat => exact hends hbefore hkey' hadmitted' hat
      | gives haction _ hgives =>
          subst hkey' haction
          exact hstands.told sound hends hbefore straight hgives
      | @remembers outcome haction hat hanswer =>
          have hflight := sound.leads hbefore (by rw [hat]; rfl)
          rw [hkey'] at hflight
          cases hstands with
          | memory hmemory => exact nomatch hflight.symm.trans (sound.memory hmemory).2.2.2
          | uncertain huncertain => exact nomatch hflight.symm.trans (sound.uncertain huncertain).2
          | persistent hdurable _ _ hheld =>
              have hbacks := (backed hdurable).call hbefore
              rw [hat, hkey'] at hbacks
              cases hheld.symm.trans hbacks
              unfold Verdict.told
              rw [if_pos (sound.outcome hbefore (.inr hat)).1, hanswer]
      | fails _ _ hat =>
          have hflight := sound.leads hbefore (by rw [hat]; rfl)
          rw [hkey'] at hflight
          cases hstands with
          | memory hmemory => exact nomatch hflight.symm.trans (sound.memory hmemory).2.2.2
          | uncertain huncertain => exact nomatch hflight.symm.trans (sound.uncertain huncertain).2
          | persistent _ _ _ _ _ hcalm => exact absurd hat (hcalm hbefore hkey')

/-! ## Idempotent dispatch -/

/-- Callers that present the same command to adapters of the same route are told the same. -/
def Agree (s : Dispatcher σ) (key : DispatchKey) : Prop :=
  ∀ {id id' : CallId} {call call' : Call} {answer answer' : Answer},
    s.calls.find? id = some call → s.calls.find? id' = some call' → call.key = key →
    call'.adapterRoute = call.adapterRoute → call'.command = call.command →
    call.point = .finished answer → call'.point = .finished answer' → answer' = answer

theorem Judged.agree (h : Judged cache stored key s) (sound : Sound s) : Agree s key := by
  intro id id' call call' answer answer' hcall hcall' hkey hroute hcommand hpoint hpoint'
  have hkey' : call'.key = key := (congrArg keyFor hcommand).trans hkey
  rcases sound.admitted hcall with hadmitted | ⟨error, hrefusal, hended⟩
  · have hadmitted' : Admitted call'.adapterRoute call'.command := by
      rw [hroute, hcommand]
      exact hadmitted
    cases h with
    | open_ hends => exact (hends hcall hkey hadmitted hpoint).elim
    | judged hends =>
        rw [hends hcall hkey hadmitted hpoint, hends hcall' hkey' hadmitted' hpoint', hcommand]
  · rcases sound.admitted hcall' with hadmitted' | ⟨error', hrefusal', hended'⟩
    · rw [Admitted, hroute, hcommand, hrefusal] at hadmitted'
      cases hadmitted'
    · rw [hroute, hcommand, hrefusal] at hrefusal'
      cases hrefusal'
      cases hended.symm.trans hpoint
      cases hended'.symm.trans hpoint'
      rfl

def DispatchPoint.invokes : DispatchPoint → Bool
  | .invoking => true
  | _ => false

/-- The calls of an adapter that are in progress. -/
def adapterCalls (s : Dispatcher σ) : List (CallId × Call) :=
  s.calls.entries.filter fun e => e.2.point.invokes

theorem Sound.adapterCalls_le (h : Sound s) :
    (adapterCalls s).length ≤ s.maximumConcurrentDispatches := by
  have hnodup : ((adapterCalls s).map Prod.fst).Nodup :=
    s.calls.nodup_keys.sublist (List.filter_sublist.map _)
  have hsub : (adapterCalls s).map Prod.fst ⊆ s.inFlight.entries.map Prod.snd := by
    intro id hid
    obtain ⟨⟨_, call⟩, hmem, rfl⟩ := List.mem_map.mp hid
    obtain ⟨hcall, hinvokes⟩ := List.mem_filter.mp hmem
    have hlead : call.point.leads = true := by
      cases hpoint : call.point <;> simp only [hpoint] at hinvokes <;> trivial
    have hflight := h.leads (OrdMap.mem_entries.mp hcall) hlead
    exact List.mem_map.mpr ⟨_, OrdMap.mem_entries.mpr hflight, rfl⟩
  have hle := (hnodup.subperm hsub).length_le
  rw [List.length_map, List.length_map] at hle
  exact hle.trans h.inFlightSize

theorem Sound.inFlight_eq_empty (h : Sound s)
    (hended : ∀ id call, s.calls.find? id = some call → ∃ answer, call.point = .finished answer) :
    s.inFlight = .empty := by
  refine OrdMap.ext_find? fun key => Option.eq_none_iff_forall_ne_some.mpr fun id hflight => ?_
  obtain ⟨call, _, hcall, -, -, hlead⟩ := h.flight hflight
  obtain ⟨answer, hpoint⟩ := hended id call hcall
  exact lead_not_finished hlead answer hpoint

theorem maximum_step (cache : Option (PersistentOutcomeCache σ)) (action : Action)
    (s : Dispatcher σ) :
    (step cache action s).maximumConcurrentDispatches = s.maximumConcurrentDispatches := by
  have hhappens := step_happens cache action s
  generalize step cache action s = s' at hhappens
  cases hhappens with
  | looks _ _ hlooks => cases hlooks <;> rfl
  | consults _ _ hconsulted => cases hconsulted <;> rfl
  | _ => rfl

theorem idempotentDispatcher_empty {maxMemory maxConcurrent : Nat} {persistent : σ}
    (made : idempotentDispatcher maxMemory persistent maxConcurrent = .ok s) :
    s.calls = .empty ∧ s.memory = .empty ∧ s.uncertain = .empty ∧ s.invoked = [] := by
  unfold idempotentDispatcher at made
  split at made
  · cases made
  · cases made
    exact ⟨rfl, rfl, rfl, rfl⟩

/-- Of all callers together: in every run the calls of adapters in progress are bounded, and none
    is in flight once all calls have ended. In runs that forget no outcome of a key, its commands
    go to an adapter once at most; if no commands are crossed, each command has one answer. -/
theorem dispatch_idempotent {maxMemory maxConcurrent : Nat} {persistent : σ} {s₀ : Dispatcher σ}
    (made : idempotentDispatcher maxMemory persistent maxConcurrent = .ok s₀)
    (cache : Option (PersistentOutcomeCache σ))
    (stored : σ → DispatchKey → Option CachedDispatchOutcome) :
    (∀ s, Reaches (step cache) (fun _ _ => True) s₀ s →
      (adapterCalls s).length ≤ s₀.maximumConcurrentDispatches ∧
      ((∀ id call, s.calls.find? id = some call → ∃ answer, call.point = .finished answer) →
        s.inFlight = .empty)) ∧
    ∀ key,
      (∀ s, Reaches (step cache) (Keeps cache stored key) s₀ s → invocations s key ≤ 1) ∧
      (∀ s, Reaches (step cache)
          (fun action s => Keeps cache stored key action s ∧ Straight cache key action s) s₀ s →
        Agree s key) := by
  have hstart := Sound.start made
  obtain ⟨hcalls, hmemory, huncertain, hinvoked⟩ := idempotentDispatcher_empty made
  have hbacked : Backed stored s₀ := ⟨by rw [hcalls]; exact nofun, by rw [hmemory]; exact nofun⟩
  refine ⟨fun s hs => ?_, fun key => ⟨fun s hs => ?_, fun s hs => ?_⟩⟩
  · have hsound := hstart.reaches hs
    have hmax : s.maximumConcurrentDispatches = s₀.maximumConcurrentDispatches :=
      hs.induct (P := fun s => s.maximumConcurrentDispatches = s₀.maximumConcurrentDispatches) rfl
        fun action s h _ => (maximum_step cache action s).trans h
    exact ⟨hmax ▸ hsound.adapterCalls_le, hsound.inFlight_eq_empty⟩
  · have honce : Sound s ∧ (Durable cache stored → Backed stored s) ∧ Once cache stored key s := by
      refine hs.induct (P := fun s => Sound s ∧ (Durable cache stored → Backed stored s) ∧
        Once cache stored key s) ⟨hstart, fun _ => hbacked, .inl ?_⟩ ?_
      · unfold invocations
        rw [hinvoked]
        rfl
      · rintro action s ⟨sound, backed, once⟩ keeps
        exact ⟨sound.step action, fun h => (backed h).step sound h action,
          once.step sound backed keeps⟩
    rcases honce.2.2 with h | h <;> omega
  · have hjudged : Sound s ∧ (Durable cache stored → Backed stored s) ∧
        Judged cache stored key s := by
      refine hs.induct (P := fun s => Sound s ∧ (Durable cache stored → Backed stored s) ∧
        Judged cache stored key s) ⟨hstart, fun _ => hbacked, .open_ ?_ ?_ ?_⟩ ?_
      · rw [Ends, hcalls]
        exact nofun
      · rw [hmemory]
        rfl
      · rw [huncertain]
        rfl
      · rintro action s ⟨sound, backed, judged⟩ ⟨keeps, straight⟩
        exact ⟨sound.step action, fun h => (backed h).step sound h action,
          judged.step sound backed keeps straight⟩
    exact fun {_ _ _ _ _ _} => hjudged.2.2.agree hjudged.1

/-! ### A lamp switched on and off under one key -/

def lampRoute : AdapterRoute := ⟨utf8 "lamp", validateRoute_lamp⟩

def lampSwitch (on : Bool) : EffectCommand :=
  ⟨1, 7, ⟨lampRoute, ⟨utf8 "kitchen", validateTarget_kitchen⟩, .boolean on⟩, 5⟩

def lampKey : DispatchKey := ⟨1, 7⟩

def lampDone : DispatchResult := ⟨.accepted, none, []⟩

/-- A dispatcher with no persistent cache. -/
def lampStart : Dispatcher Unit where
  maximumMemoryOutcomes := 2
  maximumConcurrentDispatches := 1
  persistent := ()
  recency := []
  memory := .empty
  inFlight := .empty
  uncertain := .empty
  waitingDuplicates := 0
  entries := .empty
  calls := .empty
  invoked := []

abbrev lampStep : Action → Dispatcher Unit → Dispatcher Unit := step none

abbrev nothingStored : Unit → DispatchKey → Option CachedDispatchOutcome := fun _ _ => none

/-- The first caller switches the lamp on and the second gets its outcome from memory. -/
def lampTwice : List Action :=
  [.call 1 lampRoute (lampSwitch true), .lock 1, .consult 1, .answer 1 (.ok lampDone),
    .store 1, .remember 1, .call 2 lampRoute (lampSwitch true), .lock 2]

/-- While one caller switches the lamp on, another switches it off under the same key; the
    adapter throws, and then a third caller switches it off. -/
def lampCrossed : List Action :=
  [.call 1 lampRoute (lampSwitch true), .lock 1, .consult 1,
    .call 2 lampRoute (lampSwitch false), .lock 2, .answer 1 (.error (.runtimeError "no reply")),
    .fail 1 lampKey, .lock 2, .call 3 lampRoute (lampSwitch false), .lock 3]

def lampAfter (actions : List Action) : Dispatcher Unit :=
  actions.foldl (fun s action => lampStep action s) lampStart

/-- Nothing under the lamp's key is forgotten. -/
def lampKept (action : Action) (s : Dispatcher Unit) : Prop :=
  (s.uncertain.contains lampKey = true → (lampStep action s).uncertain.contains lampKey = true) ∧
  (s.memory.contains lampKey = true → (lampStep action s).memory.contains lampKey = true)

theorem keeps_of_lampKept {action : Action} {s : Dispatcher Unit} (h : lampKept action s) :
    Keeps none nothingStored lampKey action s := ⟨h.1, fun hmemory => .inl (h.2 hmemory)⟩

instance (action : Action) (s : Dispatcher Unit) : Decidable (lampKept action s) :=
  inferInstanceAs (Decidable (_ ∧ _))

theorem lampCrossed_kept : Obeys lampStep lampKept lampCrossed lampStart := by
  refine ⟨?_, ?_, ?_, ?_, ?_, ?_, ?_, ?_, ?_, ?_, trivial⟩ <;> decide +kernel

/-- Two callers switch the lamp off; the one that waited for the other command is told that
    command's failure, the other that the key is taken. -/
theorem dispatch_crossed :
    Reaches lampStep (Keeps none nothingStored lampKey) lampStart (lampAfter lampCrossed) ∧
    ¬Agree (lampAfter lampCrossed) lampKey := by
  refine ⟨(Reaches.start.obeys lampCrossed_kept).mono fun _ _ => keeps_of_lampKept, fun h => ?_⟩
  have hwaited : (lampAfter lampCrossed).calls.find? 2 = some ⟨lampRoute, lampSwitch false,
      .finished (.error (.runtimeError "no reply"))⟩ := by decide +kernel
  have hlater : (lampAfter lampCrossed).calls.find? 3 = some ⟨lampRoute, lampSwitch false,
      .finished (.error reusedUncertainKey)⟩ := by decide +kernel
  have hsame := h hwaited hlater rfl rfl rfl rfl rfl
  exact absurd (Except.error.inj hsame) (by decide +kernel)

def DispatchPoint.queues : DispatchPoint → Bool
  | .duplicate _ => true
  | _ => false

/-- Nothing is forgotten and no call waits for another. -/
def lampCalm (action : Action) (s : Dispatcher Unit) : Prop :=
  lampKept action s ∧ ∀ e ∈ s.calls.entries, e.2.point.queues = false

instance (action : Action) (s : Dispatcher Unit) : Decidable (lampCalm action s) :=
  inferInstanceAs (Decidable (_ ∧ _))

theorem straight_of_lampCalm {action : Action} {s : Dispatcher Unit} (h : lampCalm action s) :
    Straight none lampKey action s where
  waited _ hcall _ hpoint := by
    have hcalm := h.2 _ (OrdMap.mem_entries.mpr hcall)
    rw [hpoint] at hcalm
    cases hcalm
  found _ _ _ _ hasked := nomatch hasked

theorem lampTwice_calm : Obeys lampStep lampCalm lampTwice lampStart := by
  refine ⟨?_, ?_, ?_, ?_, ?_, ?_, ?_, ?_, trivial⟩ <;> decide +kernel

theorem dispatch_idempotent_lamp :
    (adapterCalls (lampAfter lampTwice)).length ≤ 1 ∧
    invocations (lampAfter lampTwice) lampKey ≤ 1 ∧ Agree (lampAfter lampTwice) lampKey := by
  have hrun := Reaches.start.obeys lampTwice_calm
  have hall := dispatch_idempotent (rfl : idempotentDispatcher 2 () 1 = .ok lampStart) none
    nothingStored
  refine ⟨(hall.1 _ (hrun.mono fun _ _ _ => trivial)).1, (hall.2 lampKey).1 _ ?_,
    (hall.2 lampKey).2 _ ?_⟩
  · exact hrun.mono fun _ _ h => keeps_of_lampKept h.1
  · exact hrun.mono fun _ _ h => ⟨keeps_of_lampKept h.1, straight_of_lampCalm h⟩

end Dispatch

end LiquidLayer
