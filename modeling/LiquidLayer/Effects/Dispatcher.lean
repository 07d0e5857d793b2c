/-
  The idempotent dispatcher (`IdempotentDispatcher` of IdempotentDispatcher.cpp), with any number
  of callers at once.

  A call of `dispatch` is a thread of its own. It owns the dispatcher's mutex from one wait to the
  next, so `step` performs one such critical section, or what happens between two of them: the
  look into the persistent cache, the adapter's answer, the store. What the host supplies (the
  adapter's answer, the order of the threads, the entry an `unordered_map` begins with) comes with
  the action.

  * `DispatchPoint`, `Call`, `Dispatcher`: a thread, and what the threads share.
  * `lookUp`, `wake`, `consult`, `answer`, `store`, `remember`, `finishFailure`: the sections.
  * `Happens`, `step_happens`: all that one action can do.
-/
import LiquidLayer.Effects.Types
import LiquidLayer.Lib.Prog

namespace LiquidLayer

namespace Dispatch

/-! ## Keys and outcomes -/

structure DispatchKey where
  sessionId : SessionId
  commandId : CommandId
deriving DecidableEq

instance : LinearOrder DispatchKey :=
  LinearOrder.lift' (fun k => toLex (k.sessionId, k.commandId)) (by
    rintro ⟨s, c⟩ ⟨s', c'⟩ h
    have h' := congrArg ofLex h
    simp only [ofLex_toLex, Prod.mk.injEq] at h'
    rw [h'.1, h'.2])

def keyFor (command : EffectCommand) : DispatchKey := ⟨command.sessionId, command.commandId⟩

structure CachedDispatchOutcome where
  command : EffectCommand
  result : DispatchResult
deriving DecidableEq

def reusedKey : Failure :=
  .invalidArgument "an idempotency key was reused for a different effect command"

def reusedUncertainKey : Failure :=
  .invalidArgument "an uncertain idempotency key was reused for a different command"

def requireSameCommand (cached : CachedDispatchOutcome) (command : EffectCommand) :
    Except Failure Unit :=
  if cached.command ≠ command then .error reusedKey
  else validateDispatchResultForCommand cached.result command

/-- `PersistentOutcomeCache`, an interface of the host; `σ` is what its implementation holds. -/
structure PersistentOutcomeCache (σ : Type) where
  find : SessionId → CommandId → σ → Except Failure (Option CachedDispatchOutcome) × σ
  store : CachedDispatchOutcome → σ → Except Failure Unit × σ

/-! ## Threads -/

abbrev CallId := Nat

/-- How a call of `dispatch` ended. -/
abbrev Answer := Except Failure DispatchResult

structure InFlightEntry where
  completed : Bool := false
  outcome : Option CachedDispatchOutcome := none
  failure : Option Failure := none

structure UncertainOutcome where
  command : EffectCommand
  failure : Failure

/-- How far a call of `dispatch` is. -/
inductive DispatchPoint where
  | entered
  /-- Waits for the entry of another call. -/
  | duplicate (entry : CallId)
  /-- Waits until fewer calls are in flight. -/
  | full
  /-- Has entered itself as in flight. -/
  | leading
  /-- Inside `adapter.dispatch`. -/
  | invoking
  | dispatched (outcome : CachedDispatchOutcome)
  | remembering (outcome : CachedDispatchOutcome)
  | failing (error : Failure)
  | finished (answer : Answer)
deriving DecidableEq

/-- The call has entered itself as in flight. -/
def DispatchPoint.leads : DispatchPoint → Bool
  | .leading => true
  | .invoking => true
  | .dispatched _ => true
  | .remembering _ => true
  | .failing _ => true
  | _ => false

structure Call where
  /-- The route of the adapter the call was made with. -/
  adapterRoute : AdapterRoute
  command : EffectCommand
  point : DispatchPoint
deriving DecidableEq

def Call.key (call : Call) : DispatchKey := keyFor call.command

/-! ## What the threads share -/

structure Dispatcher (σ : Type) where
  maximumMemoryOutcomes : Nat
  maximumConcurrentDispatches : Nat
  /-- What the persistent cache holds. -/
  persistent : σ
  recency : List DispatchKey
  memory : OrdMap DispatchKey CachedDispatchOutcome
  inFlight : OrdMap DispatchKey CallId
  uncertain : OrdMap DispatchKey UncertainOutcome
  waitingDuplicates : Nat
  /-- The in-flight entries, each named by the call that made it. -/
  entries : OrdMap CallId InFlightEntry
  calls : OrdMap CallId Call
  /-- The commands adapters have been called with, latest first. -/
  invoked : List EffectCommand

variable {σ : Type}

/-- The constructor `IdempotentDispatcher(...)`. -/
def idempotentDispatcher (maxMemoryOutcomes : Nat) (persistent : σ)
    (maxConcurrentDispatches : Nat) : Except Failure (Dispatcher σ) :=
  if maxMemoryOutcomes = 0 then
    .error (.invalidArgument "idempotent dispatcher capacity must be positive")
  else .ok {
    maximumMemoryOutcomes := maxMemoryOutcomes
    maximumConcurrentDispatches :=
      if maxConcurrentDispatches = 0 then maxMemoryOutcomes else maxConcurrentDispatches
    persistent := persistent
    recency := []
    memory := .empty
    inFlight := .empty
    uncertain := .empty
    waitingDuplicates := 0
    entries := .empty
    calls := .empty
    invoked := [] }

namespace Dispatcher

/-- The call goes on to `point`. -/
def move (s : Dispatcher σ) (id : CallId) (point : DispatchPoint) : Dispatcher σ :=
  { s with calls := s.calls.modify id fun call => { call with point := point } }

def finish (s : Dispatcher σ) (id : CallId) (answer : Answer) : Dispatcher σ :=
  s.move id (.finished answer)

/-- `recency.splice(recency.begin(), recency, found)`. -/
def touch (s : Dispatcher σ) (key : DispatchKey) : Dispatcher σ :=
  { s with recency := key :: s.recency.erase key }

/-- The answer a recorded outcome gives to a call. -/
def recorded (cached : CachedDispatchOutcome) (command : EffectCommand) : Answer :=
  match requireSameCommand cached command with
  | .ok () => .ok cached.result
  | .error e => .error e

/-- The entry of `dispatch`, up to the lock. -/
def enter (s : Dispatcher σ) (id : CallId) (route : AdapterRoute) (command : EffectCommand) :
    Dispatcher σ :=
  let point : DispatchPoint :=
    match validateEffectCommand command with
    | .error e => .finished (.error e)
    | .ok () =>
        if route ≠ command.effect.adapterRoute then
          .finished (.error (.invalidArgument "effect command does not match adapter route"))
        else .entered
  { s with calls := s.calls.insert id ⟨route, command, point⟩ }

/-- One turn of the loop in `dispatch`, up to a return, a throw, a wait or its `break`. -/
def lookUp (s : Dispatcher σ) (id : CallId) (command : EffectCommand) : Dispatcher σ :=
  let key := keyFor command
  match s.memory.find? key with
  | some cached => (s.touch key).finish id (recorded cached command)
  | none =>
      match s.uncertain.find? key with
      | some failed =>
          if failed.command ≠ command then s.finish id (.error reusedUncertainKey)
          else s.finish id (.error failed.failure)
      | none =>
          match s.inFlight.find? key with
          | some entry =>
              { s with waitingDuplicates := s.waitingDuplicates + 1 }.move id (.duplicate entry)
          | none =>
              if s.inFlight.size ≥ s.maximumConcurrentDispatches then s.move id .full
              else
                { s with
                  inFlight := s.inFlight.insert key id
                  entries := s.entries.insert id {} }.move id .leading

/-- A duplicate goes on after its wait for `entry`. -/
def wakeDuplicate (s : Dispatcher σ) (id : CallId) (command : EffectCommand)
    (entry : InFlightEntry) : Dispatcher σ :=
  let s := { s with waitingDuplicates := s.waitingDuplicates - 1 }
  match entry.failure with
  | some failure => s.finish id (.error failure)
  | none =>
      match entry.outcome with
      | some outcome => s.finish id (recorded outcome command)
      | none => s.lookUp id command

/-- What a thread at the mutex does once it has it; nothing while its wait goes on. -/
def lock (s : Dispatcher σ) (id : CallId) (call : Call) : Dispatcher σ :=
  match call.point with
  | .entered => s.lookUp id call.command
  | .duplicate leader =>
      match s.entries.find? leader with
      | some entry => if entry.completed then s.wakeDuplicate id call.command entry else s
      | none => s
  | .full =>
      if s.inFlight.size < s.maximumConcurrentDispatches ∨ s.inFlight.contains call.key ∨
          s.memory.contains call.key ∨ s.uncertain.contains call.key then
        s.lookUp id call.command
      else s
  | _ => s

/-- The call of `adapter.dispatch` begins. -/
def invoke (s : Dispatcher σ) (id : CallId) (command : EffectCommand) : Dispatcher σ :=
  { s with invoked := command :: s.invoked }.move id .invoking

/-- What the persistent cache knows, and else the adapter. -/
def consult (cache : Option (PersistentOutcomeCache σ)) (s : Dispatcher σ) (id : CallId)
    (command : EffectCommand) : Dispatcher σ :=
  match cache with
  | none => s.invoke id command
  | some cache =>
      let (found, persistent) := cache.find command.sessionId command.commandId s.persistent
      let s := { s with persistent := persistent }
      match found with
      | .error e => s.move id (.failing e)
      | .ok none => s.invoke id command
      | .ok (some persistent) =>
          match requireSameCommand persistent command with
          | .error e => s.move id (.failing e)
          | .ok () => s.move id (.remembering persistent)

/-- `adapter.dispatch` returns or throws. -/
def adapterAnswers (s : Dispatcher σ) (id : CallId) (command : EffectCommand) (answer : Answer) :
    Dispatcher σ :=
  match answer with
  | .error e => s.move id (.failing e)
  | .ok result =>
      match validateDispatchResultForCommand result command with
      | .error e => s.move id (.failing e)
      | .ok () => s.move id (.dispatched ⟨command, result⟩)

def store (cache : Option (PersistentOutcomeCache σ)) (s : Dispatcher σ) (id : CallId)
    (outcome : CachedDispatchOutcome) : Dispatcher σ :=
  match cache with
  | none => s.move id (.remembering outcome)
  | some cache =>
      let (stored, persistent) := cache.store outcome s.persistent
      let s := { s with persistent := persistent }
      match stored with
      | .error e => s.move id (.failing e)
      | .ok () => s.move id (.remembering outcome)

/-- The loop `while (memory.size() > maximumMemoryOutcomes)`; the keys come oldest first. -/
def expire (maximum : Nat) : List DispatchKey → OrdMap DispatchKey CachedDispatchOutcome →
    List DispatchKey × OrdMap DispatchKey CachedDispatchOutcome
  | [], memory => ([], memory)
  | oldest :: recency, memory =>
      if maximum < memory.size then expire maximum recency (memory.erase oldest)
      else (oldest :: recency, memory)

def remember (s : Dispatcher σ) (id : CallId) (key : DispatchKey)
    (outcome : CachedDispatchOutcome) : Dispatcher σ :=
  let recency :=
    if s.memory.contains key then key :: s.recency.erase key else key :: s.recency
  let (oldestFirst, memory) :=
    expire s.maximumMemoryOutcomes recency.reverse (s.memory.insert key outcome)
  { s with
    recency := oldestFirst.reverse
    memory := memory
    entries := s.entries.insert id { completed := true, outcome := some outcome }
    inFlight := s.inFlight.erase key }.finish id (.ok outcome.result)

/-- `finish_failure`. A full uncertain table loses `first`, the entry it begins with. -/
def finishFailure (s : Dispatcher σ) (id : CallId) (command : EffectCommand) (error : Failure)
    (first : DispatchKey) : Dispatcher σ :=
  let key := keyFor command
  let full := !s.uncertain.contains key && decide (s.uncertain.size ≥ s.maximumMemoryOutcomes)
  let uncertain := if full then s.uncertain.erase first else s.uncertain
  { s with
    uncertain := uncertain.insert key ⟨command, error⟩
    entries := s.entries.insert id { completed := true, failure := some error }
    inFlight := s.inFlight.erase key }.finish id (.error error)

def clearMemory (s : Dispatcher σ) : Dispatcher σ :=
  { s with memory := .empty, recency := [], uncertain := .empty }

end Dispatcher

/-! ## Steps -/

inductive Action where
  /-- A thread calls `dispatch` with an adapter of that route. -/
  | call (id : CallId) (route : AdapterRoute) (command : EffectCommand)
  | lock (id : CallId)
  | consult (id : CallId)
  | answer (id : CallId) (answer : Answer)
  | store (id : CallId)
  | remember (id : CallId)
  | fail (id : CallId) (first : DispatchKey)
  | clearMemory

/-- `uncertain.begin()` names an entry, if one has to go. -/
def Dispatcher.begins (s : Dispatcher σ) (key first : DispatchKey) : Bool :=
  s.uncertain.contains key || decide (s.uncertain.size < s.maximumMemoryOutcomes) ||
    s.uncertain.contains first

/-- An action that its thread cannot take changes nothing. -/
def step (cache : Option (PersistentOutcomeCache σ)) (action : Action) (s : Dispatcher σ) :
    Dispatcher σ :=
  match action with
  | .call id route command => if s.calls.contains id then s else s.enter id route command
  | .lock id =>
      match s.calls.find? id with
      | some call => s.lock id call
      | none => s
  | .consult id =>
      match s.calls.find? id with
      | some ⟨_, command, .leading⟩ => s.consult cache id command
      | _ => s
  | .answer id answer =>
      match s.calls.find? id with
      | some ⟨_, command, .invoking⟩ => s.adapterAnswers id command answer
      | _ => s
  | .store id =>
      match s.calls.find? id with
      | some ⟨_, _, .dispatched outcome⟩ => s.store cache id outcome
      | _ => s
  | .remember id =>
      match s.calls.find? id with
      | some ⟨_, command, .remembering outcome⟩ => s.remember id (keyFor command) outcome
      | _ => s
  | .fail id first =>
      match s.calls.find? id with
      | some ⟨_, command, .failing error⟩ =>
          if s.begins (keyFor command) first then s.finishFailure id command error first else s
      | _ => s
  | .clearMemory => s.clearMemory

/-! ## What a step can do -/

section Happens

variable {cache : Option (PersistentOutcomeCache σ)} {s : Dispatcher σ}

/-- What a call throws before it takes the lock. -/
def refusal (route : AdapterRoute) (command : EffectCommand) : Option Failure :=
  match validateEffectCommand command with
  | .error e => some e
  | .ok () =>
      if route ≠ command.effect.adapterRoute then
        some (.invalidArgument "effect command does not match adapter route")
      else none

/-- The call takes the lock. -/
def Admitted (route : AdapterRoute) (command : EffectCommand) : Prop :=
  refusal route command = none

/-- Why a call that holds the lock ends there, and with what. -/
inductive Gives (s : Dispatcher σ) (call : Call) : Answer → Prop
  | memory {cached} : s.memory.find? call.key = some cached →
      Gives s call (Dispatcher.recorded cached call.command)
  | uncertain {failed} : s.uncertain.find? call.key = some failed →
      failed.command = call.command → Gives s call (.error failed.failure)
  | reused {failed} : s.uncertain.find? call.key = some failed →
      failed.command ≠ call.command → Gives s call (.error reusedUncertainKey)
  | failed {leader entry failure} : call.point = .duplicate leader →
      s.entries.find? leader = some entry → entry.completed = true →
      entry.failure = some failure → Gives s call (.error failure)
  | shared {leader entry outcome} : call.point = .duplicate leader →
      s.entries.find? leader = some entry → entry.completed = true → entry.failure = none →
      entry.outcome = some outcome → Gives s call (Dispatcher.recorded outcome call.command)

/-- A key no table of the dispatcher knows. -/
structure Unknown (s : Dispatcher σ) (key : DispatchKey) : Prop where
  memory : s.memory.find? key = none
  uncertain : s.uncertain.find? key = none
  inFlight : s.inFlight.find? key = none

/-- The call is at the mutex, or in a wait that gives it back. -/
def DispatchPoint.waits : DispatchPoint → Bool
  | .entered => true
  | .duplicate _ => true
  | .full => true
  | _ => false

/-- What becomes of a look at a key: all cases but the leader's change little. -/
inductive Looks (s : Dispatcher σ) (id : CallId) (call : Call) : Dispatcher σ → Prop
  | gives {answer recency waiting} : Gives s call answer →
      (recency = s.recency ∨
        s.memory.contains call.key ∧ recency = call.key :: s.recency.erase call.key) →
      Looks s id call ({ s with recency := recency, waitingDuplicates := waiting }.finish id answer)
  | duplicate {leader waiting} : s.memory.find? call.key = none →
      s.uncertain.find? call.key = none → s.inFlight.find? call.key = some leader →
      Looks s id call ({ s with waitingDuplicates := waiting }.move id (.duplicate leader))
  | full {waiting} : Unknown s call.key →
      s.maximumConcurrentDispatches ≤ s.inFlight.size →
      Looks s id call ({ s with waitingDuplicates := waiting }.move id .full)
  | leads {waiting} : Unknown s call.key →
      s.inFlight.size < s.maximumConcurrentDispatches →
      Looks s id call ({ s with
        waitingDuplicates := waiting
        inFlight := s.inFlight.insert call.key id
        entries := s.entries.insert id {} }.move id .leading)

theorem looks_lookUp (s : Dispatcher σ) (id : CallId) (call : Call) (waiting : Nat) :
    Looks s id call ({ s with waitingDuplicates := waiting }.lookUp id call.command) := by
  unfold Dispatcher.lookUp
  simp only
  cases hmemory : s.memory.find? (keyFor call.command) with
  | some cached =>
      have hcontains : s.memory.contains call.key = true := by
        unfold OrdMap.contains Call.key
        rw [hmemory]
        rfl
      exact .gives (.memory hmemory) (.inr ⟨hcontains, rfl⟩)
  | none =>
      cases huncertain : s.uncertain.find? (keyFor call.command) with
      | some failed =>
          simp only
          split
          · next h => exact .gives (.reused huncertain h) (.inl rfl)
          · next h => exact .gives (.uncertain huncertain (not_not.mp h)) (.inl rfl)
      | none =>
          cases hflight : s.inFlight.find? (keyFor call.command) with
          | some leader => exact .duplicate hmemory huncertain hflight
          | none =>
              simp only
              split
              · next h => exact .full ⟨hmemory, huncertain, hflight⟩ h
              · next h => exact .leads ⟨hmemory, huncertain, hflight⟩ (Nat.lt_of_not_le h)

/-- A thread that has the lock looks its key up, unless it goes on waiting. -/
theorem looks_lock (s : Dispatcher σ) (id : CallId) (call : Call) :
    s.lock id call = s ∨ (call.point.waits = true ∧ Looks s id call (s.lock id call)) := by
  unfold Dispatcher.lock
  split
  · next h => exact .inr ⟨by rw [h]; rfl, looks_lookUp s id call s.waitingDuplicates⟩
  · next leader h =>
      have hwaits : call.point.waits = true := by rw [h]; rfl
      split
      · next entry hentry =>
          split
          · next hcompleted =>
              refine .inr ⟨hwaits, ?_⟩
              unfold Dispatcher.wakeDuplicate
              simp only
              split
              · next failure hfailure =>
                  exact .gives (.failed h hentry hcompleted hfailure) (.inl rfl)
              · next hfailure =>
                  split
                  · next outcome houtcome =>
                      exact .gives (.shared h hentry hcompleted hfailure houtcome) (.inl rfl)
                  · exact looks_lookUp s id call _
          · exact .inl rfl
      · exact .inl rfl
  · next h =>
      split
      · exact .inr ⟨by rw [h]; rfl, looks_lookUp s id call s.waitingDuplicates⟩
      · exact .inl rfl
  · exact .inl rfl

/-- What the persistent cache says, and the state it is left in. -/
def asked (cache : Option (PersistentOutcomeCache σ)) (s : Dispatcher σ)
    (command : EffectCommand) : Except Failure (Option CachedDispatchOutcome) × σ :=
  match cache with
  | none => (.ok none, s.persistent)
  | some cache => cache.find command.sessionId command.commandId s.persistent

/-- Whether the persistent cache takes an outcome, and the state it is left in. -/
def kept (cache : Option (PersistentOutcomeCache σ)) (s : Dispatcher σ)
    (outcome : CachedDispatchOutcome) : Except Failure Unit × σ :=
  match cache with
  | none => (.ok (), s.persistent)
  | some cache => cache.store outcome s.persistent

/-- Where a call goes that has asked the persistent cache. -/
inductive Consulted (cache : Option (PersistentOutcomeCache σ)) (s : Dispatcher σ) (id : CallId)
    (command : EffectCommand) : Dispatcher σ → Prop
  | invoke : (asked cache s command).1 = .ok none →
      Consulted cache s id command
        ({ s with
          persistent := (asked cache s command).2
          invoked := command :: s.invoked }.move id .invoking)
  | found {outcome} : (asked cache s command).1 = .ok (some outcome) →
      requireSameCommand outcome command = .ok () →
      Consulted cache s id command
        ({ s with persistent := (asked cache s command).2 }.move id (.remembering outcome))
  | conflict {outcome error} : (asked cache s command).1 = .ok (some outcome) →
      requireSameCommand outcome command = .error error →
      Consulted cache s id command
        ({ s with persistent := (asked cache s command).2 }.move id (.failing error))
  | throws {error} : (asked cache s command).1 = .error error →
      Consulted cache s id command
        ({ s with persistent := (asked cache s command).2 }.move id (.failing error))

theorem consulted_consult (cache : Option (PersistentOutcomeCache σ)) (s : Dispatcher σ)
    (id : CallId) (command : EffectCommand) :
    Consulted cache s id command (s.consult cache id command) := by
  unfold Dispatcher.consult
  cases cache with
  | none => exact .invoke rfl
  | some cache =>
      simp only
      split
      · next e h => exact .throws h
      · next h => exact .invoke h
      · next outcome h =>
          split
          · next e hsame => exact .conflict h hsame
          · next hsame => exact .found h hsame

/-- All that one action can do, with what was so when it happened. -/
inductive Happens (cache : Option (PersistentOutcomeCache σ)) (s : Dispatcher σ) :
    Action → Dispatcher σ → Prop
  | nothing {action} : Happens cache s action s
  | refused {id route command error} : s.calls.find? id = none →
      refusal route command = some error →
      Happens cache s (.call id route command)
        { s with calls := s.calls.insert id ⟨route, command, .finished (.error error)⟩ }
  | admitted {id route command} : s.calls.find? id = none → Admitted route command →
      Happens cache s (.call id route command)
        { s with calls := s.calls.insert id ⟨route, command, .entered⟩ }
  | looks {id call s'} : s.calls.find? id = some call → call.point.waits = true →
      Looks s id call s' → Happens cache s (.lock id) s'
  | consults {id call s'} : s.calls.find? id = some call → call.point = .leading →
      Consulted cache s id call.command s' → Happens cache s (.consult id) s'
  | answered {id call answer result} : s.calls.find? id = some call → call.point = .invoking →
      answer = .ok result → validateDispatchResultForCommand result call.command = .ok () →
      Happens cache s (.answer id answer) (s.move id (.dispatched ⟨call.command, result⟩))
  | threw {id call answer error} : s.calls.find? id = some call → call.point = .invoking →
      Happens cache s (.answer id answer) (s.move id (.failing error))
  | stores {id call outcome} : s.calls.find? id = some call → call.point = .dispatched outcome →
      (kept cache s outcome).1 = .ok () →
      Happens cache s (.store id)
        ({ s with persistent := (kept cache s outcome).2 }.move id (.remembering outcome))
  | loses {id call outcome error} : s.calls.find? id = some call →
      call.point = .dispatched outcome → (kept cache s outcome).1 = .error error →
      Happens cache s (.store id)
        ({ s with persistent := (kept cache s outcome).2 }.move id (.failing error))
  | remembers {id call outcome} : s.calls.find? id = some call →
      call.point = .remembering outcome →
      Happens cache s (.remember id) (s.remember id call.key outcome)
  | fails {id call error first} : s.calls.find? id = some call → call.point = .failing error →
      s.begins call.key first = true →
      Happens cache s (.fail id first) (s.finishFailure id call.command error first)
  | clears : Happens cache s .clearMemory s.clearMemory

theorem enter_eq (s : Dispatcher σ) (id : CallId) (route : AdapterRoute)
    (command : EffectCommand) :
    s.enter id route command = { s with
      calls := s.calls.insert id ⟨route, command,
        match refusal route command with
        | some error => .finished (.error error)
        | none => .entered⟩ } := by
  unfold Dispatcher.enter refusal
  cases validateEffectCommand command with
  | error e => rfl
  | ok u =>
      simp only
      split <;> rfl

theorem happens_enter {id : CallId} {route : AdapterRoute} {command : EffectCommand}
    (fresh : s.calls.find? id = none) :
    Happens cache s (.call id route command) (s.enter id route command) := by
  rw [enter_eq]
  split
  · next error hrefusal => exact .refused fresh hrefusal
  · next hadmitted => exact .admitted fresh hadmitted

theorem happens_adapterAnswers {id : CallId} (call : Call) {answer : Answer}
    (hcall : s.calls.find? id = some call) (hpoint : call.point = .invoking) :
    Happens cache s (.answer id answer) (s.adapterAnswers id call.command answer) := by
  unfold Dispatcher.adapterAnswers
  split
  · exact .threw hcall hpoint
  · next result =>
      split
      · exact .threw hcall hpoint
      · next hvalid => exact .answered hcall hpoint rfl hvalid

theorem happens_store {id : CallId} (call : Call) {outcome : CachedDispatchOutcome}
    (hcall : s.calls.find? id = some call) (hpoint : call.point = .dispatched outcome) :
    Happens cache s (.store id) (s.store cache id outcome) := by
  unfold Dispatcher.store
  cases cache with
  | none => exact @Happens.stores _ none _ _ _ _ hcall hpoint rfl
  | some cache =>
      simp only
      split
      · next e h => exact @Happens.loses _ (some cache) _ _ _ _ _ hcall hpoint h
      · next h => exact @Happens.stores _ (some cache) _ _ _ _ hcall hpoint h

theorem step_happens (cache : Option (PersistentOutcomeCache σ)) (action : Action)
    (s : Dispatcher σ) : Happens cache s action (step cache action s) := by
  unfold step
  cases action with
  | call id route command =>
      simp only
      split
      · exact .nothing
      · next h => exact happens_enter (by simpa [OrdMap.contains] using h)
  | lock id =>
      simp only
      split
      · next call hcall =>
          rcases looks_lock s id call with h | ⟨hwaits, h⟩
          · rw [h]
            exact .nothing
          · exact .looks hcall hwaits h
      · exact .nothing
  | consult id =>
      simp only
      split
      · next route command hcall =>
          exact .consults hcall rfl (consulted_consult cache s id command)
      · exact .nothing
  | answer id answer =>
      simp only
      split
      · next route command hcall =>
          exact happens_adapterAnswers ⟨route, command, .invoking⟩ hcall rfl
      · exact .nothing
  | store id =>
      simp only
      split
      · next route command outcome hcall =>
          exact happens_store ⟨route, command, .dispatched outcome⟩ hcall rfl
      · exact .nothing
  | remember id =>
      simp only
      split
      · next route command outcome hcall =>
          exact @Happens.remembers _ _ _ _ ⟨route, command, .remembering outcome⟩ _ hcall rfl
      · exact .nothing
  | fail id first =>
      simp only
      split
      · next route command error hcall =>
          split
          · next hbegins =>
              exact @Happens.fails _ _ _ _ ⟨route, command, .failing error⟩ _ _ hcall rfl hbegins
          · exact .nothing
      · exact .nothing
  | clearMemory => exact .clears

end Happens

end Dispatch

end LiquidLayer
