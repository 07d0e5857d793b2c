/-
  The simulated device adapter (`InMemoryAdapter` of simulation/InMemoryAdapter.cpp).

  A report or an observation that is not due yet waits in a queue by its due time;
  `deliver_through` sends what is due. What the feedback senders answer is an input: `trySend`
  is any function of the sender, the message and the state of the channels.

  `deliverThrough` keeps a list of its calls of `try_send`, which the sources do not have.

  * `InMemoryAdapter`, `dispatch`, `observe`, `deliverThrough`: the adapter.
  * `offer`, `deliverLoop_offer`: a delivery loop offers the due entries one after another until
    a sender is full.
  * `Complete`, `complete_iff`: what a delivery promises, and when it keeps it.
-/
import LiquidLayer.Lib.MultiMap
import LiquidLayer.Effects.State

namespace LiquidLayer

namespace Simulation

/-! ## The adapter -/

inductive FeedbackSendResult where
  | sent
  | full
  | closed
deriving DecidableEq, Repr

/-- `FeedbackSender::try_send`, for senders of type `φ` and channels in a state of type `σ`. -/
abbrev TrySend (φ σ : Type) := φ → Feedback → σ → FeedbackSendResult × σ

structure AdapterBehavior where
  latencyMs : UInt64
  outcome : CommandStatus
  duplicateReports : Nat
  silent : Bool
  reverseDelivery : Bool
  crashDuringDispatch : Bool
  /-- A `std::function` may be empty. -/
  normalize : Option (Value → Except Failure Value)

structure AdapterLimits where
  maxDuplicateReports : Nat
  maxPendingReports : Nat
  maxCachedOutcomes : Nat

/-- `CommandKey`: session and command. -/
structure CommandKey where
  session : UInt64
  command : UInt64
deriving DecidableEq

instance : LinearOrder CommandKey :=
  LinearOrder.lift' (fun k => toLex (k.session, k.command)) (by
    rintro ⟨s, c⟩ ⟨s', c'⟩ h
    have h' := congrArg ofLex h
    simp only [ofLex_toLex, Prod.mk.injEq] at h'
    rw [h'.1, h'.2])

/-- `φ` is the type of a `FeedbackSender`. What waits has passed validation. -/
structure PendingReport (φ : Type) where
  report : EffectReport
  valid : validateEffectReport report = .ok ()
  sender : φ

structure PendingObservation (φ : Type) where
  observation : ExternalObservation
  valid : validateExternalObservation observation = .ok ()
  sender : φ

structure CachedOutcome where
  command : EffectCommand
  result : DispatchResult

structure InMemoryAdapter (φ : Type) where
  adapterRoute : AdapterRoute
  adapterCapabilities : AdapterCapabilities
  adapterBehavior : AdapterBehavior
  adapterLimits : AdapterLimits
  pendingReports : MultiMap UInt64 (PendingReport φ)
  pendingObservations : MultiMap UInt64 (PendingObservation φ)
  cachedOutcomes : OrdMap CommandKey CachedOutcome
  deviceState : OrdMap Bytes Value
  deviceRevisions : OrdMap Bytes StateRevision

/-- The adapter with the feedback channels its senders lead to, in a state of type `σ`. -/
structure Simulator (φ σ : Type) extends InMemoryAdapter φ where
  channels : σ

variable {φ σ : Type}

def pending (s : InMemoryAdapter φ) : Nat := s.pendingReports.size + s.pendingObservations.size

def sizeMax : Nat := 2 ^ 64 - 1

def validateBehavior (limits : AdapterLimits) (behavior : AdapterBehavior) :
    Except Failure Unit :=
  if behavior.duplicateReports > limits.maxDuplicateReports ∨
      behavior.duplicateReports = sizeMax then
    .error (.invalidArgument "simulated duplicate-report limit exceeded")
  else if behavior.outcome = .pending then
    .error (.invalidArgument "pending is not a simulated report outcome")
  else .ok ()

/-- The constructor. -/
def inMemoryAdapter (route : AdapterRoute) (behavior : AdapterBehavior)
    (capabilities : AdapterCapabilities) (limits : AdapterLimits) :
    Except Failure (InMemoryAdapter φ) :=
  if capabilities.nativeIdempotency ∧ limits.maxCachedOutcomes = 0 then
    .error (.invalidArgument "native idempotency requires a positive outcome-cache capacity")
  else
    match validateBehavior limits behavior with
    | .error e => .error e
    | .ok () => .ok
        { adapterRoute := route
          adapterCapabilities := capabilities
          adapterBehavior := behavior
          adapterLimits := limits
          pendingReports := .empty
          pendingObservations := .empty
          cachedOutcomes := .empty
          deviceState := .empty
          deviceRevisions := .empty }

def setBehavior (s : InMemoryAdapter φ) (behavior : AdapterBehavior) :
    Except Failure (InMemoryAdapter φ) :=
  match validateBehavior s.adapterLimits behavior with
  | .error e => .error e
  | .ok () => .ok { s with adapterBehavior := behavior }

/-! ## Dispatch -/

abbrev Simulate (φ σ : Type) := EStateM Failure (Simulator φ σ)

def check {α : Type} (result : Except Failure α) : Simulate φ σ α :=
  match result with
  | .ok a => pure a
  | .error e => throw e

def accepted (report : Option EffectReport) : DispatchResult := ⟨.accepted, report, []⟩
def rejected (diagnostic : String) : DispatchResult := ⟨.rejected, none, utf8 diagnostic⟩
def failed (diagnostic : String) : DispatchResult := ⟨.failed, none, utf8 diagnostic⟩

def keyOf (command : EffectCommand) : CommandKey := ⟨command.sessionId, command.commandId⟩

def cacheOutcome (command : EffectCommand) (result : DispatchResult) :
    Simulate φ σ DispatchResult := do
  let s ← get
  if ¬s.adapterCapabilities.nativeIdempotency then return result
  if s.cachedOutcomes.contains (keyOf command) then
    throw (.logicError "simulator outcome cache insertion collided")
  set { s with cachedOutcomes := s.cachedOutcomes.insert (keyOf command) ⟨command, result⟩ }
  return result

/-- What native idempotency answers without the device. -/
def answerCached (command : EffectCommand) (s : InMemoryAdapter φ) :
    Except Failure (Option DispatchResult) :=
  if ¬s.adapterCapabilities.nativeIdempotency then .ok none
  else
    match s.cachedOutcomes.find? (keyOf command) with
    | some cached =>
        if cached.command ≠ command then
          .error (.invalidArgument "simulator command ID was reused for a different command")
        else .ok (some cached.result)
    | none =>
        if s.cachedOutcomes.size ≥ s.adapterLimits.maxCachedOutcomes then
          .ok (some (failed "simulator idempotency outcome cache capacity exceeded"))
        else .ok none

def queueReport (due : UInt64) (pending : PendingReport φ) : Simulate φ σ Unit :=
  modify fun s => { s with pendingReports := s.pendingReports.emplace due pending }

/-- The value the device takes, and the revision it gets; the revision is missing when none is
    left. -/
def applied (command : EffectCommand) (s : InMemoryAdapter φ) :
    Except Failure (Value × Option StateRevision) := do
  let observed ← match s.adapterBehavior.normalize with
    | some normalize => normalize command.effect.desiredValue
    | none => .ok command.effect.desiredValue
  observed.validate
  match s.deviceRevisions.find? command.effect.target.value with
  | none => .ok (observed, some 1)
  | some revision => .ok (observed, if revision.toNat = sizeMax then none else some (revision + 1))

/-- The report of a command, sent or queued. -/
def deliverOrQueue (trySend : TrySend φ σ) (pending : PendingReport φ) :
    Nat → Simulate φ σ Unit
  | 0 => pure ()
  | duplicates + 1 => do
      let s ← get
      let answer := trySend pending.sender (.report pending.report) s.channels
      set { s with channels := answer.2 }
      if answer.1 = .full then queueReport pending.report.reportedAtMs pending
      deliverOrQueue trySend pending duplicates

def queueCopies (pending : PendingReport φ) : Nat → Simulate φ σ Unit
  | 0 => pure ()
  | copies + 1 => do
      queueReport pending.report.reportedAtMs pending
      queueCopies pending copies

def reportOf (command : EffectCommand) (behavior : AdapterBehavior) (observed : Option Value)
    (revision : StateRevision) : EffectReport :=
  .make command.sessionId command.commandId command.effect.adapterRoute command.effect.target
    behavior.outcome observed [] (command.issuedAtMs + behavior.latencyMs) revision

/-- The end of `dispatch`: the report is on its way. -/
def sendReport (trySend : TrySend φ σ) (command : EffectCommand)
    (feedback : φ) (behavior : AdapterBehavior) (report : EffectReport) :
    Simulate φ σ DispatchResult :=
  match valid : validateEffectReport report with
  | .error e => throw e
  | .ok () => do
      if behavior.latencyMs = 0 then
        deliverOrQueue trySend ⟨report, valid, feedback⟩ behavior.duplicateReports
        cacheOutcome command (accepted (some report))
      else
        queueCopies ⟨report, valid, feedback⟩ (behavior.duplicateReports + 1)
        cacheOutcome command (accepted none)

def dispatch (trySend : TrySend φ σ) (command : EffectCommand)
    (feedback : φ) : Simulate φ σ DispatchResult := do
  check (validateEffectCommand command)
  let s ← get
  let behavior := s.adapterBehavior
  if command.effect.adapterRoute ≠ s.adapterRoute then
    return rejected "command route does not match simulator"
  if let some answer ← check (answerCached command s.toInMemoryAdapter) then return answer
  if behavior.crashDuringDispatch then
    throw (.runtimeError "simulated adapter crash uncertainty")
  if behavior.silent then return ← cacheOutcome command (accepted none)
  if behavior.latencyMs.toNat > sizeMax - command.issuedAtMs.toNat then
    return ← cacheOutcome command (failed "simulated report timestamp overflow")
  let totalPending := pending s.toInMemoryAdapter
  let requiredPending :=
    if behavior.latencyMs = 0 then behavior.duplicateReports else behavior.duplicateReports + 1
  if totalPending > s.adapterLimits.maxPendingReports ∨
      requiredPending > s.adapterLimits.maxPendingReports - totalPending then
    return ← cacheOutcome command (failed "simulated pending-report capacity exceeded")
  if behavior.outcome ≠ .applied then
    sendReport trySend command feedback behavior
      (reportOf command behavior none command.commandId)
  else
    match ← check (applied command s.toInMemoryAdapter) with
    | (_, none) => cacheOutcome command (failed "simulated device state revision exhausted")
    | (observed, some revision) =>
        modify fun s => { s with
          deviceRevisions := s.deviceRevisions.insert command.effect.target.value revision
          deviceState := s.deviceState.insert command.effect.target.value observed }
        sendReport trySend command feedback behavior
          (reportOf command behavior (some observed) revision)

/-! ## Observations -/

def observe (session : SessionId) (target : EffectTarget) (value : Value)
    (observedAtMs deliverAtMs : UInt64) (feedback : φ) : Simulate φ σ StateRevision := do
  if session = 0 then throw (.invalidArgument "simulated observation session is invalid")
  if target.value.isEmpty then
    throw (.invalidArgument "simulated observation target is empty")
  if deliverAtMs < observedAtMs then
    throw (.invalidArgument "simulated observation cannot arrive before it was observed")
  check value.validate
  let s ← get
  if pending s.toInMemoryAdapter ≥ s.adapterLimits.maxPendingReports then
    throw (.overflowError "simulated pending-report capacity exceeded")
  let next ← match s.deviceRevisions.find? target.value with
    | none => pure 1
    | some prior =>
        if prior.toNat = sizeMax then
          throw (.overflowError "simulated device state revision exhausted")
        else pure (prior + 1)
  modify fun s => { s with
    deviceState := s.deviceState.insert target.value value
    deviceRevisions := s.deviceRevisions.insert target.value next }
  let observation : ExternalObservation :=
    ⟨session, s.adapterRoute, target, value, next, observedAtMs⟩
  match valid : validateExternalObservation observation with
  | .error e => throw e
  | .ok () =>
      modify fun s => { s with
        pendingObservations := s.pendingObservations.emplace deliverAtMs
          ⟨observation, valid, feedback⟩ }
      return next

/-! ## Delivery -/

/-- One call of `try_send` for an entry of a queue. -/
structure Sending (π : Type) where
  due : UInt64
  entry : π
  answer : FeedbackSendResult

/-- What one of the two loops works on: a queue with entries of type `π`. -/
structure Delivery (π σ : Type) where
  queue : MultiMap UInt64 π
  channels : σ
  delivered : Nat
  sendings : List (Sending π)
  /-- The loop ended in `return delivered`. -/
  returned : Bool

/-- The position a turn picks, if the entry there is due: the first one, or in reverse the last
    one not after `now`. -/
def found (reverseDelivery : Bool) (now : UInt64) {π : Type} (queue : MultiMap UInt64 π) :
    Option Nat :=
  if reverseDelivery then
    match queue.upperBound now with
    | 0 => none
    | bound + 1 => some bound
  else
    match queue.entries with
    | [] => none
    | first :: _ => if first.1 > now then none else some 0

/-- A loop of `deliver_through`; every turn that goes on takes one entry from the queue, so
    `turns` is its size. -/
def deliverLoop {π : Type} (send : π → σ → FeedbackSendResult × σ) (reverseDelivery : Bool)
    (now : UInt64) : Nat → Delivery π σ → Delivery π σ
  | 0, d => d
  | turns + 1, d =>
      if d.queue.entries.isEmpty then d
      else
        match found reverseDelivery now d.queue with
        | none => { d with returned := true }
        | some position =>
            match d.queue.entries[position]? with
            | none => { d with returned := true }
            | some (due, entry) =>
                let answer := send entry d.channels
                let sendings := d.sendings ++ [⟨due, entry, answer.1⟩]
                match answer.1 with
                | .full => { d with channels := answer.2, sendings, returned := true }
                | .sent => deliverLoop send reverseDelivery now turns
                    { d with
                      queue := d.queue.eraseAt position
                      channels := answer.2
                      delivered := d.delivered + 1
                      sendings }
                | .closed => deliverLoop send reverseDelivery now turns
                    { d with
                      queue := d.queue.eraseAt position
                      channels := answer.2
                      sendings }

/-- What a call of `deliver_through` returns, and its calls of `try_send`. -/
structure Delivered (φ : Type) where
  delivered : Nat
  reports : List (Sending (PendingReport φ))
  observations : List (Sending (PendingObservation φ))

def sendPendingReport (trySend : TrySend φ σ)
    (entry : PendingReport φ) : σ → FeedbackSendResult × σ :=
  trySend entry.sender (.report entry.report)

def sendPendingObservation (trySend : TrySend φ σ)
    (entry : PendingObservation φ) : σ → FeedbackSendResult × σ :=
  trySend entry.sender (.observation entry.observation)

def deliverThrough (trySend : TrySend φ σ) (now : UInt64)
    (s : Simulator φ σ) : Delivered φ × Simulator φ σ :=
  let reverse := s.adapterBehavior.reverseDelivery
  let reports := deliverLoop (sendPendingReport trySend) reverse now s.pendingReports.size
    ⟨s.pendingReports, s.channels, 0, [], false⟩
  let s := { s with pendingReports := reports.queue, channels := reports.channels }
  if reports.returned then (⟨reports.delivered, reports.sendings, []⟩, s)
  else
    let observations := deliverLoop (sendPendingObservation trySend) reverse now
      s.pendingObservations.size ⟨s.pendingObservations, s.channels, reports.delivered, [], false⟩
    (⟨observations.delivered, reports.sendings, observations.sendings⟩,
      { s with
        pendingObservations := observations.queue
        channels := observations.channels })

end Simulation

end LiquidLayer
