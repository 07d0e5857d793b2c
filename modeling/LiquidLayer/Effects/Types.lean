/-
  The effect vocabulary of EffectTypes.hpp / EffectTypes.cpp: routes, targets, commands,
  reports, observations, the retry policy, and the validation every boundary performs.

  * `AdapterRoute` and `EffectTarget` carry the check their constructors make.
  * `RetryPolicy.validate`, `RetryPolicy.delayBeforeRetry`.
  * `validateEffectCommand`, `validateEffectReport`, `validateExternalObservation`,
    `validateDispatchResultForCommand`, with what acceptance by them means.
-/
import LiquidLayer.Value.Basic

namespace LiquidLayer

namespace EffectLimits

def maxAdapterRouteBytes : Nat := 256
def maxTargetBytes : Nat := 1024
def maxDiagnosticBytes : Nat := 4096
def maxRetryDelays : Nat := 32

end EffectLimits

/-! ## Identifiers

  `SessionId`, `CommandId`, `RecordId` and `StateRevision` wrap a `std::uint64_t` whose value 0
  is invalid. -/

abbrev SessionId := UInt64
abbrev CommandId := UInt64
abbrev RecordId := UInt64
abbrev StateRevision := UInt64

/-! ## Routes and targets -/

/-- `validate_bounded_text`. -/
def validateBoundedText (value : Bytes) (maximumBytes : Nat) (field : String) :
    Except Failure Unit :=
  if value.isEmpty then .error (.invalidArgument (field ++ " must not be empty"))
  else if value.length > maximumBytes then
    .error (.invalidArgument (field ++ " exceeds its size limit"))
  else if value.contains 0 then
    .error (.invalidArgument (field ++ " must not contain NUL bytes"))
  else .ok ()

/-- The characters a route may hold: letters, digits, `.`, `_`, `-` and `/`. -/
def routeCharacter (c : UInt8) : Bool :=
  (decide (97 ≤ c) && decide (c ≤ 122)) || (decide (65 ≤ c) && decide (c ≤ 90)) ||
    (decide (48 ≤ c) && decide (c ≤ 57)) || c == 46 || c == 95 || c == 45 || c == 47

def validateRoute (value : Bytes) : Except Failure Unit :=
  match validateBoundedText value EffectLimits.maxAdapterRouteBytes "adapter route" with
  | .error e => .error e
  | .ok () =>
      if value.all routeCharacter then .ok ()
      else .error (.invalidArgument "adapter route contains an invalid character")

def validateTarget (value : Bytes) : Except Failure Unit :=
  match validateBoundedText value EffectLimits.maxTargetBytes "effect target" with
  | .error e => .error e
  | .ok () => (Value.string value).validate

structure AdapterRoute where
  value : Bytes
  valid : validateRoute value = .ok ()
deriving DecidableEq

structure EffectTarget where
  value : Bytes
  valid : validateTarget value = .ok ()
deriving DecidableEq

theorem validateRoute_lamp : validateRoute (utf8 "lamp") = .ok () := by decide

theorem validateTarget_kitchen : validateTarget (utf8 "kitchen") = .ok () := by decide

/-- The constructor `AdapterRoute(std::string)`. -/
def AdapterRoute.make (value : Bytes) : Except Failure AdapterRoute :=
  match h : validateRoute value with
  | .error e => .error e
  | .ok () => .ok ⟨value, h⟩

/-- The constructor `EffectTarget(std::string)`. -/
def EffectTarget.make (value : Bytes) : Except Failure EffectTarget :=
  match h : validateTarget value with
  | .error e => .error e
  | .ok () => .ok ⟨value, h⟩

@[simp] theorem AdapterRoute.make_value (route : AdapterRoute) :
    AdapterRoute.make route.value = .ok route := by
  unfold AdapterRoute.make
  split
  · next h => rw [route.valid] at h; cases h
  · rfl

@[simp] theorem EffectTarget.make_value (target : EffectTarget) :
    EffectTarget.make target.value = .ok target := by
  unfold EffectTarget.make
  split
  · next h => rw [target.valid] at h; cases h
  · rfl

theorem AdapterRoute.value_inj {a b : AdapterRoute} : a.value = b.value ↔ a = b :=
  ⟨fun h => by cases a; cases b; cases h; rfl, fun h => h ▸ rfl⟩

theorem EffectTarget.value_inj {a b : EffectTarget} : a.value = b.value ↔ a = b :=
  ⟨fun h => by cases a; cases b; cases h; rfl, fun h => h ▸ rfl⟩

theorem AdapterRoute.all_routeCharacter (route : AdapterRoute) :
    route.value.all routeCharacter = true := by
  have h := route.valid
  unfold validateRoute at h
  split at h
  · cases h
  · split at h
    · assumption
    · cases h

/-- The separator of `route + ":" + target` is no route character. -/
theorem AdapterRoute.colon_not_mem (route : AdapterRoute) : (58 : UInt8) ∉ route.value := by
  intro h
  have := List.all_eq_true.mp route.all_routeCharacter 58 h
  exact absurd this (by decide)

/-- `TargetKey`: the pair of strings the effect maps are keyed by. -/
structure TargetKey where
  route : Bytes
  target : Bytes
deriving DecidableEq, Repr

/-- `std::pair` compares lexicographically. -/
instance : LinearOrder TargetKey :=
  LinearOrder.lift' (fun k => toLex (k.route, k.target)) (by
    rintro ⟨r, t⟩ ⟨r', t'⟩ h
    have h' := congrArg ofLex h
    simp only [ofLex_toLex, Prod.mk.injEq] at h'
    rw [h'.1, h'.2])

def targetKey (route : AdapterRoute) (target : EffectTarget) : TargetKey :=
  ⟨route.value, target.value⟩

theorem targetKey_inj {r r' : AdapterRoute} {t t' : EffectTarget} :
    targetKey r t = targetKey r' t' ↔ r = r' ∧ t = t' := by
  simp only [targetKey, TargetKey.mk.injEq, AdapterRoute.value_inj, EffectTarget.value_inj]

/-! ## Commands, reports and observations -/

inductive CommandStatus where
  | pending
  | applied
  | rejected
  | failed
  | timedOut
  | superseded
  | indeterminate
deriving DecidableEq, Repr

/-- `active`: the command still blocks its target. -/
def active (status : CommandStatus) : Bool := status == .pending || status == .indeterminate

inductive FeedbackTiming where
  | deferred
  | immediate
deriving DecidableEq, Repr

structure ResolvedEffect where
  adapterRoute : AdapterRoute
  target : EffectTarget
  desiredValue : Value
deriving DecidableEq

namespace ResolvedEffect

def key (effect : ResolvedEffect) : TargetKey := targetKey effect.adapterRoute effect.target

end ResolvedEffect

structure EffectCommand where
  sessionId : SessionId
  commandId : CommandId
  effect : ResolvedEffect
  issuedAtMs : UInt64
deriving DecidableEq

structure EffectReport where
  sessionId : SessionId
  commandId : CommandId
  adapterRoute : AdapterRoute
  target : EffectTarget
  status : CommandStatus
  observedValue : Option Value
  diagnostic : Bytes
  reportedAtMs : UInt64
  stateRevision : StateRevision
deriving DecidableEq

/-- The constructor of `EffectReport`: a missing revision becomes the command id. -/
def EffectReport.make (session : SessionId) (command : CommandId) (route : AdapterRoute)
    (target : EffectTarget) (outcome : CommandStatus) (observed : Option Value) (detail : Bytes)
    (reportedAt : UInt64) (revision : StateRevision) : EffectReport where
  sessionId := session
  commandId := command
  adapterRoute := route
  target := target
  status := outcome
  observedValue := observed
  diagnostic := detail
  reportedAtMs := reportedAt
  stateRevision := if revision ≠ 0 then revision else command

def EffectReport.key (report : EffectReport) : TargetKey :=
  targetKey report.adapterRoute report.target

structure ExternalObservation where
  sessionId : SessionId
  adapterRoute : AdapterRoute
  target : EffectTarget
  observedValue : Value
  stateRevision : StateRevision
  observedAtMs : UInt64
deriving DecidableEq

def ExternalObservation.key (observation : ExternalObservation) : TargetKey :=
  targetKey observation.adapterRoute observation.target

/-! ## Retry policy -/

/-- Durations are `std::chrono::milliseconds`, a signed count. -/
structure RetryPolicy where
  retryDelays : List Int
  overallTimeout : Int
deriving DecidableEq, Repr

namespace RetryPolicy

def validateDelays (overallTimeout : Int) : Int → List Int → Except Failure Unit
  | _, [] => .ok ()
  | previous, delay :: rest =>
      if delay ≤ previous then
        .error (.invalidArgument "retry delays must be positive and increasing")
      else if delay ≥ overallTimeout then
        .error (.invalidArgument "retry delay must precede the overall timeout")
      else validateDelays overallTimeout delay rest

def validate (policy : RetryPolicy) : Except Failure Unit :=
  if policy.retryDelays.length > EffectLimits.maxRetryDelays then
    .error (.invalidArgument "retry policy has too many retry delays")
  else if policy.overallTimeout ≤ 0 then
    .error (.invalidArgument "retry timeout must be positive")
  else validateDelays policy.overallTimeout 0 policy.retryDelays

/-- `delay_before_retry`; it validates the policy on every call. -/
def delayBeforeRetry (policy : RetryPolicy) (retryIndex : Nat) : Except Failure (Option Int) :=
  match policy.validate with
  | .error e => .error e
  | .ok () => .ok policy.retryDelays[retryIndex]?

theorem length_le_of_validate {policy : RetryPolicy} (h : policy.validate = .ok ()) :
    policy.retryDelays.length ≤ EffectLimits.maxRetryDelays := by
  unfold validate at h
  split at h
  · cases h
  · next hl => exact Nat.le_of_not_gt hl

theorem delayBeforeRetry_some {policy : RetryPolicy} {i : Nat} {d : Int}
    (h : policy.delayBeforeRetry i = .ok (some d)) : i < policy.retryDelays.length := by
  unfold delayBeforeRetry at h
  split at h
  · cases h
  · exact (List.getElem?_eq_some_iff.mp (Except.ok.inj h)).1

end RetryPolicy

/-! ## Adapters -/

structure AdapterCapabilities where
  nativeIdempotency : Bool := false
  readAfterWriteReconciliation : Bool := false
  synchronousImmediateFeedback : Bool := false
deriving DecidableEq, Repr

inductive DispatchDisposition where
  | accepted
  | rejected
  | failed
deriving DecidableEq, Repr

structure DispatchResult where
  disposition : DispatchDisposition
  immediateReport : Option EffectReport
  diagnostic : Bytes
deriving DecidableEq

/-! ## Validation -/

def validateDiagnostic (diagnostic : Bytes) : Except Failure Unit :=
  if diagnostic.length > EffectLimits.maxDiagnosticBytes then
    .error (.invalidArgument "effect diagnostic exceeds its size limit")
  else (Value.string diagnostic).validate

def validateEffectCommand (command : EffectCommand) : Except Failure Unit :=
  if command.sessionId = 0 then
    .error (.invalidArgument "effect command requires a valid session ID")
  else if command.commandId = 0 then
    .error (.invalidArgument "effect command requires a valid command ID")
  else command.effect.desiredValue.validate

theorem commandId_ne_zero {command : EffectCommand}
    (h : validateEffectCommand command = .ok ()) : command.commandId ≠ 0 := by
  intro h0
  simp only [validateEffectCommand, h0, if_true] at h
  split at h <;> cases h

def validateEffectReport (report : EffectReport) : Except Failure Unit :=
  if report.sessionId = 0 then
    .error (.invalidArgument "effect report requires a valid session ID")
  else if report.commandId = 0 then
    .error (.invalidArgument "effect report requires a valid command ID")
  else if report.status = .pending then
    .error (.invalidArgument "pending is not a report outcome")
  else if report.status = .applied ∧ report.observedValue = none then
    .error (.invalidArgument "an applied report requires an observed value")
  else if report.status = .applied ∧ report.stateRevision = 0 then
    .error (.invalidArgument "an applied report requires a state revision")
  else if report.status ≠ .applied ∧ report.observedValue ≠ none then
    .error (.invalidArgument "only an applied report may carry an observed value")
  else
    match report.observedValue with
    | none => validateDiagnostic report.diagnostic
    | some value =>
        match value.validate with
        | .error e => .error e
        | .ok () => validateDiagnostic report.diagnostic

def validateExternalObservation (observation : ExternalObservation) : Except Failure Unit :=
  if observation.sessionId = 0 then
    .error (.invalidArgument "external observation requires a valid session ID")
  else if observation.stateRevision = 0 then
    .error (.invalidArgument "external observation requires a state revision")
  else observation.observedValue.validate

theorem of_validateExternalObservation {observation : ExternalObservation}
    (h : validateExternalObservation observation = .ok ()) :
    observation.stateRevision ≠ 0 ∧ observation.observedValue.validate = .ok () := by
  unfold validateExternalObservation at h
  split at h
  · cases h
  split at h
  · cases h
  · next hr => exact ⟨hr, h⟩

def DispatchResult.validate (result : DispatchResult) : Except Failure Unit :=
  match validateDiagnostic result.diagnostic with
  | .error e => .error e
  | .ok () =>
      match result.immediateReport with
      | none => .ok ()
      | some report =>
          if result.disposition ≠ .accepted then
            .error (.invalidArgument "only an accepted dispatch may include an immediate report")
          else validateEffectReport report

def validateDispatchResultForCommand (result : DispatchResult) (command : EffectCommand) :
    Except Failure Unit :=
  match validateEffectCommand command with
  | .error e => .error e
  | .ok () =>
      match result.validate with
      | .error e => .error e
      | .ok () =>
          match result.immediateReport with
          | none => .ok ()
          | some report =>
              if report.sessionId ≠ command.sessionId ∨ report.commandId ≠ command.commandId ∨
                  report.adapterRoute ≠ command.effect.adapterRoute ∨
                  report.target ≠ command.effect.target then
                .error (.invalidArgument "immediate report does not match the dispatched command")
              else .ok ()

/-- What a report that passes `validate_effect_report` looks like. -/
theorem of_validateEffectReport {report : EffectReport} (h : validateEffectReport report = .ok ()) :
    report.sessionId ≠ 0 ∧ report.commandId ≠ 0 ∧ report.status ≠ .pending ∧
      (report.status = .applied →
        report.stateRevision ≠ 0 ∧ ∃ v, report.observedValue = some v ∧ v.validate = .ok ()) ∧
      (report.status ≠ .applied → report.observedValue = none) ∧
      validateDiagnostic report.diagnostic = .ok () := by
  unfold validateEffectReport at h
  split at h
  · cases h
  split at h
  · cases h
  split at h
  · cases h
  split at h
  · cases h
  split at h
  · cases h
  split at h
  · cases h
  next h1 h2 h3 h4 h5 h6 =>
    refine ⟨h1, h2, h3, fun ha => ⟨fun hr => h5 ⟨ha, hr⟩, ?_⟩, fun ha => ?_, ?_⟩
    · cases hv : report.observedValue with
      | none => exact absurd ⟨ha, hv⟩ h4
      | some v =>
          rw [hv] at h
          simp only at h
          cases hval : v.validate with
          | ok u => exact ⟨v, rfl, hval⟩
          | error e => rw [hval] at h; cases h
    · by_contra hv
      exact h6 ⟨ha, hv⟩
    · cases hv : report.observedValue with
      | none => rw [hv] at h; exact h
      | some v =>
          rw [hv] at h
          simp only at h
          cases hval : v.validate with
          | ok u => rw [hval] at h; exact h
          | error e => rw [hval] at h; cases h

/-- A dispatch result accepted for a command reports on that command. -/
theorem of_validateDispatchResultForCommand {result : DispatchResult} {command : EffectCommand}
    (h : validateDispatchResultForCommand result command = .ok ()) :
    result.validate = .ok () ∧
      ∀ report, result.immediateReport = some report →
        validateEffectReport report = .ok () ∧ report.sessionId = command.sessionId ∧
          report.commandId = command.commandId ∧
          report.adapterRoute = command.effect.adapterRoute ∧
          report.target = command.effect.target := by
  unfold validateDispatchResultForCommand at h
  split at h
  · cases h
  split at h
  · cases h
  next hres =>
    refine ⟨hres, fun report hrep => ?_⟩
    unfold DispatchResult.validate at hres
    rw [hrep] at h hres
    simp only at h hres
    split at hres
    · cases hres
    split at hres
    · cases hres
    split at h
    · cases h
    · next hne =>
        obtain ⟨h1, h2⟩ := not_or.mp hne
        obtain ⟨h2, h3⟩ := not_or.mp h2
        obtain ⟨h3, h4⟩ := not_or.mp h3
        exact ⟨hres, not_not.mp h1, not_not.mp h2, not_not.mp h3, not_not.mp h4⟩

end LiquidLayer
