/-
  The authoring session (`AuthoringSession` of AuthoringSession.cpp).

  The live world, its runner and the hosts of the evaluation cases are not the session's: each
  call finds them as they are then (`LiveHost`). A call throws the error it returns. That a
  capture marks the runner as started is left out, and so is running out of memory. What the
  callbacks of an evaluation do to the session comes between `beginEvaluation` and
  `keepEvaluation`, which are all of `evaluate` where no callback calls the session. The
  binding callbacks of the live runner, which a capture calls, are taken not to call the
  session: a `create_scope` inside the capture of another would be given the other's id.

  Sizes wrap as a `std::size_t` does (`sizeSub`, `wrapSize`).

  * `SessionM`, `createScope` and its siblings: the calls. `Call`, `Call.program`: those
    that evaluate nothing.
-/
import LiquidLayer.Authoring.CaseExecution

namespace LiquidLayer

open Prog Evaluation

namespace AuthoringSession

/-! ## Scope targets -/

structure LuaScopeTarget where
  type : ComponentTypeId
  slot : ComponentSlotId
deriving DecidableEq

section Targets

variable {C : Type} (runner : ManifestRunner C) (w : World C)

/-- The loop of `scope_targets` over the grants that follow `earlier`. -/
def resolveEach : List LuaScopeGrant → List LuaScopeGrant → Capture (List LuaScopeTarget)
  | _, [] => .ok []
  | earlier, grant :: rest => do
      let (_, binding, _, slot) ← admitGrant runner w earlier grant
      let targets ← resolveEach (earlier ++ [grant]) rest
      return ⟨binding.type.id, slot⟩ :: targets

/-- `LuaBehaviorRunner::scope_targets`. -/
def scopeTargets (grants : List LuaScopeGrant) : Except Failure (Option (List LuaScopeTarget)) :=
  if grants.isEmpty || decide (grants.length > luaManifestMaxCapabilities) then .ok none
  else
    match resolveEach runner w [] grants with
    | .ok targets => .ok (some targets)
    | .error (.returned _) => .ok none
    | .error (.thrown failure) => .error failure

end Targets

/-- What a call finds in the host: the world, the runner, and the hosts of a fixture's cases. -/
structure LiveHost (C A P : Type) where
  sizeofLuaValue : UInt64
  world : World C
  runner : ManifestRunner C
  runLimits : RunLimits
  cases : EvaluationFixtureId → Nat → CaseHost A P

/-! ## Records -/

/-- A capture with all the limits of the runner that made it. -/
structure ScopeCapture extends LuaManifestCapture where
  runLimits : RunLimits

def scopeCapture (manifest : AuthoredManifest) : ScopeCapture :=
  { manifest.capture with runLimits := manifest.runLimits }

structure ScopeRecord where
  owner : Bytes
  grants : List LuaScopeGrant
  revision : ScopeRevision
  capture : ScopeCapture
  targets : List LuaScopeTarget
  payloadCharge : Nat

structure Admission where
  manifest : AuthoredManifest
  targets : List LuaScopeTarget

structure ProposalRecord where
  proposal : BehaviorProposal
  owner : Bytes
  capture : ScopeCapture

/-- `storeBytes` is what the evaluation's stores were charged; the source keeps only the sum it
    goes into. -/
structure EvaluationEntry where
  record : EvaluationRecord
  trace : List EvaluationTraceEntry
  storeBytes : Nat

structure ScopeView where
  scope : ScopeId
  revision : ScopeRevision
  manifest : AuthoredManifest

/-- The order of `EvaluationFixtureId`. -/
def fixtureKey (fixture : EvaluationFixtureId) : Bytes ×ₗ UInt32 :=
  toLex (fixture.stableName, fixture.version)

structure Session (A : Type) where
  id : AuthoringSessionId
  limits : AuthoringLimits
  limitsValid : validLimits limits = true
  scriptType : ComponentType
  lastNow : Option IntentTime := none
  lastScope : ScopeId := 0
  lastProposal : ProposalId := 0
  scopes : OrdMap ScopeId ScopeRecord := .empty
  proposals : OrdMap ProposalId ProposalRecord := .empty
  suites : OrdMap (Bytes ×ₗ UInt32) (EvaluationSuite A) := .empty
  lastEvaluation : EvaluationId := 0
  evaluations : OrdMap EvaluationId EvaluationEntry := .empty
  sessionPayloadBytes : Nat := 0

/-- The constructor. -/
def construct {C A : Type} (id : AuthoringSessionId) (w : World C) (scriptType : ComponentType)
    (limits : AuthoringLimits) : Except Failure (Session A) :=
  if scriptType.id = invalidComponentTypeId ∨ scriptType.world ≠ w.instanceId then
    .error (.invalidArgument "authoring session script type does not belong to this World")
  else if !(w.components.typeRecord scriptType).isOk then
    .error (.invalidArgument ("authoring session script type is not a current " ++
      "LuaBehaviorScript type of this World"))
  else if h : validLimits limits = true then
    .ok { id, limits, limitsValid := h, scriptType }
  else
    .error (.invalidArgument
      "authoring session limits must be nonzero and within the contract defaults")

abbrev SessionM (A α : Type) := EStateM AuthoringError (Session A) α

/-- A result that is passed on. -/
def answered {A α : Type} (result : AuthoringResult α) : SessionM A α :=
  match result with
  | .ok a => pure a
  | .error e => throw e

/-! ## Charges -/

def captureFixedBytes : Nat :=
  7 * Evaluation.logicalElementBytes + 5 * Evaluation.logicalScalarBytes +
    (11 + 1) * Evaluation.logicalElementBytes + 11 * Evaluation.logicalScalarBytes +
    1 * Evaluation.logicalFlagBytes

def captureEntryBytes : Nat :=
  Evaluation.logicalElementBytes +
    3 * (Evaluation.logicalElementBytes + Evaluation.logicalScalarBytes)

def captureBytes (capture : ScopeCapture) : Nat :=
  capture.entries.foldl (fun bytes _ => saturatingAdd bytes captureEntryBytes) captureFixedBytes

/-- `scope_charge`. -/
def scopeCharge (owner : Bytes) (grants : List LuaScopeGrant) (admission : Admission) : Nat :=
  let bytes := saturatingAdd
    (5 * Evaluation.logicalElementBytes + Evaluation.logicalScalarBytes) owner.length
  let bytes := grants.foldl
    (fun bytes grant =>
      let bytes := saturatingAdd bytes (Evaluation.logicalElementBytes +
        3 * Evaluation.logicalElementBytes + Evaluation.logicalScalarBytes)
      let bytes := saturatingAdd bytes grant.scriptTypeName.length
      saturatingAdd bytes grant.componentName.length) bytes
  let bytes := admission.targets.foldl
    (fun bytes _ => saturatingAdd bytes (Evaluation.logicalElementBytes +
      2 * (Evaluation.logicalElementBytes + Evaluation.logicalScalarBytes))) bytes
  let bytes := saturatingAdd bytes (captureBytes (scopeCapture admission.manifest))
  saturatingAdd bytes admission.manifest.logicalBytes

/-- `proposal_charge`. -/
def proposalCharge (record : ProposalRecord) : Nat :=
  let fixed := (3 + 8) * Evaluation.logicalElementBytes + 4 * Evaluation.logicalScalarBytes +
    Evaluation.logicalFlagBytes
  let bytes := if record.proposal.managed.isSome then
      fixed + 2 * (Evaluation.logicalElementBytes + Evaluation.logicalScalarBytes)
    else fixed
  let texts := [record.proposal.contractVersion, record.proposal.source,
    record.proposal.rationale, record.owner]
  saturatingAdd (texts.foldl (fun bytes text => saturatingAdd bytes text.length) bytes)
    (captureBytes record.capture)

/-- Two fields: the record and its trace. -/
def evaluationEntryBytes : Nat := 2 * Evaluation.logicalElementBytes

/-- The most an evaluation can keep. -/
def evaluationReservation (limits : AuthoringLimits) (fixture : EvaluationFixtureId) : Nat :=
  let bytes := saturatingAdd evaluationEntryBytes (recordHeaderBytes fixture.stableName)
  let bytes := saturatingAdd bytes limits.maxEvaluationResponseBytes
  saturatingAdd bytes limits.maxEvaluationRecordBytes

/-- What a kept evaluation is charged. -/
def evaluationCharge (entry : EvaluationEntry) : Nat :=
  saturatingAdd (saturatingAdd evaluationEntryBytes (recordBytes entry.record)) entry.storeBytes

/-- `-` of two sizes. -/
def sizeSub (left right : Nat) : Nat := (left + 2 ^ 64 - right) % 2 ^ 64

/-- `payload_fits`. -/
def payloadFits {A : Type} (s : Session A) (released charge : Nat) : Bool :=
  decide (charge ≤ sizeSub s.limits.maxSessionPayloadBytes
    (sizeSub s.sessionPayloadBytes released))

/-! ## Checks -/

/-- The largest time: `std::int64_t`'s maximum. -/
def maxTime : IntentTime := 0x7fffffffffffffff

def checkTime (lastNow : Option IntentTime) (now : IntentTime) : AuthoringResult Unit :=
  if now > maxTime then
    .error (errorAt .invalidInput "time is outside the signed 64-bit range" "now")
  else if lastNow.any fun last => decide (now < last) then
    .error (errorAt .invalidInput "time moved backwards" "now")
  else .ok ()

def grantPath (index : Nat) : Bytes := utf8 "grants[" ++ decimal index ++ utf8 "]"

/-- The loop of `check_grants` from the grant at `index` on. -/
def checkEachGrant (maxLabelBytes : Nat) : Nat → List LuaScopeGrant → AuthoringResult Unit
  | _, [] => .ok ()
  | index, grant :: rest => do
      checkText grant.scriptTypeName maxLabelBytes true (grantPath index)
      checkText grant.componentName maxLabelBytes true (grantPath index)
      checkEachGrant maxLabelBytes (index + 1) rest

def checkGrants (limits : AuthoringLimits) (grants : List LuaScopeGrant) : AuthoringResult Unit :=
  if grants.isEmpty then
    .error (errorAt .invalidInput "a scope requires at least one grant" "grants")
  else if grants.length > limits.maxScopeCapabilities then
    .error (errorAt .limitExceeded "scope exceeds the grant limit" "grants")
  else checkEachGrant limits.maxLabelBytes 0 grants

/-- `check_case`. -/
def checkCase {A : Type} (evaluationCase : EvaluationCase A) (limits : AuthoringLimits)
    (path : Bytes) : AuthoringResult Unit := do
  let fails (code : AuthoringErrorCode) (message : String) (field : String) :
      AuthoringResult Unit :=
    .error (makeError code (utf8 message) (some (path ++ utf8 field)))
  checkText evaluationCase.name limits.maxLabelBytes true (path ++ utf8 ".name")
  if !evaluationCase.hasPrepare || !evaluationCase.hasExpect then
    fails .invalidInput "a case requires prepare and expect callbacks" ""
  else if evaluationCase.frameTimes.isEmpty then
    fails .invalidInput "a case requires at least one frame time" ".frameTimes"
  else if evaluationCase.frameTimes.length > limits.maxEvaluationFrames then
    fails .limitExceeded "case exceeds the frame limit" ".frameTimes"
  else if !decide (evaluationCase.frameTimes.Pairwise (· ≤ ·)) then
    fails .invalidInput "frame times must be nondecreasing" ".frameTimes"
  else if evaluationCase.frameTimes.getLast?.any fun last => decide (last > maxTime) then
    fails .invalidInput "frame time is outside the signed 64-bit range" ".frameTimes"
  else .ok ()

/-- The loop of `check_suite` from the case at `index` on. -/
def checkCases {A : Type} (limits : AuthoringLimits) :
    Nat → List (EvaluationCase A) → AuthoringResult Unit
  | _, [] => .ok ()
  | index, evaluationCase :: rest => do
      checkCase evaluationCase limits (utf8 "cases[" ++ decimal index ++ utf8 "]")
      checkCases limits (index + 1) rest

/-- `check_suite`. -/
def checkSuite {A : Type} (suite : EvaluationSuite A) (limits : AuthoringLimits) :
    AuthoringResult Unit := do
  checkText suite.id.stableName limits.maxLabelBytes true (utf8 "id.stableName")
  if suite.id.version = 0 then
    .error (errorAt .invalidInput "fixture version must be nonzero" "id.version")
  else if suite.cases.isEmpty then
    .error (errorAt .invalidInput "a suite requires at least one case" "cases")
  else if suite.cases.length > limits.maxEvaluationCases then
    .error (errorAt .limitExceeded "suite exceeds the case limit" "cases")
  else checkCases limits 0 suite.cases

/-! ## Captures -/

/-- `CaptureStage`: whether the scope is admitted or captured again. -/
inductive CaptureStage where
  | admission
  | recapture
deriving DecidableEq

/-- `capture_error`. -/
def captureError (error : LuaManifestError) (stage : CaptureStage) : AuthoringError :=
  let code : AuthoringErrorCode :=
    match error.code with
    | .limitExceeded => .limitExceeded
    | .invalidGrant => if stage = .admission then .invalidInput else .staleScope
    | .schemaMismatch => if stage = .admission then .invalidInput else .hostError
    | .invalidBehavior => .hostError
    | .snapshotUnavailable => .hostError
    | .hostError => .hostError
  makeError code error.diagnostic none

section Host

variable {C A P : Type} (host : LiveHost C A P)

/-- `resolve_targets`. -/
def resolveTargets (grants : List LuaScopeGrant) (unresolved : AuthoringErrorCode)
    (message : String) : AuthoringResult (List LuaScopeTarget) :=
  match scopeTargets host.runner host.world grants with
  | .ok (some targets) => .ok targets
  | .ok none => .error (errorAt unresolved message "scope")
  | .error failure =>
      .error (makeError .hostError
        (if failure.type = .foreign then utf8 "unknown scope target host error"
        else failure.what) none)

/-- `runner.scope_manifest` on the live world. -/
def captureManifest (grants : List LuaScopeGrant) (now : IntentTime) (stage : CaptureStage) :
    AuthoringResult AuthoredManifest :=
  match (scopeManifest host.sizeofLuaValue host.runner host.world grants now).1 with
  | .ok manifest => .ok { manifest with runLimits := host.runLimits }
  | .error error => .error (captureError error stage)

/-- The first captured component of the script type is never exposed. -/
def exposedScript (scriptType : ComponentType) (grants : List LuaScopeGrant)
    (manifest : AuthoredManifest) : Option AuthoringError :=
  let message := utf8 "script-control components are never exposed to an authoring scope"
  match (manifest.capture.entries.zip manifest.capabilities).find? fun entry =>
      decide (entry.1.type = scriptType.id) with
  | none => none
  | some (_, capability) =>
      match grants.findIdx? fun grant => grant.scriptTypeName == capability.scriptTypeName &&
          grant.componentName == capability.componentName with
      | some index => some (makeError .invalidInput message (some (grantPath index)))
      | none => some (makeError .invalidInput message (some (utf8 "grants")))

/-- `admit`. -/
def admission (s : Session A) (grants : List LuaScopeGrant) (now : IntentTime) :
    AuthoringResult Admission := do
  let manifest ← captureManifest host grants now .admission
  match exposedScript s.scriptType grants manifest with
  | some error => .error error
  | none =>
      if manifest.logicalBytes > s.limits.maxManifestBytes then
        .error (errorAt .limitExceeded "scope manifest exceeds the session manifest limit"
          "grants")
      else
        let targets ←
          resolveTargets host grants .hostError "scope targets changed during admission"
        return ⟨manifest, targets⟩

/-- `same_entries`. -/
def sameEntries (left right : ScopeCapture) : Bool :=
  left.runnerId == right.runnerId && decide (left.entries = right.entries)

/-- `recapture`. -/
def recapture (limits : AuthoringLimits) (record : ScopeRecord) (now : IntentTime) :
    AuthoringResult AuthoredManifest := do
  let stale := "a scope target was removed or recreated"
  let targets ← resolveTargets host record.grants .staleScope stale
  if targets ≠ record.targets then .error (errorAt .staleScope stale "scope")
  else
    let manifest ← captureManifest host record.grants now .recapture
    if !sameEntries (scopeCapture manifest) record.capture then
      .error (errorAt .staleScope stale "scope")
    else if manifest.logicalBytes > limits.maxManifestBytes then
      .error (errorAt .limitExceeded "scope manifest exceeds the session manifest limit" "scope")
    else return manifest

/-- `owned_scope`. -/
def ownedScope (s : Session A) (caller : CallerContext) (scope : ScopeId) : Option ScopeRecord :=
  if caller.session ≠ s.id then none
  else (s.scopes.find? scope).filter fun record => record.owner == caller.owner

/-! ## Scopes -/

def createScope (owner : Bytes) (grants : List LuaScopeGrant) (now : IntentTime) :
    SessionM A ScopeView := do
  let s ← get
  answered (checkTime s.lastNow now)
  answered (checkText owner s.limits.maxLabelBytes true (utf8 "owner"))
  answered (checkGrants s.limits grants)
  if s.scopes.size ≥ s.limits.maxActiveScopes then
    throw (errorOf .limitExceeded "session has no free active scope slot")
  else
    match checkedNext s.lastScope s.limits.maxIdValue with
    | none => throw (errorOf .limitExceeded "session scope id counter is exhausted")
    | some issued =>
        let admission ← answered (admission host s grants now)
        let charge := scopeCharge owner grants admission
        if !payloadFits s 0 charge then
          throw (errorOf .limitExceeded "scope exceeds the session payload ceiling")
        else
          set { s with
            scopes := s.scopes.emplace issued ⟨owner, grants, 1,
              scopeCapture admission.manifest, admission.targets, charge⟩
            sessionPayloadBytes := wrapSize (s.sessionPayloadBytes + charge)
            lastScope := issued
            lastNow := some now }
          return ⟨issued, 1, admission.manifest⟩

def replaceScope (scope : ScopeId) (expectedRevision : ScopeRevision)
    (grants : List LuaScopeGrant) (now : IntentTime) : SessionM A ScopeView := do
  let s ← get
  match s.scopes.find? scope with
  | none => throw (errorAt .notFound "scope does not exist" "scope")
  | some record =>
      answered (checkTime s.lastNow now)
      if record.revision ≠ expectedRevision then
        throw (errorAt .staleScope "expected scope revision is not current" "expectedRevision")
      else
        answered (checkGrants s.limits grants)
        match checkedNext record.revision maxU64 with
        | none => throw (errorAt .limitExceeded "scope revision counter is exhausted" "scope")
        | some revision =>
            let admission ← answered (admission host s grants now)
            let charge := scopeCharge record.owner grants admission
            if !payloadFits s record.payloadCharge charge then
              throw (errorAt .limitExceeded
                "replacement scope exceeds the session payload ceiling" "grants")
            else
              set { s with
                scopes := s.scopes.insert scope ⟨record.owner, grants, revision,
                  scopeCapture admission.manifest, admission.targets, charge⟩
                sessionPayloadBytes := wrapSize
                  (sizeSub s.sessionPayloadBytes record.payloadCharge + charge)
                lastNow := some now }
              return ⟨scope, revision, admission.manifest⟩

/-- Proposals made under the scope stay, with their charges. -/
def revokeScope (scope : ScopeId) (expectedRevision : ScopeRevision) : SessionM A PUnit := do
  let s ← get
  match s.scopes.find? scope with
  | none => throw (errorAt .notFound "scope does not exist" "scope")
  | some record =>
      if record.revision ≠ expectedRevision then
        throw (errorAt .staleScope "expected scope revision is not current" "expectedRevision")
      else
        set { s with
          sessionPayloadBytes := sizeSub s.sessionPayloadBytes record.payloadCharge
          scopes := s.scopes.erase scope }

def foreignScope : AuthoringError :=
  errorAt .notFound "scope does not exist for this caller" "scope"

def discover (caller : CallerContext) (scope : ScopeId) (now : IntentTime) :
    SessionM A ScopeView := do
  let s ← get
  match ownedScope s caller scope with
  | none => throw foreignScope
  | some record =>
      answered (checkTime s.lastNow now)
      let manifest ← answered (recapture host s.limits record now)
      set { s with lastNow := some now }
      return ⟨scope, record.revision, manifest⟩

/-! ## Proposals -/

/-- The record of a submission that is admitted under this id. -/
def candidate (s : Session A) (record : ScopeRecord) (submission : ProposalSubmission)
    (issued : ProposalId) : ProposalRecord where
  proposal := {
    id := issued
    session := s.id
    scope := submission.scope
    scopeRevision := record.revision
    contractVersion := luaAuthoringContract
    source := submission.source
    rationale := submission.rationale
    managed := none }
  owner := record.owner
  capture := record.capture

def submit (caller : CallerContext) (submission : ProposalSubmission) :
    SessionM A ProposalId := do
  let s ← get
  match ownedScope s caller submission.scope with
  | none => throw foreignScope
  | some record =>
      if record.revision ≠ submission.expectedScopeRevision then
        throw (errorAt .staleScope "expected scope revision is not current"
          "expectedScopeRevision")
      else
        answered (checkText submission.source
          (min s.limits.maxSourceBytes record.capture.runLimits.maxSourceBytes) true
          (utf8 "source"))
        answered (checkText submission.rationale s.limits.maxRationaleBytes false
          (utf8 "rationale"))
        if submission.managedBehavior.isSome ≠ submission.expectedManagedRevision.isSome then
          throw (errorAt .invalidInput
            "managed behavior and expected managed revision must be supplied together"
            (if submission.managedBehavior.isSome then "expectedManagedRevision"
            else "managedBehavior"))
        else if submission.managedBehavior.isSome then
          throw (errorAt .notFound "managed behavior does not exist in this scope"
            "managedBehavior")
        else if s.proposals.size ≥ s.limits.maxProposals then
          throw (errorOf .limitExceeded "session proposal capacity is exhausted")
        else
          match checkedNext s.lastProposal s.limits.maxIdValue with
          | none => throw (errorOf .limitExceeded "session proposal id counter is exhausted")
          | some issued =>
              let charge := proposalCharge (candidate s record submission issued)
              if !payloadFits s 0 charge then
                throw (errorOf .limitExceeded "proposal exceeds the session payload ceiling")
              else
                -- liveness only
                let _ ← answered (recapture host s.limits record (s.lastNow.getD 0))
                set { s with
                  proposals := s.proposals.emplace issued (candidate s record submission issued)
                  sessionPayloadBytes := wrapSize (s.sessionPayloadBytes + charge)
                  lastProposal := issued }
                return issued

def foreignProposal : AuthoringError :=
  errorAt .notFound "proposal does not exist for this caller" "proposal"

/-- The proposal, if it is the caller's. -/
def ownedProposal (s : Session A) (caller : CallerContext) (proposal : ProposalId) :
    Option ProposalRecord :=
  if caller.session ≠ s.id then none
  else (s.proposals.find? proposal).filter fun record => record.owner == caller.owner

def proposal (caller : CallerContext) (proposal : ProposalId) :
    SessionM A BehaviorProposal := do
  match ownedProposal (← get) caller proposal with
  | none => throw foreignProposal
  | some record => return record.proposal

/-! ## Evaluations -/

def registerEvaluationSuite (suite : EvaluationSuite A) : SessionM A PUnit := do
  let s ← get
  if s.lastProposal ≠ 0 ∨ s.proposals.size ≠ 0 then
    throw (errorOf .unsupported
      "evaluation suites register only before the first accepted proposal")
  else if s.suites.contains (fixtureKey suite.id) then
    throw (errorAt .invalidInput "evaluation fixture id is already registered" "id")
  else
    answered (checkSuite suite s.limits)
    set { s with suites := s.suites.emplace (fixtureKey suite.id) suite }

/-- What an admitted evaluation runs against. -/
structure EvaluationTicket (A : Type) where
  proposal : BehaviorProposal
  grants : List LuaScopeGrant
  suite : EvaluationSuite A
  manifest : AuthoredManifest
  id : EvaluationId
  reservation : Nat

/-- `reserve_evaluation`: the id and the reserved bytes. -/
def reserveEvaluation (s : Session A) (fixture : EvaluationFixtureId) :
    AuthoringResult (EvaluationId × Nat) :=
  if s.evaluations.size ≥ s.limits.maxEvaluations then
    .error (errorOf .limitExceeded "session evaluation capacity is exhausted")
  else
    match checkedNext s.lastEvaluation s.limits.maxIdValue with
    | none => .error (errorOf .limitExceeded "session evaluation id counter is exhausted")
    | some issued =>
        if !payloadFits s 0 (evaluationReservation s.limits fixture) then
          .error (errorOf .limitExceeded
            "evaluation reservation exceeds the session payload limit")
        else .ok (issued, evaluationReservation s.limits fixture)

/-- `admit_evaluation`. -/
def admitEvaluation (s : Session A) (caller : CallerContext) (proposal : ProposalId)
    (fixture : EvaluationFixtureId) : AuthoringResult (EvaluationTicket A) :=
  match ownedProposal s caller proposal with
  | none => .error foreignProposal
  | some record =>
      match s.suites.find? (fixtureKey fixture) with
      | none => .error (errorAt .notFound "evaluation fixture is not registered" "fixture")
      | some suite =>
          let stale := errorAt .staleScope "proposal scope was revoked or replaced" "scope"
          match s.scopes.find? record.proposal.scope with
          | none => .error stale
          | some scope =>
              if scope.revision ≠ record.proposal.scopeRevision then .error stale
              else do
                let (id, reservation) ← reserveEvaluation s fixture
                let manifest ← recapture host s.limits scope (s.lastNow.getD 0)
                return ⟨record.proposal, scope.grants, suite, manifest, id, reservation⟩

/-- The record and the trace of the evaluation a ticket admits. -/
def evaluationEntry (s : Session A) (ticket : EvaluationTicket A)
    (fixture : EvaluationFixtureId) : EvaluationEntry :=
  let outcome := runEvaluation (host.cases fixture)
    ⟨ticket.suite, ticket.proposal.source, ticket.grants, ticket.manifest, s.limits⟩
  let record : EvaluationRecord := {
    id := ticket.id
    session := s.id
    proposal := ticket.proposal.id
    scope := ticket.proposal.scope
    scopeRevision := ticket.proposal.scopeRevision
    fixture
    status := outcome.status
    complete := true
    cases := outcome.cases }
  ⟨(boundResponse record s.limits.maxEvaluationResponseBytes).1, outcome.trace,
    outcome.storeBytes⟩

/-- `keep_evaluation`: the unused part of the reservation is released. -/
def keepEvaluation (ticket : EvaluationTicket A) (fixture : EvaluationFixtureId) :
    SessionM A EvaluationRecord := do
  let s ← get
  let entry := evaluationEntry host s ticket fixture
  set { s with
    evaluations := s.evaluations.emplace ticket.id entry
    sessionPayloadBytes :=
      sizeSub s.sessionPayloadBytes (sizeSub ticket.reservation (evaluationCharge entry)) }
  return entry.record

/-- `evaluate` until the evaluation runs: the id and the reservation are taken before. -/
def beginEvaluation (caller : CallerContext) (proposal : ProposalId)
    (fixture : EvaluationFixtureId) : SessionM A (EvaluationTicket A) := do
  let s ← get
  let ticket ← answered (admitEvaluation host s caller proposal fixture)
  set { s with
    lastEvaluation := ticket.id
    sessionPayloadBytes := wrapSize (s.sessionPayloadBytes + ticket.reservation) }
  return ticket

def evaluate (caller : CallerContext) (proposal : ProposalId) (fixture : EvaluationFixtureId) :
    SessionM A EvaluationRecord := do
  let ticket ← beginEvaluation host caller proposal fixture
  keepEvaluation host ticket fixture

end Host

/-! ## Calls -/

/-- The calls that evaluate nothing. -/
inductive Call (A : Type) where
  | createScope (owner : Bytes) (grants : List LuaScopeGrant) (now : IntentTime)
  | replaceScope (scope : ScopeId) (expectedRevision : ScopeRevision)
      (grants : List LuaScopeGrant) (now : IntentTime)
  | revokeScope (scope : ScopeId) (expectedRevision : ScopeRevision)
  | discover (caller : CallerContext) (scope : ScopeId) (now : IntentTime)
  | submit (caller : CallerContext) (submission : ProposalSubmission)
  | proposal (caller : CallerContext) (proposal : ProposalId)
  | registerEvaluationSuite (suite : EvaluationSuite A)

/-- What a call returns. -/
inductive Reply where
  | scope (view : ScopeView)
  | done
  | submitted (id : ProposalId)
  | proposal (proposal : BehaviorProposal)

section Calls

variable {C A P : Type}

def Call.program (host : LiveHost C A P) : Call A → SessionM A Reply
  | .createScope owner grants now => do
      return .scope (← AuthoringSession.createScope host owner grants now)
  | .replaceScope scope expectedRevision grants now => do
      return .scope (← AuthoringSession.replaceScope host scope expectedRevision grants now)
  | .revokeScope scope expectedRevision => do
      AuthoringSession.revokeScope scope expectedRevision
      return .done
  | .discover caller scope now => do
      return .scope (← AuthoringSession.discover host caller scope now)
  | .submit caller submission => do
      return .submitted (← AuthoringSession.submit host caller submission)
  | .proposal caller id => do return .proposal (← AuthoringSession.proposal caller id)
  | .registerEvaluationSuite suite => do
      AuthoringSession.registerEvaluationSuite suite
      return .done

end Calls

end AuthoringSession

end LiquidLayer
