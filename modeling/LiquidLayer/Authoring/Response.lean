/-
  Evaluation records and what they cost (authoring/Evaluation.hpp, and the response accounting
  of Evaluation.cpp).

  Sizes are added with `saturatingAdd`, so a sum is right up to 2 ^ 64 - 1 and stays there.

  * `recordBytes`: the logical bytes of a record.
  * `boundResponse`: a record above the limit loses its evidence, then its cases. What is left
    costs at most the limit or a record without cases (`boundResponse_le`).
-/
import LiquidLayer.Authoring.Types

namespace LiquidLayer

open AuthoringSession

namespace Evaluation

/-! ## Records -/

/-- The identity of a suite. -/
structure EvaluationFixtureId where
  stableName : Bytes
  version : UInt32
deriving DecidableEq

inductive EvaluationStatus where
  | passed
  | failed
  | limitExceeded
  | hostError
deriving DecidableEq, Repr

inductive EvaluationCaseStatus where
  | passed
  | failed
  | limitExceeded
  | hostError
  | notRun
deriving DecidableEq, Repr

structure EvaluationFrameSummary where
  now : IntentTime
  frameCompleted : Bool := false
  lifecycleStatus : Option LuaExecutionStatus := none
  createdIntents : Nat := 0
  cancelledIntents : Nat := 0
  liveCandidateIntents : Nat := 0
  candidateSelected : Bool := false
  commandsIssued : Nat := 0
  reportStatuses : List CommandStatus := []
  observations : Nat := 0
  assertionPassed : Bool := false
deriving DecidableEq

structure EvaluationTargetSummary where
  scriptTypeName : Bytes
  componentName : Bytes
  mode : ComponentAccessMode
  value : Option Value
deriving DecidableEq

structure EvaluationCaseResult where
  name : Bytes
  status : EvaluationCaseStatus
  framesScheduled : Nat
  framesRun : Nat := 0
  diagnostic : Bytes := []
  frames : List EvaluationFrameSummary := []
  finalState : List EvaluationTargetSummary := []
deriving DecidableEq

structure EvaluationRecord where
  id : EvaluationId
  session : AuthoringSessionId
  proposal : ProposalId
  scope : ScopeId
  scopeRevision : ScopeRevision
  fixture : EvaluationFixtureId
  status : EvaluationStatus
  complete : Bool
  cases : List EvaluationCaseResult
deriving DecidableEq

/-! ## Response accounting -/

def elementsBytes (count each : Nat) : Nat :=
  if count > (2 ^ 64 - 1) / each then 2 ^ 64 - 1 else count * each

/-- Eleven fields: six scalars, three booleans, the lifecycle status and the report statuses. -/
def frameBytes (frame : EvaluationFrameSummary) : Nat :=
  let fixed := 11 * logicalElementBytes + 6 * logicalScalarBytes + 3 * logicalFlagBytes +
    logicalFlagBytes
  let bytes := if frame.lifecycleStatus.isSome then fixed + logicalScalarBytes else fixed
  saturatingAdd bytes
    (elementsBytes frame.reportStatuses.length (logicalElementBytes + logicalScalarBytes))

def targetBytes (target : EvaluationTargetSummary) : Nat :=
  let names := saturatingAdd target.scriptTypeName.length target.componentName.length
  let bytes :=
    saturatingAdd names (4 * logicalElementBytes + logicalScalarBytes + logicalFlagBytes)
  match target.value with
  | none => bytes
  | some value => saturatingAdd bytes (logicalBytes value)

def caseBytes (result : EvaluationCaseResult) : Nat :=
  let bytes := saturatingAdd result.name.length (7 * logicalElementBytes + 3 * logicalScalarBytes)
  let bytes := saturatingAdd bytes result.diagnostic.length
  let bytes := result.frames.foldl
    (fun bytes frame => saturatingAdd bytes (saturatingAdd logicalElementBytes (frameBytes frame)))
    bytes
  result.finalState.foldl
    (fun bytes target =>
      saturatingAdd bytes (saturatingAdd logicalElementBytes (targetBytes target)))
    bytes

/-- `record_header_bytes`: nine fields, two of them in the fixture. -/
def recordHeaderBytes (fixtureName : Bytes) : Nat :=
  saturatingAdd ((9 + 2) * logicalElementBytes + 7 * logicalScalarBytes + logicalFlagBytes)
    fixtureName.length

def recordBytes (record : EvaluationRecord) : Nat :=
  record.cases.foldl
    (fun bytes result => saturatingAdd bytes (saturatingAdd logicalElementBytes (caseBytes result)))
    (recordHeaderBytes record.fixture.stableName)

/-- A case result without its evidence. -/
def EvaluationCaseResult.cleared (result : EvaluationCaseResult) : EvaluationCaseResult :=
  { result with diagnostic := [], frames := [], finalState := [] }

/-- `bound_response`: the record, and its logical bytes. -/
def boundResponse (record : EvaluationRecord) (limit : Nat) : EvaluationRecord × Nat :=
  if recordBytes record ≤ limit then ({ record with complete := true }, recordBytes record)
  else
    let truncated := { record with
      complete := false
      status := .limitExceeded
      cases := record.cases.map EvaluationCaseResult.cleared }
    if recordBytes truncated > limit then
      let emptied := { truncated with cases := [] }
      (emptied, recordBytes emptied)
    else (truncated, recordBytes truncated)

/-! ## Saturating sums -/

theorem saturatingAdd_eq_min {total : Nat} (h : total ≤ 2 ^ 64 - 1) (bytes : Nat) :
    saturatingAdd total bytes = min (total + bytes) (2 ^ 64 - 1) := by
  unfold saturatingAdd
  split <;> omega

theorem saturatingAdd_le_max {total : Nat} (h : total ≤ 2 ^ 64 - 1) (bytes : Nat) :
    saturatingAdd total bytes ≤ 2 ^ 64 - 1 := by
  rw [saturatingAdd_eq_min h]
  exact Nat.min_le_right _ _

/-- Sums of smaller parts are smaller. -/
theorem saturatingAdd_mono {total total' bytes bytes' : Nat} (h : total ≤ total')
    (hbytes : bytes ≤ bytes') (hmax : total' ≤ 2 ^ 64 - 1) :
    saturatingAdd total bytes ≤ saturatingAdd total' bytes' := by
  rw [saturatingAdd_eq_min (h.trans hmax), saturatingAdd_eq_min hmax]
  omega

/-! ## The bound -/

/-- A bounded record costs at most the limit, or what its header costs. -/
theorem boundResponse_le (record : EvaluationRecord) (limit : Nat) :
    (boundResponse record limit).2 ≤
      max limit (recordHeaderBytes record.fixture.stableName) := by
  unfold boundResponse
  split
  · next h => exact h.trans (Nat.le_max_left _ _)
  · dsimp only
    split
    · exact Nat.le_max_right _ _
    · next h => exact (Nat.le_of_not_gt h).trans (Nat.le_max_left _ _)

/-- What is charged for a record is what the record that is kept costs. -/
theorem boundResponse_bytes (record : EvaluationRecord) (limit : Nat) :
    recordBytes (boundResponse record limit).1 = (boundResponse record limit).2 := by
  unfold boundResponse
  split
  · rfl
  · dsimp only
    split <;> rfl

end Evaluation

end LiquidLayer
