/-
  The values of the authoring session (authoring/Types.hpp, authoring/AuthoringSession.hpp) and
  the checks on its inputs (AuthoringSession.cpp).

  An error carries a diagnostic that is cut to what its field path leaves of 4096 bytes
  (`makeError`). The ids a session issues are numbers that only grow (`checkedNext`); the tags
  that keep the kinds of id apart in the source are left out.
-/
import LiquidLayer.Authoring.Trace
import LiquidLayer.Effects.Types
import LiquidLayer.Scripting.Manifest
import LiquidLayer.Value.ValidUtf8

namespace LiquidLayer

namespace AuthoringSession

def authoringMaxDiagnosticBytes : Nat := 4096
def authoringSessionIdHexDigits : Nat := 32

/-! ## Errors -/

inductive AuthoringErrorCode where
  | invalidInput
  | notFound
  | accessDenied
  | staleScope
  | staleApproval
  | unsupported
  | limitExceeded
  | evaluationFailed
  | hostError
  | needsIntervention
deriving DecidableEq, Repr

structure AuthoringError where
  code : AuthoringErrorCode
  diagnostic : Bytes
  fieldPath : Option Bytes
deriving DecidableEq, Repr

def ellipsis : Bytes := utf8 "..."

/-- Back from `cut` to where no UTF-8 sequence is split. -/
def cutBack (message : Bytes) : Nat → Nat
  | 0 => 0
  | cut + 1 =>
      if message.getD (cut + 1) 0 &&& 0xc0 = 0x80 then cutBack message cut else cut + 1

/-- `make_error`. -/
def makeError (code : AuthoringErrorCode) (message : Bytes) (fieldPath : Option Bytes) :
    AuthoringError :=
  let message := if message.isEmpty then utf8 "authoring request failed" else message
  let budget := authoringMaxDiagnosticBytes - (fieldPath.map List.length).getD 0
  { code
    diagnostic :=
      if message.length ≤ budget then message
      else message.take (cutBack message (budget - ellipsis.length)) ++ ellipsis
    fieldPath }

/-- An error about the field at `path`. -/
def errorAt (code : AuthoringErrorCode) (message path : String) : AuthoringError :=
  makeError code (utf8 message) (some (utf8 path))

/-- An error about no field. -/
def errorOf (code : AuthoringErrorCode) (message : String) : AuthoringError :=
  makeError code (utf8 message) none

abbrev AuthoringResult := Except AuthoringError

/-! ## Texts -/

/-- `check_text`. -/
def checkText (text : Bytes) (maxBytes : Nat) (required : Bool) (fieldPath : Bytes) :
    AuthoringResult Unit :=
  let invalid (message : Bytes) : AuthoringResult Unit :=
    .error (makeError .invalidInput (fieldPath ++ message) (some fieldPath))
  if required && text.isEmpty then invalid (utf8 " must not be empty")
  else if text.length > maxBytes then
    invalid (utf8 " exceeds " ++ decimal maxBytes ++ utf8 " bytes")
  else if text.contains 0 then invalid (utf8 " contains a NUL byte")
  else if !validUtf8 text then invalid (utf8 " is not valid UTF-8")
  else .ok ()

/-! ## Identities -/

def hexDigit (digit : UInt8) : Bool :=
  decide ((0x30 ≤ digit ∧ digit ≤ 0x39) ∨ (0x61 ≤ digit ∧ digit ≤ 0x66))

/-- 32 lowercase hexadecimal digits. -/
structure AuthoringSessionId where
  digits : Bytes
  length : digits.length = authoringSessionIdHexDigits
  hex : digits.all hexDigit = true
deriving DecidableEq

/-- `AuthoringSessionId::from_hex`. -/
def AuthoringSessionId.fromHex (text : Bytes) : AuthoringResult AuthoringSessionId :=
  if hlength : text.length = authoringSessionIdHexDigits then
    if hhex : text.all hexDigit = true then .ok ⟨text, hlength, hhex⟩
    else .error (errorOf .invalidInput
      "session id must be exactly 32 lowercase hexadecimal digits")
  else .error (errorOf .invalidInput
    "session id must be exactly 32 lowercase hexadecimal digits")

abbrev ScopeId := UInt64
abbrev ProposalId := UInt64
abbrev EvaluationId := UInt64
abbrev ManagedBehaviorId := UInt64
abbrev ScopeRevision := UInt64
abbrev ManagedBehaviorRevision := UInt64
abbrev IntentTime := UInt64

structure CallerContext where
  session : AuthoringSessionId
  owner : Bytes
deriving DecidableEq

/-- `checked_next`: the successor of `last`, unless `max` is reached. -/
def checkedNext (last max : UInt64) : Option UInt64 :=
  if last ≥ max then none else some (last + 1)

/-! ## Limits -/

structure AuthoringLimits where
  maxActiveScopes : Nat := 64
  maxProposals : Nat := 128
  maxEvaluations : Nat := 256
  maxManagedBehaviors : Nat := 64
  maxSourceBytes : Nat := 65536
  maxRationaleBytes : Nat := 2048
  maxScopeCapabilities : Nat := 128
  maxLabelBytes : Nat := 256
  maxManifestBytes : Nat := 1024 * 1024
  maxEvaluationCases : Nat := 16
  maxEvaluationFrames : Nat := 256
  maxEvaluationRecords : Nat := 8192
  maxEvaluationRecordBytes : Nat := 8 * 2 ^ 20
  maxEvaluationResponseBytes : Nat := 2 ^ 20
  maxSessionPayloadBytes : Nat := 64 * 2 ^ 20
  maxIdValue : UInt64 := maxU64
deriving DecidableEq

/-- Each limit with its default, which is its ceiling. -/
def AuthoringLimits.bounded (limits : AuthoringLimits) : List (Nat × Nat) :=
  let defaults : AuthoringLimits := {}
  [(limits.maxActiveScopes, defaults.maxActiveScopes),
    (limits.maxProposals, defaults.maxProposals),
    (limits.maxEvaluations, defaults.maxEvaluations),
    (limits.maxManagedBehaviors, defaults.maxManagedBehaviors),
    (limits.maxSourceBytes, defaults.maxSourceBytes),
    (limits.maxRationaleBytes, defaults.maxRationaleBytes),
    (limits.maxScopeCapabilities, defaults.maxScopeCapabilities),
    (limits.maxLabelBytes, defaults.maxLabelBytes),
    (limits.maxManifestBytes, defaults.maxManifestBytes),
    (limits.maxEvaluationCases, defaults.maxEvaluationCases),
    (limits.maxEvaluationFrames, defaults.maxEvaluationFrames),
    (limits.maxEvaluationRecords, defaults.maxEvaluationRecords),
    (limits.maxEvaluationRecordBytes, defaults.maxEvaluationRecordBytes),
    (limits.maxEvaluationResponseBytes, defaults.maxEvaluationResponseBytes),
    (limits.maxSessionPayloadBytes, defaults.maxSessionPayloadBytes)]

/-- `valid_limits`. -/
def validLimits (limits : AuthoringLimits) : Bool :=
  limits.bounded.all (fun entry => entry.1 != 0 && decide (entry.1 ≤ entry.2)) &&
    limits.maxIdValue != 0

/-! ## Manifests -/

/-- The limits of `LuaExecutionLimits` that no value is measured against. -/
structure RunLimits where
  maxSourceBytes : Nat
  maxMemoryBytes : Nat
  maxInstructions : Nat
  maxDiagnosticBytes : Nat
  maxCreatedIntents : Nat
  maxCancelledIntents : Nat
  maxWatches : Nat
  recordFullSource : Bool
deriving DecidableEq

/-- A manifest with all the limits of the runner that captured it. -/
structure AuthoredManifest extends LuaCapabilityManifest where
  runLimits : RunLimits

/-! ## Proposals -/

structure ProposalSubmission where
  scope : ScopeId
  expectedScopeRevision : ScopeRevision
  source : Bytes
  rationale : Bytes
  managedBehavior : Option ManagedBehaviorId
  expectedManagedRevision : Option ManagedBehaviorRevision

structure ManagedRevisionExpectation where
  behavior : ManagedBehaviorId
  expectedRevision : ManagedBehaviorRevision
deriving DecidableEq

structure BehaviorProposal where
  id : ProposalId
  session : AuthoringSessionId
  scope : ScopeId
  scopeRevision : ScopeRevision
  contractVersion : Bytes
  source : Bytes
  rationale : Bytes
  managed : Option ManagedRevisionExpectation
deriving DecidableEq

/-! ## Diagnostics fit -/

theorem cutBack_le (message : Bytes) (cut : Nat) : cutBack message cut ≤ cut := by
  induction cut with
  | zero => exact Nat.le_refl 0
  | succ cut ih =>
      unfold cutBack
      split
      · omega
      · exact Nat.le_refl _

/-- What `make_error` says and where fit in the diagnostic limit together. -/
theorem makeError_fits (code : AuthoringErrorCode) (message : Bytes) {fieldPath : Option Bytes}
    (hpath : (fieldPath.map List.length).getD 0 + 3 ≤ authoringMaxDiagnosticBytes) :
    (makeError code message fieldPath).diagnostic.length +
      ((makeError code message fieldPath).fieldPath.map List.length).getD 0 ≤
        authoringMaxDiagnosticBytes := by
  simp only [makeError]
  generalize (if message.isEmpty then utf8 "authoring request failed" else message) = text
  have hellipsis : ellipsis.length = 3 := rfl
  split
  · omega
  · have hcut := cutBack_le text (authoringMaxDiagnosticBytes -
      (fieldPath.map List.length).getD 0 - ellipsis.length)
    rw [List.length_append, List.length_take]
    omega

/-! ## Ids grow -/

theorem checkedNext_eq_some {last max next : UInt64} (h : checkedNext last max = some next) :
    next.toNat = last.toNat + 1 ∧ next ≤ max := by
  unfold checkedNext at h
  split at h
  · cases h
  · next hlt =>
      obtain rfl := Option.some.inj h
      have hmax := max.toNat_lt
      simp only [ge_iff_le, UInt64.le_iff_toNat_le, not_le] at hlt
      have hnext : (last + 1).toNat = last.toNat + 1 := by
        rw [UInt64.toNat_add, UInt64.toNat_one]
        omega
      exact ⟨hnext, UInt64.le_iff_toNat_le.mpr (by omega)⟩

end AuthoringSession

end LiquidLayer
