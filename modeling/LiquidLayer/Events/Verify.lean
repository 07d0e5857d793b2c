/-
  Replay verification (`ReplayVerifier` of Replay.cpp).

  `compare` sets a recorded stream against a reproduced one; `verify` runs a callback on the
  recorded stream and compares what it emits as it goes.

  * `Diverges`: the first position at which two streams differ or one of them ends.
  * `compare_diverges`, `verify_diverges`: both report that position.
  * `verify_eq_compare`: so both report the same.
-/
import LiquidLayer.Events.Record

namespace LiquidLayer

/-! ## The verifier -/

structure ReplayDivergence where
  recordIndex : Nat
  expected : Option EventRecord
  actual : Option EventRecord
  reason : Bytes
deriving DecidableEq

/-- What a host's callback throws: a `std::exception` with its text, or something else. -/
abbrev CallbackFailure := Option Bytes

/-- `ReplayVerifier::ExecutionCallback`; a `std::function` may be empty. -/
abbrev ExecutionCallback := Option (EventRecord → Except CallbackFailure (List EventRecord))

namespace ReplayVerifier

def differ : Bytes := utf8 "record contents differ"
def endedEarly : Bytes := utf8 "reproduced replay ended early"
def unexpectedRecord : Bytes := utf8 "reproduced replay has an unexpected record"

def compare (recorded reproduced : List EventRecord) : Option ReplayDivergence :=
  let common := min recorded.length reproduced.length
  match (List.range common).find? fun index => decide (recorded[index]? ≠ reproduced[index]?) with
  | some index => some ⟨index, recorded[index]?, reproduced[index]?, differ⟩
  | none =>
      if recorded.length > common then some ⟨common, recorded[common]?, none, endedEarly⟩
      else if reproduced.length > common then
        some ⟨common, none, reproduced[common]?, unexpectedRecord⟩
      else none

/-- The loop over what one call of the callback emitted; the next index, if all is as recorded. -/
def checkEmitted (recorded : List EventRecord) :
    Nat → List EventRecord → Except ReplayDivergence Nat
  | reproducedIndex, [] => .ok reproducedIndex
  | reproducedIndex, actual :: rest =>
      if reproducedIndex ≥ recorded.length then
        .error ⟨reproducedIndex, none, some actual, unexpectedRecord⟩
      else if recorded[reproducedIndex]? ≠ some actual then
        .error ⟨reproducedIndex, recorded[reproducedIndex]?, some actual, differ⟩
      else checkEmitted recorded (reproducedIndex + 1) rest

def executionFailed : CallbackFailure → Bytes
  | some what => utf8 "host replay execution failed: " ++ what
  | none => utf8 "host replay execution failed with an unknown exception"

/-- The loop over the recorded evidence. -/
def verifyFrom (recorded : List EventRecord)
    (execute : EventRecord → Except CallbackFailure (List EventRecord)) :
    Nat → List EventRecord → Option ReplayDivergence
  | reproducedIndex, [] =>
      if reproducedIndex < recorded.length then
        some ⟨reproducedIndex, recorded[reproducedIndex]?, none, endedEarly⟩
      else none
  | reproducedIndex, evidence :: rest =>
      match execute evidence with
      | .error failure =>
          some ⟨reproducedIndex, recorded[reproducedIndex]?, none, executionFailed failure⟩
      | .ok emitted =>
          match checkEmitted recorded reproducedIndex emitted with
          | .error divergence => some divergence
          | .ok reproducedIndex => verifyFrom recorded execute reproducedIndex rest

def verify (recorded : List EventRecord) (execute : ExecutionCallback) : Option ReplayDivergence :=
  match execute with
  | none => some ⟨0, recorded.head?, none, utf8 "replay execution callback is empty"⟩
  | some execute => verifyFrom recorded execute 0 recorded

/-! ## The first difference -/

/-- What is to be said of two streams that part at `index`. -/
def divergenceAt (recorded reproduced : List EventRecord) (index : Nat) : ReplayDivergence where
  recordIndex := index
  expected := recorded[index]?
  actual := reproduced[index]?
  reason :=
    if recorded.length ≤ index then unexpectedRecord
    else if reproduced.length ≤ index then endedEarly
    else differ

/-- No divergence of equal streams, and else the one at the least position at which the streams
    differ or one of them ends. -/
def Diverges (recorded reproduced : List EventRecord) : Option ReplayDivergence → Prop
  | none => reproduced = recorded
  | some divergence => ∃ index, IsLeast {i : Nat | recorded[i]? ≠ reproduced[i]?} index ∧
      divergence = divergenceAt recorded reproduced index

variable {recorded reproduced : List EventRecord}

theorem Diverges.unique {d d' : Option ReplayDivergence} (h : Diverges recorded reproduced d)
    (h' : Diverges recorded reproduced d') : d = d' := by
  have hequal : reproduced = recorded → ∀ index,
      ¬IsLeast {i : Nat | recorded[i]? ≠ reproduced[i]?} index :=
    fun heq index hleast => hleast.1 (by rw [heq])
  cases d with
  | none =>
      cases d' with
      | none => rfl
      | some d' =>
          obtain ⟨index, hleast, -⟩ := h'
          exact absurd hleast (hequal h index)
  | some d =>
      obtain ⟨index, hleast, rfl⟩ := h
      cases d' with
      | none => exact absurd hleast (hequal h' index)
      | some d' =>
          obtain ⟨index', hleast', rfl⟩ := h'
          rw [hleast.unique hleast']

/-- The streams agree before `index` and part there. -/
theorem diverges_at {index : Nat} (agree : ∀ i < index, recorded[i]? = reproduced[i]?)
    (part : recorded[index]? ≠ reproduced[index]?) :
    Diverges recorded reproduced (some (divergenceAt recorded reproduced index)) := by
  refine ⟨index, ⟨part, fun i hi => ?_⟩, rfl⟩
  exact Nat.le_of_not_lt fun hlt => hi (agree i hlt)

theorem diverges_differ {index : Nat} (agree : ∀ i < index, recorded[i]? = reproduced[i]?)
    (hrecorded : index < recorded.length) (hreproduced : index < reproduced.length)
    (part : recorded[index]? ≠ reproduced[index]?) :
    Diverges recorded reproduced
      (some ⟨index, recorded[index]?, reproduced[index]?, differ⟩) := by
  have h := diverges_at agree part
  rwa [divergenceAt, if_neg (by omega), if_neg (by omega)] at h

theorem diverges_unexpected {index : Nat} (agree : ∀ i < index, recorded[i]? = reproduced[i]?)
    (hrecorded : recorded.length ≤ index) (hreproduced : index < reproduced.length) :
    Diverges recorded reproduced (some ⟨index, none, reproduced[index]?, unexpectedRecord⟩) := by
  have hnone : recorded[index]? = none := List.getElem?_eq_none hrecorded
  have hsome : reproduced[index]? = some reproduced[index] := List.getElem?_eq_getElem hreproduced
  have h := diverges_at agree (by rw [hnone, hsome]; exact nofun)
  rwa [divergenceAt, if_pos hrecorded, hnone] at h

theorem diverges_early {index : Nat} (agree : ∀ i < index, recorded[i]? = reproduced[i]?)
    (hrecorded : index < recorded.length) (hreproduced : reproduced.length ≤ index) :
    Diverges recorded reproduced (some ⟨index, recorded[index]?, none, endedEarly⟩) := by
  have hnone : reproduced[index]? = none := List.getElem?_eq_none hreproduced
  have hsome : recorded[index]? = some recorded[index] := List.getElem?_eq_getElem hrecorded
  have h := diverges_at agree (by rw [hnone, hsome]; exact nofun)
  rwa [divergenceAt, if_neg (by omega), if_pos hreproduced, hnone] at h

theorem diverges_none {index : Nat} (agree : ∀ i < index, recorded[i]? = reproduced[i]?)
    (hrecorded : recorded.length ≤ index) (hreproduced : reproduced.length ≤ index) :
    Diverges recorded reproduced none := by
  refine List.ext_getElem? fun i => ?_
  by_cases hi : i < index
  · exact (agree i hi).symm
  · rw [List.getElem?_eq_none (by omega), List.getElem?_eq_none (by omega)]

theorem compare_diverges (recorded reproduced : List EventRecord) :
    Diverges recorded reproduced (compare recorded reproduced) := by
  unfold compare
  simp only
  split
  · next index hfound =>
      obtain ⟨hpart, hrange, hbefore⟩ := List.find?_range_eq_some.mp hfound
      have hlt := List.mem_range.mp hrange
      refine diverges_differ (fun i hi => ?_) (by omega) (by omega) (of_decide_eq_true hpart)
      have hsame := hbefore i hi
      simpa using hsame
  · next hnone =>
      have agree : ∀ i < min recorded.length reproduced.length,
          recorded[i]? = reproduced[i]? := by
        intro i hi
        have := List.find?_eq_none.mp hnone i (List.mem_range.mpr hi)
        simpa using this
      split
      · next hlonger => exact diverges_early agree hlonger (by omega)
      · next hnot =>
          split
          · next hlonger => exact diverges_unexpected agree (by omega) hlonger
          · exact diverges_none agree (by omega) (by omega)

/-- What the loop over one batch has found: a divergence, or agreement up to its end. -/
theorem checkEmitted_spec {index : Nat} {emitted later : List EventRecord}
    (agree : ∀ i < index, recorded[i]? = reproduced[i]?)
    (hrest : reproduced.drop index = emitted ++ later) :
    match checkEmitted recorded index emitted with
    | .error divergence => Diverges recorded reproduced (some divergence)
    | .ok index' => (∀ i < index', recorded[i]? = reproduced[i]?) ∧
        reproduced.drop index' = later := by
  induction emitted generalizing index with
  | nil => exact ⟨agree, hrest⟩
  | cons actual rest ih =>
      have hactual : reproduced[index]? = some actual := by
        have h := congrArg (·[0]?) hrest
        simpa using h
      obtain ⟨hlt, -⟩ := List.getElem?_eq_some_iff.mp hactual
      rw [checkEmitted]
      by_cases hended : index ≥ recorded.length
      · rw [if_pos hended]
        exact hactual ▸ diverges_unexpected agree hended hlt
      · rw [if_neg hended]
        by_cases hpart : recorded[index]? = some actual
        · rw [if_neg (not_not.mpr hpart)]
          refine ih (fun i hi => ?_) ?_
          · rcases Nat.lt_succ_iff_lt_or_eq.mp hi with hi | rfl
            · exact agree i hi
            · rw [hactual, hpart]
          · rw [← List.tail_drop, hrest]
            rfl
        · rw [if_pos hpart]
          exact hactual ▸ diverges_differ agree (by omega) hlt (by rwa [hactual])

/-- What the loop over the evidence finds, once the streams agree up to `index` and the rest of the
    reproduced one is what the rest of the evidence will emit. -/
theorem verifyFrom_diverges {execute : EventRecord → List EventRecord} {index : Nat}
    {evidence : List EventRecord} (agree : ∀ i < index, recorded[i]? = reproduced[i]?)
    (hrest : reproduced.drop index = evidence.flatMap execute) :
    Diverges recorded reproduced
      (verifyFrom recorded (fun record => .ok (execute record)) index evidence) := by
  induction evidence generalizing index with
  | nil =>
      have hended : reproduced.length ≤ index := List.drop_eq_nil_iff.mp hrest
      rw [verifyFrom]
      split
      · next hlt => exact diverges_early agree hlt hended
      · next hnot => exact diverges_none agree (by omega) hended
  | cons record evidence ih =>
      have hspec := checkEmitted_spec agree hrest
      rw [verifyFrom]
      simp only
      split
      · next divergence herror =>
          rw [herror] at hspec
          exact hspec
      · next index' hok =>
          rw [hok] at hspec
          exact ih hspec.1 hspec.2

/-- Verifying while executing reports what comparing afterwards reports: no divergence if and only
    if the streams are equal, and else the records at the least position at which they are not. -/
theorem verify_eq_compare (recorded : List EventRecord)
    (execute : EventRecord → List EventRecord) :
    verify recorded (some fun record => .ok (execute record)) =
      compare recorded (recorded.flatMap execute) ∧
    (verify recorded (some fun record => .ok (execute record)) = none ↔
      recorded.flatMap execute = recorded) ∧
    ∀ divergence, verify recorded (some fun record => .ok (execute record)) = some divergence →
      IsLeast {i : Nat | recorded[i]? ≠ (recorded.flatMap execute)[i]?} divergence.recordIndex ∧
      divergence.expected = recorded[divergence.recordIndex]? ∧
      divergence.actual = (recorded.flatMap execute)[divergence.recordIndex]? := by
  have hverify : Diverges recorded (recorded.flatMap execute)
      (verify recorded (some fun record => .ok (execute record))) :=
    verifyFrom_diverges (fun i hi => absurd hi (Nat.not_lt_zero i)) rfl
  refine ⟨hverify.unique (compare_diverges _ _), ⟨fun hnone => ?_, fun hsame => ?_⟩, ?_⟩
  · rw [hnone] at hverify
    exact hverify
  · exact hverify.unique (show Diverges _ _ none from hsame)
  · intro divergence hsome
    rw [hsome] at hverify
    obtain ⟨index, hleast, rfl⟩ := hverify
    exact ⟨hleast, rfl, rfl⟩

end ReplayVerifier

end LiquidLayer
