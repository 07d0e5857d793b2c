/-
  What an evaluation record says of the cases.

  A step of a case goes on with the result as it was, or halts the case (`Went`); only
  `advance` and `observe` add a frame, and only `expect` completes one. So a case that passed
  has run every frame, each completed, with a successful lifecycle and a passed assertion
  (`Passed`), and a case that stopped has only such frames before its last one (`Stopped`).

  * `wp_execute`: a case ends in one of these two ways, whatever the host does, and never throws.
  * `runEvaluation_sound`: the record passes exactly when every case does; the first that does
    not decides its status, and none runs after it. The budget is not overdrawn.
-/
import LiquidLayer.Authoring.CaseExecution

namespace LiquidLayer

open Prog AuthoringSession

namespace Evaluation

namespace CaseExecution

variable {A P : Type}

/-! ## How a step ends -/

theorem boundedDiagnostic_le (message : Bytes) :
    (boundedDiagnostic message).length ≤ authoringMaxDiagnosticBytes := by
  unfold boundedDiagnostic
  dsimp only
  generalize (if message.isEmpty then utf8 "evaluation case failed" else message) = text
  have hellipsis : ellipsis.length = 3 := rfl
  have hmax : authoringMaxDiagnosticBytes = 4096 := rfl
  split
  · assumption
  · have hcut := cutBack_le text (authoringMaxDiagnosticBytes - ellipsis.length)
    rw [List.length_append, List.length_take]
    omega

/-- The result of a case that has stopped here. -/
def Halted (result result' : EvaluationCaseResult) : Prop :=
  ∃ status diagnostic, status ≠ .passed ∧ status ≠ .notRun ∧
    diagnostic.length ≤ authoringMaxDiagnosticBytes ∧
    result' = { result with status, diagnostic }

/-- The case goes on with the result as it was, or halts. -/
def Went (result : EvaluationCaseResult) (ok : Bool) (result' : EvaluationCaseResult) : Prop :=
  if ok then result' = result else Halted result result'

/-- The host has been called. -/
def Called (s s' : CaseExecution P) : Prop :=
  ∃ prepared store, s' = { s with prepared, store }

/-- From a passing case, the step goes on or halts; if it throws, the result is as it was. -/
def Steps (m : CaseM P Bool) : Prop :=
  ∀ s, s.result.status = .passed →
    wp m (fun ok s' => Went s.result ok s'.result) (fun _ s' => s'.result = s.result) s

section Rules

variable {s : CaseExecution P}

theorem wp_onHost {α : Type} (call : HostCall P α) :
    wp (onHost call) (fun _ s' => Called s s') (fun _ s' => Called s s') s := by
  unfold onHost
  rw [wp_zoom]
  exact wp_of_forall (fun _ _ => ⟨_, _, rfl⟩) fun _ _ => ⟨_, _, rfl⟩

theorem wp_stop (status : EvaluationCaseStatus) (diagnostic : Bytes)
    (hs : s.result.status = .passed) (hpassed : status ≠ .passed) (hrun : status ≠ .notRun) :
    wp (stop status diagnostic) (fun ok s' => ok = false ∧ Halted s.result s'.result)
      (fun _ _ => False) s := by
  unfold stop
  rw [wp_bind, wp_get, wp_ite]
  refine ⟨fun hne => absurd hs hne, fun _ => ?_⟩
  rw [wp_ite]
  constructor
  · intro _
    rw [wp_bind, wp_set, wp_pure]
    exact ⟨rfl, _, _, by decide, by decide, boundedDiagnostic_le _, rfl⟩
  · intro _
    rw [wp_bind, wp_set, wp_pure]
    exact ⟨rfl, _, _, hpassed, hrun, boundedDiagnostic_le _, rfl⟩

/-- A case that has stopped stays as it is. -/
theorem wp_stop_stopped (status : EvaluationCaseStatus) (diagnostic : Bytes)
    (hs : s.result.status ≠ .passed) :
    wp (stop status diagnostic) (fun ok s' => ok = false ∧ s' = s) (fun _ _ => False) s := by
  unfold stop
  rw [wp_bind, wp_get, wp_ite]
  refine ⟨fun _ => ?_, fun h => absurd hs h⟩
  rw [wp_pure]
  exact ⟨rfl, rfl⟩

theorem wp_stop_hostError (diagnostic : Bytes) (hs : s.result.status = .passed) :
    wp (stop .hostError diagnostic) (fun ok s' => Went s.result ok s'.result)
      (fun _ s' => s'.result = s.result) s :=
  wp_mono (wp_stop .hostError diagnostic hs (by decide) (by decide))
    (fun _ _ h => by rw [h.1]; exact h.2) fun _ _ h => h.elim

/-- Behind a guard nothing throws. -/
theorem wp_guarded (what : String) {m : CaseM P Bool} {Q : Bool → CaseExecution P → Prop}
    {E : Failure → CaseExecution P → Prop} (hm : wp m Q E s)
    (hstop : ∀ e s' diagnostic, E e s' →
      wp (stop .hostError diagnostic) Q (fun _ _ => False) s') :
    wp (guarded what m) Q (fun _ _ => False) s := by
  unfold guarded
  rw [wp_tryCatch]
  refine wp_mono hm (fun _ _ h => h) fun e s' h => ?_
  split
  · exact hstop e s' _ h
  · exact hstop e s' _ h

theorem Steps.guarded {m : CaseM P Bool} (hm : Steps m) (what : String)
    (hs : s.result.status = .passed) :
    wp (guarded what m) (fun ok s' => Went s.result ok s'.result) (fun _ _ => False) s := by
  refine wp_guarded what (hm s hs) fun e s' diagnostic hsame => ?_
  refine wp_mono (wp_stop .hostError diagnostic (hsame ▸ hs) (by decide) (by decide)) ?_
    fun _ _ h => h
  rintro _ t ⟨rfl, hhalted⟩
  exact hsame ▸ hhalted

end Rules

/-! ## The steps before the frames -/

section Steps

variable (host : CaseHost A P) (run : EvaluationRun A) (testCase : EvaluationCase A)

theorem Called.result {s s' : CaseExecution P} (h : Called s s') : s'.result = s.result := by
  obtain ⟨_, _, rfl⟩ := h
  rfl

theorem steps_pure : Steps (pure true : CaseM P Bool) := fun _ _ => (wp_pure _).mpr rfl

theorem steps_stop (diagnostic : Bytes) : Steps (stop .hostError diagnostic : CaseM P Bool) :=
  fun _ hs => wp_stop_hostError diagnostic hs

theorem steps_ite {c : Prop} [Decidable c] {m m' : CaseM P Bool} (hm : Steps m) (hm' : Steps m') :
    Steps (if c then m else m') := fun s hs => wp_ite.mpr ⟨fun _ => hm s hs, fun _ => hm' s hs⟩

/-- A step that starts with a call to the host. -/
theorem steps_onHost {α : Type} (call : HostCall P α) {f : α → CaseM P Bool}
    (hf : ∀ a, Steps (f a)) : Steps (onHost call >>= f) := by
  intro s hs
  rw [wp_bind]
  refine wp_mono (wp_onHost call) (fun a s' h => ?_) fun _ _ h => h.result
  rw [← h.result]
  exact hf a s' (h.result ▸ hs)

theorem steps_get {f : CaseExecution P → CaseM P Bool} (hf : ∀ s, Steps (f s)) :
    Steps (get >>= f) := by
  intro s hs
  rw [wp_bind, wp_get]
  exact hf s s hs

/-- A step that starts with a write beside the result. -/
theorem steps_modify {f : CaseExecution P → CaseExecution P} {m : PUnit → CaseM P Bool}
    (hf : ∀ s, (f s).result = s.result) (hm : Steps (m ⟨⟩)) : Steps (modify f >>= m) := by
  intro s hs
  rw [wp_bind, wp_modify, ← hf s]
  exact hm (f s) (hf s ▸ hs)

theorem steps_prepare : Steps (prepare host run testCase) := by
  intro s hs
  unfold prepare
  rw [wp_bind, wp_zoom]
  refine wp_of_forall (fun prepared t => ?_) fun _ _ => rfl
  refine steps_modify ?_ ?_ { s with store := t.2 } hs
  · exact fun _ => rfl
  · exact steps_ite (steps_stop _) (steps_modify (fun _ => rfl) steps_pure)

theorem steps_checkManifest : Steps (checkManifest host run testCase) := by
  refine steps_onHost _ fun reply => ?_
  cases reply with
  | error error => exact steps_stop _
  | ok isolated =>
      dsimp only
      cases manifestMismatch run.scope isolated with
      | some mismatch => exact steps_stop _
      | none => exact steps_pure

theorem steps_checkAddresses (addresses : List EvaluationEffectAddress) :
    ∀ declared, Steps (checkAddresses run addresses declared : CaseM P Bool) := by
  induction addresses with
  | nil => exact fun _ => steps_pure
  | cons address rest ih =>
      intro declared
      unfold checkAddresses
      dsimp only
      cases run.grants.find? fun grant => (grant.scriptTypeName, grant.componentName) ==
          (address.scriptTypeName, address.componentName) with
      | none => exact steps_stop _
      | some grant =>
          refine steps_ite (steps_stop _) (steps_get fun _ => steps_ite (steps_stop _) ?_)
          exact steps_modify (fun _ => rfl) (ih _)

theorem steps_checkGrantedEffects : Steps (checkGrantedEffects host run) :=
  steps_get fun _ => steps_checkAddresses run _ _

theorem steps_unchangedFrame (before : UInt64) (what : String) :
    Steps (unchangedFrame host before what) :=
  steps_get fun _ => steps_ite steps_pure (steps_stop _)

theorem steps_applyInput (context : EvaluationFrameContext) :
    Steps (applyInput host testCase context) :=
  steps_ite steps_pure (steps_get fun _ => steps_onHost _ fun _ => steps_unchangedFrame host _ _)

theorem steps_deliverAll (now : IntentTime) (adapters : List Bool) :
    ∀ index, Steps (deliverAll host now index adapters) := by
  induction adapters with
  | nil => exact fun _ => steps_pure
  | cons adapter rest ih =>
      intro index
      exact steps_ite (steps_stop _) (steps_onHost _ fun _ => ih (index + 1))

theorem steps_deliver (now : IntentTime) : Steps (deliver host now) :=
  steps_get fun _ => steps_deliverAll host now _ 0

end Steps

/-! ## The frames -/

/-- A frame in which everything went well. -/
structure Good (summary : EvaluationFrameSummary) : Prop where
  completed : summary.frameCompleted = true
  lifecycle : summary.lifecycleStatus = some .success
  assertion : summary.assertionPassed = true

/-- The result of a case that has run the frames at these times. -/
structure Ran (testCase : EvaluationCase A) (done : List IntentTime)
    (result : EvaluationCaseResult) : Prop where
  name : result.name = testCase.name
  scheduled : result.framesScheduled = testCase.frameTimes.length
  status : result.status = .passed
  diagnostic : result.diagnostic = []
  framesRun : result.framesRun = result.frames.length
  times : result.frames.map EvaluationFrameSummary.now = done
  good : ∀ summary ∈ result.frames, Good summary
  finalState : result.finalState = []

/-- The result of a case that has stopped: every frame but the last went well. -/
structure Stopped (testCase : EvaluationCase A) (result : EvaluationCaseResult) : Prop where
  name : result.name = testCase.name
  scheduled : result.framesScheduled = testCase.frameTimes.length
  status : result.status ≠ .passed ∧ result.status ≠ .notRun
  diagnostic : result.diagnostic.length ≤ authoringMaxDiagnosticBytes
  framesRun : result.framesRun = result.frames.length
  times : result.frames.map EvaluationFrameSummary.now <+: testCase.frameTimes
  good : ∀ summary ∈ result.frames.dropLast, Good summary

/-- The result with one more frame. -/
def pushed (summary : EvaluationFrameSummary) (result : EvaluationCaseResult) :
    EvaluationCaseResult :=
  { result with
    frames := result.frames ++ [summary]
    framesRun := (result.frames ++ [summary]).length }

section Frames

variable {testCase : EvaluationCase A} {done : List IntentTime} {result : EvaluationCaseResult}

theorem Ran.stopped (h : Ran testCase done result) (hdone : done <+: testCase.frameTimes)
    {result' : EvaluationCaseResult} (hhalted : Halted result result') :
    Stopped testCase result' := by
  obtain ⟨status, diagnostic, hpassed, hrun, hlength, rfl⟩ := hhalted
  exact {
    name := h.name
    scheduled := h.scheduled
    status := ⟨hpassed, hrun⟩
    diagnostic := hlength
    framesRun := h.framesRun
    times := h.times ▸ hdone
    good := fun summary hmem => h.good summary (List.mem_of_mem_dropLast hmem) }

/-- A case that stops in a frame, whatever the frame's summary is. -/
theorem Ran.stopped_pushed (h : Ran testCase done result) {summary : EvaluationFrameSummary}
    (hdone : done ++ [summary.now] <+: testCase.frameTimes) {result' : EvaluationCaseResult}
    (hhalted : Halted (pushed summary result) result') : Stopped testCase result' := by
  obtain ⟨status, diagnostic, hpassed, hrun, hlength, rfl⟩ := hhalted
  exact {
    name := h.name
    scheduled := h.scheduled
    status := ⟨hpassed, hrun⟩
    diagnostic := hlength
    framesRun := rfl
    times := by
      simp only [pushed, List.map_append, List.map_cons, List.map_nil, h.times]
      exact hdone
    good := fun s hmem => h.good s (by simpa only [pushed, List.dropLast_concat] using hmem) }

/-- A frame that went well. -/
theorem Ran.pushed (h : Ran testCase done result) {s : EvaluationFrameSummary}
    (hgood : Good s) :
    Ran testCase (done ++ [s.now]) (CaseExecution.pushed s result) where
  name := h.name
  scheduled := h.scheduled
  status := h.status
  diagnostic := h.diagnostic
  framesRun := rfl
  times := by
    simp only [CaseExecution.pushed, List.map_append, List.map_cons, List.map_nil, h.times]
  good summary hmem := by
    rcases List.mem_append.mp hmem with hmem | hmem
    · exact h.good summary hmem
    · rw [List.mem_singleton.mp hmem]
      exact hgood
  finalState := h.finalState

end Frames

theorem lifecycleCaseStatus_passed {status : LuaExecutionStatus}
    (h : lifecycleCaseStatus status = .passed) : status = .success := by
  cases status <;> first | rfl | cases h

theorem lifecycleCaseStatus_ne_notRun (status : LuaExecutionStatus) :
    lifecycleCaseStatus status ≠ .notRun := by
  cases status <;> decide

section FrameSteps

variable (host : CaseHost A P) {s : CaseExecution P}

/-- `advance` has a frame, or has noted that it failed. -/
theorem wp_advance (now : IntentTime) (hs : s.result.status = .passed) :
    wp (advance host now)
      (fun ok s' => (ok = true → s'.result = s.result ∧ s'.lastFrame.isSome = true) ∧
        (ok = false → Halted (pushed { now } s.result) s'.result))
      (fun _ _ => False) s := by
  unfold advance
  rw [wp_tryCatch, wp_bind]
  refine wp_mono (wp_onHost (host.runFrame now)) (fun frame s' h => ?_) fun e s' h => ?_
  · rw [wp_bind, wp_modify, wp_pure]
    exact ⟨fun _ => ⟨h.result, rfl⟩, fun hfalse => by cases hfalse⟩
  · unfold pushFrame
    rw [wp_bind, wp_modify]
    refine wp_mono (wp_stop .hostError _ ?_ (by decide) (by decide)) ?_ fun _ _ h => h
    · dsimp only
      rw [h.result, hs]
    · rintro ok t ⟨rfl, hhalted⟩
      refine ⟨fun htrue => (Bool.false_ne_true htrue).elim, fun _ => ?_⟩
      rw [← h.result]
      exact hhalted

theorem wp_lifecycleResult :
    wp (lifecycleResult host) (fun _ s' => Called s s') (fun _ s' => Called s s') s := by
  unfold lifecycleResult
  rw [wp_tryCatch]
  refine wp_mono (wp_onHost host.lastResult) (fun _ _ h => h) fun e s' h => ?_
  split
  · exact (wp_throw e).mpr h
  · exact (wp_pure _).mpr h

theorem wp_summarize (frame : FrameResult) (now : IntentTime) :
    wp (summarize host frame now)
      (fun summary s' => Called s s' ∧ summary.now = now ∧
        summary.frameCompleted = frame.frame.completed ∧
        summary.lifecycleStatus = s'.lastLifecycle.map LifecycleResult.status)
      (fun _ s' => Called s s') s := by
  unfold summarize
  rw [wp_bind]
  refine wp_mono (wp_onHost host.intentsOwned) (fun live s' h => ?_) fun _ _ h => h
  rw [wp_bind, wp_get, wp_pure]
  exact ⟨h, rfl, rfl, rfl⟩

theorem wp_checkFrame (frame : FrameResult) (index : Nat) (hs : s.result.status = .passed) :
    wp (checkFrame host frame index)
      (fun ok s' => (ok = true → s'.result = s.result ∧ frame.frame.completed = true ∧
          s.lastLifecycle.map LifecycleResult.status = some .success) ∧
        (ok = false → Halted s.result s'.result))
      (fun _ _ => False) s := by
  have hhalt : ∀ (status : EvaluationCaseStatus) (diagnostic : Bytes), status ≠ .passed →
      status ≠ .notRun → wp (stop status diagnostic)
        (fun ok s' => (ok = true → s'.result = s.result ∧ frame.frame.completed = true ∧
            s.lastLifecycle.map LifecycleResult.status = some .success) ∧
          (ok = false → Halted s.result s'.result))
        (fun _ _ => False) s := by
    intro status diagnostic hpassed hrun
    refine wp_mono (wp_stop status diagnostic hs hpassed hrun) ?_ fun _ _ h => h
    rintro ok s' ⟨rfl, hhalted⟩
    exact ⟨fun htrue => (Bool.false_ne_true htrue).elim, fun _ => hhalted⟩
  unfold checkFrame
  dsimp only
  rw [wp_bind, wp_get, wp_ite]
  refine ⟨fun _ => hhalt _ _ (by decide) (by decide), fun _ => ?_⟩
  rw [wp_ite]
  refine ⟨fun _ => hhalt _ _ (by decide) (by decide), fun hrunning => ?_⟩
  simp only [Bool.or_eq_true, Bool.not_eq_true', not_or, Bool.not_eq_false] at hrunning
  cases hlifecycle : s.lastLifecycle with
  | none =>
      rw [hlifecycle] at hhalt
      exact hhalt .hostError _ (by decide) (by decide)
  | some lifecycle =>
      rw [hlifecycle] at hhalt
      dsimp only
      rw [wp_ite]
      constructor
      · intro hne
        exact hhalt _ _ hne (lifecycleCaseStatus_ne_notRun _)
      · intro hpassed
        rw [wp_pure]
        have hsuccess := lifecycleCaseStatus_passed (not_not.mp hpassed)
        refine ⟨fun _ => ⟨rfl, hrunning.1, ?_⟩, fun hfalse => by cases hfalse⟩
        rw [Option.map_some, hsuccess]

/-- `observe` adds one frame, unless it throws. -/
theorem wp_observe (context : EvaluationFrameContext) (hs : s.result.status = .passed)
    (hframe : s.lastFrame.isSome = true) :
    wp (observe host context)
      (fun ok s' => ∃ summary : EvaluationFrameSummary, summary.now = context.now ∧
        (ok = true → s'.result = pushed summary s.result ∧ summary.frameCompleted = true ∧
          summary.lifecycleStatus = some .success) ∧
        (ok = false → Halted (pushed summary s.result) s'.result))
      (fun _ s' => s'.result = s.result) s := by
  unfold observe
  rw [wp_bind, wp_get]
  obtain ⟨frame, hsome⟩ := Option.isSome_iff_exists.mp hframe
  rw [hsome]
  dsimp only
  rw [wp_bind, wp_modify, wp_bind]
  refine wp_mono (wp_lifecycleResult host) (fun lifecycle t ht => ?_) fun _ t ht => ht.result
  rw [wp_bind, wp_modify, wp_bind]
  unfold collectRecords
  rw [wp_modify, wp_bind]
  refine wp_mono (wp_summarize host frame context.now) ?_ fun _ u hu => hu.result.trans ht.result
  rintro summary u ⟨hu, hnow, hcompleted, hlifecycle⟩
  have hresult : u.result = s.result := hu.result.trans ht.result
  unfold pushFrame
  rw [wp_bind, wp_modify]
  refine wp_mono (wp_checkFrame host frame context.frameIndex ?_) (fun ok v hv => ?_)
    fun _ _ h => h.elim
  · dsimp only
    rw [hresult, hs]
  · refine ⟨summary, hnow, fun hok => ?_, fun hok => ?_⟩
    · obtain ⟨hsame, hdone, hsuccess⟩ := hv.1 hok
      exact ⟨hresult ▸ hsame, hcompleted.trans hdone, hlifecycle.trans hsuccess⟩
    · exact hresult ▸ hv.2 hok

theorem wp_unchangedFrame (before : UInt64) (what : String) (hs : s.result.status = .passed) :
    wp (unchangedFrame host before what)
      (fun ok s' => (ok = true → s' = s ∧ host.present s.prepared = true) ∧
        (ok = false → Halted s.result s'.result))
      (fun _ _ => False) s := by
  unfold unchangedFrame
  rw [wp_bind, wp_get]
  dsimp only
  rw [wp_ite]
  constructor
  · intro hsame
    rw [wp_pure]
    rw [Bool.and_eq_true] at hsame
    exact ⟨fun _ => ⟨rfl, hsame.1⟩, fun hfalse => by cases hfalse⟩
  · intro _
    refine wp_mono (wp_stop .hostError _ hs (by decide) (by decide)) ?_ fun _ _ h => h
    rintro ok s' ⟨rfl, hhalted⟩
    exact ⟨fun htrue => (Bool.false_ne_true htrue).elim, fun _ => hhalted⟩

theorem modify_last {α : Type} (l : List α) (a : α) (f : α → α) :
    (l ++ [a]).modify ((l ++ [a]).length - 1) f = l ++ [f a] := by
  rw [List.length_append, List.length_singleton, Nat.add_sub_cancel]
  induction l with
  | nil => rfl
  | cons b l ih =>
      rw [List.cons_append, List.length_cons, List.modify_succ_cons, ih, List.cons_append]

/-- The assertion of the last frame decides. -/
theorem wp_expect (context : EvaluationFrameContext) {summary : EvaluationFrameSummary}
    {before : EvaluationCaseResult} (hresult : s.result = pushed summary before)
    (hs : before.status = .passed) :
    wp (expect host context)
      (fun ok s' => (ok = true → host.present s'.prepared = true ∧
          s'.result = pushed { summary with assertionPassed := true } before) ∧
        (ok = false → ∃ summary' : EvaluationFrameSummary, summary'.now = summary.now ∧
          Halted (pushed summary' before) s'.result))
      (fun _ s' => s'.result = s.result) s := by
  unfold expect
  rw [wp_bind, wp_get, wp_bind]
  refine wp_mono (wp_onHost (host.expect context)) (fun assertion t ht => ?_)
    fun _ t ht => ht.result
  have htresult : t.result = pushed summary before := ht.result.trans hresult
  have htstatus : t.result.status = .passed := by rw [htresult]; exact hs
  rw [wp_bind]
  refine wp_mono (wp_unchangedFrame host _ _ htstatus) (fun ok u hu => ?_) fun _ _ h => h.elim
  cases ok with
  | false =>
      rw [if_neg Bool.false_ne_true, wp_pure]
      exact ⟨fun htrue => (Bool.false_ne_true htrue).elim,
        fun _ => ⟨summary, rfl, htresult ▸ hu.2 rfl⟩⟩
  | true =>
      obtain ⟨rfl, hpresent⟩ := hu.1 rfl
      rw [if_pos rfl]
      unfold noteAssertion
      rw [wp_bind, wp_modify]
      have hframes : u.result.frames.modify (u.result.frames.length - 1)
          (fun summary => { summary with assertionPassed := assertion.passed }) =
          before.frames ++ [{ summary with assertionPassed := assertion.passed }] := by
        rw [htresult]
        exact modify_last before.frames summary _
      have hnoted : { u.result with
          frames := u.result.frames.modify (u.result.frames.length - 1)
            fun summary => { summary with assertionPassed := assertion.passed } } =
          pushed { summary with assertionPassed := assertion.passed } before := by
        rw [hframes, htresult]
        simp only [pushed, List.length_append, List.length_singleton]
      rw [hnoted, wp_ite]
      constructor
      · intro _
        refine wp_mono (wp_stop .failed _ ?_ (by decide) (by decide)) ?_ fun _ _ h => h.elim
        · exact hs
        · rintro ok v ⟨rfl, hhalted⟩
          exact ⟨fun htrue => (Bool.false_ne_true htrue).elim,
            fun _ => ⟨{ summary with assertionPassed := assertion.passed }, rfl, hhalted⟩⟩
      · intro hpassed
        rw [wp_pure]
        rw [Bool.not_eq_true', Bool.not_eq_false] at hpassed
        rw [hpassed]
        exact ⟨fun _ => ⟨hpresent, rfl⟩, fun hfalse => by cases hfalse⟩

end FrameSteps

/-! ## Whole cases -/

/-- The grant a target summary is about. -/
def targetGrant (target : EvaluationTargetSummary) : LuaScopeGrant :=
  ⟨target.scriptTypeName, target.componentName, target.mode⟩

/-- The result of a case that has passed. -/
structure Passed (testCase : EvaluationCase A) (grants : List LuaScopeGrant)
    (result : EvaluationCaseResult) : Prop where
  name : result.name = testCase.name
  scheduled : result.framesScheduled = testCase.frameTimes.length
  status : result.status = .passed
  diagnostic : result.diagnostic = []
  framesRun : result.framesRun = testCase.frameTimes.length
  times : result.frames.map EvaluationFrameSummary.now = testCase.frameTimes
  good : ∀ summary ∈ result.frames, Good summary
  finalState : testCase.frameTimes ≠ [] → result.finalState.map targetGrant = grants

/-- The step goes on in a state with `G`, or the case has stopped. -/
def Ends (testCase : EvaluationCase A) (G : CaseExecution P → Prop) (ok : Bool)
    (s : CaseExecution P) : Prop :=
  (ok = true → G s) ∧ (ok = false → Stopped testCase s.result)

section Ends

variable {testCase : EvaluationCase A} {s : CaseExecution P} {done : List IntentTime}

/-- A step, and what is done if it goes on. -/
theorem wp_continue {G G' : CaseExecution P → Prop} {m m' : CaseM P Bool}
    (hm : wp m (Ends testCase G) (fun _ _ => False) s)
    (hm' : ∀ t, G t → wp m' (Ends testCase G') (fun _ _ => False) t) :
    wp (m >>= fun ok => if ok = true then m' else pure false) (Ends testCase G')
      (fun _ _ => False) s := by
  rw [wp_bind]
  refine wp_mono hm (fun ok t ht => ?_) fun _ _ h => h
  cases ok with
  | false =>
      rw [if_neg Bool.false_ne_true, wp_pure]
      exact ⟨fun htrue => (Bool.false_ne_true htrue).elim, ht.2⟩
  | true =>
      rw [if_pos rfl]
      exact hm' t (ht.1 rfl)

/-- A guarded step beside the frames. -/
theorem Steps.ends {m : CaseM P Bool} (hm : Steps m) (what : String)
    (h : Ran testCase done s.result) (hdone : done <+: testCase.frameTimes) :
    wp (CaseExecution.guarded what m) (Ends testCase fun t => t.result = s.result)
      (fun _ _ => False) s := by
  refine wp_mono (hm.guarded what h.status) (fun ok t ht => ?_) fun _ _ h => h
  cases ok with
  | false => exact ⟨fun htrue => (Bool.false_ne_true htrue).elim, fun _ => h.stopped hdone ht⟩
  | true => exact ⟨fun _ => ht, fun hfalse => by cases hfalse⟩

/-- A case is stopped by an exception. -/
theorem ends_stop {G : CaseExecution P → Prop} (diagnostic : Bytes)
    (h : Ran testCase done s.result) (hdone : done <+: testCase.frameTimes) :
    wp (stop .hostError diagnostic) (Ends testCase G) (fun _ _ => False) s := by
  refine wp_mono (wp_stop .hostError diagnostic h.status (by decide) (by decide)) ?_
    fun _ _ h => h
  rintro ok t ⟨rfl, hhalted⟩
  exact ⟨fun htrue => (Bool.false_ne_true htrue).elim, fun _ => h.stopped hdone hhalted⟩

end Ends

section Run

variable (host : CaseHost A P) (run : EvaluationRun A) (testCase : EvaluationCase A)
  {s : CaseExecution P} {done : List IntentTime}

/-- After the observation the result has a frame to which only the assertion is missing. -/
theorem ends_observe (context : EvaluationFrameContext) (h : Ran testCase done s.result)
    (hframe : s.lastFrame.isSome = true)
    (hnow : done ++ [context.now] <+: testCase.frameTimes) :
    wp (guarded "frame evidence" (observe host context))
      (Ends testCase fun t => ∃ summary : EvaluationFrameSummary, summary.now = context.now ∧
        summary.frameCompleted = true ∧ summary.lifecycleStatus = some .success ∧
        t.result = pushed summary s.result)
      (fun _ _ => False) s := by
  have hdone : done <+: testCase.frameTimes := (List.prefix_append _ _).trans hnow
  refine wp_guarded _ (wp_mono (wp_observe host context h.status hframe) (fun ok t ht => ?_)
    fun _ _ h => h) fun e t diagnostic hsame => ends_stop diagnostic (hsame ▸ h) hdone
  obtain ⟨summary, htime, hgood, hhalted⟩ := ht
  refine ⟨fun hok => ?_, fun hok => ?_⟩
  · obtain ⟨hresult, hcompleted, hlifecycle⟩ := hgood hok
    exact ⟨summary, htime, hcompleted, hlifecycle, hresult⟩
  · exact h.stopped_pushed (htime.symm ▸ hnow) (hhalted hok)

theorem ends_expect (context : EvaluationFrameContext) {summary : EvaluationFrameSummary}
    {before : EvaluationCaseResult} (h : Ran testCase done before)
    (hresult : s.result = pushed summary before)
    (hcompleted : summary.frameCompleted = true)
    (hlifecycle : summary.lifecycleStatus = some .success)
    (hnow : done ++ [summary.now] <+: testCase.frameTimes) :
    wp (guarded "expectation" (do expect host (← observedContext context)))
      (Ends testCase fun t => host.present t.prepared = true ∧
        Ran testCase (done ++ [summary.now]) t.result)
      (fun _ _ => False) s := by
  refine wp_guarded _ (Q := Ends testCase fun t => host.present t.prepared = true ∧
    Ran testCase (done ++ [summary.now]) t.result) (E := fun _ t => t.result = s.result) ?_
    fun e t diagnostic hsame => ?_
  · unfold observedContext
    rw [wp_bind, wp_bind, wp_get, wp_pure]
    refine wp_mono (wp_expect host _ hresult h.status) (fun ok t ht => ?_) fun _ _ h => h
    refine ⟨fun hok => ⟨(ht.1 hok).1, ?_⟩, fun hok => ?_⟩
    · rw [(ht.1 hok).2]
      exact h.pushed (s := { summary with assertionPassed := true })
        ⟨hcompleted, hlifecycle, rfl⟩
    · obtain ⟨summary', htime, hhalted⟩ := ht.2 hok
      exact h.stopped_pushed (htime.symm ▸ hnow) hhalted
  · have hstatus : t.result.status = .passed := by
      rw [hsame, hresult]
      exact h.status
    refine wp_mono (wp_stop .hostError diagnostic hstatus (by decide) (by decide)) ?_
      fun _ _ h => h
    rintro ok u ⟨rfl, hhalted⟩
    rw [hsame, hresult] at hhalted
    exact ⟨fun htrue => (Bool.false_ne_true htrue).elim, fun _ => h.stopped_pushed hnow hhalted⟩

/-- One frame of a passing case: it goes well, or the case stops. -/
theorem ends_runFrameAt (index : Nat) {now : IntentTime} (h : Ran testCase done s.result)
    (hnow : done ++ [now] <+: testCase.frameTimes) :
    wp (runFrameAt host testCase index now)
      (Ends testCase fun t => host.present t.prepared = true ∧
        Ran testCase (done ++ [now]) t.result)
      (fun _ _ => False) s := by
  have hdone : done <+: testCase.frameTimes := (List.prefix_append _ _).trans hnow
  unfold runFrameAt
  refine wp_continue ((steps_applyInput host testCase _).ends _ h hdone) fun t ht => ?_
  refine wp_continue ((steps_deliver host now).ends _ (ht ▸ h) hdone) fun u hu => ?_
  have hran : Ran testCase done u.result := hu.symm ▸ ht.symm ▸ h
  refine wp_continue (G := fun v => v.result = u.result ∧ v.lastFrame.isSome = true)
    (wp_mono (wp_advance host now hran.status) (fun ok v hv => ⟨hv.1, fun hok =>
      hran.stopped_pushed hnow (hv.2 hok)⟩) fun _ _ h => h) fun v hv => ?_
  refine wp_continue (ends_observe host testCase _ (hv.1 ▸ hran) hv.2 hnow) fun w hw => ?_
  obtain ⟨summary, htime, hcompleted, hlifecycle, hresult⟩ := hw
  have hnow' : done ++ [summary.now] <+: testCase.frameTimes := htime.symm ▸ hnow
  have hlast := ends_expect host testCase { frameIndex := index, now, inputs := testCase.inputs }
    (hv.1 ▸ hran : Ran testCase done v.result) hresult hcompleted hlifecycle hnow'
  rw [htime] at hlast
  exact hlast

theorem ends_runFrames : ∀ (rest : List IntentTime) (index : Nat) {done : List IntentTime}
    {s : CaseExecution P}, done ++ rest = testCase.frameTimes → Ran testCase done s.result →
    (done ≠ [] → host.present s.prepared = true) →
    wp (runFrames host testCase index rest)
      (Ends testCase fun t => (testCase.frameTimes ≠ [] → host.present t.prepared = true) ∧
        Ran testCase testCase.frameTimes t.result)
      (fun _ _ => False) s
  | [], _, done, s, hdone, hran, hpresent => by
      rw [List.append_nil] at hdone
      unfold runFrames
      rw [wp_pure]
      exact ⟨fun _ => ⟨hdone ▸ hpresent, hdone ▸ hran⟩, fun hfalse => by cases hfalse⟩
  | now :: rest, index, done, s, hdone, hran, hpresent => by
      unfold runFrames
      have hsplit : done ++ [now] ++ rest = testCase.frameTimes := by
        rw [List.append_assoc]
        exact hdone
      refine wp_continue (ends_runFrameAt host testCase index hran ⟨rest, hsplit⟩)
        fun t ht => ?_
      exact ends_runFrames rest (index + 1) hsplit ht.2 fun _ => ht.1

end Run

/-! ## The final state -/

/-- The result with this final state. -/
def withTargets (targets : List EvaluationTargetSummary) (result : EvaluationCaseResult) :
    EvaluationCaseResult := { result with finalState := targets }

section Final

variable (host : CaseHost A P) (run : EvaluationRun A) {testCase : EvaluationCase A}

theorem Stopped.withTargets {result : EvaluationCaseResult} (h : Stopped testCase result)
    (targets : List EvaluationTargetSummary) :
    Stopped testCase (CaseExecution.withTargets targets result) :=
  ⟨h.name, h.scheduled, h.status, h.diagnostic, h.framesRun, h.times, h.good⟩

theorem Halted.withTargets {result result' : EvaluationCaseResult}
    {targets : List EvaluationTargetSummary}
    (h : Halted (CaseExecution.withTargets targets result) result') :
    ∃ halted, Halted result halted ∧ result' = CaseExecution.withTargets targets halted := by
  obtain ⟨status, diagnostic, hpassed, hrun, hlength, rfl⟩ := h
  exact ⟨{ result with status, diagnostic },
    ⟨status, diagnostic, hpassed, hrun, hlength, rfl⟩, rfl⟩

theorem wp_targetSummary (grant : LuaScopeGrant) {s : CaseExecution P} :
    wp (targetSummary host grant)
      (fun target s' => s'.result = s.result ∧ targetGrant target = grant)
      (fun _ s' => s'.result = s.result) s := by
  unfold targetSummary
  rw [wp_ite]
  refine ⟨fun _ => (wp_pure _).mpr ⟨rfl, rfl⟩, fun _ => ?_⟩
  rw [wp_bind]
  refine wp_mono (wp_onHost _) (fun value t ht => ?_) fun _ _ h => h.result
  cases value with
  | none => exact (wp_throw _).mpr ht.result
  | some value =>
      dsimp only
      cases toValue value with
      | error e => exact (wp_throw e).mpr ht.result
      | ok value => exact (wp_pure _).mpr ⟨ht.result, rfl⟩

/-- The targets of the grants, one after the other. -/
theorem wp_captureTargets : ∀ (grants : List LuaScopeGrant) {s : CaseExecution P},
    wp (captureTargets host grants)
      (fun ok s' => ok = true ∧ ∃ targets : List EvaluationTargetSummary,
        targets.map targetGrant = grants ∧
        s'.result = CaseExecution.withTargets (s.result.finalState ++ targets) s.result)
      (fun _ s' => ∃ targets, s'.result = CaseExecution.withTargets targets s.result) s
  | [], s => by
      unfold captureTargets
      rw [wp_pure]
      exact ⟨rfl, [], rfl, by rw [List.append_nil]; rfl⟩
  | grant :: rest, s => by
      unfold captureTargets
      rw [wp_bind]
      refine wp_mono (wp_targetSummary host grant) (fun target t ht => ?_) fun _ t ht => ?_
      · rw [wp_bind, wp_modify]
        refine wp_mono (wp_captureTargets rest) ?_ ?_
        · rintro ok u ⟨rfl, targets, htargets, hu⟩
          refine ⟨rfl, target :: targets, by rw [List.map_cons, ht.2, htargets], ?_⟩
          rw [hu]
          dsimp only
          rw [ht.1, List.append_assoc, List.singleton_append]
          rfl
        · rintro e u ⟨targets, hu⟩
          refine ⟨targets, ?_⟩
          rw [hu]
          dsimp only
          rw [ht.1]
          rfl
      · exact ⟨_, ht⟩

/-- A case that ran every frame passes if its final state can be captured. -/
theorem wp_captureFinalState {s : CaseExecution P}
    (h : Ran testCase testCase.frameTimes s.result) :
    wp (captureFinalState host run)
      (fun _ s' => Passed testCase run.grants s'.result ∨ Stopped testCase s'.result)
      (fun _ _ => False) s := by
  unfold captureFinalState
  rw [wp_bind]
  refine wp_mono (wp_guarded _ (Q := Ends testCase fun t => Passed testCase run.grants t.result)
    (wp_mono (wp_captureTargets host run.grants) ?_ fun _ _ h => h) ?_) ?_ fun _ _ h => h
  · rintro ok t ⟨rfl, targets, htargets, ht⟩
    refine ⟨fun _ => ?_, fun hfalse => by cases hfalse⟩
    show Passed testCase run.grants t.result
    rw [ht, h.finalState, List.nil_append]
    exact {
      name := h.name
      scheduled := h.scheduled
      status := h.status
      diagnostic := h.diagnostic
      framesRun := by
        show s.result.framesRun = _
        rw [h.framesRun, ← h.times, List.length_map]
      times := h.times
      good := h.good
      finalState := fun _ => htargets }
  · rintro e t diagnostic ⟨targets, ht⟩
    have hstatus : t.result.status = .passed := by
      rw [ht]
      exact h.status
    refine wp_mono (wp_stop .hostError diagnostic hstatus (by decide) (by decide)) ?_
      fun _ _ h => h
    rintro ok u ⟨rfl, hhalted⟩
    rw [ht] at hhalted
    obtain ⟨halted, hfirst, hu⟩ := hhalted.withTargets
    refine ⟨fun htrue => (Bool.false_ne_true htrue).elim, fun _ => ?_⟩
    rw [hu]
    exact (h.stopped (List.prefix_refl _) hfirst).withTargets targets
  · intro ok t ht
    cases ok with
    | false =>
        refine wp_ite.mpr ⟨fun _ => ?_, fun hne => absurd rfl hne⟩
        rw [wp_modify]
        exact .inr ((ht.2 rfl).withTargets [])
    | true =>
        refine wp_ite.mpr ⟨fun htrue => (Bool.false_ne_true htrue).elim, fun _ => ?_⟩
        rw [wp_pure]
        exact .inl (ht.1 rfl)

theorem wp_captureFinalState_stopped {s : CaseExecution P} (h : Stopped testCase s.result) :
    wp (captureFinalState host run) (fun _ s' => Stopped testCase s'.result)
      (fun _ _ => False) s := by
  unfold captureFinalState
  rw [wp_bind]
  refine wp_mono (wp_guarded _ (Q := fun _ t => Stopped testCase t.result)
    (wp_mono (wp_captureTargets host run.grants) ?_ fun _ _ h => h) ?_) ?_ fun _ _ h => h
  · rintro ok t ⟨_, targets, _, ht⟩
    rw [ht]
    exact h.withTargets _
  · rintro e t diagnostic ⟨targets, ht⟩
    have hstopped : Stopped testCase t.result := by
      rw [ht]
      exact h.withTargets targets
    refine wp_mono (wp_stop_stopped .hostError diagnostic hstopped.status.1) ?_ fun _ _ h => h
    rintro ok u ⟨_, rfl⟩
    exact hstopped
  · intro ok t ht
    rw [wp_ite]
    refine ⟨fun _ => ?_, fun _ => (wp_pure _).mpr ht⟩
    rw [wp_modify]
    exact ht.withTargets []

theorem ran_start (testCase : EvaluationCase A) (budget : EvaluationRunBudget) :
    Ran testCase [] (CaseExecution.start host testCase budget).result :=
  ⟨rfl, rfl, rfl, rfl, rfl, rfl, fun _ hmem => absurd hmem List.not_mem_nil, rfl⟩

/-- A case passes or stops, whatever the host does, and never throws. -/
theorem wp_execute {s : CaseExecution P} (h : Ran testCase [] s.result) :
    wp (execute host run testCase)
      (fun _ s' => Passed testCase run.grants s'.result ∨ Stopped testCase s'.result)
      (fun _ _ => False) s := by
  have hdone : [] <+: testCase.frameTimes := List.nil_prefix
  -- a step before the frames, and what follows it
  have hstep : ∀ {m : CaseM P Bool} {m' : CaseM P PUnit} {what : String} {t : CaseExecution P},
      Steps m → Ran testCase [] t.result →
      (∀ u, Ran testCase [] u.result → wp m'
        (fun _ s' => Passed testCase run.grants s'.result ∨ Stopped testCase s'.result)
        (fun _ _ => False) u) →
      wp (guarded what m >>= fun ok => if ok = true then m' else pure ⟨⟩)
        (fun _ s' => Passed testCase run.grants s'.result ∨ Stopped testCase s'.result)
        (fun _ _ => False) t := by
    intro m m' what t hm ht hm'
    rw [wp_bind]
    refine wp_mono (hm.ends what ht hdone) (fun ok u hu => ?_) fun _ _ h => h
    cases ok with
    | false =>
        rw [if_neg Bool.false_ne_true, wp_pure]
        exact .inr (hu.2 rfl)
    | true =>
        rw [if_pos rfl]
        exact hm' u (hu.1 rfl ▸ ht)
  unfold execute
  refine hstep (steps_prepare host run testCase) h fun t ht => ?_
  refine hstep (steps_checkManifest host run testCase) ht fun u hu => ?_
  refine hstep (steps_checkGrantedEffects host run) hu fun v hv => ?_
  rw [wp_bind]
  refine wp_mono (ends_runFrames host testCase testCase.frameTimes 0 (List.nil_append _) hv
    fun hne => absurd rfl hne) (fun ok w hw => ?_) fun _ _ h => h
  rw [wp_bind, wp_get, wp_ite]
  cases ok with
  | false =>
      refine ⟨fun _ => wp_mono (wp_captureFinalState_stopped host run (hw.2 rfl))
        (fun _ _ h => .inr h) fun _ _ h => h, fun _ => ?_⟩
      rw [wp_pure]
      exact .inr (hw.2 rfl)
  | true =>
      obtain ⟨hpresent, hran⟩ := hw.1 rfl
      refine ⟨fun _ => wp_captureFinalState host run hran, fun habsent => ?_⟩
      rw [wp_pure]
      refine .inl ⟨hran.name, hran.scheduled, hran.status, hran.diagnostic, ?_, hran.times,
        hran.good, fun hne => absurd (hpresent hne) habsent⟩
      rw [hran.framesRun, ← hran.times, List.length_map]

end Final

/-! ## The budget -/

/-- How a case moves the budget. -/
def Along (s s' : CaseExecution P) : Prop := Spent s.store.budget s'.store.budget

section Budget

variable (host : CaseHost A P) (run : EvaluationRun A) (testCase : EvaluationCase A)

theorem Along.refl (s : CaseExecution P) : Along s s := Spent.refl _

theorem Along.trans (a b c : CaseExecution P) (h : Along a b) (h' : Along b c) : Along a c :=
  Spent.trans h h'

theorem along_bind {α β : Type} {m : CaseM P α} {f : α → CaseM P β}
    (hm : Prog.Within Along m) (hf : ∀ a, Prog.Within Along (f a)) :
    Prog.Within Along (m >>= f) := within_bind Along.trans hm hf

theorem along_pure {α : Type} (a : α) : Prog.Within Along (pure a : CaseM P α) :=
  within_pure Along.refl a

theorem along_modify {f : CaseExecution P → CaseExecution P} (hf : ∀ s, (f s).store = s.store) :
    Prog.Within Along (modify f : CaseM P PUnit) := by
  refine within_modify fun s => ?_
  unfold Along
  rw [hf]
  exact .refl _

theorem along_onHost {α : Type} (call : HostCall P α) : Prog.Within Along (onHost call) := by
  intro s
  unfold onHost
  rw [after_zoom]
  exact (call.accessed (s.prepared, s.store)).spent

theorem along_stop (status : EvaluationCaseStatus) (diagnostic : Bytes) :
    Prog.Within Along (stop status diagnostic : CaseM P Bool) := by
  intro s
  refine (wp_after (P := Along s)).mp ?_
  unfold stop
  rw [wp_bind, wp_get, wp_ite]
  refine ⟨fun _ => (wp_pure _).mpr (.refl _), fun _ => ?_⟩
  rw [wp_ite]
  constructor
  · intro _
    rw [wp_bind, wp_set, wp_pure]
    exact Spent.refl _
  · intro _
    rw [wp_bind, wp_set, wp_pure]
    exact Spent.refl _

theorem along_guarded (what : String) {m : CaseM P Bool} (hm : Prog.Within Along m) :
    Prog.Within Along (guarded what m) :=
  within_tryCatch Along.trans hm fun _ => within_ite (along_stop _ _) (along_stop _ _)

theorem along_prepare : Prog.Within Along (prepare host run testCase) := by
  refine along_bind (fun s => ?_) fun prepared => ?_
  · rw [after_zoom]
    exact ((host.prepare _).accessed ((), s.store)).spent
  · refine along_bind (along_modify fun _ => rfl) fun _ => within_ite (along_stop _ _) ?_
    exact along_bind (along_modify fun _ => rfl) fun _ => along_pure _

theorem along_checkManifest : Prog.Within Along (checkManifest host run testCase) := by
  refine along_bind (along_onHost _) fun reply => ?_
  cases reply with
  | error error => exact along_stop _ _
  | ok isolated =>
      dsimp only
      cases manifestMismatch run.scope isolated with
      | some mismatch => exact along_stop _ _
      | none => exact along_pure _

theorem along_checkAddresses (addresses : List EvaluationEffectAddress) :
    ∀ declared, Prog.Within Along (checkAddresses run addresses declared : CaseM P Bool) := by
  induction addresses with
  | nil => exact fun _ => along_pure _
  | cons address rest ih =>
      intro declared
      unfold checkAddresses
      dsimp only
      cases run.grants.find? fun grant => (grant.scriptTypeName, grant.componentName) ==
          (address.scriptTypeName, address.componentName) with
      | none => exact along_stop _ _
      | some grant =>
          refine within_ite (along_stop _ _) (within_get fun _ => within_ite (along_stop _ _) ?_)
          exact along_bind (along_modify fun _ => rfl) fun _ => ih _

theorem along_unchangedFrame (before : UInt64) (what : String) :
    Prog.Within Along (unchangedFrame host before what) :=
  within_get fun _ => within_ite (along_pure _) (along_stop _ _)

theorem along_applyInput (context : EvaluationFrameContext) :
    Prog.Within Along (applyInput host testCase context) :=
  within_ite (along_pure _) (within_get fun _ => along_bind (along_onHost _) fun _ =>
    along_unchangedFrame host _ _)

theorem along_deliverAll (now : IntentTime) (adapters : List Bool) :
    ∀ index, Prog.Within Along (deliverAll host now index adapters) := by
  induction adapters with
  | nil => exact fun _ => along_pure _
  | cons adapter rest ih =>
      intro index
      exact within_ite (along_stop _ _) (along_bind (along_onHost _) fun _ => ih (index + 1))

theorem along_pushFrame (summary : EvaluationFrameSummary) :
    Prog.Within Along (pushFrame summary : CaseM P PUnit) := along_modify fun _ => rfl

theorem along_advance (now : IntentTime) : Prog.Within Along (advance host now) :=
  within_tryCatch Along.trans
    (along_bind (along_onHost _) fun _ => along_bind (along_modify fun _ => rfl) fun _ =>
      along_pure _)
    fun _ => along_bind (along_pushFrame _) fun _ => along_stop _ _

theorem along_checkFrame (frame : FrameResult) (index : Nat) :
    Prog.Within Along (checkFrame host frame index) := by
  refine within_get fun s => within_ite (along_stop _ _) (within_ite (along_stop _ _) ?_)
  cases s.lastLifecycle with
  | none => exact along_stop _ _
  | some lifecycle => exact within_ite (along_stop _ _) (along_pure _)

theorem along_observe (context : EvaluationFrameContext) :
    Prog.Within Along (observe host context) := by
  refine within_get fun s => ?_
  cases s.lastFrame with
  | none => exact along_pure _
  | some frame =>
      have hlifecycle : Prog.Within Along (lifecycleResult host) :=
        within_tryCatch Along.trans (along_onHost _) fun _ =>
          within_ite (within_throw Along.refl _) (along_pure _)
      have hsummary : Prog.Within Along (summarize host frame context.now) :=
        along_bind (along_onHost _) fun _ => within_get fun _ => along_pure _
      refine along_bind (along_modify fun _ => rfl) fun _ => along_bind hlifecycle fun _ =>
        along_bind (along_modify fun _ => rfl) fun _ => along_bind (along_modify fun _ => rfl)
          fun _ => along_bind hsummary fun _ => along_bind (along_pushFrame _) fun _ => ?_
      exact along_checkFrame host frame context.frameIndex

theorem along_expect (context : EvaluationFrameContext) :
    Prog.Within Along (expect host context) := by
  refine within_get fun _ => along_bind (along_onHost _) fun assertion =>
    along_bind (along_unchangedFrame host _ _) fun _ => within_ite ?_ (along_pure _)
  exact along_bind (along_modify fun _ => rfl) fun _ => within_ite (along_stop _ _) (along_pure _)

theorem along_runFrameAt (index : Nat) (now : IntentTime) :
    Prog.Within Along (runFrameAt host testCase index now) := by
  refine along_bind (along_guarded _ (along_applyInput host testCase _)) fun _ =>
    within_ite ?_ (along_pure _)
  refine along_bind (along_guarded _ (within_get fun _ => along_deliverAll host now _ 0)) fun _ =>
    within_ite ?_ (along_pure _)
  refine along_bind (along_advance host now) fun _ => within_ite ?_ (along_pure _)
  refine along_bind (along_guarded _ (along_observe host _)) fun _ =>
    within_ite ?_ (along_pure _)
  exact along_guarded _ (along_bind (within_get fun _ => along_pure _) fun _ =>
    along_expect host _)

theorem along_runFrames (rest : List IntentTime) :
    ∀ index, Prog.Within Along (runFrames host testCase index rest) := by
  induction rest with
  | nil => exact fun _ => along_pure _
  | cons now rest ih =>
      intro index
      exact along_bind (along_runFrameAt host testCase index now) fun _ =>
        within_ite (ih (index + 1)) (along_pure _)

theorem along_targetSummary (grant : LuaScopeGrant) :
    Prog.Within Along (targetSummary host grant) := by
  refine within_ite (along_pure _) (along_bind (along_onHost _) fun value => ?_)
  cases value with
  | none => exact within_throw Along.refl _
  | some value =>
      dsimp only
      cases toValue value with
      | error e => exact within_throw Along.refl e
      | ok value => exact along_pure _

theorem along_captureTargets (grants : List LuaScopeGrant) :
    Prog.Within Along (captureTargets host grants) := by
  induction grants with
  | nil => exact along_pure _
  | cons grant rest ih =>
      exact along_bind (along_targetSummary host grant) fun _ =>
        along_bind (along_modify fun _ => rfl) fun _ => ih

/-- A whole case spends within the budget. -/
theorem along_execute : Prog.Within Along (execute host run testCase) := by
  have hfinal : Prog.Within Along (captureFinalState host run) :=
    along_bind (along_guarded _ (along_captureTargets host run.grants)) fun _ =>
      within_ite (along_modify fun _ => rfl) (along_pure _)
  refine along_bind (along_guarded _ (along_prepare host run testCase)) fun _ =>
    within_ite ?_ (along_pure _)
  refine along_bind (along_guarded _ (along_checkManifest host run testCase)) fun _ =>
    within_ite ?_ (along_pure _)
  refine along_bind (along_guarded _ (within_get fun _ => along_checkAddresses run _ _)) fun _ =>
    within_ite ?_ (along_pure _)
  exact along_bind (along_runFrames host testCase _ 0) fun _ =>
    within_get fun _ => within_ite hfinal (along_pure _)

end Budget

end CaseExecution

/-! ## All cases -/

open CaseExecution

/-- How the results of the cases and the status of the record go together: all passed, or those
    before the first that did not, that one, and the rest not run. -/
inductive Verdict {A : Type} (grants : List LuaScopeGrant) :
    List (EvaluationCase A) → EvaluationStatus → List EvaluationCaseResult → Prop where
  | passed {cases : List (EvaluationCase A)} {results : List EvaluationCaseResult}
      (h : List.Forall₂ (fun testCase result => Passed testCase grants result) cases results) :
      Verdict grants cases .passed results
  | stopped {before : List (EvaluationCase A)} {results : List EvaluationCaseResult}
      {testCase : EvaluationCase A} {result : EvaluationCaseResult}
      (rest : List (EvaluationCase A))
      (hbefore : List.Forall₂ (fun testCase result => Passed testCase grants result)
        before results)
      (h : Stopped testCase result) :
      Verdict grants (before ++ testCase :: rest) (recordStatus result.status)
        (results ++ result :: rest.map notRun)

section Cases

variable {A P : Type} {grants : List LuaScopeGrant} {cases : List (EvaluationCase A)}
  {status : EvaluationStatus} {results : List EvaluationCaseResult}
  {testCase : EvaluationCase A} {result : EvaluationCaseResult}

theorem recordStatus_passed {status : EvaluationCaseStatus}
    (h : recordStatus status = .passed) : status = .passed := by
  cases status <;> first | rfl | cases h

/-- After a case that did not pass, the next one is not run. -/
theorem Verdict.skip (h : Verdict grants cases status results) (hstatus : status ≠ .passed)
    (testCase : EvaluationCase A) :
    Verdict grants (cases ++ [testCase]) status (results ++ [notRun testCase]) := by
  cases h with
  | passed _ => exact absurd rfl hstatus
  | stopped rest hbefore hstopped =>
      have h := Verdict.stopped (rest ++ [testCase]) hbefore hstopped
      rw [List.map_append, List.map_singleton] at h
      rw [List.append_assoc, List.append_assoc]
      exact h

/-- Where every case passed, the next result decides. -/
theorem Verdict.run (h : Verdict grants cases .passed results)
    (hresult : Passed testCase grants result ∨ Stopped testCase result) :
    Verdict grants (cases ++ [testCase]) (recordStatus result.status) (results ++ [result]) := by
  generalize hpassed : EvaluationStatus.passed = status at h
  cases h with
  | passed hall =>
      rcases hresult with hresult | hresult
      · rw [hresult.status]
        exact .passed (List.rel_append hall (.cons hresult .nil))
      · exact .stopped [] hall hresult
  | stopped _ _ hstopped =>
      exact absurd (recordStatus_passed hpassed.symm) hstopped.status.1

theorem runCases_verdict (hosts : Nat → CaseHost A P) (run : EvaluationRun A) :
    ∀ (rest : List (EvaluationCase A)) (index : Nat) (budget : EvaluationRunBudget)
      (outcome : EvaluationOutcome) (done : List (EvaluationCase A)),
      Verdict run.grants done outcome.status outcome.cases →
      Verdict run.grants (done ++ rest) (runCases hosts run index rest budget outcome).1.status
          (runCases hosts run index rest budget outcome).1.cases ∧
        Spent budget (runCases hosts run index rest budget outcome).2
  | [], _, budget, outcome, done, h => by
      rw [List.append_nil]
      exact ⟨h, .refl _⟩
  | testCase :: rest, index, budget, outcome, done, h => by
      have happend : done ++ testCase :: rest = done ++ [testCase] ++ rest := by
        rw [List.append_assoc, List.singleton_append]
      rw [happend]
      unfold runCases
      by_cases hstatus : outcome.status ≠ .passed
      · rw [if_pos hstatus]
        exact runCases_verdict hosts run rest (index + 1) budget _ _ (h.skip hstatus testCase)
      · rw [if_neg hstatus]
        generalize hexecution : after (CaseExecution.execute (hosts index) run testCase)
          (CaseExecution.start (hosts index) testCase budget) = execution
        have hresult : Passed testCase run.grants execution.result ∨
            Stopped testCase execution.result := by
          rw [← hexecution]
          exact (wp_after (P := fun s' : CaseExecution P =>
            Passed testCase run.grants s'.result ∨ Stopped testCase s'.result)).mp
            (wp_mono (wp_execute (hosts index) run (ran_start (hosts index) testCase budget))
              (fun _ _ h => h) fun _ _ h => h.elim)
        have hspent : Spent budget execution.store.budget := by
          rw [← hexecution]
          exact along_execute (hosts index) run testCase
            (CaseExecution.start (hosts index) testCase budget)
        rw [not_not.mp hstatus] at h
        have hlater := runCases_verdict hosts run rest (index + 1) execution.store.budget
          { outcome with
            status := recordStatus execution.result.status
            cases := outcome.cases ++ [execution.result]
            trace := appendTrace index execution.store.store.records outcome.trace }
          (done ++ [testCase]) (h.run hresult)
        exact ⟨hlater.1, hspent.trans hlater.2⟩

theorem execute_returns (host : CaseHost A P) (run : EvaluationRun A)
    (testCase : EvaluationCase A) (budget : EvaluationRunBudget) :
    ∃ s', CaseExecution.execute host run testCase (CaseExecution.start host testCase budget) =
      .ok ⟨⟩ s' := by
  have h := wp_execute host run (ran_start host testCase budget)
  cases hexecute : CaseExecution.execute host run testCase
      (CaseExecution.start host testCase budget) with
  | ok _ s' => exact ⟨s', rfl⟩
  | error e s' => exact (wp_error h hexecute).elim

/-- The stores are not charged more than the budget. -/
theorem runEvaluation_bounded (hosts : Nat → CaseHost A P) (run : EvaluationRun A) :
    (runEvaluation hosts run).storeBytes ≤ run.limits.maxEvaluationRecordBytes := by
  have hspent := (runCases_verdict hosts run run.suite.cases 0
    { maxRecords := run.limits.maxEvaluationRecords
      maxBytes := run.limits.maxEvaluationRecordBytes }
    { status := .passed } [] (.passed .nil)).2
  exact (hspent.within (Nat.zero_le _) (Nat.zero_le _)).2

/-- Whatever the host does: no case throws, the record's status is the verdict on its cases, in a
    passed case every frame went well, and the stores are not charged more than the budget. -/
theorem runEvaluation_sound (hosts : Nat → CaseHost A P) (run : EvaluationRun A) :
    (∀ index testCase budget, ∃ s', CaseExecution.execute (hosts index) run testCase
      (CaseExecution.start (hosts index) testCase budget) = .ok ⟨⟩ s') ∧
    Verdict run.grants run.suite.cases (runEvaluation hosts run).status
      (runEvaluation hosts run).cases ∧
    (runEvaluation hosts run).storeBytes ≤ run.limits.maxEvaluationRecordBytes := by
  have hverdict := (runCases_verdict hosts run run.suite.cases 0
    { maxRecords := run.limits.maxEvaluationRecords
      maxBytes := run.limits.maxEvaluationRecordBytes }
    { status := .passed } [] (.passed .nil)).1
  exact ⟨fun index testCase budget => execute_returns (hosts index) run testCase budget, hverdict,
    runEvaluation_bounded hosts run⟩

end Cases

end Evaluation

end LiquidLayer
