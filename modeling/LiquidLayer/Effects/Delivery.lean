/-
  Feedback in any order (`apply_report`, `apply_observation` of RuntimeEffectsFeedback.cpp).

  A report of an applied command and an observation both deliver a value with a revision for a
  target; the two are compared with what is held by code of their own. `Lib/Newest` says what is
  held in the end, whatever the order.

  * `Delivered`: what one delivery does, as long as the store takes its records.
  * `deliverAll_settled`: what a run of deliveries has done.
  * `deliveries_settle_iff`: the newest value is held if and only if it fits into its record.
-/
import LiquidLayer.Effects.Contained
import LiquidLayer.Effects.Refinement
import LiquidLayer.Lib.Newest

namespace LiquidLayer

namespace Effects

open Prog Newest

/-! ## Deliveries -/

/-- A report of an applied command that passes validation. -/
structure AppliedReport where
  report : EffectReport
  value : Value
  applied : report.status = .applied
  observed : report.observedValue = some value
  valid : validateEffectReport report = .ok ()

inductive Delivery where
  | report (report : AppliedReport)
  | observation (observation : ExternalObservation)

namespace Delivery

def key : Delivery → TargetKey
  | .report r => r.report.key
  | .observation o => o.key

def revision : Delivery → StateRevision
  | .report r => r.report.stateRevision
  | .observation o => o.stateRevision

def value : Delivery → Value
  | .report r => r.value
  | .observation o => o.observedValue

/-- The command a delivery is about. -/
def commandId : Delivery → Option CommandId
  | .report r => some r.report.commandId
  | .observation _ => none

def program : Delivery → Effects Unit
  | .report r => applyReport r.report
  | .observation o => applyObservation o

/-- The entry under `id` once the delivery has been made. -/
def mark (d : Delivery) (id : CommandId) (state : CommandState) : CommandState :=
  match d with
  | .report r =>
      if id = r.report.commandId then
        { state with
          status := if state.status = .superseded then state.status else .applied
          terminalReport := some r.report }
      else state
  | .observation _ => state

end Delivery

/-- The report is the first for a known command; the observation is on a registered route. -/
def Deliverable (s : RuntimeEffectsState) : Delivery → Prop
  | .report r => ∃ state, Acceptable s r.report state
  | .observation o => validateExternalObservation o = .ok () ∧ o.sessionId = s.session ∧
      s.adapters.contains o.adapterRoute.value = true

instance (value : Value) : Decidable (Committable value) :=
  inferInstanceAs (Decidable (_ ∧ _))

/-- What the targets are known to hold. -/
def register (s : RuntimeEffectsState) : Register TargetKey StateRevision Value :=
  ⟨s.observedRevisions.find?, s.observed.find?⟩

abbrev IsNewer (s : RuntimeEffectsState) (d : Delivery) : Prop :=
  Newer Delivery.key Delivery.revision (register s) d

/-- What a delivery does when the store takes its records. -/
structure Delivered (s : RuntimeEffectsState) (d : Delivery) (s' : RuntimeEffectsState) :
    Prop where
  session : s'.session = s.session
  adapters : s'.adapters = s.adapters
  refused : s'.store.refused = s.store.refused
  commands : ∀ id, s'.commands.find? id = (s.commands.find? id).map (d.mark id)
  taken : IsNewer s d → Committable d.value →
    s'.observed = s.observed.insert d.key d.value ∧
      s'.observedRevisions = s.observedRevisions.insert d.key d.revision
  left : ¬(IsNewer s d ∧ Committable d.value) →
    s'.observed = s.observed ∧ s'.observedRevisions = s.observedRevisions

section Step

variable {s s' : RuntimeEffectsState}

/-- The delivery has been made, or the store has refused one of its records. -/
def Outcome (s : RuntimeEffectsState) (d : Delivery) (s' : RuntimeEffectsState) : Prop :=
  Delivered s d s' ∨ s.store.refused < s'.store.refused

theorem outcome_refused {d : Delivery} (h : s'.store.refused = s.store.refused) :
    Outcome s d (refused s') := by
  right
  show s.store.refused < s'.store.refused + 1
  omega

/-- A record that may be too large to be built. -/
theorem wp_record_or {type : EventType} {fields : List (String × Value)}
    {Q : Unit → RuntimeEffectsState → Prop} {F : RuntimeEffectsState → Prop}
    (hok : ∀ payload, eventPayload fields = .ok payload → Q () (recorded type payload s))
    (hbad : (∀ payload, eventPayload fields ≠ .ok payload) → F s) (hrefused : F (refused s)) :
    wp (record type fields) Q (fun _ => F) s := by
  simp only [record, wp_bind]
  exact wp_check (fun payload hp => wp_append (fun _ => hok payload hp) hrefused) hbad

/-! ### Observations -/

theorem observationFields_ok {o : ExternalObservation} {disposition : String}
    (hvalue : Committable o.observedValue)
    (hd : (Value.string (utf8 disposition)).fits 1 = true) :
    ∃ payload, eventPayload (observationFields o disposition) = .ok payload := by
  obtain ⟨hfits, hnodes⟩ := hvalue
  have hpos : 1 ≤ o.observedValue.nodes := by cases o.observedValue <;> simp [Value.nodes]
  refine ⟨_, (eventPayload_ok_iff rfl).mpr ⟨?_, ?_⟩⟩
  · intro f hf
    simp only [observationFields, List.mem_cons, List.not_mem_nil, or_false] at hf
    rcases hf with rfl | rfl | rfl | rfl | rfl | rfl | rfl
    · exact fits_unsigned _
    · exact fits_route _
    · exact fits_target _
    · exact fits_unsigned _
    · exact fits_unsigned _
    · exact hfits
    · exact hd
  · simp only [observationFields, List.map_cons, List.map_nil, List.sum_cons, List.sum_nil,
      Value.nodes]
    omega

theorem externalFields_ok_iff {o : ExternalObservation} :
    (∃ payload, eventPayload (externalFields o) = .ok payload) ↔ Committable o.observedValue := by
  have hiff := @eventPayload_ok_iff (externalFields o) rfl
  have hsum : 1 + ((externalFields o).map fun f => f.2.nodes).sum =
      2 * o.observedValue.nodes + 6 := by
    simp only [externalFields, List.map_cons, List.map_nil, List.sum_cons, List.sum_nil,
      Value.nodes]
    omega
  have hsource : (Value.string (utf8 "external")).fits 1 = true := by decide +kernel
  have hfits : (∀ f ∈ externalFields o, f.2.fits 1 = true) ↔ o.observedValue.fits 1 = true := by
    simp only [externalFields, List.forall_mem_cons, fits_observedText, fits_unsigned, fits_route,
      fits_target, hsource, List.not_mem_nil, true_and, and_true, false_imp_iff, implies_true,
      and_self]
  rw [hsum, hfits] at hiff
  rw [Committable, ← hiff]
  constructor
  · rintro ⟨payload, hp⟩
    rw [hp, (eventPayload_eq_ok hp).1]
  · exact fun h => ⟨_, h⟩

/-- An observation on a registered route is accepted if and only if it is newer. -/
theorem observationDisposition_accepted_iff {o : ExternalObservation}
    (hsession : o.sessionId = s.session)
    (hroute : s.adapters.contains o.adapterRoute.value = true) :
    observationDisposition s o = "accepted" ↔ IsNewer s (.observation o) := by
  have hknown : ¬(o.sessionId ≠ s.session ∨
      s.adapters.contains o.adapterRoute.value = false) := by
    rw [hroute]
    simp [hsession]
  unfold observationDisposition
  rw [if_neg hknown]
  cases hprior : s.observedRevisions.find? o.key with
  | none => exact iff_of_true rfl fun prior h => nomatch hprior.symm.trans h
  | some revision =>
      dsimp only
      by_cases hgt : revision > o.stateRevision
      · rw [if_pos hgt]
        refine iff_of_false (by decide) fun h => ?_
        exact absurd (h revision hprior) (not_lt.mpr (le_of_lt hgt))
      rw [if_neg hgt]
      by_cases heq : revision = o.stateRevision
      · rw [if_pos heq]
        refine iff_of_false (by split <;> decide) fun h => ?_
        exact absurd (h revision hprior) (not_lt.mpr (ge_of_eq heq))
      · rw [if_neg heq]
        refine iff_of_true rfl fun prior h => ?_
        obtain rfl := Option.some.inj (hprior.symm.trans h)
        exact lt_of_le_of_ne (not_lt.mp hgt) heq

theorem fits_observationDisposition (o : ExternalObservation) :
    (Value.string (utf8 (observationDisposition s o))).fits 1 = true := by
  unfold observationDisposition
  split
  · decide +kernel
  split
  · decide +kernel
  split
  · decide +kernel
  split
  · split <;> decide +kernel
  · decide +kernel

theorem wp_applyObservation_outcome {o : ExternalObservation}
    (h : Deliverable s (.observation o)) :
    wp (applyObservation o) (fun _ s' => Outcome s (.observation o) s')
      (fun _ s' => Outcome s (.observation o) s') s := by
  obtain ⟨hvalid, hsession, hroute⟩ := h
  have haccepted := observationDisposition_accepted_iff hsession hroute
  have hmark : ∀ id, s.commands.find? id =
      (s.commands.find? id).map ((Delivery.observation o).mark id) := by
    intro id
    cases s.commands.find? id <;> rfl
  -- nothing is held that was not held before
  have hleft : ∀ u : RuntimeEffectsState, u.session = s.session → u.adapters = s.adapters →
      u.store.refused = s.store.refused → u.commands = s.commands → u.observed = s.observed →
      u.observedRevisions = s.observedRevisions →
      ¬(IsNewer s (.observation o) ∧ Committable o.observedValue) →
      Outcome s (.observation o) u := by
    intro u h₁ h₂ h₃ h₄ h₅ h₆ hnot
    refine .inl ⟨h₁, h₂, h₃, fun id => by rw [h₄]; exact hmark id, fun hn hc => ?_, fun _ => ?_⟩
    · exact absurd ⟨hn, hc⟩ hnot
    · exact ⟨h₅, h₆⟩
  simp only [applyObservation, wp_bind]
  refine wp_check (fun _ _ => ?_) fun hbad => absurd hvalid (hbad ())
  simp only [wp_bind, wp_get]
  refine wp_record_or (fun payload _ => ?_) (fun hnone => ?_) (outcome_refused rfl)
  · split
    · next hacc =>
        have hnewer := haccepted.mp hacc
        simp only [wp_bind]
        refine wp_record_or (fun payload' hp' => ?_) (fun hnone => ?_) (outcome_refused rfl)
        · rw [wp_modify]
          have hcommittable := externalFields_ok_iff.mp ⟨payload', hp'⟩
          refine .inl ⟨rfl, rfl, rfl, hmark, fun _ _ => ⟨rfl, rfl⟩, fun hnot => ?_⟩
          exact absurd ⟨hnewer, hcommittable⟩ hnot
        · refine hleft _ rfl rfl rfl rfl rfl rfl fun hboth => ?_
          obtain ⟨payload', hp'⟩ := externalFields_ok_iff.mpr hboth.2
          exact hnone payload' hp'
    · next hacc =>
        refine (wp_pure _).mpr (hleft _ rfl rfl rfl rfl rfl rfl fun hboth => ?_)
        exact hacc (haccepted.mpr hboth.1)
  · refine hleft _ rfl rfl rfl rfl rfl rfl fun hboth => ?_
    obtain ⟨payload, hp⟩ := observationFields_ok hboth.2 (fits_observationDisposition o)
    exact hnone payload hp

/-! ### Reports -/

/-- The entries once the report has been accepted. -/
theorem mark_acceptedState {r : AppliedReport} {state : CommandState} {p p' : Value}
    (acceptable : Acceptable s r.report state) (id : CommandId) :
    (acceptedState r.report state p p' s).commands.find? id =
      (s.commands.find? id).map ((Delivery.report r).mark id) := by
  rw [acceptedState_commands acceptable.found, OrdMap.find?_insert, r.applied]
  by_cases hid : id = r.report.commandId
  · rw [if_pos hid, hid, acceptable.found, Option.map_some]
    simp only [Delivery.mark, if_true]
  · rw [if_neg hid]
    cases s.commands.find? id with
    | none => rfl
    | some other => simp only [Option.map_some, Delivery.mark, if_neg hid]

theorem wp_commitReport_outcome {r : AppliedReport} {u : RuntimeEffectsState}
    (hsession : u.session = s.session) (hadapters : u.adapters = s.adapters)
    (hrefused : u.store.refused = s.store.refused) (hobserved : u.observed = s.observed)
    (hrevisions : u.observedRevisions = s.observedRevisions)
    (hcommands : ∀ id, u.commands.find? id =
      (s.commands.find? id).map ((Delivery.report r).mark id)) :
    wp (commitReport r.report r.value) (fun _ s' => Outcome s (.report r) s')
      (fun _ s' => Outcome s (.report r) s') u := by
  have hleft : ¬(IsNewer s (.report r) ∧ Committable r.value) → Outcome s (.report r) u :=
    fun hnot => .inl ⟨hsession, hadapters, hrefused, hcommands,
      fun hn hc => absurd ⟨hn, hc⟩ hnot, fun _ => ⟨hobserved, hrevisions⟩⟩
  by_cases hnewer : IsNewer s (.report r)
  · have newer : ∀ prior, u.observedRevisions.find? r.report.key = some prior →
        prior < r.report.stateRevision := by
      intro prior hprior
      rw [hrevisions] at hprior
      exact hnewer prior hprior
    refine wp_commitReport_newer newer ?_
    simp only [commitAuthoritative, wp_bind]
    refine wp_record_or (fun payload hp => ?_) (fun hnone => hleft fun hboth => ?_)
      (outcome_refused hrefused)
    · have hcommittable := committedFields_ok_iff.mp ⟨payload, hp⟩
      rw [wp_modify]
      refine .inl ⟨hsession, hadapters, hrefused, hcommands, fun _ _ => ?_, fun hnot => ?_⟩
      · rw [← hobserved, ← hrevisions]
        exact ⟨rfl, rfl⟩
      · exact absurd ⟨hnewer, hcommittable⟩ hnot
    · obtain ⟨payload, hp⟩ := committedFields_ok_iff.mpr hboth.2
      exact hnone payload hp
  · have hdone := hleft fun hboth => hnewer hboth.1
    simp only [commitReport, wp_bind, wp_get]
    split
    · next hnone =>
        refine absurd (fun prior hprior => ?_) hnewer
        rw [hrevisions] at hnone
        exact nomatch hnone.symm.trans hprior
    · next revision hrevision =>
        split
        · exact (wp_pure _).mpr hdone
        · next hle =>
            split
            · split
              · exact (wp_pure _).mpr hdone
              · obtain ⟨payload, hp⟩ := @reportFields_ok r.report
                  "rejected-conflicting-state-revision" (by decide +kernel)
                refine wp_record_of_ok hp (fun _ => ?_) (outcome_refused hrefused)
                exact .inl ⟨hsession, hadapters, hrefused, hcommands,
                  fun hn _ => absurd hn hnewer, fun _ => ⟨hobserved, hrevisions⟩⟩
            · next hne =>
                refine absurd (fun prior hprior => ?_) hnewer
                rw [hrevisions] at hrevision
                obtain rfl := Option.some.inj (hrevision.symm.trans hprior)
                exact lt_of_le_of_ne (not_lt.mp hle) hne

theorem wp_applyReport_outcome {r : AppliedReport} (h : Deliverable s (.report r)) :
    wp (applyReport r.report) (fun _ s' => Outcome s (.report r) s')
      (fun _ s' => Outcome s (.report r) s') s := by
  obtain ⟨state, acceptable⟩ := h
  refine wp_applyReport_acceptable acceptable (wp_acceptReport acceptable (outcome_refused rfl)
    (fun _ => outcome_refused rfl) fun p p' => ?_)
  rw [commitAccepted, if_pos r.applied, r.observed]
  have hcommands := @mark_acceptedState s r state p p' acceptable
  by_cases hsuperseded : state.status = .superseded
  · simp only [acceptedState, if_pos hsuperseded] at hcommands ⊢
    exact wp_commitReport_outcome rfl rfl rfl rfl rfl hcommands
  · simp only [acceptedState, if_neg hsuperseded] at hcommands ⊢
    exact wp_commitReport_outcome rfl rfl rfl rfl rfl hcommands

/-- One delivery. -/
theorem after_delivery {d : Delivery} (h : Deliverable s d) : Outcome s d (after d.program s) := by
  cases d with
  | report r => exact wp_after.mp (wp_applyReport_outcome h)
  | observation o => exact wp_after.mp (wp_applyObservation_outcome h)

end Step

/-! ## Runs -/

/-- The deliveries, one after the other; a call that throws is left behind. -/
def deliverAll (ds : List Delivery) (s : RuntimeEffectsState) : RuntimeEffectsState :=
  ds.foldl (fun s d => after d.program s) s

/-- The status of a command after the deliveries. -/
def statusAfter (s : RuntimeEffectsState) (ds : List Delivery) (id : CommandId) :
    Option CommandStatus :=
  (s.commands.find? id).map fun state =>
    if state.status ≠ .superseded ∧ some id ∈ ds.map Delivery.commandId then .applied
    else state.status

/-- What a run of deliveries has done so far: the values that fit into their records have settled,
    and the commands reported on have been applied. -/
structure Progress (s : RuntimeEffectsState) (done : List Delivery) (t : RuntimeEffectsState) :
    Prop where
  session : t.session = s.session
  adapters : t.adapters = s.adapters
  settled : Settled Delivery.key Delivery.revision Delivery.value (register s)
    (done.filter fun d => Committable d.value) (register t)
  waiting : ∀ id, some id ∉ done.map Delivery.commandId →
    t.commands.find? id = s.commands.find? id
  statuses : ∀ id, commandStatus t id = statusAfter s done id

section Run

variable {s t t' : RuntimeEffectsState} {done rest : List Delivery} {d : Delivery}

theorem progress_nil (s : RuntimeEffectsState) : Progress s [] s := by
  refine ⟨rfl, rfl, settled_nil, fun _ _ => rfl, fun id => ?_⟩
  unfold commandStatus statusAfter
  refine congrArg (fun f => (s.commands.find? id).map f) (funext fun state => ?_)
  simp only [List.map_nil, List.not_mem_nil, and_false, if_false]

/-- A delivery still to be made can be made. -/
theorem Progress.deliverable (h : Progress s done t) (hd : Deliverable s d)
    (hfresh : ∀ id, d.commandId = some id → some id ∉ done.map Delivery.commandId) :
    Deliverable t d := by
  cases d with
  | report r =>
      obtain ⟨state, hvalid, hfound, hsession, hroute, htarget, hfirst, hcurrent⟩ := hd
      refine ⟨state, hvalid, ?_, hsession.trans h.session.symm, hroute, htarget, hfirst, hcurrent⟩
      rw [h.waiting _ (hfresh _ rfl)]
      exact hfound
  | observation o =>
      obtain ⟨hvalid, hsession, hroute⟩ := hd
      refine ⟨hvalid, hsession.trans h.session.symm, ?_⟩
      rw [h.adapters]
      exact hroute

theorem statusAfter_append (s : RuntimeEffectsState) (done : List Delivery) (d : Delivery)
    (id : CommandId) (hstatus : commandStatus t id = statusAfter s done id) :
    ((t.commands.find? id).map (d.mark id)).map CommandState.status =
      statusAfter s (done ++ [d]) id := by
  unfold commandStatus statusAfter at hstatus
  unfold statusAfter
  cases hbefore : s.commands.find? id with
  | none =>
      rw [hbefore, Option.map_none] at hstatus
      rw [Option.map_eq_none_iff.mp hstatus]
      rfl
  | some state =>
      rw [hbefore, Option.map_some] at hstatus
      obtain ⟨now, hnow, hnowStatus⟩ := Option.map_eq_some_iff.mp hstatus
      rw [hnow]
      simp only [Option.map_some, Option.some.injEq, List.map_append, List.map_cons, List.map_nil,
        List.mem_append, List.mem_singleton]
      cases d with
      | observation o =>
          simp only [Delivery.mark, Delivery.commandId, reduceCtorEq, or_false]
          exact hnowStatus
      | report r =>
          simp only [Delivery.mark, Delivery.commandId, Option.some.injEq]
          by_cases hid : id = r.report.commandId
          · rw [if_pos hid]
            simp only [hid, or_true, and_true]
            rw [hnowStatus]
            by_cases hsuperseded : state.status = .superseded
            · simp only [hsuperseded, ne_eq, not_true_eq_false, false_and, if_false, if_true]
            · simp only [ne_eq, hsuperseded, not_false_eq_true, true_and, if_true]
              split
              · rfl
              · rfl
          · rw [if_neg hid]
            simp only [hid, or_false]
            exact hnowStatus

theorem register_delivered (h : Delivered t d t') (htakes : IsNewer t d ∧ Committable d.value) :
    ((register t').revisions d.key = some d.revision ∧ (register t').values d.key = some d.value) ∧
      ∀ k, k ≠ d.key → (register t').revisions k = (register t).revisions k ∧
        (register t').values k = (register t).values k := by
  obtain ⟨hobserved, hrevisions⟩ := h.taken htakes.1 htakes.2
  unfold register
  dsimp only
  rw [hobserved, hrevisions]
  refine ⟨⟨OrdMap.find?_insert_self _ _ _, OrdMap.find?_insert_self _ _ _⟩, fun k hk => ?_⟩
  exact ⟨OrdMap.find?_insert_ne _ hk _, OrdMap.find?_insert_ne _ hk _⟩

theorem Progress.next (h : Progress s done t) (hd : Delivered t d t')
    (hdistinct : Distinct Delivery.key Delivery.revision (done ++ [d])) :
    Progress s (done ++ [d]) t' := by
  refine ⟨hd.session.trans h.session, hd.adapters.trans h.adapters, ?_, fun id hid => ?_,
    fun id => ?_⟩
  · rw [List.filter_append]
    by_cases hcommittable : Committable d.value
    · have hkept : [d].filter (fun d => decide (Committable d.value)) = [d] := by
        simp only [List.filter_cons, hcommittable, decide_true, if_true,
          List.filter_nil]
      rw [hkept]
      by_cases hnewer : IsNewer t d
      · obtain ⟨hself, hother⟩ := register_delivered hd ⟨hnewer, hcommittable⟩
        exact h.settled.take hnewer hself hother
      · obtain ⟨hobserved, hrevisions⟩ := hd.left fun hboth => hnewer hboth.1
        refine h.settled.leave ?_ hnewer fun k => ?_
        · refine List.Pairwise.sublist ?_ hdistinct
          exact List.filter_sublist.append (List.Sublist.refl _)
        · unfold register
          rw [hobserved, hrevisions]
          exact ⟨rfl, rfl⟩
    · have hdropped : [d].filter (fun d => decide (Committable d.value)) = [] := by
        simp only [List.filter_cons, hcommittable, decide_false,
          Bool.false_eq_true, if_false, List.filter_nil]
      obtain ⟨hobserved, hrevisions⟩ := hd.left fun hboth => hcommittable hboth.2
      have hsame : register t' = register t := by
        unfold register
        rw [hobserved, hrevisions]
      rw [hdropped, List.append_nil, hsame]
      exact h.settled
  · simp only [List.map_append, List.map_cons, List.map_nil, List.mem_append,
      List.mem_singleton, not_or] at hid
    have hmark : ∀ state, d.mark id state = state := by
      intro state
      cases d with
      | observation => rfl
      | report r =>
          have hne : id ≠ r.report.commandId := fun he => hid.2 (by rw [he]; rfl)
          simp only [Delivery.mark, if_neg hne]
    rw [hd.commands, h.waiting id hid.1]
    cases s.commands.find? id with
    | none => rfl
    | some state => rw [Option.map_some, hmark]
  · rw [commandStatus, hd.commands]
    exact statusAfter_append s done d id (h.statuses id)

/-- A store forgets no refusal. -/
theorem refused_le_of_step {A : Allow} (h : Step A s t) : s.store.refused ≤ t.store.refused := by
  cases h with
  | store idle => exact idle.refused
  | @issued command adapter capabilities payload attemptPayload stage =>
      cases stage with
      | refusedAttempt => exact Nat.le_succ _
      | unflushed => exact le_rfl
      | called => exact le_rfl
  | @retried id state now attemptPayload stage =>
      cases stage with
      | refusedAttempt => exact Nat.le_succ _
      | unflushed => exact le_rfl
      | called => exact le_rfl
  | unrecorded => exact Nat.le_succ _
  | @accept report state reportPayload statusPayload =>
      unfold acceptedState
      dsimp only
      split <;> exact le_rfl
  | @prune id state found ended =>
      rw [pruneOne_eq found ended]
  | @register adapter route capabilities events commands store' new built taken =>
      have hstore : (s.store.appendBatch events .durable).2 = store' := by rw [taken]
      dsimp only
      rw [← hstore]
      unfold EventStore.appendBatch
      split
      · exact le_rfl
      · split
        · exact le_rfl
        · exact Nat.le_succ _
  | quiet => exact le_rfl
  | inert => exact le_rfl
  | transition => exact le_rfl
  | torn => exact le_rfl
  | terminal => exact le_rfl
  | skipped => exact le_rfl
  | commit => exact le_rfl
  | observe => exact le_rfl

theorem refused_le_of_moves {A : Allow} (h : Moves A s t) :
    s.store.refused ≤ t.store.refused := by
  induction h with
  | refl => exact le_rfl
  | tail _ step ih => exact le_trans ih (refused_le_of_step step)

theorem refused_le_delivery (d : Delivery) (s : RuntimeEffectsState) :
    s.store.refused ≤ (after d.program s).store.refused := by
  have hruns : Runs anyStep s d.program s := by
    cases d with
    | report r => exact Runs.applyReport anyStep_open .refl fun _ _ => trivial
    | observation o => exact Runs.applyObservation anyStep_open .refl
  refine (wp_after (P := fun t => s.store.refused ≤ t.store.refused)).mp (wp_mono hruns ?_ ?_)
  · exact fun _ _ h => refused_le_of_moves h.of_clean
  · exact fun _ _ h => refused_le_of_moves h

theorem refused_le_deliverAll (ds : List Delivery) (s : RuntimeEffectsState) :
    s.store.refused ≤ (deliverAll ds s).store.refused := by
  induction ds generalizing s with
  | nil => exact le_rfl
  | cons d rest ih => exact le_trans (refused_le_delivery d s) (ih _)

variable (rest) in
/-- A run of deliveries, if the store takes all records. -/
theorem Progress.run (h : Progress s done t)
    (hrefused : (deliverAll rest t).store.refused = t.store.refused)
    (deliverable : ∀ d ∈ rest, Deliverable s d)
    (once : ((done ++ rest).filterMap Delivery.commandId).Nodup)
    (hdistinct : Distinct Delivery.key Delivery.revision (done ++ rest)) :
    Progress s (done ++ rest) (deliverAll rest t) := by
  induction rest generalizing done t with
  | nil =>
      rw [List.append_nil]
      exact h
  | cons d rest ih =>
      have hfresh : ∀ id, d.commandId = some id → some id ∉ done.map Delivery.commandId := by
        intro id hid hmem
        obtain ⟨d', hd', hid'⟩ := List.mem_map.mp hmem
        rw [List.filterMap_append, List.filterMap_cons, hid] at once
        exact (List.nodup_append'.mp once).2.2 (List.mem_filterMap.mpr ⟨d', hd', hid'⟩)
          List.mem_cons_self
      have hd := h.deliverable (deliverable d List.mem_cons_self) hfresh
      have hfirst := refused_le_delivery d t
      have hrest : (deliverAll rest (after d.program t)).store.refused = t.store.refused :=
        hrefused
      have hle := refused_le_deliverAll rest (after d.program t)
      rcases after_delivery hd with hdelivered | hlost
      · rw [← List.singleton_append, ← List.append_assoc] at once hdistinct ⊢
        refine ih (h.next hdelivered ?_) ?_ ?_ once hdistinct
        · exact (List.pairwise_append.mp hdistinct).1
        · rw [hrest, hdelivered.refused]
        · exact fun d hd => deliverable d (List.mem_cons_of_mem _ hd)
      · omega

end Run


/-! ## Every order -/

/-- What the deliveries are meant to do: each target holds the newest value it was ever given, and
    each command reported on has been applied, unless another had superseded it. -/
structure Settles (s : RuntimeEffectsState) (ds : List Delivery) (t : RuntimeEffectsState) :
    Prop where
  observed : Settled Delivery.key Delivery.revision Delivery.value (register s) ds (register t)
  statuses : ∀ id, commandStatus t id = statusAfter s ds id

/-- The newest value for each target fits into its record. -/
def NewestFits (s : RuntimeEffectsState) (ds : List Delivery) : Prop :=
  ∀ d ∈ ds, IsNewer s d → Greatest Delivery.key Delivery.revision ds d → Committable d.value

theorem statusAfter_perm {s : RuntimeEffectsState} {ds ds' : List Delivery}
    (hperm : ds.Perm ds') (id : CommandId) : statusAfter s ds id = statusAfter s ds' id := by
  unfold statusAfter
  refine congrArg (fun f => (s.commands.find? id).map f) (funext fun state => ?_)
  simp only [(hperm.map Delivery.commandId).mem_iff]

/-- Whatever the order, the deliveries leave the same values, revisions and statuses; and these
    are the newest values if and only if the newest values fit into their records. -/
theorem deliveries_settle_iff {s : RuntimeEffectsState} {ds : List Delivery}
    (deliverable : ∀ d ∈ ds, Deliverable s d) (once : (ds.filterMap Delivery.commandId).Nodup)
    (hdistinct : Distinct Delivery.key Delivery.revision ds) {ds' : List Delivery}
    (hperm : ds'.Perm ds)
    (taken : (deliverAll ds' s).store.refused = s.store.refused) :
    (Settles s ds (deliverAll ds' s) ↔ NewestFits s ds) ∧
    ∀ ds'', ds''.Perm ds → (deliverAll ds'' s).store.refused = s.store.refused →
      (deliverAll ds'' s).observed = (deliverAll ds' s).observed ∧
      (deliverAll ds'' s).observedRevisions = (deliverAll ds' s).observedRevisions ∧
      ∀ id, commandStatus (deliverAll ds'' s) id = commandStatus (deliverAll ds' s) id := by
  have hrun : ∀ order, order.Perm ds → (deliverAll order s).store.refused = s.store.refused →
      Settled Delivery.key Delivery.revision Delivery.value (register s)
        (ds.filter fun d => Committable d.value) (register (deliverAll order s)) ∧
      ∀ id, commandStatus (deliverAll order s) id = statusAfter s ds id := by
    intro order horder hrefused
    have hprogress := (progress_nil s).run order hrefused
      (fun d hd => deliverable d (horder.mem_iff.mp hd))
      ((horder.filterMap Delivery.commandId).nodup_iff.mpr once) (hdistinct.perm horder.symm)
    exact ⟨hprogress.settled.perm (horder.filter _),
      fun id => (hprogress.statuses id).trans (statusAfter_perm horder id)⟩
  obtain ⟨hsettled, hstatuses⟩ := hrun ds' hperm taken
  have hiff := settled_filter_iff hdistinct hsettled
  refine ⟨⟨fun h => hiff.mp h.observed, fun h => ⟨hiff.mpr h, hstatuses⟩⟩, ?_⟩
  intro ds'' hperm' taken'
  obtain ⟨hsettled', hstatuses'⟩ := hrun ds'' hperm' taken'
  refine ⟨OrdMap.ext_find? fun k => ?_, OrdMap.ext_find? fun k => ?_, fun id => ?_⟩
  · exact (hsettled'.unique hsettled k).2
  · exact (hsettled'.unique hsettled k).1
  · exact (hstatuses' id).trans (hstatuses id).symm

/-! ### A lamp that reports and is switched by hand -/

def lampApplied : AppliedReport where
  report := ⟨1, 1, lampRoute, lampTarget, .applied, some (.boolean true), [], 6, 5⟩
  value := .boolean true
  applied := rfl
  observed := rfl
  valid := by decide +kernel

def lampSeen (value : Value) : ExternalObservation := ⟨1, lampRoute, lampTarget, value, 9, 7⟩

theorem lampApplied_deliverable : Deliverable lampOn (.report lampApplied) :=
  ⟨newCommand lampCommand 0 {}, by decide +kernel, rfl, by decide +kernel, rfl, rfl, rfl, nofun⟩

theorem lampSeen_deliverable {value : Value} (h : value.validate = .ok ()) :
    Deliverable lampOn (.observation (lampSeen value)) := by
  have hsession : lampOn.session = 1 := by decide +kernel
  have hroute : lampOn.adapters.contains lampRoute.value = true := by decide +kernel
  exact ⟨h, hsession.symm, hroute⟩

theorem deliveries_settle_lamp :
    Settles lampOn [.report lampApplied, .observation (lampSeen (.boolean false))]
      (deliverAll [.observation (lampSeen (.boolean false)), .report lampApplied] lampOn) := by
  refine (deliveries_settle_iff ?_ ?_ ?_ (List.Perm.swap _ _ _) ?_).1.mpr ?_
  · intro d hd
    simp only [List.mem_cons, List.not_mem_nil, or_false] at hd
    rcases hd with rfl | rfl
    · exact lampApplied_deliverable
    · exact lampSeen_deliverable (by decide +kernel)
  · decide
  · refine List.pairwise_cons.mpr ⟨fun d hd _ => ?_, List.pairwise_singleton _ _⟩
    obtain rfl := List.mem_singleton.mp hd
    decide
  · decide +kernel
  · intro d hd _ _
    simp only [List.mem_cons, List.not_mem_nil, or_false] at hd
    rcases hd with rfl | rfl
    · exact (by decide +kernel : Committable (.boolean true))
    · exact (by decide +kernel : Committable (.boolean false))

set_option maxRecDepth 10000 in
theorem heavyValue_valid : heavyValue.validate = .ok () := by
  have hvalid : heavyValue.valid = true := by decide +kernel
  unfold Value.valid at hvalid
  cases h : heavyValue.validate with
  | ok => rfl
  | error e => rw [h] at hvalid; cases hvalid

theorem Settles.not_lost {seen : ExternalObservation} {delivered : RuntimeEffectsState}
    (hbefore : lampOn.observedRevisions.find? seen.key = none)
    (hafter : delivered.observedRevisions.find? seen.key = none) :
    ¬Settles lampOn [.observation seen] delivered := by
  intro h
  have hnewest := h.observed.greatest (.observation seen) List.mem_cons_self
    (fun prior hprior => absurd (hbefore.symm.trans hprior) (Option.some_ne_none prior).symm)
    (fun d hd _ => by rw [List.mem_singleton.mp hd])
  exact Option.some_ne_none _ (hnewest.1.symm.trans hafter)

set_option maxRecDepth 10000 in
/-- An observed value that passes validation and is too large for its record: the target keeps
    what it held before. -/
theorem deliveries_lose_heavy :
    Deliverable lampOn (.observation (lampSeen heavyValue)) ∧
    (deliverAll [.observation (lampSeen heavyValue)] lampOn).store.refused =
      lampOn.store.refused ∧
    ¬Settles lampOn [.observation (lampSeen heavyValue)]
      (deliverAll [.observation (lampSeen heavyValue)] lampOn) :=
  ⟨lampSeen_deliverable heavyValue_valid, by decide +kernel,
    Settles.not_lost (by decide +kernel) (by decide +kernel)⟩

end Effects

end LiquidLayer
