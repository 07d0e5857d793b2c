/-
  Every operation of `RuntimeEffectsState` is a sequence of steps (`Step`).

  `Runs A s₀ m s`: from `s`, which clean steps reach from `s₀`, the program `m` returns after
  clean steps only, or throws after steps of `A`.

  * `applyReport_runs`, `applyObservation_runs`, `processFeedback_runs`
  * `registerAdapter_runs`
  * `dispatch_runs`, `retryDue_runs`, `issue_runs`, `clearDesire_runs`
  * `reconcileIndeterminate_runs`, `pruneTerminalHistory_runs`, `checkpoint_runs`
-/
import LiquidLayer.Effects.Step

namespace LiquidLayer

namespace Effects

open Prog

/-! ## Rules for the building blocks -/

section Rules

variable {Q : Unit → RuntimeEffectsState → Prop} {F : RuntimeEffectsState → Prop}
  {s : RuntimeEffectsState}

theorem wp_check {α : Type} {x : Except Failure α} {Q : α → RuntimeEffectsState → Prop}
    (hok : ∀ a, x = .ok a → Q a s) (hthrow : (∀ a, x ≠ .ok a) → F s) :
    wp (check x) Q (fun _ => F) s := by
  unfold check
  cases x with
  | ok a => exact wp_pure a |>.mpr (hok a rfl)
  | error e => exact wp_throw e |>.mpr (hthrow nofun)

theorem wp_commandAt {id : UInt64} {state : CommandState}
    {Q : CommandState → RuntimeEffectsState → Prop}
    (found : s.commands.find? id = some state) (hok : Q state s) :
    wp (commandAt id) Q (fun _ => F) s := by
  simp only [commandAt, wp_bind, wp_get, found, wp_pure]
  exact hok

theorem wp_append {type : EventType} {payload : Value} {durability : Durability}
    (hok : s.store.nextSequence ≠ 0 → Q () (recorded type payload s durability))
    (hrefused : F (refused s)) : wp (append type payload durability) Q (fun _ => F) s := by
  simp only [append, appendBatch, wp_bind, wp_get, wp_set, EventStore.appendBatch,
    List.isEmpty_cons, Bool.false_eq_true, if_false]
  split
  · next hadmits =>
      simp only [if_true, wp_pure]
      refine hok ?_
      simp only [EventStore.admits, Bool.and_eq_true, bne_iff_ne, ne_eq] at hadmits
      exact hadmits.1.1.2
  · simp only [Bool.false_eq_true, if_false, wp_throw]
    exact hrefused

theorem wp_record {type : EventType} {fields : List (String × Value)}
    (hok : ∀ payload, eventPayload fields = .ok payload → s.store.nextSequence ≠ 0 →
      Q () (recorded type payload s))
    (hthrow : F s) (hrefused : F (refused s)) : wp (record type fields) Q (fun _ => F) s := by
  simp only [record, wp_bind]
  exact wp_check (fun payload hp => wp_append (hok payload hp) hrefused) fun _ => hthrow

/-- A record whose payload is known to fit. -/
theorem wp_record_of_ok {type : EventType} {fields : List (String × Value)} {payload : Value}
    (hp : eventPayload fields = .ok payload)
    (hok : s.store.nextSequence ≠ 0 → Q () (recorded type payload s)) (hrefused : F (refused s)) :
    wp (record type fields) Q (fun _ => F) s := by
  simp only [record, wp_bind, check, hp, wp_pure]
  exact wp_append hok hrefused

/-- The state after a flush that went through. -/
def flushedState (s : RuntimeEffectsState) : RuntimeEffectsState :=
  { s with store := { s.store with
    flushed := s.store.records.length, calls := s.store.calls + 1 } }

/-- The state after a flush that did not. -/
def unflushedState (s : RuntimeEffectsState) : RuntimeEffectsState :=
  { s with store := { s.store with calls := s.store.calls + 1 } }

theorem wp_flush (hok : Q () (flushedState s)) (hfail : F (unflushedState s)) :
    wp flush Q (fun _ => F) s := by
  simp only [flush, wp_bind, wp_get, wp_set, EventStore.flush]
  split
  · simp only [if_true, wp_pure]
    exact hok
  · simp only [Bool.false_eq_true, if_false, wp_throw]
    exact hfail

theorem wp_transition {id : UInt64} {state : CommandState} {status : CommandStatus}
    {reason : Bytes} (found : s.commands.find? id = some state)
    (hok : ∀ payload, eventPayload (statusFields id status reason) = .ok payload →
      s.store.nextSequence ≠ 0 →
        Q () (withStatus id state status (recorded .commandStatusChanged payload s)))
    (hthrow : F s) (hrefused : F (refused s)) :
    wp (transition id status reason) Q (fun _ => F) s := by
  simp only [transition, wp_bind]
  refine wp_record (fun payload hp room => ?_) hthrow hrefused
  have found' : (recorded .commandStatusChanged payload s).commands.find? id = some state := found
  simp only [setStatus, wp_bind]
  refine wp_commandAt found' ?_
  rw [wp_modify]
  exact hok payload hp room

theorem wp_commitAuthoritative {route : AdapterRoute} {target : EffectTarget} {value : Value}
    {revision : StateRevision} {commandId : UInt64}
    (hok : ∀ payload,
      eventPayload (committedFields route target value revision commandId) = .ok payload →
      s.store.nextSequence ≠ 0 → Q () (withAuthority (targetKey route target) commandId
        (withObserved (targetKey route target) value revision
          (recorded .observedStateChanged payload s))))
    (hthrow : F s) (hrefused : F (refused s)) :
    wp (commitAuthoritative route target value revision commandId) Q (fun _ => F) s := by
  simp only [commitAuthoritative, wp_bind]
  refine wp_record ?_ hthrow hrefused
  intro payload hp room
  simp only [wp_modify]
  exact hok payload hp room

end Rules

/-! ## Runs -/

/-- From `s`, the program returns after clean steps only, or throws after steps of `A`. -/
def Runs {α : Type} (A : Allow) (s₀ : RuntimeEffectsState) (m : Effects α)
    (s : RuntimeEffectsState) : Prop :=
  wp m (fun _ s' => Moves A.clean s₀ s') (fun _ s' => Moves A s₀ s') s

/-- The operations may be interrupted, and a report on a pending command is always allowed. -/
structure Allow.Open (A : Allow) : Prop where
  broken : A.broken
  pending : ∀ s report state, Acceptable s report state → state.status = .pending →
    A.report s report

section Runs

variable {A : Allow} {s₀ s : RuntimeEffectsState}

theorem idle_refuse (store : EventStore) : Idle store store.refuse :=
  ⟨rfl, rfl, rfl, .inl rfl, Nat.le_succ _⟩

theorem Moves.refused (o : A.Open) (hs : Moves A s₀ s) : Moves A s₀ (refused s) :=
  hs.tail (.store (idle_refuse _) fun _ => o.broken)

theorem Moves.flushed (hs : Moves A s₀ s) : Moves A s₀ (flushedState s) :=
  hs.tail (.store ⟨rfl, rfl, rfl, .inr rfl, le_rfl⟩ fun h => absurd rfl h)

theorem Moves.unflushed (hs : Moves A s₀ s) : Moves A s₀ (unflushedState s) :=
  hs.tail (.store ⟨rfl, rfl, rfl, .inl rfl, le_rfl⟩ fun h => absurd rfl h)

theorem Moves.wf {s' : RuntimeEffectsState} (wf : WF s) (h : Moves A s s') : WF s' := by
  induction h with
  | refl => exact wf
  | tail _ hstep ih => exact hstep.wf ih

theorem Runs.pure {α : Type} (hs : Moves A.clean s₀ s) (a : α) : Runs A s₀ (pure a) s :=
  (wp_pure a).mpr hs

theorem Runs.throw {α : Type} (hs : Moves A.clean s₀ s) (e : Failure) :
    Runs A s₀ (throw e : Effects α) s := (wp_throw e).mpr hs.of_clean

theorem Runs.flush (hs : Moves A.clean s₀ s) : Runs A s₀ flush s :=
  wp_flush hs.flushed hs.of_clean.unflushed

theorem Runs.record_inert (o : A.Open) {type : EventType} {fields : List (String × Value)}
    (hs : Moves A.clean s₀ s)
    (inert : ∀ payload, eventPayload fields = .ok payload → Inert s type payload) :
    Runs A s₀ (record type fields) s :=
  wp_record (fun payload hp room => hs.tail (.inert (inert payload hp) .buffered room)) hs.of_clean
    (hs.of_clean.refused o)

theorem Runs.recordReport (o : A.Open) {report : EffectReport} {disposition : String}
    (hs : Moves A.clean s₀ s) (hd : disposition ≠ "accepted") :
    Runs A s₀ (recordReport report disposition) s :=
  .record_inert o hs fun _ hp => .report hp hd

theorem Runs.transition (o : A.Open) {id : UInt64} {state : CommandState}
    {status : CommandStatus} {reason : Bytes} (hs : Moves A.clean s₀ s)
    (found : s.commands.find? id = some state) (cause : Cause s id state status) :
    Runs A s₀ (transition id status reason) s :=
  wp_transition found (fun _ hp room => hs.tail (.transition found cause hp room)) hs.of_clean
    (hs.of_clean.refused o)

theorem Runs.recordStatus (o : A.Open) {id : UInt64} {state : CommandState} {reason : Bytes}
    (hs : Moves A.clean s₀ s) (found : s.commands.find? id = some state) :
    Runs A s₀ (recordStatus id reason) s := by
  simp only [Runs, Effects.recordStatus, wp_bind]
  exact wp_commandAt found (Runs.record_inert o hs fun _ hp => .status found hp)

/-- Iterated calls, each of which runs on from any state reached. -/
theorem Runs.forM {α : Type} {f : α → Effects PUnit} {l : List α}
    (hf : ∀ a ∈ l, ∀ s, Moves A.clean s₀ s → Runs A s₀ (f a) s) (hs : Moves A.clean s₀ s) :
    Runs A s₀ (forM l f) s := by
  induction l generalizing s with
  | nil => exact Runs.pure hs _
  | cons a l ih =>
      simp only [Runs, List.forM_cons, wp_bind]
      exact wp_mono (hf a List.mem_cons_self s hs)
        (fun _ s' hs' => ih (fun b hb => hf b (List.mem_cons_of_mem _ hb)) hs') fun _ _ h => h

end Runs

/-! ## Payloads that always fit -/

theorem fits_unsigned (n : UInt64) : (Value.unsignedInteger n).fits 1 = true := by
  simp [Value.fits, ValueLimits.maxDepth]

theorem fits_string {text : Bytes} (h : (Value.string text).validate = .ok ()) :
    (Value.string text).fits 1 = true := by
  have hv : (Value.string text).valid = true := by
    simp [Value.valid, h, Except.isOk, Except.toBool]
  obtain ⟨hf, _⟩ := (Value.valid_iff _).mp hv
  simpa [Value.fits, ValueLimits.maxDepth] using hf

theorem decimal_ascii (n : Nat) : ∀ b ∈ decimal n, b ≤ 0x7f := by
  unfold decimal
  split
  · simp
  · intro b hb
    obtain ⟨d, hd, rfl⟩ := List.mem_map.mp hb
    have hlt : d < 10 := Nat.digits_lt_base (by decide) (List.mem_reverse.mp hd)
    rw [UInt8.le_iff_toNat_le, UInt8.toNat_ofNat']
    exact le_trans (Nat.mod_le _ _) (by simp only [UInt8.reduceToNat]; omega)

theorem length_decimal_le (n : UInt64) : (decimal n.toNat).length ≤ 20 := by
  unfold decimal
  split
  · decide
  · next hn =>
      rw [List.length_map, List.length_reverse, Nat.length_digits 10 _ (by decide) hn]
      have hlt : n.toNat < 10 ^ 20 := lt_trans n.toNat_lt (by norm_num)
      have := Nat.log_lt_of_lt_pow hn hlt
      omega

theorem fits_commandText (id : UInt64) : (Value.string (commandText id)).fits 1 = true := by
  have hlen : (commandText id).length ≤ 28 := by
    have := length_decimal_le id
    rw [commandText, List.length_append]
    have : (utf8 "command:").length = 8 := by decide
    omega
  have hutf : validUtf8 (commandText id) = true := by
    refine validUtf8_ascii fun b hb => ?_
    rcases List.mem_append.mp hb with hb | hb
    · exact (by decide +kernel : ∀ b ∈ utf8 "command:", b ≤ 0x7f) b hb
    · exact decimal_ascii _ b hb
  have hle : (commandText id).length ≤ ValueLimits.maxStringBytes := by
    unfold ValueLimits.maxStringBytes
    omega
  simp [Value.fits, ValueLimits.maxDepth, hutf, hle]

theorem fits_statusName (status : CommandStatus) :
    (Value.string (utf8 (statusName status))).fits 1 = true := by
  cases status <;> decide

theorem fits_route (route : AdapterRoute) : (Value.string route.value).fits 1 = true := by
  have hascii : ∀ b ∈ route.value, b ≤ 0x7f := by
    intro b hb
    have hc := List.all_eq_true.mp route.all_routeCharacter b hb
    simp only [routeCharacter, Bool.or_eq_true, Bool.and_eq_true, decide_eq_true_eq,
      beq_iff_eq] at hc
    rcases hc with (((((⟨_, h⟩ | ⟨_, h⟩) | ⟨_, h⟩) | rfl) | rfl) | rfl) | rfl
    · exact le_trans h (by decide)
    · exact le_trans h (by decide)
    · exact le_trans h (by decide)
    all_goals decide
  have hlen : route.value.length ≤ EffectLimits.maxAdapterRouteBytes := by
    have h := route.valid
    unfold validateRoute validateBoundedText at h
    by_contra hgt
    split at h
    · cases h
    · next hb =>
        split at hb
        · cases hb
        · split at hb
          · cases hb
          · next hle => exact hle (Nat.lt_of_not_ge hgt)
  have hle : route.value.length ≤ ValueLimits.maxStringBytes :=
    le_trans hlen (by decide)
  simp [Value.fits, ValueLimits.maxDepth, validUtf8_ascii hascii, hle]

theorem fits_target (target : EffectTarget) : (Value.string target.value).fits 1 = true := by
  have h := target.valid
  unfold validateTarget at h
  split at h
  · cases h
  · exact fits_string h

theorem attemptFields_ok (id : UInt64) (attempt : Nat) (now : UInt64) :
    ∃ payload, eventPayload (attemptFields id attempt now) = .ok payload := by
  refine ⟨_, (eventPayload_ok_iff rfl).mpr ⟨?_, ?_⟩⟩
  · intro f hf
    simp only [attemptFields, List.mem_cons, List.not_mem_nil, or_false] at hf
    rcases hf with rfl | rfl | rfl <;> exact fits_unsigned _
  · simp [attemptFields, Value.nodes, ValueLimits.maxTotalNodes]

theorem statusFields_ok (id : UInt64) (status : CommandStatus) {reason : Bytes}
    (h : (Value.string reason).validate = .ok ()) :
    ∃ payload, eventPayload (statusFields id status reason) = .ok payload := by
  refine ⟨_, (eventPayload_ok_iff rfl).mpr ⟨?_, ?_⟩⟩
  · intro f hf
    simp only [statusFields, List.mem_cons, List.not_mem_nil, or_false] at hf
    rcases hf with rfl | rfl | rfl | rfl | rfl
    · exact fits_commandText id
    · exact fits_statusName status
    · exact fits_unsigned id
    · exact fits_statusName status
    · exact fits_string h
  · simp [statusFields, Value.nodes, ValueLimits.maxTotalNodes]

/-- A desired value that still fits inside a `CommandIssued` record. -/
def Issuable (v : Value) : Prop := v.fits 1 = true ∧ v.nodes + 7 ≤ ValueLimits.maxTotalNodes

theorem issuedFields_ok_iff (command : EffectCommand) :
    (∃ payload, eventPayload (issuedFields command) = .ok payload) ↔
      Issuable command.effect.desiredValue := by
  have hiff := @eventPayload_ok_iff (issuedFields command) rfl
  have hsum : 1 + ((issuedFields command).map fun f => f.2.nodes).sum =
      command.effect.desiredValue.nodes + 7 := by
    simp only [issuedFields, List.map_cons, List.map_nil, List.sum_cons, List.sum_nil, Value.nodes]
    omega
  have hfits : (∀ f ∈ issuedFields command, f.2.fits 1 = true) ↔
      command.effect.desiredValue.fits 1 = true := by
    simp only [issuedFields, List.forall_mem_cons, fits_commandText, fits_unsigned, fits_route,
      fits_target, List.not_mem_nil, true_and, and_true, false_imp_iff, implies_true]
    exact and_iff_right (fits_statusName .pending)
  rw [hsum, hfits] at hiff
  rw [Issuable, ← hiff]
  constructor
  · rintro ⟨payload, hp⟩
    rw [hp, (eventPayload_eq_ok hp).1]
  · exact fun h => ⟨_, h⟩

theorem validate_of_diagnostic {diagnostic : Bytes} (h : validateDiagnostic diagnostic = .ok ()) :
    (Value.string diagnostic).validate = .ok () := by
  unfold validateDiagnostic at h
  split at h
  · cases h
  · exact h

/-! ## Feedback -/

section Feedback

variable {A : Allow} {s₀ s : RuntimeEffectsState}

theorem Runs.commitAuthoritative (o : A.Open) {route : AdapterRoute} {target : EffectTarget}
    {value : Value} {revision : StateRevision} {commandId : UInt64} {state : CommandState}
    (hs : Moves A.clean s₀ s) (found : s.commands.find? commandId = some state)
    (key : state.key = targetKey route target) (revised : revision ≠ 0)
    (newer : ∀ prior, s.observedRevisions.find? (targetKey route target) = some prior →
      prior < revision) :
    Runs A s₀ (commitAuthoritative route target value revision commandId) s := by
  refine wp_commitAuthoritative ?_ ?_ ?_
  · exact fun payload hp room => hs.tail (.commit found key revised newer hp room)
  · exact hs.of_clean
  · exact hs.of_clean.refused o

theorem Runs.commitReport (o : A.Open) {report : EffectReport} {value : Value}
    {state : CommandState} (hs : Moves A.clean s₀ s)
    (found : s.commands.find? report.commandId = some state) (key : state.key = report.key)
    (revised : report.stateRevision ≠ 0) : Runs A s₀ (commitReport report value) s := by
  simp only [Runs, Effects.commitReport, wp_bind, wp_get]
  split
  · next hnone =>
      refine Runs.commitAuthoritative o hs found key revised ?_
      intro prior hp
      rw [← EffectReport.key, hnone] at hp
      cases hp
  · next revision hsome =>
      split
      · exact Runs.pure hs _
      · next hgt =>
          split
          · split
            · exact Runs.pure hs _
            · exact Runs.recordReport o hs (by decide)
          · next hne =>
              refine Runs.commitAuthoritative o hs found key revised ?_
              intro prior hp
              rw [← EffectReport.key, hsome] at hp
              cases hp
              exact lt_of_le_of_ne (le_of_not_gt hgt) hne

theorem Runs.commitAccepted (o : A.Open) {report : EffectReport} {state : CommandState}
    (hs : Moves A.clean s₀ s) (found : s.commands.find? report.commandId = some state)
    (key : state.key = report.key) (valid : validateEffectReport report = .ok ()) :
    Runs A s₀ (commitAccepted report) s := by
  obtain ⟨_, _, _, happ, _, _⟩ := of_validateEffectReport valid
  unfold Effects.commitAccepted
  split
  · next happlied =>
      split
      · exact Runs.commitReport o hs found key (happ happlied).1
      · exact Runs.pure hs _
  · exact Runs.pure hs _

theorem Runs.acceptReport (o : A.Open) {report : EffectReport} {state : CommandState}
    (hs : Moves A.clean s₀ s) (acceptable : Acceptable s report state)
    (allowed : A.report s report) : Runs A s₀ (acceptReport report state.status) s := by
  obtain ⟨_, _, _, _, _, hdiag⟩ := of_validateEffectReport acceptable.valid
  obtain ⟨statusPayload, hstatus⟩ :=
    statusFields_ok report.commandId report.status (validate_of_diagnostic hdiag)
  simp only [Runs, Effects.acceptReport, Effects.recordReport, wp_bind]
  refine wp_record ?_ ?_ ?_
  rotate_left
  · exact hs.of_clean
  · exact hs.of_clean.refused o
  intro reportPayload hreport room
  have htorn : Moves A s₀ (recorded .reportReceived reportPayload s) :=
    hs.of_clean.tail (.torn o.broken acceptable hreport room)
  have hrest : (state.status ≠ .superseded → s.store.nextSequence + 1 ≠ 0) →
      Runs A s₀ (Effects.commitAccepted report)
        (acceptedState report state reportPayload statusPayload s) := by
    intro room'
    have hfound := acceptedState_commands acceptable.found reportPayload statusPayload
    refine Runs.commitAccepted o
      (hs.tail (.accept acceptable allowed hreport hstatus room room'))
      (by rw [hfound, OrdMap.find?_insert_self]) ?_ acceptable.valid
    rw [EffectReport.key, acceptable.route, acceptable.target]
    rfl
  by_cases hsup : state.status = .superseded
  · simp only [hsup, ne_eq, not_true_eq_false, if_false, wp_bind, wp_modify]
    have hrest := hrest fun h => absurd hsup h
    simp only [acceptedState, hsup, if_true] at hrest
    exact hrest
  · simp only [ne_eq, hsup, not_false_eq_true, if_true, wp_bind]
    refine wp_transition acceptable.found ?_ ?_ ?_
    · intro payload hp room'
      rw [hstatus] at hp
      cases hp
      simp only [wp_bind, wp_modify]
      have hrest := hrest fun _ => room'
      simp only [acceptedState, if_neg hsup] at hrest
      exact hrest
    · exact htorn
    · exact htorn.refused o

/-- The first guards of `apply_report`, passed. -/
theorem Runs.applyReport (o : A.Open) {report : EffectReport} (hs : Moves A.clean s₀ s)
    (allowed : ∀ state, Acceptable s report state → A.report s report) :
    Runs A s₀ (applyReport report) s := by
  simp only [Runs, Effects.applyReport, wp_bind]
  refine wp_check (fun _ hvalid => ?_) fun _ => hs.of_clean
  simp only [wp_bind, wp_get]
  split
  · exact Runs.recordReport o hs (by decide)
  · next state found =>
      split
      · exact Runs.recordReport o hs (by decide)
      · next hsession =>
          split
          · exact Runs.recordReport o hs (by decide)
          · next htarget =>
              obtain ⟨hroute, htarget⟩ := not_or.mp htarget
              split
              · split
                · exact Runs.recordReport o hs (by decide)
                · exact Runs.recordReport o hs (by decide)
              · next hfirst =>
                  split
                  · exact Runs.recordReport o hs (by decide)
                  · next hcurrent =>
                      have acceptable : Acceptable s report state :=
                        { valid := hvalid
                          found := found
                          session := not_not.mp hsession
                          route := not_not.mp hroute
                          target := not_not.mp htarget
                          first := hfirst
                          current := fun hsup => by
                            by_contra hne
                            exact hcurrent ⟨hsup, hne⟩ }
                      exact Runs.acceptReport o hs acceptable (allowed state acceptable)

theorem Runs.applyObservation (o : A.Open) {observation : ExternalObservation}
    (hs : Moves A.clean s₀ s) : Runs A s₀ (applyObservation observation) s := by
  simp only [Runs, Effects.applyObservation, wp_bind]
  refine wp_check (fun _ hvalid => ?_) fun _ => hs.of_clean
  simp only [wp_bind, wp_get]
  refine wp_record ?_ ?_ ?_
  rotate_left
  · exact hs.of_clean
  · exact hs.of_clean.refused o
  intro payload hp room
  have hs' : Moves A.clean s₀ (recorded .externalObservationReceived payload s) :=
    hs.tail (.inert .observation .buffered room)
  split
  · next hacc =>
      simp only [wp_bind]
      refine wp_record ?_ ?_ ?_
      rotate_left
      · exact hs'.of_clean
      · exact hs'.of_clean.refused o
      intro payload' hp' room'
      simp only [wp_modify]
      refine hs'.tail (.observe hvalid (fun prior hprior => ?_) hp' room')
      have hprior' : s.observedRevisions.find? observation.key = some prior := hprior
      unfold observationDisposition at hacc
      rw [hprior'] at hacc
      split at hacc
      · exact absurd hacc (by decide)
      · simp only at hacc
        split at hacc
        · exact absurd hacc (by decide)
        · next hgt =>
            split at hacc
            · split at hacc <;> exact absurd hacc (by decide)
            · next hne => exact lt_of_le_of_ne (le_of_not_gt hgt) hne
  · exact Runs.pure hs' _

theorem Runs.applyDeferred (o : A.Open) {report : EffectReport} (hs : Moves A.clean s₀ s)
    (allowed : ∀ state, Acceptable s report state → A.report s report) :
    Runs A s₀ (applyDeferred report) s := by
  simp only [Runs, Effects.applyDeferred, wp_bind]
  refine wp_mono (Runs.applyReport o hs allowed) (fun _ s' hs' => ?_) fun _ _ h => h
  simp only [wp_modify]
  exact hs'.tail (.quiet _ _ _ _ _)

theorem Runs.receiveReport (o : A.Open) {report : EffectReport} (hs : Moves A.clean s₀ s)
    (allowed : ∀ s state, Acceptable s report state → A.report s report) :
    Runs A s₀ (receiveReport report) s := by
  simp only [Runs, Effects.receiveReport, wp_bind, wp_modify, wp_tryCatch]
  refine wp_mono (Runs.applyReport o (hs.tail (.quiet _ _ _ _ _)) (allowed _)) (fun _ _ h => h)
    fun _ s' hs' => ?_
  simp only [wp_bind, wp_modify, wp_throw]
  exact hs'.tail (.quiet _ _ _ _ _)

theorem Runs.receiveObservation (o : A.Open) {observation : ExternalObservation}
    (hs : Moves A.clean s₀ s) : Runs A s₀ (receiveObservation observation) s := by
  simp only [Runs, Effects.receiveObservation, wp_bind, wp_modify]
  exact Runs.applyObservation o (hs.tail (.quiet _ _ _ _ _))

/-- `process_feedback`, where every report is allowed in every state. -/
theorem Runs.processFeedback (o : A.Open)
    (allowed : ∀ s report state, Acceptable s report state → A.report s report)
    (hs : Moves A.clean s₀ s) : Runs A s₀ processFeedback s := by
  simp only [Runs, Effects.processFeedback, wp_bind, wp_get]
  refine wp_mono (Runs.forM (fun r _ _ h => Runs.applyDeferred o h (allowed _ r)) hs)
    (fun _ s' hs' => ?_) fun _ _ h => h
  rw [wp_bind]
  refine wp_mono (Runs.forM (fun r _ _ h => Runs.receiveReport o h (fun _ => allowed _ r)) hs')
    (fun _ s' hs' => ?_) fun _ _ h => h
  exact Runs.forM (fun _ _ _ h => Runs.receiveObservation o h) hs'

end Feedback

/-! ## Dispatch -/

section Dispatch

variable {A : Allow} {s₀ s : RuntimeEffectsState}

theorem Runs.dispatchThrew (o : A.Open) {id : UInt64} {state : CommandState} {native : Bool}
    {e : Failure} (hs : Moves A.clean s₀ s) (found : s.commands.find? id = some state)
    (pending : state.status = .pending) : Runs A s₀ (dispatchThrew id native e) s := by
  unfold Effects.dispatchThrew
  split
  · exact Runs.throw hs e
  · split
    · exact Runs.recordStatus o hs found
    · exact Runs.transition o hs found (.pending pending (by decide))

theorem Runs.dispatchReturned (o : A.Open) {id : UInt64} {state : CommandState}
    {result : DispatchResult} (hs : Moves A.clean s₀ s)
    (found : s.commands.find? id = some state) (pending : state.status = .pending)
    (valid : validateDispatchResultForCommand result state.command = .ok ())
    (commandId : state.command.commandId = id) : Runs A s₀ (dispatchReturned id result) s := by
  unfold Effects.dispatchReturned
  split
  · exact Runs.transition o hs found (.pending pending (by decide))
  · exact Runs.transition o hs found (.pending pending (by decide))
  · split
    · exact Runs.pure hs _
    · next report hreport =>
        -- an immediate report is about this very command, which is pending
        obtain ⟨_, _, hid, _, _⟩ := (of_validateDispatchResultForCommand valid).2 report hreport
        simp only [Runs, wp_bind, wp_get]
        split
        · refine Runs.applyReport o hs fun state' acceptable => ?_
          have hfound := acceptable.found
          rw [hid, commandId, found] at hfound
          cases hfound
          exact o.pending _ _ _ acceptable pending
        · split
          · exact Runs.transition o hs found (.pending pending (by decide))
          · rw [wp_modify]
            exact hs.tail (.quiet _ _ _ _ _)

/-- A dispatch: with the writes made since `s₁`, each of its stages is one step. -/
theorem Runs.dispatch (o : A.Open) {id now : UInt64} {answer : DispatchAnswer}
    {state : CommandState} {s₁ : RuntimeEffectsState} (hs : Moves A.clean s₀ s₁)
    (found : s.commands.find? id = some state) (pending : state.status = .pending)
    (commandId : state.command.commandId = id)
    (stages : ∀ (B : Allow) (stage : Stage) (payload : Value), B.desired = A.desired →
      eventPayload (attemptFields id (state.retryIndex + 1) now) = .ok payload →
      ((∀ sends, stage ≠ .called sends) → B.broken) →
      (stage ≠ .refusedAttempt → s.store.nextSequence ≠ 0) →
      Step B s₁ (attempted stage state now payload s)) :
    Runs A s₀ (dispatch id now answer) s := by
  obtain ⟨payload, hp⟩ := attemptFields_ok id (state.retryIndex + 1) now
  simp only [Runs, Effects.dispatch, wp_bind]
  refine wp_commandAt found ?_
  rw [wp_bind]
  refine wp_record_of_ok hp ?_ ?_
  · intro room
    rw [wp_bind]
    refine wp_flush ?_ ?_
    · rw [wp_bind, wp_modify]
      have hcalled : Moves A.clean s₀ (withCall state now answer.sends
          (flushedState (recorded .commandAttempted payload s))) :=
        hs.tail (stages A.clean (.called answer.sends) payload rfl hp (fun h => absurd rfl (h _))
          fun _ => room)
      split
      · exact Runs.dispatchThrew o hcalled found pending
      · next result hresult =>
          refine Runs.dispatchReturned o hcalled found pending ?_ commandId
          unfold dispatchOutcome at hresult
          split at hresult
          · cases hresult
          · split at hresult
            · cases hresult
            · next hvalid =>
                cases hresult
                exact hvalid
    · exact hs.of_clean.tail (stages A .unflushed payload rfl hp (fun _ => o.broken)
        fun _ => room)
  · exact hs.of_clean.tail (stages A .refusedAttempt payload rfl hp (fun _ => o.broken)
      fun h => absurd rfl h)

theorem Runs.retryCommand (o : A.Open) {now : UInt64} {answers : UInt64 → DispatchAnswer}
    {id : UInt64} {state : CommandState} (wf : WF s₀) (hs : Moves A.clean s₀ s)
    (found : s.commands.find? id = some state) : Runs A s₀ (retryCommand now answers id) s := by
  have commandId : state.command.commandId = id := (hs.wf wf).commandId found
  simp only [Runs, Effects.retryCommand, wp_bind, wp_get]
  refine wp_commandAt found ?_
  split
  · exact Runs.pure hs _
  · next hskip =>
      obtain ⟨hpending, _⟩ := not_or.mp hskip
      have pending : state.status = .pending := not_not.mp hpending
      split
      · exact Runs.transition o hs found (.pending pending (by decide))
      · next hearly =>
          rw [wp_bind]
          refine wp_check ?_ ?_
          · intro delay hdelay
            split
            · exact Runs.pure hs _
            · split
              · exact Runs.pure hs _
              · rw [wp_bind, wp_modify]
                refine Runs.dispatch o hs (OrdMap.find?_insert_self _ _ _) pending commandId ?_
                intro B stage payload _ hp hb room
                exact .retried stage found pending (Nat.lt_of_not_ge hearly)
                  (RetryPolicy.delayBeforeRetry_some hdelay) hp hb room
          · exact fun _ => hs.of_clean

/-- Steps keep the entry of a command that is still there; `retry_due` visits the commands that
    were there when it started, and none of its steps prunes. -/
theorem Runs.retryDue (o : A.Open) {now : UInt64} {answers : UInt64 → DispatchAnswer}
    (wf : WF s₀) (hs : Moves A.clean s₀ s) : Runs A s₀ (retryDue now answers) s := by
  simp only [Runs, Effects.retryDue, wp_bind, wp_get]
  refine Runs.forM (fun id _ s' hs' => ?_) hs
  cases hid : s'.commands.find? id with
  | some state => exact Runs.retryCommand o wf hs' hid
  | none =>
      simp only [Runs, Effects.retryCommand, commandAt, wp_bind, wp_get, hid, wp_throw]
      exact hs'.of_clean

end Dispatch

/-! ## History -/

section History

variable {A : Allow} {s₀ s : RuntimeEffectsState}

theorem Moves.pruneOne (hs : Moves A s₀ s) (id : UInt64) : Moves A s₀ (pruneOne id s) := by
  cases hid : s.commands.find? id with
  | none =>
      have : Effects.pruneOne id s = s := by simp only [Effects.pruneOne, hid]
      rwa [this]
  | some state =>
      by_cases hact : active state.status = true
      · have : Effects.pruneOne id s = s := by simp only [Effects.pruneOne, hid, hact, if_true]
        rwa [this]
      · exact hs.tail (.prune hid (Bool.eq_false_of_not_eq_true hact))

theorem Moves.pruneLoop {targetSize : Nat} {order : List UInt64} (hs : Moves A s₀ s) :
    Moves A s₀ (pruneLoop targetSize order s) := by
  induction order generalizing s with
  | nil => exact hs.tail (.quiet _ _ _ _ _)
  | cons id rest ih =>
      rw [Effects.pruneLoop]
      split
      · exact ih (hs.pruneOne id)
      · exact hs.tail (.quiet _ _ _ _ _)

/-- The target's latest command, if it is still there, has ended. -/
def Free (s : RuntimeEffectsState) (key : TargetKey) : Prop :=
  ∀ id, s.latestByTarget.find? key = some id →
    ∃ state, s.commands.find? id = some state ∧ active state.status = false

theorem free_pruneOne {key : TargetKey} (wf : WF s) (free : Free s key) (id : UInt64) :
    Free (pruneOne id s) key := by
  unfold pruneOne
  split
  · exact free
  · next state hid =>
      split
      · exact free
      · intro j hj
        -- pruning only removes entries
        have hj' : s.latestByTarget.find? key = some j := by
          simp only at hj
          split at hj
          · rw [OrdMap.find?_erase] at hj
            split at hj
            · cases hj
            · exact hj
          · exact hj
        obtain ⟨state', hst, hend⟩ := free j hj'
        obtain ⟨state'', hst', hkey⟩ := wf.latest hj'
        rw [hst] at hst'
        cases hst'
        refine ⟨state', ?_, hend⟩
        rw [OrdMap.find?_erase, if_neg]
        · exact hst
        · rintro rfl
          rw [hid] at hst
          cases hst
          rw [hkey] at hj
          simp only [hj', if_true, OrdMap.find?_erase] at hj
          cases hj

theorem free_pruneLoop {key : TargetKey} {targetSize : Nat} {order : List UInt64} (wf : WF s)
    (free : Free s key) : Free (pruneLoop targetSize order s) key := by
  induction order generalizing s with
  | nil => exact free
  | cons id rest ih =>
      rw [pruneLoop]
      split
      · refine ih ?_ (free_pruneOne wf free id)
        exact (Moves.pruneOne (A := ⟨fun _ _ => True, fun _ => True, True, True⟩) .refl id).wf wf
      · exact free

/-- The state `prune_terminal_history` leaves. -/
def prunedState (reserveCommandSlot : Bool) (s : RuntimeEffectsState) : RuntimeEffectsState :=
  pruneLoop (s.maximumRetainedCommands - reserveCommandSlot.toNat) s.terminalOrder s

theorem wp_pruneTerminalHistory {reserve : Bool} {Q : Unit → RuntimeEffectsState → Prop}
    {F : RuntimeEffectsState → Prop}
    (hok : (prunedState reserve s).commands.size ≤ s.maximumRetainedCommands - reserve.toNat →
      Q () (prunedState reserve s)) (hthrow : F (prunedState reserve s)) :
    wp (pruneTerminalHistory reserve) Q (fun _ => F) s := by
  simp only [pruneTerminalHistory, wp_bind, wp_get, wp_modify]
  split
  · rw [wp_throw]
    exact hthrow
  · next hle =>
      rw [wp_pure]
      exact hok (Nat.le_of_not_gt hle)

theorem Runs.pruneTerminalHistory (hs : Moves A.clean s₀ s) (reserve : Bool) :
    Runs A s₀ (pruneTerminalHistory reserve) s := by
  refine wp_pruneTerminalHistory ?_ ?_
  · exact fun _ => hs.pruneLoop
  · exact hs.of_clean.pruneLoop

end History

/-! ## Issuing -/

section Issue

variable {A : Allow} {s₀ s : RuntimeEffectsState}

/-- Pruning touches the commands, their index and the order. -/
theorem pruneLoop_eq (targetSize : Nat) (order : List UInt64) (s : RuntimeEffectsState) :
    ∃ commands latest terminal, pruneLoop targetSize order s =
      { s with commands := commands, latestByTarget := latest, terminalOrder := terminal } := by
  induction order generalizing s with
  | nil => exact ⟨_, _, _, rfl⟩
  | cons id rest ih =>
      rw [pruneLoop]
      split
      · obtain ⟨commands, latest, terminal, h⟩ := ih (pruneOne id s)
        rw [h]
        unfold pruneOne
        split
        · exact ⟨_, _, _, rfl⟩
        · split <;> exact ⟨_, _, _, rfl⟩
      · exact ⟨_, _, _, rfl⟩

/-- What is left of the latest command when `issue` goes on. -/
theorem wp_supersedePrior (o : A.Open) {effect : ResolvedEffect} (wf : WF s₀)
    (hs : Moves A.clean s₀ s) :
    wp (supersedePrior effect)
      (fun proceed s' => Moves A.clean s₀ s' ∧ (proceed = true → Free s' effect.key))
      (fun _ s' => Moves A s₀ s') s := by
  simp only [supersedePrior, wp_bind, wp_get]
  split
  · next hnone =>
      rw [wp_pure]
      refine ⟨hs, fun _ id hid => ?_⟩
      rw [hnone] at hid
      cases hid
  · next latest hlatest =>
      obtain ⟨prior, hprior, hkey⟩ := (hs.wf wf).latest hlatest
      rw [wp_bind]
      refine wp_commandAt hprior ?_
      split
      · rw [wp_pure]
        exact ⟨hs, fun h => by cases h⟩
      · next hind =>
          split
          · rw [wp_pure]
            exact ⟨hs, fun h => by cases h⟩
          · split
            · next hpending =>
                rw [wp_bind]
                refine wp_transition hprior ?_ ?_ ?_
                · intro payload hp room
                  rw [wp_pure]
                  refine ⟨hs.tail (.transition hprior (.pending hpending (by decide)) hp room),
                    fun _ id hid => ?_⟩
                  have hid' : s.latestByTarget.find? effect.key = some id := hid
                  rw [hlatest] at hid'
                  cases hid'
                  exact ⟨_, OrdMap.find?_insert_self _ _ _, rfl⟩
                · exact hs.of_clean
                · exact hs.of_clean.refused o
            · next hnp =>
                rw [wp_pure]
                refine ⟨hs, fun _ id hid => ?_⟩
                rw [hlatest] at hid
                cases hid
                refine ⟨prior, hprior, ?_⟩
                simp [active, hind, hnp]

theorem Runs.issueCommand (o : A.Open) {effect : ResolvedEffect} {now : UInt64}
    {adapter : Adapter} {capabilitiesAnswer : Except Failure AdapterCapabilities}
    {answer : DispatchAnswer} (wf : WF s₀) (hs : Moves A.clean s₀ s)
    (free : Free s effect.key) (valid : effect.desiredValue.validate = .ok ())
    (desired : A.desired effect.desiredValue)
    (skip : (∀ c, capabilitiesAnswer ≠ .ok c) ∨ ¬Issuable effect.desiredValue → A.skip) :
    Runs A s₀ (issueCommand effect now adapter capabilitiesAnswer answer) s := by
  simp only [Runs, Effects.issueCommand, wp_bind]
  refine wp_pruneTerminalHistory ?_ hs.of_clean.pruneLoop
  intro hroom
  have hs₁ : Moves A.clean s₀ (prunedState true s) := hs.pruneLoop
  have hfree : Free (prunedState true s) effect.key := free_pruneLoop (hs.wf wf) free
  have hroom' : (prunedState true s).commands.size ≤
      (prunedState true s).maximumRetainedCommands - 1 := by
    obtain ⟨_, _, _, h⟩ := pruneLoop_eq (s.maximumRetainedCommands - true.toNat) s.terminalOrder s
    unfold prunedState at hroom ⊢
    rw [h] at hroom ⊢
    exact hroom
  generalize prunedState true s = s₁ at hs₁ hfree hroom'
  have wf₁ : WF s₁ := hs₁.wf wf
  simp only [takeCommandId, wp_bind, wp_get]
  split
  · simp only [wp_bind, wp_throw]
    exact hs₁.of_clean
  · next hnum =>
      obtain ⟨hzero, hlast⟩ := not_or.mp hnum
      simp only [wp_bind, wp_set, wp_pure, wp_get]
      have hcommand : ∀ id, id ≠ 0 → validateEffectCommand
          { sessionId := s₁.session, commandId := id, effect := effect, issuedAtMs := now } =
            .ok () := by
        intro id hid
        simp only [validateEffectCommand, wf₁.named, hid, if_false, valid]
      have hskipped : A.skip → Moves A s₀ { s₁ with nextCommand := s₁.nextCommand + 1 } :=
        fun hskip => hs₁.of_clean.tail (.skipped hskip hzero hlast)
      refine wp_check ?_ fun h => absurd (hcommand _ hzero) (h _)
      intro _ _
      rw [wp_bind]
      refine wp_check ?_ fun h => hskipped (skip (.inl h))
      intro capabilities _
      rw [wp_bind]
      by_cases hissuable : Issuable effect.desiredValue
      · obtain ⟨payload, hp⟩ := (issuedFields_ok_iff
          { sessionId := s₁.session, commandId := s₁.nextCommand, effect := effect,
            issuedAtMs := now }).mpr hissuable
        refine wp_record_of_ok hp ?_ ?_
        · intro room
          have fresh : s₁.commands.find? s₁.nextCommand = none := by
            cases hf : s₁.commands.find? s₁.nextCommand with
            | none => rfl
            | some state => exact absurd (wf₁.issued hf) (lt_irrefl _)
          have hcontains : (recorded .commandIssued payload
              { s₁ with nextCommand := s₁.nextCommand + 1 }).commands.contains
                s₁.nextCommand = false := by
            show (s₁.commands.find? s₁.nextCommand).isSome = false
            rw [fresh]
            rfl
          simp only [wp_bind, wp_get, hcontains, Bool.false_eq_true, if_false, wp_modify]
          have hdispatch : Runs A s₀ (Effects.dispatch s₁.nextCommand now answer)
              (withCommand
                (newCommand ⟨s₁.session, s₁.nextCommand, effect, now⟩ adapter capabilities)
                (recorded .commandIssued payload
                  { s₁ with nextCommand := s₁.nextCommand + 1 })) := by
            refine Runs.dispatch o hs₁ (OrdMap.find?_insert_self _ _ _) rfl rfl ?_
            intro B stage payload' hdes hp' hb room'
            exact .issued stage rfl hzero hlast rfl (hcommand _ hzero) (hdes ▸ desired) hfree
              hroom' fresh hp hp' hb room room'
          refine wp_mono hdispatch (fun _ s' h => ?_) fun _ _ h => h
          rwa [wp_pure]
        · exact hs₁.of_clean.tail (.unrecorded o.broken hzero hlast)
      · refine wp_record ?_ ?_ ?_
        · intro payload hp _
          exact absurd ((issuedFields_ok_iff _).mp ⟨payload, hp⟩) hissuable
        · exact hskipped (skip (.inr hissuable))
        · exact hs₁.of_clean.tail (.unrecorded o.broken hzero hlast)

theorem Runs.issue (o : A.Open) {effect : ResolvedEffect} {now : UInt64}
    {capabilitiesAnswer : Except Failure AdapterCapabilities} {answer : DispatchAnswer}
    (wf : WF s₀) (hs : Moves A.clean s₀ s)
    (desired : effect.desiredValue.validate = .ok () → A.desired effect.desiredValue)
    (skip : effect.desiredValue.validate = .ok () →
      (∀ c, capabilitiesAnswer ≠ .ok c) ∨ ¬Issuable effect.desiredValue → A.skip) :
    Runs A s₀ (issue effect now capabilitiesAnswer answer) s := by
  simp only [Runs, Effects.issue, wp_bind]
  refine wp_check ?_ fun _ => hs.of_clean
  intro _ hvalid
  rw [wp_bind, wp_get]
  split
  · exact Runs.throw hs _
  · rw [wp_bind]
    refine wp_mono (wp_supersedePrior o wf hs) (fun proceed s' hs' => ?_) fun _ _ h => h
    split
    · next hproceed =>
        rw [wp_bind, wp_get]
        split
        · exact Runs.pure hs'.1 _
        · rw [wp_bind]
          refine wp_mono (Runs.issueCommand o wf hs'.1 (hs'.2 hproceed) hvalid (desired hvalid)
            (skip hvalid)) (fun _ s' h => ?_) fun _ _ h => h
          rwa [wp_pure]
    · exact Runs.pure hs'.1 _

theorem Runs.clearDesire (o : A.Open) {route : AdapterRoute} {target : EffectTarget}
    (wf : WF s₀) (hs : Moves A.clean s₀ s) : Runs A s₀ (clearDesire route target) s := by
  simp only [Runs, Effects.clearDesire, wp_bind, wp_get]
  split
  · exact Runs.pure hs _
  · next latest hlatest =>
      obtain ⟨prior, hprior, _⟩ := (hs.wf wf).latest hlatest
      rw [wp_bind]
      refine wp_commandAt hprior ?_
      split
      · next hpending => exact Runs.transition o hs hprior (.pending hpending (by decide))
      · exact Runs.pure hs _

/-! ## Reconciliation and checkpoints -/

theorem reconciledRevision_spec {key : TargetKey} {commandId : CommandId}
    {revision : StateRevision} (hid : commandId ≠ 0)
    (h : reconciledRevision s key commandId = .ok revision) :
    revision ≠ 0 ∧ ∀ prior, s.observedRevisions.find? key = some prior → prior < revision := by
  unfold reconciledRevision at h
  split at h
  · next hnone =>
      cases h
      refine ⟨hid, fun prior hp => ?_⟩
      rw [hnone] at hp
      cases hp
  · next prior hsome =>
      split at h
      · cases h
      · next hmax =>
          cases h
          unfold maxU64 at hmax
          refine ⟨by grind, fun prior' hp => ?_⟩
          rw [hsome] at hp
          cases hp
          grind

theorem Runs.reconcileIndeterminate (o : A.Open) {route : AdapterRoute} {target : EffectTarget}
    {value : Value} (wf : WF s₀) (hs : Moves A.clean s₀ s) :
    Runs A s₀ (reconcileIndeterminate route target value) s := by
  simp only [Runs, Effects.reconcileIndeterminate, wp_bind]
  refine wp_check ?_ fun _ => hs.of_clean
  intro _ _
  rw [wp_bind, wp_get]
  split
  · exact Runs.throw hs _
  · next latest hlatest =>
      have wf' := hs.wf wf
      obtain ⟨state, hstate, hkey⟩ := wf'.latest hlatest
      rw [wp_bind]
      refine wp_commandAt hstate ?_
      split
      · rw [wp_bind, wp_throw]
        exact hs.of_clean
      · next hind =>
          have hind : state.status = .indeterminate := not_not.mp hind
          have hid : state.command.commandId = latest := wf'.commandId hstate
          simp only [wp_bind, wp_get]
          refine wp_check ?_ fun _ => hs.of_clean
          intro revision hrevision
          obtain ⟨revised, newer⟩ := reconciledRevision_spec
            (hid ▸ wf'.commandId_ne_zero hstate) hrevision
          simp only [wp_bind, wp_get]
          have hend : active (if state.command.effect.desiredValue = value
              then CommandStatus.applied else .failed) = false := by
            split <;> rfl
          generalize (if state.command.effect.desiredValue = value
            then CommandStatus.applied else .failed) = reconciledStatus at hend ⊢
          refine wp_transition hstate ?_ ?_ ?_
          · intro payload hp room
            have hs' : Moves A.clean s₀ _ :=
              hs.tail (.transition hstate (.reconciled hind (hkey ▸ hlatest) hend) hp room)
            rw [wp_bind]
            refine wp_commitAuthoritative ?_ hs'.of_clean (hs'.of_clean.refused o)
            intro payload' hp' room'
            have found : (withStatus latest state reconciledStatus
                (recorded .commandStatusChanged payload s)).commands.find?
                  state.command.commandId = some { state with status := reconciledStatus } := by
              rw [hid]
              exact OrdMap.find?_insert_self _ _ _
            have hs'' : Moves A.clean s₀ _ := hs'.tail (.commit found hkey revised newer hp' room')
            rw [wp_bind, wp_modify]
            exact Runs.flush (hs''.tail (.terminal _ (hid ▸ found) hend))
          · exact hs.of_clean
          · exact hs.of_clean.refused o

theorem Runs.checkpoint (o : A.Open) (hs : Moves A.clean s₀ s) : Runs A s₀ checkpoint s := by
  simp only [Runs, Effects.checkpoint, wp_bind, wp_get]
  refine wp_check ?_ fun _ => hs.of_clean
  intro projection hprojection
  rw [wp_bind]
  refine wp_check ?_ fun _ => hs.of_clean
  intro payload hpayload
  rw [wp_bind]
  refine wp_check ?_ fun _ => hs.of_clean
  intro _ hsession
  rw [wp_bind]
  refine wp_append ?_ (hs.of_clean.refused o)
  intro room
  have hs' : Moves A.clean s₀ (recorded .checkpoint payload s .durable) :=
    hs.tail (.inert (.checkpoint hprojection hpayload hsession) .durable room)
  rw [wp_bind]
  refine wp_mono (Runs.flush hs') (fun _ s' h => ?_) fun _ _ h => h
  rwa [wp_pure]

end Issue

/-! ## Registration -/

section Register

variable {A : Allow} {s₀ s : RuntimeEffectsState}

/-- The status events of a registration, as the first loop builds them. -/
abbrev BuiltEvents (capabilities : AdapterCapabilities) : List UInt64 → List EventData → Prop :=
  List.Forall₂ fun id event => event.type = .commandStatusChanged ∧ event.version = 1 ∧
    eventPayload (statusFields id .indeterminate (restartReason capabilities)) = .ok event.payload

theorem wp_builtEvents {capabilities : AdapterCapabilities} {ids : List UInt64}
    {Q : List EventData → RuntimeEffectsState → Prop} {F : RuntimeEffectsState → Prop}
    (hok : ∀ events, BuiltEvents capabilities ids events → Q events s) (hthrow : F s) :
    wp (ids.mapM fun id => do
      let payload ← check (eventPayload
        (statusFields id .indeterminate (restartReason capabilities)))
      pure ({ type := .commandStatusChanged, payload } : EventData)) Q (fun _ => F) s := by
  induction ids generalizing Q with
  | nil =>
      rw [List.mapM_nil, wp_pure]
      exact hok [] .nil
  | cons id ids ih =>
      rw [List.mapM_cons, wp_bind, wp_bind]
      refine wp_check ?_ fun _ => hthrow
      intro payload hp
      rw [wp_pure, wp_bind]
      refine ih ?_
      intro events hevents
      rw [wp_pure]
      exact hok _ (.cons ⟨rfl, rfl, hp⟩ hevents)

/-- The commands while the second loop of a registration still has `rest` to visit. -/
structure Attaching (s : RuntimeEffectsState) (adapter : Adapter) (route : AdapterRoute)
    (capabilities : AdapterCapabilities) (indeterminate rest : List UInt64)
    (commands : OrdMap UInt64 CommandState) : Prop where
  waiting : ∀ id ∈ rest, commands.find? id = s.commands.find? id
  visited : ∀ id ∉ rest, commands.find? id = (s.commands.find? id).map
    (registeredCommand adapter route capabilities indeterminate id)

/-- Rewriting the visited entry moves the loop on. -/
theorem Attaching.next {adapter : Adapter} {route : AdapterRoute}
    {capabilities : AdapterCapabilities} {indeterminate rest : List UInt64} {id : UInt64}
    {state : CommandState} {commands : OrdMap UInt64 CommandState}
    (h : Attaching s adapter route capabilities indeterminate (id :: rest) commands)
    (found : s.commands.find? id = some state) (fresh : id ∉ rest)
    {commands' : OrdMap UInt64 CommandState}
    (self : commands'.find? id =
      some (registeredCommand adapter route capabilities indeterminate id state))
    (others : ∀ j, j ≠ id → commands'.find? j = commands.find? j) :
    Attaching s adapter route capabilities indeterminate rest commands' := by
  refine ⟨fun j hj => ?_, fun j hj => ?_⟩
  · have hne : j ≠ id := fun he => fresh (he ▸ hj)
    rw [others j hne, h.waiting j (List.mem_cons_of_mem _ hj)]
  · by_cases hji : j = id
    · rw [hji, self, found]
      rfl
    · rw [others j hji, h.visited j]
      exact fun hm => (List.mem_cons.mp hm).elim hji hj

theorem wp_attachAll {adapter : Adapter} {route : AdapterRoute}
    {capabilities : AdapterCapabilities} {indeterminate : List UInt64}
    {Q : PUnit → RuntimeEffectsState → Prop} {F : RuntimeEffectsState → Prop}
    (s₁ : RuntimeEffectsState) (hcommands : s₁.commands = s.commands)
    (hok : ∀ commands, (∀ id, commands.find? id = (s.commands.find? id).map
      (registeredCommand adapter route capabilities indeterminate id)) →
      Q ⟨⟩ { s₁ with commands := commands }) :
    wp (forM s.commands.keys (attachAdapter adapter route capabilities indeterminate)) Q
      (fun _ => F) s₁ := by
  have key := wp_forM (E := fun _ => F)
    (attachAdapter adapter route capabilities indeterminate)
    (fun rest s' => rest.Nodup ∧ (∀ id ∈ rest, ∃ state, s.commands.find? id = some state) ∧
      ∃ commands, s' = { s₁ with commands := commands } ∧
        Attaching s adapter route capabilities indeterminate rest commands) ?_
      s.commands.keys s₁ ?_
  · refine wp_mono key ?_ fun _ _ h => h
    rintro _ s' ⟨_, _, commands, rfl, hat⟩
    exact hok commands fun id => hat.visited id List.not_mem_nil
  · rintro id rest s' ⟨hnd, hall, commands, rfl, hat⟩
    obtain ⟨hfresh, hnd⟩ := List.nodup_cons.mp hnd
    obtain ⟨state, hstate⟩ := hall id List.mem_cons_self
    have hrest : ∀ j ∈ rest, ∃ state, s.commands.find? j = some state :=
      fun j hj => hall j (List.mem_cons_of_mem _ hj)
    have hfound : commands.find? id = some state :=
      (hat.waiting id List.mem_cons_self).trans hstate
    rw [attachAdapter, wp_bind]
    refine wp_commandAt hfound ?_
    split
    · next hroute =>
        rw [wp_bind, wp_modify]
        split
        · next hmem =>
            rw [setStatus, wp_bind]
            refine wp_commandAt (OrdMap.find?_insert_self _ _ _) ?_
            rw [wp_modify]
            refine ⟨hnd, hrest, (commands.insert id
                { state with adapter := some adapter, capabilities }).insert id
                { state with adapter := some adapter, capabilities, status := .indeterminate },
              ?_, hat.next hstate hfresh ?_ ?_⟩
            · have hstays : (active state.status && !active .indeterminate) = false := by
                simp [active]
              simp only [withStatus, withAdapter, hstays, Bool.false_eq_true, if_false]
            · rw [OrdMap.find?_insert_self]
              simp only [registeredCommand, hroute, if_true, hmem]
            · intro j hj
              rw [OrdMap.find?_insert_ne _ hj, OrdMap.find?_insert_ne _ hj]
        · next hmem =>
            rw [wp_pure]
            refine ⟨hnd, hrest, _, rfl, hat.next hstate hfresh ?_ ?_⟩
            · rw [OrdMap.find?_insert_self]
              simp only [registeredCommand, hroute, if_true, hmem, if_false]
            · exact fun j hj => OrdMap.find?_insert_ne _ hj _
    · next hroute =>
        rw [wp_pure]
        refine ⟨hnd, hrest, commands, rfl, hat.next hstate hfresh ?_ fun _ _ => rfl⟩
        rw [hfound]
        simp only [registeredCommand, hroute, if_false]
  · refine ⟨s.commands.nodup_keys, fun id hid => OrdMap.mem_keys.mp hid, s.commands, ?_, ?_⟩
    · rw [← hcommands]
    · refine ⟨fun _ _ => rfl, fun id hid => ?_⟩
      cases hf : s.commands.find? id with
      | none => rfl
      | some state => exact absurd (OrdMap.mem_keys.mpr ⟨state, hf⟩) hid

theorem Runs.registerAdapter (o : A.Open) {adapter : Option Adapter} {route : AdapterRoute}
    {capabilitiesAnswer : Except Failure AdapterCapabilities} (hs : Moves A.clean s₀ s) :
    Runs A s₀ (registerAdapter adapter route capabilitiesAnswer) s := by
  unfold Effects.registerAdapter
  cases adapter with
  | none => exact Runs.throw hs _
  | some adapter =>
      simp only [Runs, wp_bind]
      refine wp_check ?_ fun _ => hs.of_clean
      intro capabilities _
      simp only [wp_bind, wp_get]
      split
      · simp only [wp_bind, wp_throw]
        exact hs.of_clean
      · next hcontains =>
          have new : s.adapters.find? route.value = none := by
            cases hf : s.adapters.find? route.value with
            | none => rfl
            | some a => exact absurd (by simp [OrdMap.contains, hf]) hcontains
          simp only [wp_bind]
          refine wp_builtEvents ?_ hs.of_clean
          intro events hevents
          rw [wp_bind, wp_modify, wp_bind, wp_tryCatch]
          simp only [Effects.appendBatch, wp_bind, wp_get, wp_set]
          split
          · next htaken =>
              rw [wp_pure]
              refine wp_attachAll _ rfl ?_
              intro commands hcommands
              exact hs.tail (.register new hevents (Prod.ext htaken rfl) hcommands)
          · next htaken =>
              simp only [wp_throw, wp_bind, wp_modify]
              -- the entry made before the append is taken out again
              have hsame : (s.adapters.insert route.value adapter).erase route.value =
                  s.adapters := by
                refine OrdMap.ext_find? fun k => ?_
                rw [OrdMap.find?_erase, OrdMap.find?_insert]
                split
                · next hk => rw [hk, new]
                · rfl
              have hrefused : (s.store.appendBatch events .durable).2 = s.store.refuse := by
                unfold EventStore.appendBatch at htaken ⊢
                split
                · next he => simp only [he, if_true, not_true_eq_false] at htaken
                · next he =>
                    split
                    · next ha => simp [he, ha] at htaken
                    · rfl
              rw [hsame, hrefused]
              exact hs.of_clean.refused o

end Register

end Effects

end LiquidLayer
