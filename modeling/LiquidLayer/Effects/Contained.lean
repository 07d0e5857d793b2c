/-
  What a dispatch lets out of an adapter's failure (`dispatch` of RuntimeEffectsState.cpp).

  The handlers around the adapter's call write down what the adapter threw or reported, and
  writing may throw again.

  * `DispatchPoint`: the states in which `dispatch` is called.
  * `Contained`: the call returns with the command in the status the answer calls for, or the
    store has failed.
  * `Containable`: what can be written down.
  * `dispatch_contained_iff`
-/
import LiquidLayer.Effects.Table

namespace LiquidLayer

namespace Effects

open Prog

/-! ## Texts that can be written down -/

/-- A text that fits into a record. -/
def Recordable (text : Bytes) : Prop := (Value.string text).validate = .ok ()

instance (text : Bytes) : Decidable (Recordable text) :=
  inferInstanceAs (Decidable ((Value.string text).validate = .ok ()))

theorem recordable_iff_fits {text : Bytes} :
    Recordable text ↔ (Value.string text).fits 1 = true := by
  refine ⟨fits_string, fun h => ?_⟩
  have hvalid : (Value.string text).valid = true := by
    refine (Value.valid_iff _).mpr ⟨?_, by simp [Value.nodes, ValueLimits.maxTotalNodes]⟩
    simpa [Value.fits, ValueLimits.maxDepth] using h
  unfold Value.valid at hvalid
  unfold Recordable
  cases hv : (Value.string text).validate with
  | ok => rfl
  | error e => rw [hv] at hvalid; cases hvalid

/-- A status record is built if and only if its reason can be written down. -/
theorem recordable_of_statusFields {id : UInt64} {status : CommandStatus} {reason : Bytes}
    {payload : Value} (h : eventPayload (statusFields id status reason) = .ok payload) :
    Recordable reason := by
  have hpayload := (eventPayload_eq_ok h).1
  rw [hpayload] at h
  have hfits := ((eventPayload_ok_iff rfl).mp h).1
  refine recordable_iff_fits.mpr (hfits ("reason", .string reason) ?_)
  simp only [statusFields, List.mem_cons, List.not_mem_nil, or_false, or_true]

/-- A validator's complaint: no store error, and a short text. -/
structure Plain (e : Failure) : Prop where
  type : e.type = .invalidArgument
  what : Recordable e.what

mutual

theorem plain_of_validateValue : ∀ (v : Value) (depth n : Nat) (e : Failure),
    validateValue v depth n = .error e → Plain e
  | v, depth, n, e => by
      unfold validateValue
      intro h
      split at h
      · cases h; exact ⟨rfl, by decide +kernel⟩
      split at h
      · cases h; exact ⟨rfl, by decide +kernel⟩
      cases v with
      | null | boolean | signedInteger | unsignedInteger => cases h
      | double d =>
          dsimp only at h
          split at h
          · cases h; exact ⟨rfl, by decide +kernel⟩
          · cases h
      | string text =>
          dsimp only at h
          split at h
          · cases h; exact ⟨rfl, by decide +kernel⟩
          split at h
          · cases h; exact ⟨rfl, by decide +kernel⟩
          · cases h
      | bytes data =>
          dsimp only at h
          split at h
          · cases h; exact ⟨rfl, by decide +kernel⟩
          · cases h
      | array items =>
          dsimp only at h
          split at h
          · cases h; exact ⟨rfl, by decide +kernel⟩
          · exact plain_of_validateItems items (depth + 1) (n + 1) e h
      | object fields =>
          dsimp only at h
          split at h
          · cases h; exact ⟨rfl, by decide +kernel⟩
          · exact plain_of_validateFields fields (depth + 1) (n + 1) e h

theorem plain_of_validateItems : ∀ (items : List Value) (depth n : Nat) (e : Failure),
    validateItems items depth n = .error e → Plain e
  | [], depth, n, e => by
      intro h
      cases h
  | v :: rest, depth, n, e => by
      unfold validateItems
      intro h
      split at h
      · next hv =>
          cases h
          exact plain_of_validateValue v depth n e hv
      · next m _ => exact plain_of_validateItems rest depth m e h

theorem plain_of_validateFields : ∀ (fields : List (Bytes × Value)) (depth n : Nat)
    (e : Failure), validateFields fields depth n = .error e → Plain e
  | [], depth, n, e => by
      intro h
      cases h
  | (key, v) :: rest, depth, n, e => by
      unfold validateFields
      intro h
      split at h
      · cases h; exact ⟨rfl, by decide +kernel⟩
      split at h
      · next hv =>
          cases h
          exact plain_of_validateValue v depth n e hv
      · next m _ => exact plain_of_validateFields rest depth m e h

end

theorem plain_of_validate {v : Value} {e : Failure} (h : v.validate = .error e) : Plain e := by
  unfold Value.validate at h
  split at h
  · cases h
  · next hv =>
      cases h
      exact plain_of_validateValue v 0 0 e hv

theorem plain_of_validateDiagnostic {diagnostic : Bytes} {e : Failure}
    (h : validateDiagnostic diagnostic = .error e) : Plain e := by
  unfold validateDiagnostic at h
  split at h
  · cases h; exact ⟨rfl, by decide +kernel⟩
  · exact plain_of_validate h

theorem plain_of_validateEffectReport {report : EffectReport} {e : Failure}
    (h : validateEffectReport report = .error e) : Plain e := by
  unfold validateEffectReport at h
  split at h
  · cases h; exact ⟨rfl, by decide +kernel⟩
  split at h
  · cases h; exact ⟨rfl, by decide +kernel⟩
  split at h
  · cases h; exact ⟨rfl, by decide +kernel⟩
  split at h
  · cases h; exact ⟨rfl, by decide +kernel⟩
  split at h
  · cases h; exact ⟨rfl, by decide +kernel⟩
  split at h
  · cases h; exact ⟨rfl, by decide +kernel⟩
  split at h
  · exact plain_of_validateDiagnostic h
  split at h
  · next hv =>
      cases h
      exact plain_of_validate hv
  · exact plain_of_validateDiagnostic h

/-- Whatever is wrong with a result, it can be written down. -/
theorem plain_of_malformed {result : DispatchResult} {command : EffectCommand} {e : Failure}
    (valid : validateEffectCommand command = .ok ())
    (h : validateDispatchResultForCommand result command = .error e) : Plain e := by
  unfold validateDispatchResultForCommand at h
  rw [valid] at h
  dsimp only at h
  split at h
  · next hresult =>
      cases h
      unfold DispatchResult.validate at hresult
      split at hresult
      · next hdiagnostic =>
          cases hresult
          exact plain_of_validateDiagnostic hdiagnostic
      split at hresult
      · cases hresult
      split at hresult
      · cases hresult; exact ⟨rfl, by decide +kernel⟩
      · exact plain_of_validateEffectReport hresult
  split at h
  · cases h
  split at h
  · cases h; exact ⟨rfl, by decide +kernel⟩
  · cases h

/-! ## Where `dispatch` is called -/

/-- A pending command has had no report. -/
def Unreported (s : RuntimeEffectsState) : Prop :=
  ∀ id state, s.commands.find? id = some state → state.status = .pending →
    state.terminalReport = none

section Unreported

variable {A : Allow} {s s' : RuntimeEffectsState}

theorem Unreported.of_insert {id : UInt64} {state : CommandState} (h : Unreported s)
    (hcommands : s'.commands = s.commands.insert id state)
    (hstate : state.status = .pending → state.terminalReport = none) : Unreported s' := by
  intro j found hj hpending
  rw [hcommands, OrdMap.find?_insert] at hj
  split at hj
  · cases hj
    exact hstate hpending
  · exact h j found hj hpending

theorem Unreported.step (h : Unreported s) (step : Step A s s') : Unreported s' := by
  cases step with
  | quiet => exact h
  | store => exact h
  | inert => exact h
  | torn => exact h
  | skipped => exact h
  | unrecorded => exact h
  | commit => exact h
  | observe => exact h
  | @transition id state status reason payload found cause =>
      have hcommands : (withStatus id state status
          (recorded .commandStatusChanged payload s)).commands =
          s.commands.insert id { state with status } := rfl
      refine h.of_insert hcommands fun hpending => ?_
      cases hpending
      cases cause with
      | pending _ hne => exact absurd rfl hne
      | reconciled _ _ hend => exact absurd hend (by decide)
  | @accept report state reportPayload statusPayload acceptable =>
      refine h.of_insert (acceptedState_commands acceptable.found _ _) fun hpending => ?_
      dsimp only at hpending
      split at hpending
      · next hsuperseded => rw [hsuperseded] at hpending; cases hpending
      · exact absurd hpending (of_validateEffectReport acceptable.valid).2.2.1
  | @terminal id state report found ended =>
      refine h.of_insert (modify_of_find? found _) fun hpending => ?_
      dsimp only at hpending
      rw [hpending] at ended
      cases ended
  | @issued command adapter capabilities _ attemptPayload stage =>
      obtain ⟨store, calls, feedback, he⟩ := attempted_eq stage
        (newCommand command adapter capabilities) command.issuedAtMs attemptPayload
        (withCommand (newCommand command adapter capabilities)
          { recorded .commandIssued _ s with nextCommand := s.nextCommand + 1 })
      rw [he]
      have hcommands : ∀ t : RuntimeEffectsState, t.commands = s.commands →
          (withCommand (newCommand command adapter capabilities) t).commands =
            s.commands.insert command.commandId (newCommand command adapter capabilities) := by
        intro t ht
        rw [← ht]
        rfl
      exact h.of_insert (hcommands { recorded .commandIssued _ s with
        nextCommand := s.nextCommand + 1 } rfl) fun _ => rfl
  | @retried id state now attemptPayload stage found pending =>
      obtain ⟨store, calls, feedback, he⟩ := attempted_eq stage
        { state with retryIndex := state.retryIndex + 1 } now attemptPayload (withRetry id state s)
      rw [he]
      have hcommands : (withRetry id state s).commands =
          s.commands.insert id { state with retryIndex := state.retryIndex + 1 } := rfl
      exact h.of_insert hcommands fun _ => h id state found pending
  | @prune id state found ended =>
      exact fun j now hj hpending => h j now (pruneOne_find? hj).1 hpending
  | @register adapter route capabilities _ commands _ new built taken attached =>
      intro j now hj hpending
      have hat := attached j
      rw [hj] at hat
      cases hbefore : s.commands.find? j with
      | none => rw [hbefore] at hat; cases hat
      | some before =>
          rw [hbefore] at hat
          obtain rfl := Option.some.inj hat
          unfold registeredCommand at hpending ⊢
          split at hpending
          · next hroute =>
              rw [if_pos hroute]
              dsimp only at hpending
              split at hpending
              · cases hpending
              · exact h j before hbefore hpending
          · next hroute =>
              rw [if_neg hroute]
              exact h j before hbefore hpending

theorem Unreported.moves (h : Unreported s) (moves : Moves A s s') : Unreported s' := by
  induction moves with
  | refl => exact h
  | tail _ step ih => exact ih.step step

theorem pruneLoop_find? {targetSize : Nat} {order : List UInt64} {id : UInt64}
    {state : CommandState}
    (h : (pruneLoop targetSize order s).commands.find? id = some state) :
    s.commands.find? id = some state := by
  induction order generalizing s with
  | nil => exact h
  | cons first rest ih =>
      rw [pruneLoop] at h
      split at h
      · exact (pruneOne_find? (ih h)).1
      · exact h

theorem Constructed.unreported {options : RuntimeOptions} {store : EventStore}
    (ledgered : Ledgered store) (h : Constructed (initial options store) s) : Unreported s := by
  rcases h.result with ⟨_, _, payload, rfl⟩ | ⟨_, hok⟩
  · exact fun _ _ h => nomatch h
  · obtain ⟨ledger, book⟩ := ledgered.book
    have restarts : Restarts (initial options store) ledger :=
      ⟨fresh_initial options store, h.named, h.session, h.policy, Nat.pos_of_ne_zero h.space,
        ledgered.sequenced, book⟩
    obtain ⟨r, hr, heq⟩ := restarts.restore_eq
    rw [heq, finishRestore] at hok
    split at hok
    · cases hok
    split at hok
    · cases hok
    split at hok
    · cases hok
    cases hok
    intro id state hid _
    have hresumed : (resumed r).commands.find? id = some state := pruneLoop_find? hid
    have hrestored : r.state.commands.find? id = some state := hresumed
    rw [hr.commands] at hrestored
    obtain ⟨entry, _, rfl⟩ := Option.map_eq_some_iff.mp hrestored
    rfl

end Unreported

/-- The states in which `dispatch` is called for the command `id`: `retry_due` has counted a retry
    of a pending command, or `issue` has entered a new one. -/
inductive DispatchPoint (s₀ : RuntimeEffectsState) (id : UInt64) : RuntimeEffectsState → Prop where
  | retried {s : RuntimeEffectsState} {state : CommandState} (reached : Moves anyStep s₀ s)
      (found : s.commands.find? id = some state) (pending : state.status = .pending) :
      DispatchPoint s₀ id (withRetry id state s)
  | issued {s : RuntimeEffectsState} {command : EffectCommand} {adapter : Adapter}
      {capabilities : AdapterCapabilities} {payload : Value} (reached : Moves anyStep s₀ s)
      (number : command.commandId = id) (session : command.sessionId = s.session)
      (valid : validateEffectCommand command = .ok ()) :
      DispatchPoint s₀ id (withCommand (newCommand command adapter capabilities)
        (recorded .commandIssued payload { s with nextCommand := s.nextCommand + 1 }))

/-- What `dispatch` finds under its command's id. -/
structure Callable (s : RuntimeEffectsState) (id : UInt64) (state : CommandState) : Prop where
  found : s.commands.find? id = some state
  pending : state.status = .pending
  first : state.terminalReport = none
  commandId : state.command.commandId = id
  session : state.command.sessionId = s.session
  valid : validateEffectCommand state.command = .ok ()

theorem DispatchPoint.callable {s₀ s : RuntimeEffectsState} {id : UInt64} (wf : WF s₀)
    (unreported : Unreported s₀) (h : DispatchPoint s₀ id s) :
    ∃ state, Callable s id state := by
  cases h with
  | @retried s state reached found pending =>
      have wf' := reached.wf wf
      have first := unreported.moves reached id state found pending
      have commandId := wf'.commandId found
      have session := wf'.session found
      have valid := wf'.valid found
      exact ⟨{ state with retryIndex := state.retryIndex + 1 }, OrdMap.find?_insert_self _ _ _,
        pending, first, commandId, session, valid⟩
  | @issued s command adapter capabilities payload reached number session valid =>
      subst number
      exact ⟨newCommand command adapter capabilities, OrdMap.find?_insert_self _ _ _, rfl, rfl,
        rfl, session, valid⟩

/-! ## Observed values that can be written down -/

theorem fits_observedText (route : AdapterRoute) (target : EffectTarget) :
    (Value.string (observedText route target)).fits 1 = true := by
  have hroute := fits_route route
  have htarget := target.valid
  unfold validateTarget at htarget
  split at htarget
  · cases htarget
  next hbounded =>
  have hshort : target.value.length ≤ EffectLimits.maxTargetBytes := by
    unfold validateBoundedText at hbounded
    split at hbounded
    · cases hbounded
    split at hbounded
    · cases hbounded
    · next hle => exact Nat.le_of_not_gt hle
  have hrouteShort : route.value.length ≤ EffectLimits.maxAdapterRouteBytes := by
    have h := route.valid
    unfold validateRoute at h
    split at h
    · cases h
    next hb =>
    unfold validateBoundedText at hb
    split at hb
    · cases hb
    split at hb
    · cases hb
    · next hle => exact Nat.le_of_not_gt hle
  have hascii : ∀ b ∈ route.value ++ utf8 ":", b ≤ 0x7f := by
    intro b hb
    rcases List.mem_append.mp hb with hb | hb
    · have hc := List.all_eq_true.mp route.all_routeCharacter b hb
      simp only [routeCharacter, Bool.or_eq_true, Bool.and_eq_true, decide_eq_true_eq,
        beq_iff_eq] at hc
      rcases hc with (((((⟨_, h⟩ | ⟨_, h⟩) | ⟨_, h⟩) | rfl) | rfl) | rfl) | rfl
      · exact le_trans h (by decide)
      · exact le_trans h (by decide)
      · exact le_trans h (by decide)
      all_goals decide
    · exact (by decide +kernel : ∀ b ∈ utf8 ":", b ≤ 0x7f) b hb
  have htext := fits_target target
  simp only [Value.fits, Bool.and_eq_true, decide_eq_true_eq] at htext ⊢
  refine ⟨⟨htext.1.1, ?_⟩, ?_⟩
  · have hcolon : (utf8 ":").length = 1 := by decide
    have hlimits : EffectLimits.maxAdapterRouteBytes + 1 + EffectLimits.maxTargetBytes ≤
        ValueLimits.maxStringBytes := by decide
    rw [observedText, List.length_append, List.length_append]
    omega
  · rw [observedText, validUtf8_ascii_append hascii]
    exact htext.2

/-- An observed value that fits into its record, which holds it twice. -/
def Committable (value : Value) : Prop :=
  value.fits 1 = true ∧ 2 * value.nodes + 6 ≤ ValueLimits.maxTotalNodes

theorem committedFields_ok_iff {route : AdapterRoute} {target : EffectTarget} {value : Value}
    {revision : StateRevision} {commandId : UInt64} :
    (∃ payload, eventPayload (committedFields route target value revision commandId) =
      .ok payload) ↔ Committable value := by
  have hiff := @eventPayload_ok_iff (committedFields route target value revision commandId) rfl
  have hsum : 1 + ((committedFields route target value revision commandId).map
      fun f => f.2.nodes).sum = 2 * value.nodes + 6 := by
    simp only [committedFields, List.map_cons, List.map_nil, List.sum_cons, List.sum_nil,
      Value.nodes]
    omega
  have hfits : (∀ f ∈ committedFields route target value revision commandId,
      f.2.fits 1 = true) ↔ value.fits 1 = true := by
    simp only [committedFields, List.forall_mem_cons, fits_observedText, fits_unsigned, fits_route,
      fits_target, List.not_mem_nil, true_and, and_true, false_imp_iff, implies_true, and_self]
  rw [hsum, hfits] at hiff
  rw [Committable, ← hiff]
  constructor
  · rintro ⟨payload, hp⟩
    rw [hp, (eventPayload_eq_ok hp).1]
  · exact fun h => ⟨_, h⟩

theorem reportFields_ok (report : EffectReport) {disposition : String}
    (h : (Value.string (utf8 disposition)).fits 1 = true) :
    ∃ payload, eventPayload (reportFields report disposition) = .ok payload := by
  refine ⟨_, (eventPayload_ok_iff rfl).mpr ⟨?_, ?_⟩⟩
  · intro f hf
    simp only [reportFields, List.mem_cons, List.not_mem_nil, or_false] at hf
    rcases hf with rfl | rfl | rfl | rfl | rfl | rfl
    · exact fits_unsigned _
    · exact fits_unsigned _
    · exact fits_route _
    · exact fits_target _
    · exact fits_statusName _
    · exact h
  · simp [reportFields, Value.nodes, ValueLimits.maxTotalNodes]

/-! ## The store during a call -/

/-- The store refuses an append or a flush between the two states. -/
def StoreFailed (s s' : RuntimeEffectsState) : Prop :=
  s.store.refused < s'.store.refused ∨
    ∃ n, s.store.calls ≤ n ∧ n < s'.store.calls ∧ s.store.medium n = false

/-- The store takes every call and has room for `left` more records. -/
structure Taking (left : Nat) (store : EventStore) : Prop where
  medium : ∀ n, store.medium n = true
  room : ∀ k < left, store.nextSequence + UInt64.ofNat k ≠ 0

/-- The store has not failed between the two states. -/
structure Onward (s s' : RuntimeEffectsState) : Prop where
  refused : s'.store.refused = s.store.refused
  medium : s'.store.medium = s.store.medium
  calls : s.store.calls ≤ s'.store.calls

section Onward

variable {s s' : RuntimeEffectsState}

theorem Onward.refl (s : RuntimeEffectsState) : Onward s s := ⟨rfl, rfl, le_rfl⟩

theorem Onward.recorded {type : EventType} {payload : Value} (h : Onward s s') :
    Onward s (recorded type payload s') :=
  ⟨h.refused, h.medium, Nat.le_succ_of_le h.calls⟩

theorem Onward.flushed (h : Onward s s') : Onward s (flushedState s') :=
  ⟨h.refused, h.medium, Nat.le_succ_of_le h.calls⟩

/-- A write that leaves the store alone. -/
theorem Onward.of_store {t : RuntimeEffectsState} (h : Onward s s') (ht : t.store = s'.store) :
    Onward s t := by
  obtain ⟨hrefused, hmedium, hcalls⟩ := h
  exact ⟨by rw [ht, hrefused], by rw [ht, hmedium], by rw [ht]; exact hcalls⟩

theorem Onward.storeFailed_refused (h : Onward s s') : StoreFailed s (Effects.refused s') := by
  left
  show s.store.refused < s'.store.refused + 1
  rw [h.refused]
  exact Nat.lt_succ_self _

theorem Onward.storeFailed_unflushed (h : Onward s s')
    (hmedium : s'.store.medium s'.store.calls = false) : StoreFailed s (unflushedState s') := by
  refine .inr ⟨s'.store.calls, h.calls, Nat.lt_succ_self _, ?_⟩
  rw [← h.medium]
  exact hmedium

theorem Onward.not_storeFailed {left : Nat} (h : Onward s s') (taking : Taking left s.store) :
    ¬StoreFailed s s' := by
  rintro (hrefused | ⟨n, _, _, hn⟩)
  · rw [h.refused] at hrefused
    exact Nat.lt_irrefl _ hrefused
  · rw [taking.medium] at hn
    cases hn

end Onward

theorem Taking.recorded {left : Nat} {s : RuntimeEffectsState} {type : EventType}
    {payload : Value} (h : Taking (left + 1) s.store) :
    Taking left (recorded type payload s).store := by
  refine ⟨h.medium, fun k hk => ?_⟩
  have hroom := h.room (k + 1) (by omega)
  show s.store.nextSequence + 1 + UInt64.ofNat k ≠ 0
  rw [UInt64.add_assoc, UInt64.add_comm 1]
  rwa [UInt64.ofNat_add] at hroom

theorem Taking.flushed {left : Nat} {s : RuntimeEffectsState}
    (h : Taking left s.store) : Taking left (flushedState s).store :=
  ⟨h.medium, h.room⟩

section Exact

variable {Q : Unit → RuntimeEffectsState → Prop} {F : RuntimeEffectsState → Prop}
  {s : RuntimeEffectsState}

/-- A record, where the store takes it: it is written if and only if it can be built. -/
theorem wp_record_taken {left : Nat} {type : EventType} {fields : List (String × Value)}
    (taking : Taking (left + 1) s.store)
    (hok : ∀ payload, eventPayload fields = .ok payload → Q () (recorded type payload s))
    (hbad : (∀ payload, eventPayload fields ≠ .ok payload) → F s) :
    wp (record type fields) Q (fun _ => F) s := by
  simp only [record, wp_bind]
  refine wp_check (fun payload hp => ?_) hbad
  have hroom : s.store.nextSequence ≠ 0 := by
    have := taking.room 0 (Nat.succ_pos _)
    rwa [show UInt64.ofNat 0 = 0 from rfl, UInt64.add_zero] at this
  have hadmits : s.store.admits [{ type, payload }] = true := by
    simp only [EventStore.admits, taking.medium, List.length_singleton, Bool.and_true,
      Bool.and_eq_true, decide_eq_true_eq, bne_iff_ne, ne_eq]
    exact ⟨⟨by decide, hroom⟩, Nat.zero_le _⟩
  simp only [append, appendBatch, wp_bind, wp_get, wp_set, EventStore.appendBatch,
    List.isEmpty_cons, Bool.false_eq_true, if_false, hadmits, if_true, wp_pure]
  exact hok payload hp

theorem wp_flush_exact (hok : s.store.medium s.store.calls = true → Q () (flushedState s))
    (hfail : s.store.medium s.store.calls = false → F (unflushedState s)) :
    wp flush Q (fun _ => F) s := by
  simp only [flush, wp_bind, wp_get, wp_set, EventStore.flush]
  split
  · next hm =>
      simp only [if_true, wp_pure]
      exact hok hm
  · next hm =>
      simp only [Bool.false_eq_true, if_false, wp_throw]
      exact hfail (Bool.eq_false_of_not_eq_true hm)

/-- A transition, where the store takes it. -/
theorem wp_transition_taken {left : Nat} {id : UInt64} {state : CommandState}
    {status : CommandStatus} {reason : Bytes} (taking : Taking (left + 1) s.store)
    (found : s.commands.find? id = some state)
    (hok : ∀ payload, Q () (withStatus id state status (recorded .commandStatusChanged payload s)))
    (hbad : ¬Recordable reason → F s) :
    wp (transition id status reason) Q (fun _ => F) s := by
  simp only [transition, wp_bind]
  refine wp_record_taken taking (fun payload _ => ?_) fun hnone => ?_
  · have found' : (recorded .commandStatusChanged payload s).commands.find? id = some state :=
      found
    simp only [setStatus, wp_bind]
    refine wp_commandAt found' ?_
    rw [wp_modify]
    exact hok payload
  · refine hbad fun hreason => ?_
    obtain ⟨payload, hp⟩ := statusFields_ok id status hreason
    exact hnone payload hp

end Exact

/-! ## An immediate report -/

/-- `command_status`. -/
def commandStatus (s : RuntimeEffectsState) (commandId : CommandId) : Option CommandStatus :=
  (s.commands.find? commandId).map CommandState.status

/-- The observed value of the report is written down, if it is the target's newest. -/
def ReportFits (s : RuntimeEffectsState) (report : EffectReport) : Prop :=
  ∀ value, report.observedValue = some value →
    (∀ prior, s.observedRevisions.find? report.key = some prior → prior < report.stateRevision) →
      Committable value

section Report

variable {s₀ s : RuntimeEffectsState} {id : UInt64} {state : CommandState}
  {report : EffectReport} {Q : Unit → RuntimeEffectsState → Prop}
  {F : RuntimeEffectsState → Prop}

theorem Callable.of_eq {t : RuntimeEffectsState} (h : Callable s id state)
    (hcommands : t.commands = s.commands) (hsession : t.session = s.session) :
    Callable t id state :=
  ⟨by rw [hcommands]; exact h.found, h.pending, h.first, h.commandId,
    by rw [hsession]; exact h.session, h.valid⟩

theorem Callable.commandStatus (h : Callable s id state) : commandStatus s id = some .pending := by
  rw [Effects.commandStatus, h.found, Option.map_some, h.pending]

theorem commandStatus_withStatus (id : UInt64) (state : CommandState) (status : CommandStatus)
    (s : RuntimeEffectsState) : commandStatus (withStatus id state status s) id = some status := by
  unfold commandStatus withStatus
  dsimp only
  rw [OrdMap.find?_insert_self]
  rfl

/-- The report of a valid result is the first for its command. -/
theorem Callable.acceptable (h : Callable s id state) {result : DispatchResult}
    (valid : validateDispatchResultForCommand result state.command = .ok ())
    (hreport : result.immediateReport = some report) : Acceptable s report state := by
  obtain ⟨hvalid, hsession, hid, hroute, htarget⟩ :=
    (of_validateDispatchResultForCommand valid).2 report hreport
  refine ⟨hvalid, ?_, hsession.trans h.session, hroute, htarget, h.first, fun hs => ?_⟩
  · rw [hid, h.commandId]
    exact h.found
  · rw [h.pending] at hs
    cases hs

theorem wp_applyReport_acceptable (h : Acceptable s report state)
    (hw : wp (acceptReport report state.status) Q (fun _ => F) s) :
    wp (applyReport report) Q (fun _ => F) s := by
  have hcurrent : ¬(state.status = .superseded ∧ report.status ≠ .applied) :=
    fun hs => hs.2 (h.current hs.1)
  simp only [applyReport, wp_bind]
  refine wp_check (fun _ _ => ?_) fun hbad => absurd h.valid (hbad ())
  simp only [wp_bind, wp_get, h.found, h.session, h.route, h.target, h.first, ne_eq,
    not_true_eq_false, or_self, if_false]
  rw [if_neg hcurrent]
  exact hw

theorem wp_commitReport_newer {value : Value}
    (newer : ∀ prior, s.observedRevisions.find? report.key = some prior →
      prior < report.stateRevision)
    (hw : wp (commitAuthoritative report.adapterRoute report.target value report.stateRevision
      report.commandId) Q (fun _ => F) s) : wp (commitReport report value) Q (fun _ => F) s := by
  simp only [commitReport, wp_bind, wp_get]
  split
  · exact hw
  · next revision hrevision =>
      have hlt := newer revision hrevision
      rw [if_neg (not_lt.mpr (le_of_lt hlt)), if_neg (ne_of_lt hlt)]
      exact hw

/-- The end of an accepted report leaves the commands alone. -/
theorem wp_commitAccepted_contained {status : CommandStatus} (onward : Onward s₀ s)
    (hstatus : commandStatus s id = some status) (fits : ReportFits s report) :
    wp (commitAccepted report) (fun _ s' => commandStatus s' id = some status)
      (fun _ s' => StoreFailed s₀ s') s := by
  have hcommit : ∀ value, Committable value →
      wp (commitAuthoritative report.adapterRoute report.target value report.stateRevision
        report.commandId) (fun _ s' => commandStatus s' id = some status)
        (fun _ s' => StoreFailed s₀ s') s := by
    intro value hvalue
    obtain ⟨payload, hp⟩ := committedFields_ok_iff.mpr hvalue
    simp only [commitAuthoritative, wp_bind]
    refine wp_record_of_ok hp (fun _ => ?_) onward.storeFailed_refused
    rw [wp_modify]
    exact hstatus
  unfold commitAccepted
  split
  · split
    · next value hvalue =>
        by_cases newer : ∀ prior, s.observedRevisions.find? report.key = some prior →
            prior < report.stateRevision
        · exact wp_commitReport_newer newer (hcommit value (fits value hvalue newer))
        · simp only [commitReport, wp_bind, wp_get]
          split
          · next hnone => exact absurd (fun _ h => nomatch hnone.symm.trans h) newer
          · next revision hrevision =>
              split
              · exact (wp_pure _).mpr hstatus
              · next hle =>
                  split
                  · split
                    · exact (wp_pure _).mpr hstatus
                    · obtain ⟨payload, hp⟩ := @reportFields_ok report
                        "rejected-conflicting-state-revision" (by decide +kernel)
                      exact wp_record_of_ok hp (fun _ => hstatus) onward.storeFailed_refused
                  · next hne =>
                      refine absurd (fun prior hprior => ?_) newer
                      obtain rfl := Option.some.inj (hrevision.symm.trans hprior)
                      exact lt_of_le_of_ne (not_lt.mp hle) hne
    · exact (wp_pure _).mpr hstatus
  · exact (wp_pure _).mpr hstatus

/-- The two records before the end of an accepted report can always be built. -/
theorem wp_acceptReport (acceptable : Acceptable s report state) (hrefused : F (refused s))
    (hrefused' : ∀ payload, F (refused (recorded .reportReceived payload s)))
    (hend : ∀ p p', wp (commitAccepted report) Q (fun _ => F) (acceptedState report state p p' s)) :
    wp (acceptReport report state.status) Q (fun _ => F) s := by
  have hdiagnostic := (of_validateEffectReport acceptable.valid).2.2.2.2.2
  obtain ⟨p, hp⟩ := @reportFields_ok report "accepted" (by decide +kernel)
  obtain ⟨p', hp'⟩ :=
    statusFields_ok report.commandId report.status (validate_of_diagnostic hdiagnostic)
  simp only [acceptReport, recordReport, wp_bind]
  refine wp_record_of_ok hp (fun _ => ?_) hrefused
  have hend := hend p p'
  by_cases hsuperseded : state.status = .superseded
  · simp only [acceptedState, if_pos hsuperseded] at hend
    simp only [hsuperseded, ne_eq, not_true_eq_false, if_false, wp_bind, wp_modify]
    exact hend
  · simp only [acceptedState, if_neg hsuperseded] at hend
    simp only [ne_eq, hsuperseded, not_false_eq_true, if_true, wp_bind, transition]
    refine wp_record_of_ok hp' (fun _ => ?_) (hrefused' p)
    simp only [setStatus, wp_bind]
    refine wp_commandAt acceptable.found ?_
    simp only [wp_modify, wp_bind]
    exact hend

theorem wp_applyReport_contained (acceptable : Acceptable s report state)
    (hpending : state.status = .pending) (onward : Onward s₀ s) (fits : ReportFits s report) :
    wp (applyReport report) (fun _ s' => commandStatus s' report.commandId = some report.status)
      (fun _ s' => StoreFailed s₀ s') s := by
  have hsuperseded : state.status ≠ .superseded := by rw [hpending]; decide
  refine wp_applyReport_acceptable acceptable
    (wp_acceptReport acceptable onward.storeFailed_refused
      (fun _ => onward.recorded.storeFailed_refused) fun p p' => ?_)
  refine wp_commitAccepted_contained ?_ ?_ ?_
  · have hstore : (acceptedState report state p p' s).store =
        (recorded .commandStatusChanged p' (recorded .reportReceived p s)).store := by
      simp only [acceptedState, if_neg hsuperseded]
      rfl
    exact onward.recorded.recorded.of_store hstore
  · rw [commandStatus, acceptedState_commands acceptable.found, OrdMap.find?_insert_self,
      Option.map_some, if_neg hsuperseded]
  · have hobserved : (acceptedState report state p p' s).observedRevisions =
        s.observedRevisions := by
      simp only [acceptedState, if_neg hsuperseded]
      rfl
    unfold ReportFits
    rw [hobserved]
    exact fits

end Report

/-! ## A dispatch -/

/-- The status the answer of an adapter calls for: what a thrown exception or a malformed result
    leaves open stays pending only where the adapter may be asked again. -/
def calledFor (s : RuntimeEffectsState) (state : CommandState) (answer : DispatchAnswer) :
    CommandStatus :=
  match dispatchOutcome answer state.command with
  | .error _ => if state.capabilities.nativeIdempotency then .pending else .indeterminate
  | .ok result =>
      match result.disposition with
      | .rejected => .rejected
      | .failed => .failed
      | .accepted =>
          match result.immediateReport with
          | none => .pending
          | some report => if s.timing = .immediate then report.status else .pending

/-- The dispatch returns with the command in this status, or the store has failed. -/
def Contained (s : RuntimeEffectsState) (id now : UInt64) (answer : DispatchAnswer)
    (status : CommandStatus) : Prop :=
  wp (dispatch id now answer) (fun _ s' => commandStatus s' id = some status)
    (fun _ s' => StoreFailed s s') s

/-- An immediate report can be applied, or kept until the next frame. -/
def ReportTakes (s : RuntimeEffectsState) (report : EffectReport) : Prop :=
  if s.timing = .immediate then ReportFits s report
  else s.deferredSynchronousReports.length < s.maximumDeferredReports

/-- The adapter throws no store error, what it throws can be written down, and the immediate report
    of a valid result is taken. -/
structure Containable (s : RuntimeEffectsState) (state : CommandState) (answer : DispatchAnswer) :
    Prop where
  thrown : ∀ e, answer.outcome = .error e →
    e.type ≠ .eventStoreError ∧ Recordable (failureReason e)
  report : ∀ result report, answer.outcome = .ok result →
    validateDispatchResultForCommand result state.command = .ok () →
      result.immediateReport = some report → ReportTakes s report

section Dispatch

variable {s₀ s : RuntimeEffectsState} {id now : UInt64} {state : CommandState}
  {answer : DispatchAnswer}

/-- What was thrown, by the adapter or over its result, can be written down. -/
theorem Containable.recordable {e : Failure} (valid : validateEffectCommand state.command = .ok ())
    (h : Containable s state answer) (he : dispatchOutcome answer state.command = .error e) :
    e.type ≠ .eventStoreError ∧ Recordable (failureReason e) := by
  unfold dispatchOutcome at he
  split at he
  · next hthrown =>
      cases he
      exact h.thrown _ hthrown
  split at he
  · next hmalformed =>
      cases he
      obtain ⟨htype, hwhat⟩ := plain_of_malformed valid hmalformed
      refine ⟨by rw [htype]; decide, ?_⟩
      unfold failureReason
      rw [htype, if_neg (by decide)]
      exact hwhat
  · cases he

theorem of_dispatchOutcome {result : DispatchResult} {command : EffectCommand}
    (h : dispatchOutcome answer command = .ok result) : answer.outcome = .ok result ∧
      validateDispatchResultForCommand result command = .ok () := by
  unfold dispatchOutcome at h
  split at h
  · cases h
  split at h
  · cases h
  · next houtcome _ hvalid =>
      cases h
      exact ⟨houtcome, hvalid⟩

/-- A diagnostic of a valid result can be written down. -/
theorem recordable_of_result {result : DispatchResult} {command : EffectCommand}
    (valid : validateDispatchResultForCommand result command = .ok ()) :
    Recordable result.diagnostic := by
  have hresult := (of_validateDispatchResultForCommand valid).1
  unfold DispatchResult.validate at hresult
  split at hresult
  · cases hresult
  · next hdiagnostic => exact validate_of_diagnostic hdiagnostic

/-- A transition with a reason that can be written down. -/
theorem wp_transition_contained {status : CommandStatus} {reason : Bytes}
    (callable : Callable s id state) (onward : Onward s₀ s) (hreason : Recordable reason) :
    wp (transition id status reason) (fun _ s' => commandStatus s' id = some status)
      (fun _ s' => StoreFailed s₀ s') s := by
  obtain ⟨payload, hp⟩ := statusFields_ok id status hreason
  simp only [transition, wp_bind]
  refine wp_record_of_ok hp (fun _ => ?_) onward.storeFailed_refused
  have found : (recorded .commandStatusChanged payload s).commands.find? id = some state :=
    callable.found
  simp only [setStatus, wp_bind]
  refine wp_commandAt found ?_
  rw [wp_modify]
  exact commandStatus_withStatus _ _ _ _

theorem wp_dispatchThrew_contained {e : Failure} (callable : Callable s id state)
    (onward : Onward s₀ s) (htype : e.type ≠ .eventStoreError)
    (hreason : Recordable (failureReason e)) :
    wp (dispatchThrew id state.capabilities.nativeIdempotency e)
      (fun _ s' => commandStatus s' id =
        some (if state.capabilities.nativeIdempotency then .pending else .indeterminate))
      (fun _ s' => StoreFailed s₀ s') s := by
  unfold dispatchThrew
  rw [if_neg htype]
  split
  · obtain ⟨payload, hp⟩ := statusFields_ok id state.status hreason
    simp only [recordStatus, wp_bind]
    refine wp_commandAt callable.found (wp_record_of_ok hp (fun _ => ?_) onward.storeFailed_refused)
    exact callable.commandStatus
  · exact wp_transition_contained callable onward hreason

theorem wp_dispatchReturned_contained {result : DispatchResult} (callable : Callable s id state)
    (onward : Onward s₀ s)
    (valid : validateDispatchResultForCommand result state.command = .ok ())
    (takes : ∀ report, result.immediateReport = some report → ReportTakes s report) :
    wp (dispatchReturned id result)
      (fun _ s' => commandStatus s' id = some
        (match result.disposition with
        | .rejected => .rejected
        | .failed => .failed
        | .accepted =>
            match result.immediateReport with
            | none => .pending
            | some report => if s.timing = .immediate then report.status else .pending))
      (fun _ s' => StoreFailed s₀ s') s := by
  unfold dispatchReturned
  cases result.disposition with
  | rejected => exact wp_transition_contained callable onward (recordable_of_result valid)
  | failed => exact wp_transition_contained callable onward (recordable_of_result valid)
  | accepted =>
      cases hreport : result.immediateReport with
      | none => exact (wp_pure _).mpr callable.commandStatus
      | some report =>
          have htakes := takes report hreport
          have hid : report.commandId = id :=
            ((of_validateDispatchResultForCommand valid).2 report hreport).2.2.1.trans
              callable.commandId
          simp only [wp_bind, wp_get]
          unfold ReportTakes at htakes
          split
          · next htiming =>
              rw [if_pos htiming] at htakes
              rw [← hid]
              exact wp_applyReport_contained (callable.acceptable valid hreport)
                callable.pending onward htakes
          · next htiming =>
              rw [if_neg htiming] at htakes
              rw [if_neg (Nat.not_le.mpr htakes), wp_modify]
              exact callable.commandStatus

/-- Where what may have to be written down can be, an adapter's failure goes no further. -/
theorem contained_of_containable (callable : Callable s id state)
    (h : Containable s state answer) : Contained s id now answer (calledFor s state answer) := by
  obtain ⟨payload, hp⟩ := attemptFields_ok id (state.retryIndex + 1) now
  simp only [Contained, dispatch, wp_bind]
  refine wp_commandAt callable.found ?_
  rw [wp_bind]
  refine wp_record_of_ok hp (fun _ => ?_) (Onward.refl s).storeFailed_refused
  rw [wp_bind]
  refine wp_flush_exact (fun _ => ?_) (Onward.refl s).recorded.storeFailed_unflushed
  rw [wp_bind, wp_modify]
  have callable' : Callable (withCall state now answer.sends
      (flushedState (recorded .commandAttempted payload s))) id state := callable.of_eq rfl rfl
  have onward : Onward s (withCall state now answer.sends
      (flushedState (recorded .commandAttempted payload s))) :=
    (Onward.refl s).recorded.flushed.of_store rfl
  unfold calledFor
  cases houtcome : dispatchOutcome answer state.command with
  | error e =>
      obtain ⟨htype, hreason⟩ := h.recordable callable.valid houtcome
      exact wp_dispatchThrew_contained callable' onward htype hreason
  | ok result =>
      obtain ⟨hok, valid⟩ := of_dispatchOutcome houtcome
      exact wp_dispatchReturned_contained callable' onward valid fun report hreport =>
        h.report result report hok valid hreport

/-! ### What gets out -/

/-- The handler of an exception throws, or the exception goes through. -/
theorem wp_dispatchThrew_escapes {e : Failure} {Q : Unit → RuntimeEffectsState → Prop}
    {left : Nat} (callable : Callable s id state) (onward : Onward s₀ s)
    (taking₀ : Taking left s₀.store) (taking : Taking 1 s.store)
    (h : ¬(e.type ≠ .eventStoreError ∧ Recordable (failureReason e))) :
    wp (dispatchThrew id state.capabilities.nativeIdempotency e) Q
      (fun _ s' => ¬StoreFailed s₀ s') s := by
  have healthy : ¬StoreFailed s₀ s := onward.not_storeFailed taking₀
  unfold dispatchThrew
  split
  · exact (wp_throw _).mpr healthy
  · next htype =>
      have hreason : ¬Recordable (failureReason e) := fun hr => h ⟨htype, hr⟩
      have hnone : ∀ status payload,
          eventPayload (statusFields id status (failureReason e)) ≠ .ok payload :=
        fun _ _ hp => hreason (recordable_of_statusFields hp)
      split
      · simp only [recordStatus, wp_bind]
        refine wp_commandAt callable.found (wp_record_taken taking (fun payload hp => ?_) ?_)
        · exact absurd hp (hnone _ payload)
        · exact fun _ => healthy
      · simp only [transition, wp_bind]
        refine wp_record_taken taking (fun payload hp => ?_) fun _ => healthy
        exact absurd hp (hnone _ payload)

/-- A report whose observed value cannot be written down: its status has been changed when the
    exception leaves. -/
theorem wp_applyReport_escapes {report : EffectReport} {Q : Unit → RuntimeEffectsState → Prop}
    {left : Nat} (acceptable : Acceptable s report state) (hpending : state.status = .pending)
    (onward : Onward s₀ s) (taking₀ : Taking left s₀.store) (taking : Taking 3 s.store)
    (h : ¬ReportFits s report) :
    wp (applyReport report) Q (fun _ s' => ¬StoreFailed s₀ s') s := by
  have hsuperseded : state.status ≠ .superseded := by rw [hpending]; decide
  unfold ReportFits at h
  push Not at h
  obtain ⟨value, hvalue, newer, hheavy⟩ := h
  have happlied : report.status = .applied := by
    by_contra hne
    have hnone := (of_validateEffectReport acceptable.valid).2.2.2.2.1 hne
    rw [hnone] at hvalue
    cases hvalue
  have hdiagnostic := (of_validateEffectReport acceptable.valid).2.2.2.2.2
  refine wp_applyReport_acceptable acceptable ?_
  simp only [acceptReport, recordReport, wp_bind]
  refine wp_record_taken taking (fun p _ => ?_) fun _ => onward.not_storeFailed taking₀
  simp only [ne_eq, hsuperseded, not_false_eq_true, if_true, wp_bind]
  have taking' : Taking 2 (recorded .reportReceived p s).store := taking.recorded
  refine wp_transition_taken taking' acceptable.found (fun p' => ?_) fun hbad =>
    absurd (validate_of_diagnostic hdiagnostic) hbad
  simp only [wp_bind, wp_modify]
  have taking'' : Taking 1 (recorded .commandStatusChanged p' (recorded .reportReceived p s)).store :=
    taking'.recorded
  rw [commitAccepted, if_pos happlied, hvalue]
  refine wp_commitReport_newer newer ?_
  simp only [commitAuthoritative, wp_bind]
  refine wp_record_taken taking'' (fun payload hp => ?_) fun _ => ?_
  · exact absurd (committedFields_ok_iff.mp ⟨payload, hp⟩) hheavy
  · exact (onward.recorded.recorded.of_store rfl).not_storeFailed taking₀

theorem wp_dispatch_escapes (callable : Callable s id state) (taking : Taking 4 s.store)
    (h : ¬Containable s state answer) :
    wp (dispatch id now answer)
      (fun _ s' => commandStatus s' id ≠ some (calledFor s state answer))
      (fun _ s' => ¬StoreFailed s s') s := by
  obtain ⟨payload, hp⟩ := attemptFields_ok id (state.retryIndex + 1) now
  have here : Onward s s := .refl s
  simp only [dispatch, wp_bind]
  refine wp_commandAt callable.found ?_
  rw [wp_bind]
  refine wp_record_taken taking (fun payload _ => ?_) fun hnone => absurd hp (hnone payload)
  rw [wp_bind]
  refine wp_flush_exact (fun _ => ?_) fun hm => ?_
  · rw [wp_bind, wp_modify]
    have callable' : Callable (withCall state now answer.sends
        (flushedState (recorded .commandAttempted payload s))) id state := callable.of_eq rfl rfl
    have onward : Onward s (withCall state now answer.sends
        (flushedState (recorded .commandAttempted payload s))) :=
      here.recorded.flushed.of_store rfl
    have taking' : Taking 3 (withCall state now answer.sends
        (flushedState (recorded .commandAttempted payload s))).store := taking.recorded.flushed
    unfold calledFor
    cases houtcome : dispatchOutcome answer state.command with
    | error e =>
        refine wp_dispatchThrew_escapes callable' onward taking
          ⟨taking'.medium, fun k hk => taking'.room k (by omega)⟩ fun hgood => h ⟨?_, ?_⟩
        · intro e' he'
          unfold dispatchOutcome at houtcome
          rw [he'] at houtcome
          cases houtcome
          exact hgood
        · intro result report hok hvalid _
          unfold dispatchOutcome at houtcome
          rw [hok] at houtcome
          dsimp only at houtcome
          rw [hvalid] at houtcome
          cases houtcome
    | ok result =>
        obtain ⟨hok, valid⟩ := of_dispatchOutcome houtcome
        have hreport : ∃ report, result.immediateReport = some report ∧ ¬ReportTakes s report := by
          by_contra hall
          push Not at hall
          refine h ⟨fun e he => ?_, fun result' report hok' _ hr => ?_⟩
          · rw [hok] at he
            cases he
          · rw [hok] at hok'
            cases hok'
            exact hall report hr
        obtain ⟨report, hreport, htakes⟩ := hreport
        have haccepted : result.disposition = .accepted := by
          have hresult := (of_validateDispatchResultForCommand valid).1
          unfold DispatchResult.validate at hresult
          rw [hreport] at hresult
          split at hresult
          · cases hresult
          dsimp only at hresult
          split at hresult
          · cases hresult
          · next hne => exact not_not.mp hne
        unfold ReportTakes at htakes
        simp only [dispatchReturned, haccepted, hreport, wp_bind, wp_get]
        split
        · next htiming =>
            rw [if_pos (show s.timing = .immediate from htiming)] at htakes
            exact wp_applyReport_escapes (callable'.acceptable valid hreport) callable.pending
              onward taking taking' htakes
        · next htiming =>
            have htiming' : ¬s.timing = .immediate := htiming
            rw [if_neg htiming'] at htakes
            -- the report is lost, and with it the outcome
            have hfull : (withCall state now answer.sends
                (flushedState (recorded .commandAttempted payload s))).deferredSynchronousReports.length
                ≥ (withCall state now answer.sends
                (flushedState (recorded .commandAttempted payload s))).maximumDeferredReports :=
              Nat.le_of_not_lt htakes
            rw [if_pos hfull, if_neg htiming']
            have taking'' : Taking 1 (withCall state now answer.sends
                (flushedState (recorded .commandAttempted payload s))).store :=
              ⟨taking'.medium, fun k hk => taking'.room k (by omega)⟩
            refine wp_transition_taken taking'' callable'.found (fun p => ?_) fun hbad =>
              absurd (by decide +kernel) hbad
            rw [commandStatus_withStatus]
            decide
  · have hmedium : s.store.medium (s.store.calls + 1) = false := hm
    rw [taking.medium] at hmedium
    cases hmedium

/-- What cannot be written down gets out, where the store is not to blame. -/
theorem not_contained (callable : Callable s id state) (taking : Taking 4 s.store)
    (h : ¬Containable s state answer) : ¬Contained s id now answer (calledFor s state answer) := by
  intro hcontained
  have hboth := wp_and hcontained (@wp_dispatch_escapes s id now state answer callable taking h)
  cases hrun : dispatch id now answer s with
  | ok a s' =>
      have hstatus := wp_ok hboth hrun
      exact hstatus.2 hstatus.1
  | error e s' =>
      have hfailed := wp_error hboth hrun
      exact hfailed.2 hfailed.1

end Dispatch

/-- A dispatch contains an adapter's failure if, and where the store takes its records only if,
    the adapter throws no store error and what it throws and reports can be written down. -/
theorem dispatch_contained_iff {options : RuntimeOptions} {store : EventStore}
    {s₀ s : RuntimeEffectsState} {id : UInt64} (now : UInt64) (answer : DispatchAnswer)
    (written : Written store) (built : construct options (initial options store) = .ok () s₀)
    (point : DispatchPoint s₀ id s) :
    ∃ state, s.commands.find? id = some state ∧
      (Containable s state answer → Contained s id now answer (calledFor s state answer)) ∧
      (Taking 4 s.store → (Contained s id now answer (calledFor s state answer) ↔
        Containable s state answer)) := by
  obtain ⟨_, constructed⟩ := construct_inv built
  have sim : Sim True s₀ := constructed.sim written.ledgered
  obtain ⟨state, callable⟩ :=
    point.callable sim.wf (constructed.unreported written.ledgered)
  have hcontained := @contained_of_containable s id now state answer callable
  refine ⟨state, callable.found, hcontained, fun taking => ⟨fun h => ?_, hcontained⟩⟩
  by_contra hnot
  exact not_contained callable taking hnot h

/-! ### A lamp that throws -/

def lampRegistered : RuntimeEffectsState := perform lampRegister lampStart

def lampCommand : EffectCommand := ⟨1, 1, ⟨lampRoute, lampTarget, .boolean true⟩, 5⟩

/-- The lamp's first command as `issue` dispatches it. -/
def lampDispatched : RuntimeEffectsState :=
  withCommand (newCommand lampCommand 0 {})
    (recorded .commandIssued .null
      { lampRegistered with nextCommand := lampRegistered.nextCommand + 1 })

theorem lampDispatched_point : DispatchPoint lampStart 1 lampDispatched := by
  have wf : WF lampStart :=
    (@Constructed.sim True _ _ _ lampStore_empty.ledgered (construct_inv construct_lamp).2).wf
  have reached : Moves anyStep lampStart lampRegistered :=
    perform_moves anyStep_open wf (lampRegister.allowed_anyStep _)
  exact .issued reached rfl (by decide +kernel) (by decide +kernel)

/-- An adapter that throws `std::runtime_error(what)`. -/
def throwing (what : Bytes) : DispatchAnswer := ⟨[], .error ⟨.runtimeError, what⟩⟩

theorem dispatch_contained_lamp :
    Contained lampDispatched 1 5 (throwing (utf8 "no answer")) .indeterminate := by
  obtain ⟨state, found, hcontained, _⟩ := dispatch_contained_iff 5 (throwing (utf8 "no answer"))
    (.empty lampStore_empty) construct_lamp lampDispatched_point
  obtain rfl : newCommand lampCommand 0 {} = state :=
    Option.some.inj ((OrdMap.find?_insert_self _ _ _).symm.trans found)
  refine hcontained ⟨fun e he => ?_, fun _ _ hok => nomatch hok⟩
  cases he
  exact ⟨by decide, by decide +kernel⟩

/-- One byte that is no UTF-8 text: the store takes everything, and the exception leaves. -/
theorem dispatch_escapes_lamp : DispatchPoint lampStart 1 lampDispatched ∧
    Taking 4 lampDispatched.store ∧
    ¬Contained lampDispatched 1 5 (throwing [0xff]) .indeterminate ∧
    (match dispatch 1 5 (throwing [0xff]) lampDispatched with
      | .ok _ _ => none
      | .error e s => some (e, commandStatus s 1)) =
      some (.invalidArgument "value string is not valid UTF-8", some .pending) := by
  have taking : Taking 4 lampDispatched.store := by
    refine ⟨fun _ => rfl, ?_⟩
    decide +kernel
  have callable : Callable lampDispatched 1 (newCommand lampCommand 0 {}) :=
    ⟨OrdMap.find?_insert_self _ _ _, rfl, rfl, rfl, by decide +kernel, by decide +kernel⟩
  refine ⟨lampDispatched_point, taking, not_contained callable taking fun h => ?_,
    by decide +kernel⟩
  exact absurd (h.thrown _ rfl).2 (by decide +kernel)


end Effects

end LiquidLayer
