/-
  What a session is charged for.

  `Moved` lists the ways in which a call changes a session; a call that returns an error changes
  nothing (`moved_program`, `evaluate_unchanged`). Each of them keeps the books (`Accounted`): the
  payload counter is the sum of the charges of what is retained and of what is reserved, and
  within the ceiling, so nothing on it wraps. An evaluation is charged at most what was reserved
  for it (`evaluationCharge_le`).

  `History` keeps the ids a session has issued and the evaluations that have begun and are not
  kept yet, the innermost first. `payload_accounted` is about every session and every sequence of
  calls, those that the callbacks of a running evaluation make included, whatever the host's
  world, runner and callbacks are at each of them. A binding callback of the live runner that
  calls the session in the middle of a capture is not among these.
-/
import LiquidLayer.Authoring.Session
import LiquidLayer.Authoring.Verdict
import LiquidLayer.Lib.Total

namespace LiquidLayer

open Prog Evaluation

namespace AuthoringSession

variable {C A P : Type}

/-! ## What a call does -/

/-- A begun evaluation that is not kept yet. -/
abbrev Begun (A : Type) := EvaluationTicket A × EvaluationFixtureId

/-- A submitted proposal, with the owner and the grants of its scope as they were then. -/
structure Submitted where
  id : ProposalId
  owner : Bytes
  grants : List LuaScopeGrant

/-- How a call moves a session and its begun evaluations, and the ids of scopes, proposals and
    evaluations it issues. -/
inductive Moved (s : Session A) (begun : List (Begun A)) : Session A → List (Begun A) →
    List ScopeId → List Submitted → List EvaluationId → Prop where
  | aside {lastNow : Option IntentTime} {suites : OrdMap (Bytes ×ₗ UInt32) (EvaluationSuite A)} :
      Moved s begun { s with lastNow, suites } begun [] [] []
  | created {issued : ScopeId} {record : ScopeRecord} {now : IntentTime}
      (hnext : checkedNext s.lastScope s.limits.maxIdValue = some issued)
      (hfits : payloadFits s 0 record.payloadCharge = true) :
      Moved s begun { s with
        scopes := s.scopes.emplace issued record
        sessionPayloadBytes := wrapSize (s.sessionPayloadBytes + record.payloadCharge)
        lastScope := issued
        lastNow := some now } begun [issued] [] []
  | replaced {scope : ScopeId} {record record' : ScopeRecord} {now : IntentTime}
      (hfind : s.scopes.find? scope = some record) (howner : record'.owner = record.owner)
      (hrevision : record'.revision.toNat = record.revision.toNat + 1)
      (hfits : payloadFits s record.payloadCharge record'.payloadCharge = true) :
      Moved s begun { s with
        scopes := s.scopes.insert scope record'
        sessionPayloadBytes := wrapSize
          (sizeSub s.sessionPayloadBytes record.payloadCharge + record'.payloadCharge)
        lastNow := some now } begun [] [] []
  | revoked {scope : ScopeId} {record : ScopeRecord}
      (hfind : s.scopes.find? scope = some record) :
      Moved s begun { s with
        sessionPayloadBytes := sizeSub s.sessionPayloadBytes record.payloadCharge
        scopes := s.scopes.erase scope } begun [] [] []
  | submitted {issued : ProposalId} {record : ProposalRecord} {scope : ScopeRecord}
      (hnext : checkedNext s.lastProposal s.limits.maxIdValue = some issued)
      (hscope : s.scopes.find? record.proposal.scope = some scope)
      (howner : record.owner = scope.owner)
      (hrevision : record.proposal.scopeRevision = scope.revision)
      (hfits : payloadFits s 0 (proposalCharge record) = true) :
      Moved s begun { s with
        proposals := s.proposals.emplace issued record
        sessionPayloadBytes := wrapSize (s.sessionPayloadBytes + proposalCharge record)
        lastProposal := issued } begun [] [⟨issued, scope.owner, scope.grants⟩] []
  | began {ticket : EvaluationTicket A} {fixture : EvaluationFixtureId}
      (hnext : checkedNext s.lastEvaluation s.limits.maxIdValue = some ticket.id)
      (hfits : payloadFits s 0 ticket.reservation = true)
      (hreservation : ticket.reservation = evaluationReservation s.limits fixture) :
      Moved s begun { s with
        lastEvaluation := ticket.id
        sessionPayloadBytes := wrapSize (s.sessionPayloadBytes + ticket.reservation) }
        ((ticket, fixture) :: begun) [] [] [ticket.id]
  | kept {ticket : EvaluationTicket A} {fixture : EvaluationFixtureId} {outer : List (Begun A)}
      {entry : EvaluationEntry} (hbegun : begun = (ticket, fixture) :: outer)
      (hcharge : evaluationCharge entry ≤ evaluationReservation s.limits fixture) :
      Moved s begun { s with
        evaluations := s.evaluations.emplace ticket.id entry
        sessionPayloadBytes := sizeSub s.sessionPayloadBytes
          (sizeSub ticket.reservation (evaluationCharge entry)) } outer [] [] []

/-- The scope ids a call issues. -/
def issuedScopes : Call A → Reply → List ScopeId
  | .createScope _ _ _, .scope view => [view.scope]
  | _, _ => []

/-- The proposal a call submits to the session. -/
def issuedProposals (s : Session A) : Call A → Reply → List Submitted
  | .submit _ submission, .submitted id =>
      (s.scopes.find? submission.scope).toList.map fun scope => ⟨id, scope.owner, scope.grants⟩
  | _, _ => []

section Rules

variable {α β : Type} {s : Session A} {Q : α → Session A → Prop}

/-- A result that is passed on, and what follows. -/
theorem wp_answered_bind {result : AuthoringResult β} {f : β → SessionM A α}
    (h : ∀ b, result = .ok b → wp (f b) Q (fun _ s' => s' = s) s) :
    wp (answered result >>= f) Q (fun _ s' => s' = s) s := by
  rw [wp_bind]
  unfold answered
  cases result with
  | error e => exact (wp_throw e).mpr rfl
  | ok b => exact (wp_pure b).mpr (h b rfl)

theorem wp_unless {c : Prop} [Decidable c] {e : AuthoringError} {m : SessionM A α}
    (h : ¬c → wp m Q (fun _ s' => s' = s) s) :
    wp (if c then throw e else m) Q (fun _ s' => s' = s) s :=
  wp_ite.mpr ⟨fun _ => (wp_throw e).mpr rfl, h⟩

end Rules

/-- An evaluation is charged at most what was reserved for it. -/
theorem evaluationCharge_le (host : LiveHost C A P) (s : Session A) (ticket : EvaluationTicket A)
    (fixture : EvaluationFixtureId) :
    evaluationCharge (evaluationEntry host s ticket fixture) ≤
      evaluationReservation s.limits fixture := by
  have hstore := (runEvaluation_bounded (host.cases fixture)
    ⟨ticket.suite, ticket.proposal.source, ticket.grants, ticket.manifest, s.limits⟩)
  unfold evaluationCharge evaluationReservation evaluationEntry
  dsimp only
  rw [boundResponse_bytes]
  refine saturatingAdd_mono ?_ hstore (saturatingAdd_le_max (saturatingAdd_le_max (by decide) _) _)
  have hresponse := boundResponse_le
    { id := ticket.id
      session := s.id
      proposal := ticket.proposal.id
      scope := ticket.proposal.scope
      scopeRevision := ticket.proposal.scopeRevision
      fixture
      status := (runEvaluation (host.cases fixture) ⟨ticket.suite, ticket.proposal.source,
        ticket.grants, ticket.manifest, s.limits⟩).status
      complete := true
      cases := (runEvaluation (host.cases fixture) ⟨ticket.suite, ticket.proposal.source,
        ticket.grants, ticket.manifest, s.limits⟩).cases } s.limits.maxEvaluationResponseBytes
  dsimp only at hresponse
  have hentry : evaluationEntryBytes ≤ 2 ^ 64 - 1 := by decide
  rw [saturatingAdd_eq_min hentry, saturatingAdd_eq_min (saturatingAdd_le_max hentry _),
    saturatingAdd_eq_min hentry]
  omega

section Programs

variable (host : LiveHost C A P) {s : Session A} {begun : List (Begun A)}

theorem moved_createScope (owner : Bytes) (grants : List LuaScopeGrant) (now : IntentTime) :
    wp (createScope host owner grants now)
      (fun view s' => Moved s begun s' begun [view.scope] [] []) (fun _ s' => s' = s) s := by
  unfold createScope
  rw [wp_bind, wp_get]
  refine wp_answered_bind fun _ _ => wp_answered_bind fun _ _ => wp_answered_bind fun _ _ =>
    wp_unless fun _ => ?_
  cases hnext : checkedNext s.lastScope s.limits.maxIdValue with
  | none => exact (wp_throw _).mpr rfl
  | some issued =>
      refine wp_answered_bind fun admission _ => wp_unless fun hfits => ?_
      rw [wp_bind, wp_set, wp_pure]
      rw [Bool.not_eq_true', Bool.not_eq_false] at hfits
      exact .created hnext hfits

theorem moved_replaceScope (scope : ScopeId) (expectedRevision : ScopeRevision)
    (grants : List LuaScopeGrant) (now : IntentTime) :
    wp (replaceScope host scope expectedRevision grants now)
      (fun _ s' => Moved s begun s' begun [] [] []) (fun _ s' => s' = s) s := by
  unfold replaceScope
  rw [wp_bind, wp_get]
  cases hfind : s.scopes.find? scope with
  | none => exact (wp_throw _).mpr rfl
  | some record =>
      refine wp_answered_bind fun _ _ => wp_unless fun _ => wp_answered_bind fun _ _ => ?_
      cases hrevision : checkedNext record.revision maxU64 with
      | none => exact (wp_throw _).mpr rfl
      | some revision =>
          refine wp_answered_bind fun admission _ => wp_unless fun hfits => ?_
          rw [wp_bind, wp_set, wp_pure]
          rw [Bool.not_eq_true', Bool.not_eq_false] at hfits
          exact .replaced hfind rfl (checkedNext_eq_some hrevision).1 hfits

theorem moved_revokeScope (scope : ScopeId) (expectedRevision : ScopeRevision) :
    wp (revokeScope scope expectedRevision) (fun _ s' => Moved s begun s' begun [] [] [])
      (fun _ s' => s' = s) s := by
  unfold revokeScope
  rw [wp_bind, wp_get]
  cases hfind : s.scopes.find? scope with
  | none => exact (wp_throw _).mpr rfl
  | some record =>
      refine wp_unless fun _ => ?_
      rw [wp_set]
      exact .revoked hfind

theorem ownedScope_eq_some {caller : CallerContext} {scope : ScopeId} {record : ScopeRecord}
    (h : ownedScope s caller scope = some record) : s.scopes.find? scope = some record := by
  unfold ownedScope at h
  split at h
  · cases h
  · exact (Option.filter_eq_some_iff.mp h).1

theorem moved_discover (caller : CallerContext) (scope : ScopeId) (now : IntentTime) :
    wp (discover host caller scope now) (fun _ s' => Moved s begun s' begun [] [] [])
      (fun _ s' => s' = s) s := by
  unfold discover
  rw [wp_bind, wp_get]
  cases ownedScope s caller scope with
  | none => exact (wp_throw _).mpr rfl
  | some record =>
      refine wp_answered_bind fun _ _ => wp_answered_bind fun manifest _ => ?_
      rw [wp_bind, wp_set, wp_pure]
      exact .aside

theorem moved_submit (caller : CallerContext) (submission : ProposalSubmission) :
    wp (submit host caller submission)
      (fun id s' => Moved s begun s' begun [] ((s.scopes.find? submission.scope).toList.map
        fun scope => ⟨id, scope.owner, scope.grants⟩) []) (fun _ s' => s' = s) s := by
  unfold submit
  rw [wp_bind, wp_get]
  cases howned : ownedScope s caller submission.scope with
  | none => exact (wp_throw _).mpr rfl
  | some record =>
      have hfind := ownedScope_eq_some howned
      refine wp_unless fun _ => wp_answered_bind fun _ _ => wp_answered_bind fun _ _ =>
        wp_unless fun _ => wp_unless fun _ => wp_unless fun _ => ?_
      cases hnext : checkedNext s.lastProposal s.limits.maxIdValue with
      | none => exact (wp_throw _).mpr rfl
      | some issued =>
          refine wp_unless fun hfits => wp_answered_bind fun _ _ => ?_
          rw [wp_bind, wp_set, wp_pure, hfind]
          rw [Bool.not_eq_true', Bool.not_eq_false] at hfits
          exact .submitted hnext hfind rfl rfl hfits

theorem moved_registerEvaluationSuite (suite : EvaluationSuite A) :
    wp (registerEvaluationSuite suite) (fun _ s' => Moved s begun s' begun [] [] [])
      (fun _ s' => s' = s) s := by
  unfold registerEvaluationSuite
  rw [wp_bind, wp_get]
  refine wp_unless fun _ => wp_unless fun _ => wp_answered_bind fun _ _ => ?_
  rw [wp_set]
  exact .aside

theorem reserveEvaluation_ok {fixture : EvaluationFixtureId} {id : EvaluationId}
    {reservation : Nat} (h : reserveEvaluation s fixture = .ok (id, reservation)) :
    checkedNext s.lastEvaluation s.limits.maxIdValue = some id ∧
      payloadFits s 0 reservation = true ∧
      reservation = evaluationReservation s.limits fixture := by
  unfold reserveEvaluation at h
  split at h
  · cases h
  cases hnext : checkedNext s.lastEvaluation s.limits.maxIdValue with
  | none => rw [hnext] at h; cases h
  | some issued =>
      rw [hnext] at h
      dsimp only at h
      split at h
      · cases h
      · next hfits =>
          cases h
          rw [Bool.not_eq_true', Bool.not_eq_false] at hfits
          exact ⟨rfl, hfits, rfl⟩

/-- An admitted evaluation has a fresh id, a reservation that fits, and the grants that its
    proposal's scope still has at the proposal's revision. -/
theorem admitEvaluation_ok {caller : CallerContext} {proposal : ProposalId}
    {fixture : EvaluationFixtureId} {ticket : EvaluationTicket A}
    (h : admitEvaluation host s caller proposal fixture = .ok ticket) :
    (checkedNext s.lastEvaluation s.limits.maxIdValue = some ticket.id ∧
      payloadFits s 0 ticket.reservation = true ∧
      ticket.reservation = evaluationReservation s.limits fixture) ∧
    ∃ record scope, ownedProposal s caller proposal = some record ∧
      s.scopes.find? record.proposal.scope = some scope ∧
      scope.revision = record.proposal.scopeRevision ∧ ticket.grants = scope.grants := by
  unfold admitEvaluation at h
  cases hproposal : ownedProposal s caller proposal with
  | none => rw [hproposal] at h; cases h
  | some record =>
      rw [hproposal] at h
      dsimp only at h
      cases hsuite : s.suites.find? (fixtureKey fixture) with
      | none => rw [hsuite] at h; cases h
      | some suite =>
          rw [hsuite] at h
          dsimp only at h
          cases hscope : s.scopes.find? record.proposal.scope with
          | none => rw [hscope] at h; cases h
          | some scope =>
              rw [hscope] at h
              dsimp only at h
              split at h
              · cases h
              next hrevision =>
              obtain ⟨⟨id, reservation⟩, hreserved, h⟩ := bind_eq_ok h
              obtain ⟨manifest, _, h⟩ := bind_eq_ok h
              cases h
              exact ⟨reserveEvaluation_ok hreserved, record, scope, rfl, hscope,
                not_ne_iff.mp hrevision, rfl⟩

theorem moved_beginEvaluation (begun : List (Begun A)) (caller : CallerContext)
    (proposal : ProposalId) (fixture : EvaluationFixtureId) :
    wp (beginEvaluation host caller proposal fixture)
      (fun ticket s' => Moved s begun s' ((ticket, fixture) :: begun) [] [] [ticket.id])
      (fun _ s' => s' = s) s := by
  unfold beginEvaluation
  rw [wp_bind, wp_get]
  refine wp_answered_bind fun ticket hticket => ?_
  obtain ⟨⟨hnext, hfits, hreservation⟩, _⟩ := admitEvaluation_ok host hticket
  rw [wp_bind, wp_set, wp_pure]
  exact .began hnext hfits hreservation

theorem moved_keepEvaluation (ticket : EvaluationTicket A) (fixture : EvaluationFixtureId)
    (outer : List (Begun A)) :
    wp (keepEvaluation host ticket fixture)
      (fun _ s' => Moved s ((ticket, fixture) :: outer) s' outer [] [] [])
      (fun _ _ => False) s := by
  unfold keepEvaluation
  rw [wp_bind, wp_get, wp_bind, wp_set, wp_pure]
  exact .kept rfl (evaluationCharge_le host s ticket fixture)

/-- An evaluation fails before anything is taken. -/
theorem evaluate_unchanged (s : Session A) (caller : CallerContext) (proposal : ProposalId)
    (fixture : EvaluationFixtureId) :
    wp (evaluate host caller proposal fixture) (fun _ _ => True) (fun _ s' => s' = s) s := by
  unfold evaluate
  rw [wp_bind]
  exact wp_mono (moved_beginEvaluation host [] caller proposal fixture)
    (fun ticket s' _ => wp_mono (moved_keepEvaluation host (s := s') ticket fixture [])
      (fun _ _ _ => trivial) fun _ _ h => h.elim) fun _ _ h => h

/-- What any call does. -/
theorem moved_program (call : Call A) (s : Session A) (begun : List (Begun A)) :
    wp (call.program host) (fun reply s' => Moved s begun s' begun (issuedScopes call reply)
      (issuedProposals s call reply) []) (fun _ s' => s' = s) s := by
  cases call with
  | createScope owner grants now =>
      unfold Call.program
      rw [wp_bind]
      exact wp_mono (moved_createScope host owner grants now) (fun _ _ h => (wp_pure _).mpr h)
        fun _ _ h => h
  | replaceScope scope expectedRevision grants now =>
      unfold Call.program
      rw [wp_bind]
      exact wp_mono (moved_replaceScope host scope expectedRevision grants now)
        (fun _ _ h => (wp_pure _).mpr h) fun _ _ h => h
  | revokeScope scope expectedRevision =>
      unfold Call.program
      rw [wp_bind]
      exact wp_mono (moved_revokeScope scope expectedRevision) (fun _ _ h => (wp_pure _).mpr h)
        fun _ _ h => h
  | discover caller scope now =>
      unfold Call.program
      rw [wp_bind]
      exact wp_mono (moved_discover host caller scope now) (fun _ _ h => (wp_pure _).mpr h)
        fun _ _ h => h
  | submit caller submission =>
      unfold Call.program
      rw [wp_bind]
      exact wp_mono (moved_submit host caller submission) (fun _ _ h => (wp_pure _).mpr h)
        fun _ _ h => h
  | proposal caller id =>
      unfold Call.program AuthoringSession.proposal
      rw [wp_bind, wp_bind, wp_get]
      cases ownedProposal s caller id with
      | none => exact (wp_throw _).mpr rfl
      | some record => exact (wp_pure _).mpr ((wp_pure _).mpr .aside)
  | registerEvaluationSuite suite =>
      unfold Call.program
      rw [wp_bind]
      exact wp_mono (moved_registerEvaluationSuite suite) (fun _ _ h => (wp_pure _).mpr h)
        fun _ _ h => h

end Programs

/-! ## The books -/

/-- The charges of all that is retained. -/
def retained (s : Session A) : Nat :=
  s.scopes.total ScopeRecord.payloadCharge + s.proposals.total proposalCharge +
    s.evaluations.total evaluationCharge

/-- What is reserved for the begun evaluations. -/
def reserved (begun : List (Begun A)) : Nat := (begun.map fun e => e.1.reservation).sum

/-- The counter is what is retained and reserved and within the ceiling; no id is past the last
    one issued, and the begun evaluations have ids of their own. -/
structure Accounted (s : Session A) (begun : List (Begun A)) : Prop where
  total : s.sessionPayloadBytes = retained s + reserved begun
  ceiling : s.sessionPayloadBytes ≤ s.limits.maxSessionPayloadBytes
  scopes : ∀ id record, s.scopes.find? id = some record → id ≤ s.lastScope
  proposals : ∀ id record, s.proposals.find? id = some record → id ≤ s.lastProposal
  evaluations : ∀ id entry, s.evaluations.find? id = some entry → id ≤ s.lastEvaluation
  unfinished : ∀ e ∈ begun, e.1.id ≤ s.lastEvaluation ∧ s.evaluations.find? e.1.id = none ∧
    e.1.reservation = evaluationReservation s.limits e.2
  distinct : (begun.map fun e => e.1.id).Nodup

section Sizes

theorem sizeSub_eq {left right : Nat} (h : right ≤ left) (hleft : left < 2 ^ 64) :
    sizeSub left right = left - right := by
  unfold sizeSub
  omega

theorem wrapSize_eq {n : Nat} (h : n < 2 ^ 64) : wrapSize n = n := Nat.mod_eq_of_lt h

theorem payload_lt (s : Session A) : s.limits.maxSessionPayloadBytes < 2 ^ 64 := by
  have hvalid := s.limitsValid
  unfold validLimits at hvalid
  rw [Bool.and_eq_true, List.all_eq_true] at hvalid
  have hmem : (s.limits.maxSessionPayloadBytes, 64 * 2 ^ 20) ∈ s.limits.bounded := by
    simp [AuthoringLimits.bounded]
  have hbound := hvalid.1 _ hmem
  rw [Bool.and_eq_true, decide_eq_true_iff] at hbound
  omega

/-- A charge fits when the counter, less what is released, stays within the ceiling. -/
theorem le_of_payloadFits {s : Session A} {released charge : Nat}
    (hfits : payloadFits s released charge = true) (hreleased : released ≤ s.sessionPayloadBytes)
    (hceiling : s.sessionPayloadBytes ≤ s.limits.maxSessionPayloadBytes) :
    s.sessionPayloadBytes - released + charge ≤ s.limits.maxSessionPayloadBytes := by
  have hlt := payload_lt s
  unfold payloadFits at hfits
  rw [decide_eq_true_iff, sizeSub_eq hreleased (by omega), sizeSub_eq (by omega) hlt] at hfits
  omega

end Sizes

/-- An id past the last one is free, and taking it keeps the ids up to the last. -/
theorem fresh_of_next {V : Type} {m : OrdMap UInt64 V} {last next : UInt64}
    (hm : ∀ id v, m.find? id = some v → id ≤ last) (hnext : next.toNat = last.toNat + 1) (v : V) :
    m.find? next = none ∧ ∀ id v', (m.emplace next v).find? id = some v' → id ≤ next := by
  have hfresh : m.find? next = none := by
    refine Option.eq_none_iff_forall_ne_some.mpr fun v' hv' => ?_
    have hle := UInt64.le_iff_toNat_le.mp (hm next v' hv')
    omega
  refine ⟨hfresh, fun id v' hv' => ?_⟩
  rw [OrdMap.emplace_fresh hfresh, OrdMap.find?_insert] at hv'
  by_cases hid : id = next
  · exact hid ▸ le_refl _
  · rw [if_neg hid] at hv'
    have hle := UInt64.le_iff_toNat_le.mp (hm id v' hv')
    exact UInt64.le_iff_toNat_le.mpr (by omega)

theorem Accounted.scope_le {s : Session A} {begun : List (Begun A)} (h : Accounted s begun)
    {scope : ScopeId} {record : ScopeRecord}
    (hfind : s.scopes.find? scope = some record) :
    record.payloadCharge ≤ s.sessionPayloadBytes := by
  have herase := OrdMap.total_erase ScopeRecord.payloadCharge hfind
  have htotal := h.total
  unfold retained at htotal
  omega

section Steps

variable {s : Session A} {begun : List (Begun A)}

theorem Accounted.created (hs : Accounted s begun) {issued : ScopeId} {record : ScopeRecord}
    {now : IntentTime}
    (hnext : checkedNext s.lastScope s.limits.maxIdValue = some issued)
    (hfits : payloadFits s 0 record.payloadCharge = true) :
    Accounted { s with
      scopes := s.scopes.emplace issued record
      sessionPayloadBytes := wrapSize (s.sessionPayloadBytes + record.payloadCharge)
      lastScope := issued
      lastNow := some now } begun := by
  have hlt := payload_lt s
  have htotal := hs.total
  have hle := le_of_payloadFits hfits (Nat.zero_le _) hs.ceiling
  obtain ⟨hfresh, hids⟩ := fresh_of_next hs.scopes (checkedNext_eq_some hnext).1 record
  have hsum := OrdMap.total_emplace ScopeRecord.payloadCharge hfresh record
  have hwrap : wrapSize (s.sessionPayloadBytes + record.payloadCharge) =
      s.sessionPayloadBytes + record.payloadCharge := wrapSize_eq (by omega)
  refine ⟨?_, ?_, hids, hs.proposals, hs.evaluations, hs.unfinished, hs.distinct⟩
  · unfold retained at htotal ⊢
    dsimp only
    omega
  · dsimp only
    omega

theorem Accounted.replaced (hs : Accounted s begun) {scope : ScopeId}
    {record record' : ScopeRecord} {now : IntentTime}
    (hfind : s.scopes.find? scope = some record)
    (hfits : payloadFits s record.payloadCharge record'.payloadCharge = true) :
    Accounted { s with
      scopes := s.scopes.insert scope record'
      sessionPayloadBytes := wrapSize
        (sizeSub s.sessionPayloadBytes record.payloadCharge + record'.payloadCharge)
      lastNow := some now } begun := by
  have hlt := payload_lt s
  have htotal := hs.total
  have hceiling := hs.ceiling
  have hreleased := hs.scope_le hfind
  have hle := le_of_payloadFits hfits hreleased hceiling
  have hsum := OrdMap.total_insert ScopeRecord.payloadCharge hfind record'
  have hwrap : wrapSize (sizeSub s.sessionPayloadBytes record.payloadCharge +
      record'.payloadCharge) =
        s.sessionPayloadBytes - record.payloadCharge + record'.payloadCharge := by
    rw [sizeSub_eq hreleased (by omega), wrapSize_eq (by omega)]
  refine ⟨?_, ?_, ?_, hs.proposals, hs.evaluations, hs.unfinished, hs.distinct⟩
  · unfold retained at htotal ⊢
    dsimp only
    omega
  · dsimp only
    omega
  · intro id found hfound
    dsimp only at hfound
    rw [OrdMap.find?_insert] at hfound
    by_cases hid : id = scope
    · exact hid ▸ hs.scopes scope record hfind
    · rw [if_neg hid] at hfound
      exact hs.scopes id found hfound

theorem Accounted.revoked (hs : Accounted s begun) {scope : ScopeId} {record : ScopeRecord}
    (hfind : s.scopes.find? scope = some record) :
    Accounted { s with
      sessionPayloadBytes := sizeSub s.sessionPayloadBytes record.payloadCharge
      scopes := s.scopes.erase scope } begun := by
  have hlt := payload_lt s
  have htotal := hs.total
  have hceiling := hs.ceiling
  have hreleased := hs.scope_le hfind
  have hsum := OrdMap.total_erase ScopeRecord.payloadCharge hfind
  have hsub := sizeSub_eq hreleased (by omega)
  refine ⟨?_, ?_, ?_, hs.proposals, hs.evaluations, hs.unfinished, hs.distinct⟩
  · unfold retained at htotal ⊢
    dsimp only
    omega
  · dsimp only
    omega
  · intro id found hfound
    dsimp only at hfound
    rw [OrdMap.find?_erase] at hfound
    by_cases hid : id = scope
    · rw [if_pos hid] at hfound
      cases hfound
    · rw [if_neg hid] at hfound
      exact hs.scopes id found hfound

theorem Accounted.submitted (hs : Accounted s begun) {issued : ProposalId}
    {record : ProposalRecord}
    (hnext : checkedNext s.lastProposal s.limits.maxIdValue = some issued)
    (hfits : payloadFits s 0 (proposalCharge record) = true) :
    Accounted { s with
      proposals := s.proposals.emplace issued record
      sessionPayloadBytes := wrapSize (s.sessionPayloadBytes + proposalCharge record)
      lastProposal := issued } begun := by
  have hlt := payload_lt s
  have htotal := hs.total
  have hle := le_of_payloadFits hfits (Nat.zero_le _) hs.ceiling
  obtain ⟨hfresh, hids⟩ := fresh_of_next hs.proposals (checkedNext_eq_some hnext).1 record
  have hsum := OrdMap.total_emplace proposalCharge hfresh record
  have hwrap : wrapSize (s.sessionPayloadBytes + proposalCharge record) =
      s.sessionPayloadBytes + proposalCharge record := wrapSize_eq (by omega)
  refine ⟨?_, ?_, hs.scopes, hids, hs.evaluations, hs.unfinished, hs.distinct⟩
  · unfold retained at htotal ⊢
    dsimp only
    omega
  · dsimp only
    omega

theorem Accounted.began (hs : Accounted s begun) {ticket : EvaluationTicket A}
    {fixture : EvaluationFixtureId}
    (hnext : checkedNext s.lastEvaluation s.limits.maxIdValue = some ticket.id)
    (hfits : payloadFits s 0 ticket.reservation = true)
    (hreservation : ticket.reservation = evaluationReservation s.limits fixture) :
    Accounted { s with
      lastEvaluation := ticket.id
      sessionPayloadBytes := wrapSize (s.sessionPayloadBytes + ticket.reservation) }
      ((ticket, fixture) :: begun) := by
  have hlt := payload_lt s
  have htotal := hs.total
  have hle := le_of_payloadFits hfits (Nat.zero_le _) hs.ceiling
  have hissued := (checkedNext_eq_some hnext).1
  have hlater : s.lastEvaluation ≤ ticket.id := UInt64.le_iff_toNat_le.mpr (by omega)
  have hreserved : reserved ((ticket, fixture) :: begun) = ticket.reservation + reserved begun :=
    List.sum_cons
  have hwrap : wrapSize (s.sessionPayloadBytes + ticket.reservation) =
      s.sessionPayloadBytes + ticket.reservation := wrapSize_eq (by omega)
  refine ⟨?_, ?_, hs.scopes, hs.proposals, fun id entry hfind =>
    (hs.evaluations id entry hfind).trans hlater, ?_, ?_⟩
  · unfold retained at htotal ⊢
    dsimp only
    omega
  · dsimp only
    omega
  · intro e he
    rcases List.mem_cons.mp he with rfl | he
    · refine ⟨le_refl _, Option.eq_none_iff_forall_ne_some.mpr fun entry hfind => ?_,
        hreservation⟩
      have hbound := UInt64.le_iff_toNat_le.mp (hs.evaluations _ entry hfind)
      dsimp only at hbound
      omega
    · exact ⟨(hs.unfinished e he).1.trans hlater, (hs.unfinished e he).2⟩
  · refine List.nodup_cons.mpr ⟨fun hmem => ?_, hs.distinct⟩
    obtain ⟨e, he, hid⟩ := List.mem_map.mp hmem
    have hbound := UInt64.le_iff_toNat_le.mp (hs.unfinished e he).1
    dsimp only at hid
    rw [hid] at hbound
    omega

theorem Accounted.kept {ticket : EvaluationTicket A} {fixture : EvaluationFixtureId}
    {entry : EvaluationEntry} (hs : Accounted s ((ticket, fixture) :: begun))
    (hcharge : evaluationCharge entry ≤ evaluationReservation s.limits fixture) :
    Accounted { s with
      evaluations := s.evaluations.emplace ticket.id entry
      sessionPayloadBytes := sizeSub s.sessionPayloadBytes
        (sizeSub ticket.reservation (evaluationCharge entry)) } begun := by
  have hlt := payload_lt s
  have htotal := hs.total
  have hceiling := hs.ceiling
  obtain ⟨hid, hfresh, hreservation⟩ := hs.unfinished (ticket, fixture) List.mem_cons_self
  obtain ⟨hnew, hdistinct⟩ := List.nodup_cons.mp hs.distinct
  have hsum := OrdMap.total_emplace evaluationCharge hfresh entry
  have hreserved : reserved ((ticket, fixture) :: begun) = ticket.reservation + reserved begun :=
    List.sum_cons
  dsimp only at hid hfresh hreservation hnew hsum
  have hunused := sizeSub_eq (hcharge.trans_eq hreservation.symm) (by omega)
  have hsub : sizeSub s.sessionPayloadBytes (sizeSub ticket.reservation (evaluationCharge entry)) =
      s.sessionPayloadBytes - (ticket.reservation - evaluationCharge entry) := by
    rw [hunused, sizeSub_eq (by omega) (by omega)]
  refine ⟨?_, ?_, hs.scopes, hs.proposals, ?_, ?_, hdistinct⟩
  · unfold retained at htotal ⊢
    dsimp only
    omega
  · dsimp only
    omega
  · intro id found hfound
    dsimp only at hfound
    rw [OrdMap.emplace_fresh hfresh, OrdMap.find?_insert] at hfound
    by_cases heq : id = ticket.id
    · exact heq ▸ hid
    · rw [if_neg heq] at hfound
      exact hs.evaluations id found hfound
  · intro e he
    obtain ⟨hbound, hnone, hres⟩ := hs.unfinished e (List.mem_cons_of_mem _ he)
    refine ⟨hbound, ?_, hres⟩
    have hne : e.1.id ≠ ticket.id := fun heq => hnew (heq ▸ List.mem_map_of_mem he)
    dsimp only
    rw [OrdMap.emplace_fresh hfresh, OrdMap.find?_insert, if_neg hne]
    exact hnone

/-- The step. -/
theorem Accounted.moved (hs : Accounted s begun) {s' : Session A} {begun' : List (Begun A)}
    {scopes : List ScopeId} {proposals : List Submitted} {evaluations : List EvaluationId}
    (h : Moved s begun s' begun' scopes proposals evaluations) : Accounted s' begun' := by
  cases h with
  | aside =>
      exact ⟨hs.total, hs.ceiling, hs.scopes, hs.proposals, hs.evaluations, hs.unfinished,
        hs.distinct⟩
  | created hnext hfits => exact hs.created hnext hfits
  | replaced hfind _ _ hfits => exact hs.replaced hfind hfits
  | revoked hfind => exact hs.revoked hfind
  | submitted hnext _ _ _ hfits => exact hs.submitted hnext hfits
  | began hnext hfits hreservation => exact hs.began hnext hfits hreservation
  | kept hbegun hcharge =>
      subst hbegun
      exact hs.kept hcharge

end Steps

theorem accounted_construct {id : AuthoringSessionId} {w : World C} {scriptType : ComponentType}
    {limits : AuthoringLimits} {s : Session A}
    (h : construct id w scriptType limits = .ok s) : Accounted s [] ∧ s.limits = limits ∧
      s.lastScope = 0 ∧ s.lastProposal = 0 ∧ s.lastEvaluation = 0 ∧ s.proposals = .empty := by
  unfold construct at h
  split at h
  · cases h
  split at h
  · cases h
  split at h
  · cases h
    refine ⟨⟨rfl, Nat.zero_le _, ?_, ?_, ?_, fun _ he => absurd he List.not_mem_nil, .nil⟩, rfl,
      rfl, rfl, rfl, rfl⟩
    all_goals
      intro _ _ hfind
      cases hfind
  · cases h

/-! ## Runs -/

/-- A session, its begun evaluations, and the ids its calls have issued. -/
structure History (A : Type) where
  session : Session A
  begun : List (Begun A) := []
  scopes : List ScopeId := []
  proposals : List Submitted := []
  evaluations : List EvaluationId := []

/-- A call, or one of the two ends of an evaluation. -/
inductive SessionEvent (A : Type) where
  | call (call : Call A)
  | beginEvaluation (caller : CallerContext) (proposal : ProposalId)
      (fixture : EvaluationFixtureId)
  | keepEvaluation

/-- An event, and the host as it is then. It is the innermost evaluation that is kept. -/
def History.next (event : LiveHost C A P × SessionEvent A) (h : History A) : History A :=
  match event.2 with
  | .call call =>
      match call.program event.1 h.session with
      | .ok reply s =>
          { h with
            session := s
            scopes := h.scopes ++ issuedScopes call reply
            proposals := h.proposals ++ issuedProposals h.session call reply }
      | .error _ s => { h with session := s }
  | .beginEvaluation caller proposal fixture =>
      match beginEvaluation event.1 caller proposal fixture h.session with
      | .ok ticket s =>
          { h with
            session := s
            begun := (ticket, fixture) :: h.begun
            evaluations := h.evaluations ++ [ticket.id] }
      | .error _ s => { h with session := s }
  | .keepEvaluation =>
      match h.begun with
      | [] => h
      | (ticket, fixture) :: outer =>
          { h with
            session := after (keepEvaluation event.1 ticket fixture) h.session
            begun := outer }

/-- What an event does: nothing, or a move. -/
theorem History.next_cases (event : LiveHost C A P × SessionEvent A) (h : History A) :
    h.next event = h ∨ ∃ s' begun' scopes proposals evaluations,
      Moved h.session h.begun s' begun' scopes proposals evaluations ∧
        h.next event = ⟨s', begun', h.scopes ++ scopes, h.proposals ++ proposals,
          h.evaluations ++ evaluations⟩ := by
  obtain ⟨host, event⟩ := event
  cases event with
  | call call =>
      have hmoved := moved_program host call h.session h.begun
      unfold wp at hmoved
      unfold History.next
      dsimp only
      cases hcall : call.program host h.session with
      | ok reply s =>
          rw [hcall] at hmoved
          exact .inr ⟨s, h.begun, _, _, [], hmoved, by rw [List.append_nil]⟩
      | error e s =>
          rw [hcall] at hmoved
          dsimp only at hmoved ⊢
          rw [hmoved]
          exact .inl rfl
  | beginEvaluation caller proposal fixture =>
      have hmoved := moved_beginEvaluation host (s := h.session) h.begun caller proposal fixture
      unfold wp at hmoved
      unfold History.next
      dsimp only
      cases hbegin : beginEvaluation host caller proposal fixture h.session with
      | ok ticket s =>
          rw [hbegin] at hmoved
          exact .inr ⟨s, _, [], [], _, hmoved, by rw [List.append_nil, List.append_nil]⟩
      | error e s =>
          rw [hbegin] at hmoved
          dsimp only at hmoved ⊢
          rw [hmoved]
          exact .inl rfl
  | keepEvaluation =>
      obtain ⟨session, begun, scopes, proposals, evaluations⟩ := h
      cases begun with
      | nil => exact .inl rfl
      | cons e outer =>
          obtain ⟨ticket, fixture⟩ := e
          have hmoved := wp_after.mp (wp_mono (moved_keepEvaluation host (s := session) ticket
            fixture outer) (fun _ _ h => h) fun _ _ h => h.elim)
          exact .inr ⟨_, outer, [], [], [], hmoved,
            by rw [List.append_nil, List.append_nil, List.append_nil]; rfl⟩

/-- An evaluation whose callbacks leave the session alone. -/
theorem evaluate_next (host : LiveHost C A P) (h : History A) (caller : CallerContext)
    (proposal : ProposalId) (fixture : EvaluationFixtureId) {record : EvaluationRecord}
    {s : Session A} (hevaluate : evaluate host caller proposal fixture h.session = .ok record s) :
    ((h.next (host, .beginEvaluation caller proposal fixture)).next
      (host, .keepEvaluation)).session = s := by
  have hwp : wp (evaluate host caller proposal fixture) (fun _ s' => s' = s) (fun _ _ => False)
      h.session := by
    unfold wp
    rw [hevaluate]
  unfold evaluate at hwp
  rw [wp_bind] at hwp
  unfold wp at hwp
  unfold History.next
  dsimp only
  cases hbegin : beginEvaluation host caller proposal fixture h.session with
  | ok ticket s' =>
      rw [hbegin] at hwp
      exact hwp
  | error e s' =>
      rw [hbegin] at hwp
      exact hwp.elim

/-- The ids are counted from one. -/
def Counted (ids : List UInt64) (last : UInt64) : Prop :=
  ids.map UInt64.toNat = List.range' 1 last.toNat

theorem Counted.snoc {ids : List UInt64} {last max next : UInt64} (h : Counted ids last)
    (hnext : checkedNext last max = some next) : Counted (ids ++ [next]) next := by
  unfold Counted at h ⊢
  rw [List.map_append, h, (checkedNext_eq_some hnext).1, List.range'_1_concat, List.map_singleton,
    (checkedNext_eq_some hnext).1, Nat.add_comm 1]

/-- What holds of every history under these limits. -/
structure History.Kept (limits : AuthoringLimits) (h : History A) : Prop where
  accounted : Accounted h.session h.begun
  limits : h.session.limits = limits
  scopes : Counted h.scopes h.session.lastScope
  proposals : Counted (h.proposals.map Submitted.id) h.session.lastProposal
  evaluations : Counted h.evaluations h.session.lastEvaluation

theorem History.Kept.moved {limits : AuthoringLimits} {h : History A} (hk : h.Kept limits)
    {s' : Session A} {begun' : List (Begun A)} {scopes : List ScopeId}
    {proposals : List Submitted} {evaluations : List EvaluationId}
    (hmoved : Moved h.session h.begun s' begun' scopes proposals evaluations) :
    History.Kept limits ⟨s', begun', h.scopes ++ scopes, h.proposals ++ proposals,
      h.evaluations ++ evaluations⟩ := by
  refine ⟨hk.accounted.moved hmoved, ?_, ?_, ?_, ?_⟩
  · cases hmoved <;> exact hk.limits
  · cases hmoved with
    | created hnext => exact hk.scopes.snoc hnext
    | _ =>
        dsimp only
        rw [List.append_nil]
        exact hk.scopes
  · cases hmoved with
    | submitted hnext =>
        dsimp only
        rw [List.map_append]
        exact hk.proposals.snoc hnext
    | _ =>
        dsimp only
        rw [List.append_nil]
        exact hk.proposals
  · cases hmoved with
    | began hnext => exact hk.evaluations.snoc hnext
    | _ =>
        dsimp only
        rw [List.append_nil]
        exact hk.evaluations

theorem History.Kept.next {limits : AuthoringLimits} {h : History A} (hk : h.Kept limits)
    (event : LiveHost C A P × SessionEvent A) : (h.next event).Kept limits := by
  rcases h.next_cases event with hsame | ⟨s', begun', scopes, proposals, evaluations, hmoved, hnext⟩
  · rw [hsame]
    exact hk
  · rw [hnext]
    exact hk.moved hmoved

theorem kept_of_reaches {id : AuthoringSessionId} {w : World C} {scriptType : ComponentType}
    {limits : AuthoringLimits} {s₀ : Session A}
    (hconstruct : construct id w scriptType limits = .ok s₀) {h : History A}
    (hrun : Reaches (History.next (C := C) (P := P)) (fun _ _ => True)
      ⟨s₀, [], [], [], []⟩ h) : h.Kept limits := by
  obtain ⟨haccounted, hlimits, hscope, hproposal, hevaluation, _⟩ :=
    accounted_construct hconstruct
  refine hrun.induct ⟨haccounted, hlimits, ?_, ?_, ?_⟩ fun event _ hk _ => hk.next event
  · dsimp only
    rw [hscope]
    rfl
  · dsimp only
    rw [hproposal]
    rfl
  · dsimp only
    rw [hevaluation]
    rfl

/-- In every run of a session the payload counter is the charges of what is retained and what
    is reserved for the evaluations that have begun, and within the ceiling. The ids are issued in
    order from one, none of them twice and whatever has been revoked. A call that fails changes
    nothing. -/
theorem payload_accounted {id : AuthoringSessionId} {w : World C} {scriptType : ComponentType}
    {limits : AuthoringLimits} {s₀ : Session A}
    (hconstruct : construct id w scriptType limits = .ok s₀) {h : History A}
    (hrun : Reaches (History.next (C := C) (P := P)) (fun _ _ => True)
      ⟨s₀, [], [], [], []⟩ h) :
    h.session.sessionPayloadBytes = retained h.session + reserved h.begun ∧
      h.session.sessionPayloadBytes ≤ limits.maxSessionPayloadBytes ∧
      Counted h.scopes h.session.lastScope ∧
      Counted (h.proposals.map Submitted.id) h.session.lastProposal ∧
      Counted h.evaluations h.session.lastEvaluation ∧
      (∀ (host : LiveHost C A P) (call : Call A) (e : AuthoringError) (s' : Session A),
        call.program host h.session = .error e s' → s' = h.session) ∧
      ∀ (host : LiveHost C A P) (caller : CallerContext) (proposal : ProposalId)
        (fixture : EvaluationFixtureId) (e : AuthoringError) (s' : Session A),
        evaluate host caller proposal fixture h.session = .error e s' → s' = h.session := by
  have hkept := kept_of_reaches hconstruct hrun
  refine ⟨hkept.accounted.total, hkept.limits ▸ hkept.accounted.ceiling, hkept.scopes,
    hkept.proposals, hkept.evaluations, ?_, ?_⟩
  · intro host call e s' hcall
    have hmoved := moved_program host call h.session h.begun
    unfold wp at hmoved
    rw [hcall] at hmoved
    exact hmoved
  · intro host caller proposal fixture e s' hevaluate
    have hunchanged := evaluate_unchanged host h.session caller proposal fixture
    unfold wp at hunchanged
    rw [hevaluate] at hunchanged
    exact hunchanged

/-! ### A desk -/

/-- A fixture whose callbacks throw. -/
def refused {α : Type} : HostCall Unit α := ⟨throw (.runtimeError "no fixture"), fun _ => .start⟩

def refusingCase : CaseHost Unit Unit where
  unprepared := ()
  present _ := false
  frame _ := 0
  faulted _ := false
  grantedEffects _ := []
  adapters _ := []
  prepare _ := refused
  capabilityManifest _ := refused
  input _ := refused
  deliverThrough _ _ := refused
  runFrame _ := refused
  lastResult := refused
  intentsOwned := refused
  expect _ := refused
  snapshot _ _ := refused

def scriptOp : World.Op Bytes :=
  .registerComponent 1 (utf8 "Script") 1 (some fun _ => .ok .null) (some fun _ => .ok [])

def scriptType : ComponentType := ⟨1, 1, 1, 1⟩

def deskHost : LiveHost Bytes Unit Unit where
  sizeofLuaValue := 56
  world := scriptOp.step lampWorld
  runner := lampRunner
  runLimits := ⟨65536, 8388608, 1000000, 4096, 64, 64, 64, false⟩
  cases _ _ := refusingCase

def deskFixture : EvaluationFixtureId := ⟨utf8 "desk", 1⟩

/-- A scope is revoked while an evaluation runs. -/
def deskEvents (id : AuthoringSessionId) : List (SessionEvent Unit) :=
  [.call (.registerEvaluationSuite
      ⟨deskFixture, [⟨utf8 "dark", .null, [900], .deferred, [], true, false, true⟩]⟩),
    .call (.createScope (utf8 "desk") [deskGrant] 900),
    .call (.submit ⟨id, utf8 "desk"⟩ ⟨1, 1, utf8 "return", utf8 "", none, none⟩),
    .beginEvaluation ⟨id, utf8 "desk"⟩ 1 deskFixture,
    .call (.submit ⟨id, utf8 "door"⟩ ⟨1, 1, utf8 "return", utf8 "", none, none⟩),
    .beginEvaluation ⟨id, utf8 "desk"⟩ 1 deskFixture,
    .call (.revokeScope 1 1),
    .keepEvaluation,
    .call (.createScope (utf8 "desk") [deskGrant] 901)]

/-- The first of them. -/
def deskHistory (count : Nat) (s : Session Unit) : History Unit :=
  (((deskEvents s.id).take count).map fun event => (deskHost, event)).foldl
    (fun h event => h.next event) ⟨s, [], [], [], []⟩

theorem payload_accounted_desk :
    ∃ (id : AuthoringSessionId) (s₀ : Session Unit),
      construct id deskHost.world scriptType {} = .ok s₀ ∧
        (deskHistory 9 s₀).scopes = [1, 2] ∧ (deskHistory 9 s₀).proposals.map Submitted.id = [1] ∧
        (deskHistory 9 s₀).evaluations = [1, 2] ∧ (deskHistory 9 s₀).begun.length = 1 ∧
        (deskHistory 9 s₀).session.sessionPayloadBytes =
          retained (deskHistory 9 s₀).session + reserved (deskHistory 9 s₀).begun := by
  have hids : ((construct ⟨List.replicate 32 48, by decide, by decide⟩ deskHost.world scriptType
      {}).toOption.map (deskHistory 9)).map
        (fun h => (h.scopes, h.proposals.map Submitted.id, h.evaluations, h.begun.length)) =
          some ([1, 2], [1], [1, 2], 1) := by decide +kernel
  cases hconstruct : construct (A := Unit) ⟨List.replicate 32 48, by decide, by decide⟩
      deskHost.world scriptType {} with
  | error e =>
      rw [hconstruct] at hids
      cases hids
  | ok s₀ =>
      rw [hconstruct] at hids
      obtain ⟨hscopes, hrest⟩ := Prod.mk.inj (Option.some.inj hids)
      obtain ⟨hproposals, hrest⟩ := Prod.mk.inj hrest
      obtain ⟨hevaluations, hbegun⟩ := Prod.mk.inj hrest
      have hrun : Reaches (History.next (C := Bytes) (P := Unit)) (fun _ _ => True)
          ⟨s₀, [], [], [], []⟩ (deskHistory 9 s₀) := Reaches.start.along _ fun _ _ _ => trivial
      exact ⟨_, s₀, hconstruct, hscopes, hproposals, hevaluations, hbegun,
        (payload_accounted hconstruct hrun).1⟩

end AuthoringSession

end LiquidLayer
