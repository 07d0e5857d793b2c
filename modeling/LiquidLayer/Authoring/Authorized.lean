/-
  With whose authority an evaluation runs.

  A host can replace the grants of a scope, and revoke it, while proposals made under it are kept.
  An evaluation is admitted only where the proposal is the caller's and its scope stands as it did
  when the proposal was submitted: the owner and the grants it runs with are those of then
  (`evaluation_authorized`). The revision tells, because a replacement moves it on and the id of a
  revoked scope is not issued again.

  `Standing` is what a session knows of one proposal; `Moved.scope`: what a call can do to a scope.
-/
import LiquidLayer.Authoring.Accounted

namespace LiquidLayer

open Prog Evaluation

namespace AuthoringSession

variable {C A P : Type} {s s' : Session A} {begun begun' : List (Begun A)}
  {scopes : List ScopeId} {proposals : List Submitted} {evaluations : List EvaluationId}

/-! ## Scopes -/

theorem Moved.lastScope_le (h : Moved s begun s' begun' scopes proposals evaluations) :
    s.lastScope ≤ s'.lastScope := by
  cases h with
  | created hnext =>
      have hissued := (checkedNext_eq_some hnext).1
      exact UInt64.le_iff_toNat_le.mpr (by dsimp only; omega)
  | _ => exact le_refl _

/-- A scope keeps its owner, and is as before or has the next revision. -/
theorem Moved.scope (h : Moved s begun s' begun' scopes proposals evaluations) {id : ScopeId}
    (hid : id ≤ s.lastScope) {record' : ScopeRecord} (hfind' : s'.scopes.find? id = some record') :
    ∃ record, s.scopes.find? id = some record ∧ record'.owner = record.owner ∧
      (record' = record ∨ record'.revision.toNat = record.revision.toNat + 1) := by
  cases h with
  | @created issued record now hnext hfits =>
      have hissued := (checkedNext_eq_some hnext).1
      have hbound := UInt64.le_iff_toNat_le.mp hid
      have hne : id ≠ issued := by
        intro heq
        rw [heq] at hbound
        omega
      dsimp only at hfind'
      rw [OrdMap.find?_emplace, if_neg hne, Option.or_none] at hfind'
      exact ⟨record', hfind', rfl, .inl rfl⟩
  | @replaced scope record replacement now hfind howner hrevision hfits =>
      dsimp only at hfind'
      rw [OrdMap.find?_insert] at hfind'
      by_cases heq : id = scope
      · rw [if_pos heq] at hfind'
        cases hfind'
        exact ⟨record, heq ▸ hfind, howner, .inr hrevision⟩
      · rw [if_neg heq] at hfind'
        exact ⟨record', hfind', rfl, .inl rfl⟩
  | @revoked scope record hfind =>
      dsimp only at hfind'
      rw [OrdMap.find?_erase] at hfind'
      by_cases heq : id = scope
      · rw [if_pos heq] at hfind'
        cases hfind'
      · rw [if_neg heq] at hfind'
        exact ⟨record', hfind', rfl, .inl rfl⟩
  | _ => exact ⟨record', hfind', rfl, .inl rfl⟩

/-! ## Proposals -/

/-- The proposal was submitted, and its scope, if it is still there, has its owner and a revision
    that tells whether the grants are those of then. -/
def Standing (s : Session A) (submitted : List Submitted) (id : ProposalId)
    (record : ProposalRecord) : Prop :=
  record.proposal.scope ≤ s.lastScope ∧
    ∃ entry ∈ submitted, entry.id = id ∧ entry.owner = record.owner ∧
      ∀ scope, s.scopes.find? record.proposal.scope = some scope →
        scope.owner = record.owner ∧
          record.proposal.scopeRevision.toNat ≤ scope.revision.toNat ∧
          (scope.revision = record.proposal.scopeRevision → scope.grants = entry.grants)

def Authorized (s : Session A) (submitted : List Submitted) : Prop :=
  ∀ id record, s.proposals.find? id = some record → Standing s submitted id record

theorem Standing.moved {submitted : List Submitted} {id : ProposalId} {record : ProposalRecord}
    (hs : Standing s submitted id record)
    (h : Moved s begun s' begun' scopes proposals evaluations) :
    Standing s' (submitted ++ proposals) id record := by
  obtain ⟨hle, entry, hentry, hid, howner, hstands⟩ := hs
  refine ⟨hle.trans h.lastScope_le, entry, List.mem_append_left _ hentry, hid, howner,
    fun scope' hfind' => ?_⟩
  obtain ⟨scope, hfind, howner', hscope⟩ := h.scope hle hfind'
  obtain ⟨hsame, hrevision, hgrants⟩ := hstands scope hfind
  refine ⟨howner'.trans hsame, ?_, fun heq => ?_⟩
  · rcases hscope with rfl | hnext
    · exact hrevision
    · omega
  · rcases hscope with rfl | hnext
    · exact hgrants heq
    · rw [← heq] at hrevision
      omega

theorem Authorized.moved {submitted : List Submitted} (hs : Authorized s submitted)
    (haccounted : Accounted s begun)
    (h : Moved s begun s' begun' scopes proposals evaluations) :
    Authorized s' (submitted ++ proposals) := by
  intro id record hfind'
  by_cases hfind : s.proposals.find? id = some record
  · exact (hs id record hfind).moved h
  · cases h with
    | @submitted issued candidate scope hnext hscope howner hrevision hfits =>
        dsimp only at hfind'
        rw [OrdMap.emplace_fresh (fresh_of_next haccounted.proposals (checkedNext_eq_some hnext).1
          candidate).1, OrdMap.find?_insert] at hfind'
        by_cases heq : id = issued
        · rw [if_pos heq] at hfind'
          cases hfind'
          refine ⟨haccounted.scopes _ scope hscope, ⟨issued, scope.owner, scope.grants⟩,
            List.mem_append_right _ List.mem_cons_self, heq.symm, howner.symm,
            fun scope' hfound => ?_⟩
          dsimp only at hfound
          rw [hscope] at hfound
          cases hfound
          exact ⟨howner.symm, by rw [hrevision], fun _ => rfl⟩
        · rw [if_neg heq] at hfind'
          exact absurd hfind' hfind
    | _ => exact absurd hfind' hfind

/-! ## Runs -/

theorem ownedProposal_eq_some {caller : CallerContext} {proposal : ProposalId}
    {record : ProposalRecord} (h : ownedProposal s caller proposal = some record) :
    caller.session = s.id ∧ s.proposals.find? proposal = some record ∧
      record.owner = caller.owner := by
  unfold ownedProposal at h
  split at h
  · cases h
  · next hsession =>
      rw [Option.filter_eq_some_iff, beq_iff_eq] at h
      exact ⟨not_ne_iff.mp hsession, h⟩

/-- In every run of a session an admitted evaluation is of a proposal that the caller's owner
    submitted, and runs with the grants that the proposal's scope had when it was submitted,
    whatever has been replaced or revoked since. -/
theorem evaluation_authorized {id : AuthoringSessionId} {w : World C} {scriptType : ComponentType}
    {limits : AuthoringLimits} {s₀ : Session A}
    (hconstruct : construct id w scriptType limits = .ok s₀) {h : History A}
    (hrun : Reaches (History.next (C := C) (P := P)) (fun _ _ => True)
      ⟨s₀, [], [], [], []⟩ h) (host : LiveHost C A P) {caller : CallerContext}
    {proposal : ProposalId} {fixture : EvaluationFixtureId} {ticket : EvaluationTicket A}
    (hadmitted : admitEvaluation host h.session caller proposal fixture = .ok ticket) :
    caller.session = h.session.id ∧ ∃ entry ∈ h.proposals, entry.id = proposal ∧
      entry.owner = caller.owner ∧ ticket.grants = entry.grants := by
  have hauthorized : h.Kept limits ∧ Authorized h.session h.proposals := by
    refine Reaches.induct (P := fun h => h.Kept limits ∧ Authorized h.session h.proposals) hrun
      ⟨kept_of_reaches (C := C) (P := P) hconstruct .start, ?_⟩ ?_
    · intro proposal record hfind
      rw [(accounted_construct hconstruct).2.2.2.2.2] at hfind
      cases hfind
    · intro event h hs _
      rcases h.next_cases event with hsame | ⟨s', begun', scopes, proposals, evaluations, hmoved,
        hnext⟩
      · rw [hsame]
        exact hs
      · rw [hnext]
        exact ⟨hs.1.moved hmoved, hs.2.moved hs.1.accounted hmoved⟩
  obtain ⟨_, record, scope, howned, hscope, hrevision, hgrants⟩ :=
    admitEvaluation_ok host hadmitted
  obtain ⟨hsession, hfind, howner⟩ := ownedProposal_eq_some howned
  obtain ⟨_, entry, hentry, hid, hsame, hstands⟩ := hauthorized.2 proposal record hfind
  exact ⟨hsession, entry, hentry, hid, hsame.trans howner,
    hgrants.trans ((hstands scope hscope).2.2 hrevision)⟩

theorem evaluation_authorized_desk :
    ∃ (id : AuthoringSessionId) (s₀ : Session Unit) (ticket : EvaluationTicket Unit),
      construct id deskHost.world scriptType {} = .ok s₀ ∧
        admitEvaluation deskHost (deskHistory 3 s₀).session ⟨id, utf8 "desk"⟩ 1 deskFixture =
          .ok ticket ∧
        ∃ entry ∈ (deskHistory 3 s₀).proposals, entry.owner = utf8 "desk" ∧
          ticket.grants = entry.grants := by
  have hadmits : ((construct (A := Unit) ⟨List.replicate 32 48, by decide, by decide⟩
      deskHost.world scriptType {}).toOption.map fun s => (admitEvaluation deskHost
        (deskHistory 3 s).session ⟨⟨List.replicate 32 48, by decide, by decide⟩, utf8 "desk"⟩ 1
          deskFixture).isOk) = some true := by decide +kernel
  cases hconstruct : construct (A := Unit) ⟨List.replicate 32 48, by decide, by decide⟩
      deskHost.world scriptType {} with
  | error e =>
      rw [hconstruct] at hadmits
      cases hadmits
  | ok s₀ =>
      rw [hconstruct] at hadmits
      cases hadmitted : admitEvaluation deskHost (deskHistory 3 s₀).session
          ⟨⟨List.replicate 32 48, by decide, by decide⟩, utf8 "desk"⟩ 1 deskFixture with
      | error e =>
          dsimp only [Except.toOption, Option.map_some] at hadmits
          rw [hadmitted] at hadmits
          cases hadmits
      | ok ticket =>
          have hrun : Reaches (History.next (C := Bytes) (P := Unit)) (fun _ _ => True)
              ⟨s₀, [], [], [], []⟩ (deskHistory 3 s₀) := Reaches.start.along _ fun _ _ _ => trivial
          obtain ⟨_, entry, hentry, _, howner, hgrants⟩ :=
            evaluation_authorized hconstruct hrun deskHost hadmitted
          exact ⟨_, s₀, ticket, hconstruct, hadmitted, entry, hentry, howner, hgrants⟩

end AuthoringSession

end LiquidLayer
