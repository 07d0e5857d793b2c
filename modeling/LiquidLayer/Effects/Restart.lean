/-
  Restarting: a `RuntimeEffectsState` constructed from a log the runtime has written.

  * `Restored.live`: what the loop of `restore` has rebuilt holds what the ledger says.
  * `restore_sim`: a restored state satisfies the invariant of a run again.
  * `Live.agree`: two states that hold the same ledger agree on their active commands, on the
    targets those block, on the next command and on the observed state.
-/
import LiquidLayer.Effects.Restored
import LiquidLayer.Effects.Sim

namespace LiquidLayer

namespace Effects

/-! ## After the loop -/

theorem Book.attempt_le {metadata : EventStoreMetadata} {limit : Nat} {log : List EventRecord}
    {ledger : Ledger} (h : Book metadata limit log ledger) {id : UInt64} {entry : LedgerEntry}
    (he : ledger.commands.find? id = some entry) : entry.attempt ≤ limit + 1 := by
  induction h generalizing id entry with
  | nil => cases he
  | @snoc log ledger ledger' record _ _ _ accounts ih =>
      have rewritten : ∀ {id' old new}, ledger.commands.find? id' = some old →
          new.attempt ≤ limit + 1 →
          (ledger.commands.insert id' new).find? id = some entry → entry.attempt ≤ limit + 1 := by
        intro id' old new hold hnew hf
        rw [OrdMap.find?_insert] at hf
        split at hf
        · cases hf; exact hnew
        · exact ih hf
      generalize record.type = type at accounts
      generalize record.payload = payload at accounts
      cases accounts with
      | plain => exact ih he
      | issued =>
          simp only [Ledger.issue, OrdMap.find?_insert] at he
          split at he
          · cases he; exact Nat.zero_le _
          · exact ih he
      | attempted hold hlt hle => exact rewritten hold hle he
      | @status _ old status _ _ hold =>
          have hle : old.attempt ≤ limit + 1 := ih hold
          exact @rewritten _ old { old with status } hold hle he
      | committed => exact ih he
      | external => exact ih he
      | checkpoint => exact ih he

/-- The state `restore` has before it prunes. -/
def resumed (r : Restoring) : RuntimeEffectsState :=
  { r.state with
    nextCommand := r.maximumCommandId + 1
    terminalOrder := r.state.terminalOrder ++ terminalIds r.state }

section Resumed

variable {s₀ : RuntimeEffectsState} {r : Restoring} {ledger : Ledger}

theorem Restored.find? (h : Restored s₀ r ledger) {id : UInt64} {state : CommandState}
    (hst : r.state.commands.find? id = some state) :
    ∃ entry, ledger.commands.find? id = some entry ∧ state = entry.restored := by
  rw [h.commands, Option.map_eq_some_iff] at hst
  obtain ⟨entry, he, hs⟩ := hst
  exact ⟨entry, he, hs.symm⟩

theorem lt_succ_of_ne_max {n : UInt64} (h : n ≠ maxU64) : n < n + 1 := by
  unfold maxU64 at h
  grind

theorem Restored.live (skip : Prop) (h : Restored s₀ r ledger)
    (hlast : r.maximumCommandId ≠ maxU64)
    (hattempt : ∀ {id entry}, ledger.commands.find? id = some entry →
      entry.attempt ≤ EffectLimits.maxRetryDelays + 1) : Live skip (resumed r) ledger := by
  refine ⟨fun {id state} hst => ?_, fun {id entry} he _ => ?_, fun {id} hid => ?_,
    fun {key id} hl => ?_, fun {id state} hst hmax => ?_, ?_, h.observed, h.revisions,
    fun {id state} hst => ?_⟩
  · obtain ⟨entry, he, rfl⟩ := h.find? hst
    refine ⟨entry, he, rfl, rfl, ?_, fun _ => rfl⟩
    show entry.attempt ≤ entry.attempt - 1 + 1
    omega
  · show r.state.commands.find? id ≠ none
    rw [h.commands, he]
    exact Option.some_ne_none _
  · exact lt_of_le_of_lt (h.above hid) (lt_succ_of_ne_max hlast)
  · exact (h.latest hl).2
  · obtain ⟨entry, he, rfl⟩ := h.find? hst
    obtain ⟨latest, hlat⟩ := Option.ne_none_iff_exists'.mp (h.indexed he)
    obtain ⟨⟨entry', he', hk'⟩, hle⟩ := h.latest hlat
    have : latest = id := le_antisymm (hmax he' hk') (hle he rfl)
    exact hlat.trans (by rw [this])
  · rcases h.maximum with h0 | hne
    · refine .inr (.inr (.inl ?_))
      show r.maximumCommandId + 1 = 1
      rw [h0]
      rfl
    · refine .inr (.inr (.inr ?_))
      show ledger.commands.find? (r.maximumCommandId + 1 - 1) ≠ none
      rwa [UInt64.add_sub_cancel]
  · obtain ⟨entry, he, rfl⟩ := h.find? hst
    have := hattempt he
    show entry.attempt - 1 ≤ _
    omega

theorem Restored.wf {metadata : EventStoreMetadata} (h : Restored s₀ r ledger)
    (hlast : r.maximumCommandId ≠ maxU64) (wf : ledger.WF metadata)
    (hnamed : s₀.session ≠ 0) (hsession : s₀.session = metadata.session) : WF (resumed r) := by
  have hs : (resumed r).session = s₀.session := h.session
  refine ⟨by rw [hs]; exact hnamed, fun hst => ?_, fun hst => ?_, fun hst => ?_, fun hst => ?_,
    fun {key id} hl => ?_⟩
  · obtain ⟨entry, he, rfl⟩ := h.find? hst
    exact (wf.entry he).commandId
  · obtain ⟨entry, he, rfl⟩ := h.find? hst
    rw [hs, hsession]
    exact (wf.entry he).session
  · obtain ⟨entry, he, rfl⟩ := h.find? hst
    exact (wf.entry he).valid
  · obtain ⟨entry, he, rfl⟩ := h.find? hst
    exact lt_of_le_of_lt (h.above (by rw [he]; exact Option.some_ne_none _))
      (lt_succ_of_ne_max hlast)
  · obtain ⟨⟨entry, he, hk⟩, _⟩ := h.latest hl
    refine ⟨entry.restored, ?_, hk⟩
    show r.state.commands.find? id = some entry.restored
    rw [h.commands, he]
    rfl

end Resumed

/-! ## Pruning -/

section Pruning

variable {skip : Prop} {s : RuntimeEffectsState} {ledger : Ledger}

theorem Live.pruneOne (live : Live skip s ledger) (id : UInt64) :
    Live skip (pruneOne id s) ledger := by
  cases hst : s.commands.find? id with
  | none =>
      have : Effects.pruneOne id s = s := by simp only [Effects.pruneOne, hst]
      rwa [this]
  | some state =>
      cases ha : LiquidLayer.active state.status with
      | false => exact live.prune hst ha
      | true =>
          have : Effects.pruneOne id s = s := by simp only [Effects.pruneOne, hst, ha, if_true]
          rwa [this]

theorem Live.pruneLoop (live : Live skip s ledger) (targetSize : Nat) (order : List UInt64) :
    Live skip (pruneLoop targetSize order s) ledger := by
  induction order generalizing s with
  | nil => exact live.of_agrees ⟨rfl, rfl, rfl, rfl, le_rfl⟩ rfl
  | cons id order ih =>
      rw [Effects.pruneLoop]
      split
      · exact ih (live.pruneOne id)
      · exact live.of_agrees ⟨rfl, rfl, rfl, rfl, le_rfl⟩ rfl

theorem pruneOne_find? {id id' : UInt64} {state : CommandState}
    (h : (pruneOne id s).commands.find? id' = some state) :
    s.commands.find? id' = some state ∧ (active state.status = false → id' ≠ id) := by
  cases hst : s.commands.find? id with
  | none =>
      have hp : pruneOne id s = s := by simp only [pruneOne, hst]
      rw [hp] at h
      refine ⟨h, fun _ hid => ?_⟩
      rw [hid, hst] at h
      cases h
  | some found =>
      cases ha : active found.status with
      | false =>
          rw [pruneOne_eq hst ha] at h
          simp only [OrdMap.find?_erase] at h
          split at h
          · cases h
          · next hne => exact ⟨h, fun _ => hne⟩
      | true =>
          have hp : pruneOne id s = s := by simp only [pruneOne, hst, ha, if_true]
          rw [hp] at h
          refine ⟨h, fun hend hid => ?_⟩
          rw [hid, hst] at h
          cases h
          rw [ha] at hend
          cases hend

/-- The loop stops with few enough commands, or once every ended command listed is gone. -/
theorem pruneLoop_done (targetSize : Nat) (order : List UInt64) (s : RuntimeEffectsState) :
    (pruneLoop targetSize order s).commands.size ≤ targetSize ∨
      ∀ {id state}, (pruneLoop targetSize order s).commands.find? id = some state →
        s.commands.find? id = some state ∧ (active state.status = false → id ∉ order) := by
  induction order generalizing s with
  | nil => exact .inr fun h => ⟨h, fun _ => List.not_mem_nil⟩
  | cons first order ih =>
      rw [pruneLoop]
      split
      · rcases ih (pruneOne first s) with hsize | hdone
        · exact .inl hsize
        · refine .inr fun {id state} hst => ?_
          obtain ⟨h1, h2⟩ := hdone hst
          obtain ⟨h3, h4⟩ := pruneOne_find? h1
          refine ⟨h3, fun hend hm => ?_⟩
          rcases List.mem_cons.mp hm with hm | hm
          · exact h4 hend hm
          · exact h2 hend hm
      · next hle => exact .inl (Nat.le_of_not_gt hle)

end Pruning

/-! ## `restore` -/

/-- The members before anything is restored. -/
structure Fresh (s : RuntimeEffectsState) : Prop where
  commands : s.commands = .empty
  latestByTarget : s.latestByTarget = .empty
  observed : s.observed = .empty
  observedRevisions : s.observedRevisions = .empty
  terminalOrder : s.terminalOrder = []

theorem Fresh.restored {s : RuntimeEffectsState} (h : Fresh s) :
    Restored s { state := s, maximumCommandId := 0 } .empty := by
  refine ⟨rfl, fun id => ?_, fun hl => ?_, fun h => (nomatch h), fun h => absurd rfl h, .inl rfl,
    h.observed, h.observedRevisions⟩
  · rw [h.commands]; rfl
  · rw [h.latestByTarget] at hl; cases hl

theorem pruneTerminalHistory_eq (reserve : Bool) (s : RuntimeEffectsState) :
    pruneTerminalHistory reserve s =
      if (prunedState reserve s).commands.size > s.maximumRetainedCommands - reserve.toNat then
        .error (.eventStoreError "active command capacity exceeded") (prunedState reserve s)
      else .ok () (prunedState reserve s) := by
  show (if (prunedState reserve s).commands.size > s.maximumRetainedCommands - reserve.toNat then
    (throw (.eventStoreError "active command capacity exceeded") : Effects Unit)
    else pure ()) (prunedState reserve s) = _
  split <;> rfl

/-- What `restore` does around its loop: the projection, the numbering and the pruning. -/
def finishRestore (s₀ : RuntimeEffectsState) (r : Restoring) (records : List EventRecord) :
    Except Failure RuntimeEffectsState :=
  match project s₀.store.metadata records with
  | .error e => .error e
  | .ok _ =>
      if r.maximumCommandId = maxU64 then
        .error (.eventStoreError "command sequence exhausted")
      else if (prunedState false (resumed r)).commands.size > s₀.maximumRetainedCommands then
        .error (.eventStoreError "active command capacity exceeded")
      else .ok (prunedState false (resumed r))

theorem Restored.restore_eq {s₀ : RuntimeEffectsState} {r : Restoring} {ledger : Ledger}
    {records : List EventRecord} (hr : Restored s₀ r ledger)
    (hfold : records.foldlM restoreRecord { state := s₀, maximumCommandId := 0 } = .ok r) :
    restore s₀ records = finishRestore s₀ r records := by
  unfold restore finishRestore
  rw [hfold]
  cases project s₀.store.metadata records with
  | error e => rfl
  | ok p =>
      simp only [ok_bind]
      split
      · rfl
      · have hmax : (resumed r).maximumRetainedCommands = s₀.maximumRetainedCommands := by
          show r.state.maximumRetainedCommands = _
          rw [hr.rest]
        rw [← resumed, pruneTerminalHistory_eq, hmax]
        simp only [Bool.toNat_false, Nat.sub_zero]
        by_cases hsize : (prunedState false (resumed r)).commands.size > s₀.maximumRetainedCommands
        · simp only [hsize, if_true]
        · simp only [hsize, if_false]
          rfl

/-- What a state needs to be restored onto. -/
structure Restarts (s₀ : RuntimeEffectsState) (ledger : Ledger) : Prop extends Fresh s₀ where
  named : s₀.session ≠ 0
  session : s₀.store.metadata.session = s₀.session
  policy : s₀.retry.validate = .ok ()
  space : 0 < s₀.maximumRetainedCommands
  sequenced : Sequenced s₀.store
  book : Book s₀.store.metadata EffectLimits.maxRetryDelays s₀.store.records ledger

section Restart

variable {s₀ : RuntimeEffectsState} {ledger : Ledger}

theorem Restarts.version (_ : Restarts s₀ ledger) :
    (Value.string s₀.store.metadata.engineVersion).validate = .ok () :=
  (of_validateMetadata s₀.store.valid).2.2.2.2.2

theorem Restarts.restore_eq (h : Restarts s₀ ledger) : ∃ r, Restored s₀ r ledger ∧
    restore s₀ s₀.store.records = finishRestore s₀ r s₀.store.records := by
  obtain ⟨r, hfold, hr⟩ := h.book.restored h.version le_rfl h.session.symm h.terminalOrder
    h.toFresh.restored
  exact ⟨r, hr, hr.restore_eq hfold⟩

theorem Restarts.live (h : Restarts s₀ ledger) (skip : Prop) {r : Restoring}
    (hr : Restored s₀ r ledger) (hlast : r.maximumCommandId ≠ maxU64) :
    Live skip (prunedState false (resumed r)) ledger :=
  (hr.live skip hlast fun he => h.book.attempt_le he).pruneLoop _ _

/-- A restored state satisfies the invariant of a run, for the ledger of its log. -/
theorem Restarts.sim (h : Restarts s₀ ledger) {s : RuntimeEffectsState}
    (hok : restore s₀ s₀.store.records = .ok s) :
    s.store = s₀.store ∧ s.retry = s₀.retry ∧ s.session = s₀.session ∧
      s.maximumRetainedCommands = s₀.maximumRetainedCommands ∧
      ∀ skip, Live skip s ledger ∧ Sim skip s := by
  obtain ⟨r, hr, heq⟩ := h.restore_eq
  rw [heq, finishRestore] at hok
  split at hok
  · cases hok
  split at hok
  · cases hok
  next hlast =>
    split at hok
    · cases hok
    next hroom =>
      obtain rfl : prunedState false (resumed r) = s := Except.ok.inj hok
      obtain ⟨commands, latest, order, hp⟩ := pruneLoop_eq
        ((resumed r).maximumRetainedCommands - false.toNat) (resumed r).terminalOrder (resumed r)
      have hstate : prunedState false (resumed r) = { s₀ with
          commands := commands, latestByTarget := latest
          authoritativeByTarget := r.state.authoritativeByTarget
          observed := r.state.observed, observedRevisions := r.state.observedRevisions
          nextCommand := r.maximumCommandId + 1, terminalOrder := order } := by
        rw [prunedState, hp, resumed, hr.rest]
      have hstore : (prunedState false (resumed r)).store = s₀.store := by rw [hstate]
      have hretry : (prunedState false (resumed r)).retry = s₀.retry := by rw [hstate]
      have hsession : (prunedState false (resumed r)).session = s₀.session := by rw [hstate]
      have hmax : (prunedState false (resumed r)).maximumRetainedCommands =
          s₀.maximumRetainedCommands := by rw [hstate]
      refine ⟨hstore, hretry, hsession, hmax, fun skip => ⟨h.live skip hr hlast, ?_⟩⟩
      have hwf : WF (resumed r) := hr.wf hlast h.book.wf h.named h.session.symm
      have hmoves : Moves ⟨fun _ _ => True, fun _ => True, True, True⟩ (resumed r)
          (prunedState false (resumed r)) := Moves.pruneLoop .refl
      refine ⟨⟨by rw [hstore]; exact h.sequenced, ledger, ?_, h.live skip hr hlast⟩, hmoves.wf hwf,
        ?_, ?_, ?_⟩
      · rw [hstore]; exact h.book
      · rw [hstore, hsession]; exact h.session
      · rw [hretry]; exact h.policy
      · rw [hmax]; exact ⟨Nat.le_of_not_gt hroom, h.space⟩

/-- A log whose ledger some running state holds can be restored. -/
theorem Restarts.restore_ok (h : Restarts s₀ ledger) (small : ledger.Small)
    {s : RuntimeEffectsState} {skip : Prop} (live : Live skip s ledger)
    (hroom : s.commands.size ≤ s₀.maximumRetainedCommands) :
    ∃ s', restore s₀ s₀.store.records = .ok s' := by
  obtain ⟨r, hr, heq⟩ := h.restore_eq
  rcases h.book.replay h.version le_rfl with ⟨_, hsmall⟩ | ⟨p, hp, _⟩
  · exact absurd small hsmall
  have hlast : r.maximumCommandId ≠ maxU64 := by
    rcases hr.maximum with h0 | hne
    · rw [h0]; decide
    · intro hmax
      have := live.bound hne
      rw [hmax] at this
      unfold maxU64 at this
      grind
  -- once the ended commands are gone, the running state has the others too
  have hsize : ¬(prunedState false (resumed r)).commands.size > s₀.maximumRetainedCommands := by
    have hmax : (resumed r).maximumRetainedCommands = s₀.maximumRetainedCommands := by
      show r.state.maximumRetainedCommands = _
      rw [hr.rest]
    rcases pruneLoop_done ((resumed r).maximumRetainedCommands - false.toNat)
      (resumed r).terminalOrder (resumed r) with hle | hdone
    · rw [hmax] at hle
      refine not_lt.mpr ?_
      rwa [prunedState, hmax]
    · refine not_lt.mpr (le_trans (OrdMap.size_le_of_keys fun id hnone => ?_) hroom)
      by_contra hne
      obtain ⟨state, hst⟩ := Option.ne_none_iff_exists'.mp hne
      obtain ⟨hfound, hended⟩ := hdone hst
      obtain ⟨entry, he, rfl⟩ := hr.find? hfound
      cases ha : active entry.status with
      | true => exact live.active he ha hnone
      | false =>
          refine hended ha (List.mem_append_right _ (List.mem_map.mpr ⟨(id, entry.restored), ?_, rfl⟩))
          refine List.mem_filter.mpr ⟨OrdMap.mem_entries.mpr hfound, ?_⟩
          show (!active entry.status) = true
          rw [ha]
          rfl
  rw [heq, finishRestore, hp]
  exact ⟨_, (if_neg hlast).trans (if_neg hsize)⟩

end Restart

/-! ## Two states with one ledger -/

section Agree

variable {s s' : RuntimeEffectsState} {ledger : Ledger} {skip skip' : Prop}

theorem Live.agree_command (live : Live skip s ledger) (live' : Live skip' s' ledger)
    (hrefused : s.store.refused = 0) (hrefused' : s'.store.refused = 0) {id : UInt64}
    {state : CommandState} (hst : s.commands.find? id = some state)
    (hactive : LiquidLayer.active state.status = true) :
    ∃ state', s'.commands.find? id = some state' ∧ state'.command = state.command ∧
      state'.status = state.status ∧ state'.retryIndex = state.retryIndex := by
  obtain ⟨entry, he, h1, h2, _, h3⟩ := live.found hst
  obtain ⟨state', hst'⟩ := Option.ne_none_iff_exists'.mp (live'.active he (h2 ▸ hactive))
  obtain ⟨entry', he', h1', h2', _, h3'⟩ := live'.found hst'
  rw [he] at he'
  cases he'
  exact ⟨state', hst', h1'.symm.trans h1, h2'.symm.trans h2,
    (h3' hrefused').trans (h3 hrefused).symm⟩

theorem Live.agree_latest (wf : WF s) (live : Live skip s ledger) (live' : Live skip' s' ledger)
    {key : TargetKey} {id : UInt64} {state : CommandState}
    (hlatest : s.latestByTarget.find? key = some id) (hst : s.commands.find? id = some state)
    (hactive : LiquidLayer.active state.status = true) : s'.latestByTarget.find? key = some id := by
  obtain ⟨state₀, hst₀, hkey⟩ := wf.latest hlatest
  rw [hst] at hst₀
  cases hst₀
  obtain ⟨entry, he, h1, h2, _⟩ := live.found hst
  obtain ⟨state', hst'⟩ := Option.ne_none_iff_exists'.mp (live'.active he (h2 ▸ hactive))
  obtain ⟨entry', he', h1', _⟩ := live'.found hst'
  rw [he] at he'
  cases he'
  have hkey' : state'.key = key := by
    rw [CommandState.key, ← h1', h1]
    exact hkey
  rw [← hkey']
  refine live'.indexed hst' fun {id' e} hf hk => ?_
  exact live.latest hlatest hf (hk.trans hkey')

theorem Live.agree_next {metadata : EventStoreMetadata} (wf : ledger.WF metadata)
    (live : Live False s ledger) (live' : Live False s' ledger)
    (hrefused : s.store.refused = 0) (hrefused' : s'.store.refused = 0) :
    s'.nextCommand = s.nextCommand := by
  have step : ∀ {a b : RuntimeEffectsState}, Live False a ledger → Live False b ledger →
      a.store.refused = 0 → b.store.refused = 0 → a.nextCommand ≤ b.nextCommand := by
    intro a b la lb ha hb
    rcases la.next with h | h | h | h
    · exact h.elim
    · exact absurd ha h
    · -- no command yet
      rcases lb.next with h' | h' | h' | h'
      · exact h'.elim
      · exact absurd hb h'
      · rw [h, h']
      · -- the first command number is 1
        obtain ⟨entry, he⟩ := Option.ne_none_iff_exists'.mp h'
        have hne := commandId_ne_zero (wf.entry he).valid
        rw [(wf.entry he).commandId] at hne
        have hlt := la.bound h'
        rw [h] at hlt
        exact absurd (UInt64.lt_one_iff.mp hlt) hne
    · have hlt := lb.bound h
      grind
  exact le_antisymm (step live' live hrefused' hrefused) (step live live' hrefused hrefused')

end Agree

end Effects

end LiquidLayer
