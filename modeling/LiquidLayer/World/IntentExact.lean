/-
  When a rollback is exact.

  `Same r r'`: the registries differ at most in the count of refused records, which no operation
  looks at (`Call.alike`), so they answer every sequence of calls alike. `rollback_exact_iff`:
  where `nextSlot` does not wrap, a rollback leads back to the state of `begin_transaction`
  exactly when no call of the transaction has cancelled an intent that was created in it, of a
  type that had a storage before.
-/
import LiquidLayer.Lib.Alike
import LiquidLayer.World.IntentRun

namespace LiquidLayer

open Prog

namespace IntentRegistry

/-! ## The same registry -/

/-- Every member is the same; `capacityErrors` is none. -/
def Same (r r' : IntentRegistry) : Prop := ∃ n, r' = { r with capacityErrors := n }

section Programs

variable {α : Type} {r r' : IntentRegistry}

theorem Same.lift (h : Same r r') (x : Except Failure α) :
    Alike Eq Same (lift x) (lift x) r r' := by
  cases x with
  | ok a => exact alike_pure rfl h
  | error e => exact alike_throw e h

theorem Same.ensureNoActiveTransaction (h : Same r r') :
    Alike Eq Same ensureNoActiveTransaction ensureNoActiveTransaction r r' := by
  obtain ⟨n, rfl⟩ := h
  unfold IntentRegistry.ensureNoActiveTransaction
  exact alike_get (alike_ite Iff.rfl (fun _ => alike_throw _ ⟨n, rfl⟩)
    fun _ => alike_pure rfl ⟨n, rfl⟩)

theorem Same.ensureActive (h : Same r r') : Alike Eq Same ensureActive ensureActive r r' := by
  obtain ⟨n, rfl⟩ := h
  unfold IntentRegistry.ensureActive
  exact alike_get (alike_ite Iff.rfl (fun _ => alike_throw _ ⟨n, rfl⟩)
    fun _ => alike_pure rfl ⟨n, rfl⟩)

theorem Same.nextIntentId (h : Same r r') :
    Alike Eq Same nextIntentId nextIntentId r r' := by
  obtain ⟨n, rfl⟩ := h
  unfold IntentRegistry.nextIntentId
  refine alike_get ?_
  dsimp only
  cases hslots : r.availableSlots with
  | nil =>
      dsimp only
      refine alike_ite Iff.rfl (fun _ => alike_throw _ ⟨n, by rw [hslots]⟩) fun _ => ?_
      have hcount : ({ r with capacityErrors := n } : IntentRegistry).countSlot =
          { r.countSlot with capacityErrors := n } := rfl
      rw [hslots] at hcount
      refine alike_bind (alike_set rfl ⟨n, hcount⟩) fun _ _ s t _ hst => ?_
      cases r.generations[r.nextSlot.toNat]? with
      | none => exact alike_throw _ hst
      | some generation => exact alike_pure rfl hst
  | cons slot rest =>
      dsimp only
      refine alike_bind (alike_set rfl ⟨n, rfl⟩) fun _ _ s t _ hst => ?_
      cases r.generations[slot]? with
      | none => exact alike_throw _ hst
      | some generation => exact alike_pure rfl hst

theorem Same.nextIntentSequence (h : Same r r') :
    Alike Eq Same nextIntentSequence nextIntentSequence r r' := by
  obtain ⟨n, rfl⟩ := h
  unfold IntentRegistry.nextIntentSequence
  refine alike_get (alike_ite Iff.rfl (fun _ => alike_throw _ ⟨n, rfl⟩) fun _ => ?_)
  exact alike_bind (alike_set rfl ⟨n, rfl⟩) fun _ _ _ _ _ hst => alike_pure rfl hst

theorem Same.retireIntentId (h : Same r r') (id : IntentId) :
    Alike Eq Same (retireIntentId id) (retireIntentId id) r r' := by
  obtain ⟨n, rfl⟩ := h
  unfold IntentRegistry.retireIntentId
  refine alike_get ?_
  dsimp only
  cases r.generations[id.slot]? with
  | none => exact alike_throw _ ⟨n, rfl⟩
  | some generation =>
      exact alike_ite Iff.rfl (fun _ => alike_set rfl ⟨n, rfl⟩) fun _ => alike_pure rfl ⟨n, rfl⟩

theorem Same.storageFor (h : Same r r') (type : ComponentType) :
    Alike Eq Same (storageFor type) (storageFor type) r r' := by
  obtain ⟨n, rfl⟩ := h
  unfold IntentRegistry.storageFor
  refine alike_get ?_
  dsimp only
  cases r.storages.find? type.id with
  | none => exact alike_set rfl ⟨n, rfl⟩
  | some storage =>
      exact alike_ite Iff.rfl (fun _ => alike_throw _ ⟨n, rfl⟩) fun _ => alike_pure rfl ⟨n, rfl⟩

theorem Same.withdraw (h : Same r r') (i : Intent) (stored typed owned : Bool) :
    Same (withdraw i stored typed owned r) (withdraw i stored typed owned r') := by
  obtain ⟨n, rfl⟩ := h
  refine ⟨n, ?_⟩
  unfold IntentRegistry.withdraw releaseIntentId
  dsimp only
  split <;> rfl

theorem Same.index (h : Same r r') (i : Intent) : Alike Eq Same (index i) (index i) r r' := by
  have hfail : ∀ {s t} (stored typed owned : Bool) (e : Failure), Same s t →
      Alike (Eq : IntentId → IntentId → Prop) Same
        (do modify (IntentRegistry.withdraw i stored typed owned); throw e)
        (do modify (IntentRegistry.withdraw i stored typed owned); throw e) s t :=
    fun stored typed owned e hst => alike_bind (alike_modify rfl (hst.withdraw i stored typed owned))
      fun _ _ _ _ _ hst' => alike_throw e hst'
  obtain ⟨n, rfl⟩ := h
  unfold IntentRegistry.index
  refine alike_get (alike_ite Iff.rfl (fun _ => hfail _ _ _ _ ⟨n, rfl⟩) fun _ => ?_)
  refine alike_bind (alike_modify rfl ⟨n, rfl⟩) fun _ _ s t _ hst => ?_
  refine alike_ite Iff.rfl (fun _ => hfail _ _ _ _ hst) fun _ => ?_
  obtain ⟨n, rfl⟩ := hst
  refine alike_bind (alike_modify rfl ⟨n, rfl⟩) fun _ _ s t _ hst => ?_
  refine alike_ite Iff.rfl (fun _ => hfail _ _ _ _ hst) fun _ => ?_
  obtain ⟨n, rfl⟩ := hst
  refine alike_bind (alike_modify rfl ⟨n, rfl⟩) fun _ _ s t _ hst => ?_
  refine alike_ite Iff.rfl (fun _ => hfail _ _ _ _ hst) fun _ => ?_
  obtain ⟨n, rfl⟩ := hst
  refine alike_bind (alike_modify rfl ⟨n, rfl⟩) fun _ _ s t _ hst => ?_
  refine alike_ite Iff.rfl (fun _ => ?_) fun _ => ?_
  · obtain ⟨n, rfl⟩ := hst
    exact alike_bind (alike_modify rfl ⟨n + 1, rfl⟩) fun _ _ _ _ _ hst => hfail _ _ _ _ hst
  · obtain ⟨n, rfl⟩ := hst
    exact alike_bind (alike_modify rfl ⟨n, rfl⟩) fun _ _ _ _ _ hst => alike_pure rfl hst

theorem Same.checkCreate (h : Same r r') (owner : BehaviorId) (type : ComponentType)
    (slot : ComponentSlotId) (lifetime : IntentLifetime) (priority : IntentPriority)
    (name : Bytes) :
    Alike Eq Same (checkCreate owner type slot lifetime priority name)
      (checkCreate owner type slot lifetime priority name) r r' := by
  have hsame := h
  obtain ⟨n, rfl⟩ := h
  unfold IntentRegistry.checkCreate
  refine alike_get ?_
  dsimp only
  refine alike_ite Iff.rfl (fun _ => alike_throw _ hsame) fun _ => ?_
  refine alike_ite Iff.rfl (fun _ => alike_throw _ hsame) fun _ => ?_
  refine alike_ite Iff.rfl (fun _ => alike_throw _ hsame) fun _ => ?_
  refine alike_bind (hsame.lift _) fun _ _ s t _ hst => ?_
  refine alike_ite Iff.rfl (fun _ => alike_throw _ hst) fun _ => ?_
  refine alike_ite Iff.rfl (fun _ => ?_) fun _ => alike_pure rfl hst
  cases r.byOwnerName.find? owner with
  | none => exact alike_throw _ hst
  | some names =>
      exact alike_ite Iff.rfl (fun _ => alike_throw _ hst) fun _ => alike_pure rfl hst

theorem Same.createImpl (h : Same r r') (owner : BehaviorId) (type : ComponentType)
    (slot : ComponentSlotId) (lifetime : IntentLifetime) (priority : IntentPriority)
    (encodedValue : Value) (name : Bytes) :
    Alike Eq Same (createImpl owner type slot lifetime priority encodedValue name)
      (createImpl owner type slot lifetime priority encodedValue name) r r' := by
  have hrest : ∀ {s t}, Same s t → Alike Eq Same
      (do
        IntentRegistry.storageFor type
        let id ← IntentRegistry.nextIntentId
        let sequence ← IntentRegistry.nextIntentSequence
        IntentRegistry.index ⟨id, owner, ⟨type.id, slot⟩, lifetime, priority, sequence,
          encodedValue, name⟩)
      (do
        IntentRegistry.storageFor type
        let id ← IntentRegistry.nextIntentId
        let sequence ← IntentRegistry.nextIntentSequence
        IntentRegistry.index ⟨id, owner, ⟨type.id, slot⟩, lifetime, priority, sequence,
          encodedValue, name⟩) s t := by
    intro s t hst
    refine alike_bind (hst.storageFor type) fun _ _ _ _ _ hst => ?_
    refine alike_bind hst.nextIntentId fun id _ _ _ hid hst => ?_
    subst hid
    refine alike_bind hst.nextIntentSequence fun sequence _ _ _ hsequence hst => ?_
    subst hsequence
    exact hst.index _
  unfold IntentRegistry.createImpl
  exact alike_bind (h.checkCreate owner type slot lifetime priority name) fun _ _ _ _ _ hst =>
    hrest hst

/-! ### Destroying -/

theorem Same.recordDestroyed (h : Same r r') (i : Intent) :
    Alike Eq Same (recordDestroyed i) (recordDestroyed i) r r' := by
  obtain ⟨n, rfl⟩ := h
  unfold IntentRegistry.recordDestroyed
  refine alike_get (alike_ite Iff.rfl (fun _ => ?_) fun _ => alike_modify rfl ⟨n, rfl⟩)
  exact alike_bind (alike_modify rfl ⟨n + 1, rfl⟩) fun _ _ _ _ _ hst => alike_throw _ hst

theorem Same.forget (h : Same r r') (i : Intent) (type : ComponentTypeId) :
    Alike Eq Same (forget i type) (forget i type) r r' := by
  obtain ⟨n, rfl⟩ := h
  unfold IntentRegistry.forget
  exact alike_bind (alike_modify rfl ⟨n, rfl⟩) fun _ _ _ _ _ hst => hst.retireIntentId i.id

theorem Same.destroy (h : Same r r') (id : IntentId) :
    Alike Eq Same (destroy id) (destroy id) r r' := by
  unfold IntentRegistry.destroy
  refine alike_bind h.ensureNoActiveTransaction fun _ _ s t _ hst => ?_
  have hsame := hst
  obtain ⟨n, rfl⟩ := hst
  refine alike_get (alike_bind (hsame.lift _) fun i _ s t hi hst => ?_)
  subst hi
  refine alike_bind (hst.lift _) fun type _ s t htype hst => ?_
  subst htype
  exact alike_bind (hst.recordDestroyed i) fun _ _ _ _ _ hst => hst.forget i type

theorem Same.forM (h : Same r r') {step : IntentId → EStateM Failure IntentRegistry Unit}
    (hstep : ∀ id r r', Same r r' → Alike Eq Same (step id) (step id) r r')
    (ids : List IntentId) : Alike (fun _ _ => True) Same (forM ids step) (forM ids step) r r' :=
  alike_forM (List.forall₂_same.mpr fun _ _ => rfl : List.Forall₂ Eq ids ids)
    (fun id _ s t hid hst => by
      subst hid
      exact alike_mono (hstep id s t hst) (fun _ _ _ => trivial) fun _ _ hst => hst) h

theorem Same.destroyOwnedBy (h : Same r r') (owner : BehaviorId) :
    Alike Eq Same (destroyOwnedBy owner) (destroyOwnedBy owner) r r' := by
  unfold IntentRegistry.destroyOwnedBy
  refine alike_bind h.ensureNoActiveTransaction fun _ _ s t _ hst => ?_
  have hsame := hst
  obtain ⟨n, rfl⟩ := hst
  refine alike_get (alike_ite Iff.rfl (fun _ => ?_) fun _ => alike_pure rfl hsame)
  refine alike_bind (hsame.forM (fun id _ _ hst => hst.destroy id) _) fun _ _ s t _ hst => ?_
  obtain ⟨n, rfl⟩ := hst
  exact alike_modify rfl ⟨n, rfl⟩

theorem Same.resolve (h : Same r r') (type : ComponentTypeId)
    (components : OrdMap Bytes ComponentSlotId) (now : UInt64) :
    Alike Eq Same (resolve type components now) (resolve type components now) r r' := by
  unfold IntentRegistry.resolve
  refine alike_bind h.ensureNoActiveTransaction fun _ _ s t _ hst => ?_
  have hsame := hst
  obtain ⟨n, rfl⟩ := hst
  refine alike_get (alike_bind (hsame.lift _) fun expired _ s t hexpired hst => ?_)
  subst hexpired
  refine alike_bind (hst.forM (fun id _ _ hst => hst.destroy id) _) fun _ _ s t _ hst => ?_
  have hsame := hst
  obtain ⟨n, rfl⟩ := hst
  exact alike_get (hsame.lift _)

/-! ### Transactions -/

theorem Same.cancel (h : Same r r') (id : IntentId) :
    Alike Eq Same (cancel id) (cancel id) r r' := by
  unfold IntentRegistry.cancel
  refine alike_bind h.ensureActive fun _ _ s t _ hst => ?_
  have hsame := hst
  obtain ⟨n, rfl⟩ := hst
  refine alike_get (alike_bind (hsame.lift _) fun i _ s t hi hst => ?_)
  subst hi
  refine alike_bind (hst.lift _) fun type _ s t htype hst => ?_
  subst htype
  refine alike_bind (hst.recordDestroyed i) fun _ _ s t _ hst => ?_
  obtain ⟨n, rfl⟩ := hst
  exact alike_bind (alike_modify rfl ⟨n, rfl⟩) fun _ _ _ _ _ hst => hst.forget i type

theorem Same.rollback (h : Same r r') : Same r.rollback r'.rollback := by
  obtain ⟨n, rfl⟩ := h
  refine ⟨n, ?_⟩
  unfold IntentRegistry.rollback
  cases r.transaction with
  | none => rfl
  | some t =>
      have hstorages : ({ r with transaction := some t, capacityErrors := n } :
          IntentRegistry).rolledBackStorages t = r.rolledBackStorages t := rfl
      simp only [hstorages]
      cases r.rolledBackStorages t <;> rfl

theorem alike_map {β γ : Type} {f : β → γ} {m : EStateM Failure IntentRegistry β}
    (h : Alike Eq Same m m r r') : Alike Eq Same (f <$> m) (f <$> m) r r' := by
  rw [map_eq_pure_bind]
  exact alike_bind h fun _ _ _ _ hab hst => alike_pure (congrArg f hab) hst

end Programs

/-- A call does not look at the count of refusals. -/
theorem Call.alike (call : Call) {r r' : IntentRegistry} (h : Same r r') :
    Alike Eq Same call.program call.program r r' := by
  cases call with
  | create owner type slot lifetime priority encodedValue name =>
      exact alike_map (alike_bind h.ensureNoActiveTransaction fun _ _ _ _ _ hst =>
        hst.createImpl owner type slot lifetime priority encodedValue name)
  | destroy id => exact alike_map (h.destroy id)
  | destroyOwnedBy owner => exact alike_map (h.destroyOwnedBy owner)
  | createBehaviorPool owner =>
      refine alike_map (alike_bind (h.destroyOwnedBy owner) fun _ _ s t _ hst => ?_)
      obtain ⟨n, rfl⟩ := hst
      exact alike_modify rfl ⟨n, rfl⟩
  | resolve type components now => exact alike_map (h.resolve type components now)
  | clearLifecycleRecords =>
      refine alike_map (alike_bind h.ensureNoActiveTransaction fun _ _ s t _ hst => ?_)
      obtain ⟨n, rfl⟩ := hst
      exact alike_modify rfl ⟨n, rfl⟩
  | beginTransaction =>
      refine alike_map ?_
      obtain ⟨n, rfl⟩ := h
      unfold IntentRegistry.beginTransaction
      exact alike_get (alike_ite Iff.rfl (fun _ => alike_throw _ ⟨n, rfl⟩)
        fun _ => alike_set rfl ⟨n, rfl⟩)
  | createIn owner type slot lifetime priority encodedValue name =>
      exact alike_map (alike_bind h.ensureActive fun _ _ _ _ _ hst =>
        hst.createImpl owner type slot lifetime priority encodedValue name)
  | cancel id => exact alike_map (h.cancel id)
  | commit =>
      refine alike_map (alike_bind h.ensureActive fun _ _ s t _ hst => ?_)
      obtain ⟨n, rfl⟩ := hst
      exact alike_modify rfl ⟨n, rfl⟩
  | rollback => exact alike_map (alike_modify rfl h.rollback)

/-- What calls made one after the other return or throw. -/
def replies : List Call → IntentRegistry → List (Except Failure Reply)
  | [], _ => []
  | call :: rest, r =>
      match call.program r with
      | .ok reply r' => .ok reply :: replies rest r'
      | .error e r' => .error e :: replies rest r'

theorem replies_same (calls : List Call) {r r' : IntentRegistry} (h : Same r r') :
    replies calls r' = replies calls r := by
  induction calls generalizing r r' with
  | nil => rfl
  | cons call rest ih =>
      have hone := call.alike h
      unfold Alike at hone
      unfold replies
      cases hr : call.program r <;> cases hr' : call.program r' <;> rw [hr, hr'] at hone
      · dsimp only
        rw [hone.1, ih hone.2]
      · exact hone.elim
      · exact hone.elim
      · dsimp only
        rw [hone.1, ih hone.2]

/-! ## Transactions that are rolled back -/

/-- Neither end of a transaction. -/
def Call.inside : Call → Bool
  | .commit | .rollback => false
  | _ => true

/-- A transaction with these calls, rolled back. -/
def rolledBack (r : IntentRegistry) (calls : List Call) : IntentRegistry :=
  Call.rollback.step (calls.foldl (fun r call => call.step r) (Call.beginTransaction.step r))

/-- Nothing tells the registry from what it was: no member, and no later call. -/
def Exact (r r' : IntentRegistry) : Prop :=
  Same r r' ∧ ∀ later, replies later r' = replies later r

theorem Same.exact {r r' : IntentRegistry} (h : Same r r') : Exact r r' :=
  ⟨h, fun later => replies_same later h⟩

/-- The call cancels an intent that was not there at `r₀`, of a type whose storage was. -/
def OwnCancelled (r₀ r : IntentRegistry) : Call → Prop
  | .cancel id => ∃ i, r.record? id = some i ∧ r.lifecycleRecords.length < maximumBuffered ∧
      r₀.intentTypes.contains id = false ∧ r₀.storages.contains i.target.type = true
  | _ => False

/-- No call of the transaction does. -/
def Clean (r₀ : IntentRegistry) : IntentRegistry → List Call → Prop
  | _, [] => True
  | r, call :: rest => ¬OwnCancelled r₀ r call ∧ Clean r₀ (call.step r) rest

theorem strays_append (r₀ : IntentRegistry) (l l' : List IntentLifecycleRecord) :
    strays r₀ (l ++ l') = strays r₀ l ++ strays r₀ l' := by
  unfold strays cancelledOf
  rw [List.filterMap_append, List.filter_append]

theorem strays_created (r₀ : IntentRegistry) (i : Intent) : strays r₀ [⟨true, i⟩] = [] := rfl

theorem strays_cancelled {r₀ : IntentRegistry} {i : Intent} :
    strays r₀ [⟨false, i⟩] = [] ↔
      ¬(r₀.intentTypes.contains i.id = false ∧ r₀.storages.contains i.target.type = true) := by
  unfold strays cancelledOf
  simp [List.filter_cons]

/-- One call inside a transaction: the entries it adds have a stray if the call cancels an
    intent of the transaction itself. -/
theorem During.step {r₀ r : IntentRegistry} {entries : List IntentLifecycleRecord}
    (h : During r₀ entries r) {call : Call} (hcall : call.inside = true) :
    ∃ more, During r₀ (entries ++ more) (call.step r) ∧
      (strays r₀ more = [] ↔ ¬OwnCancelled r₀ r call) := by
  generalize hP : (fun r' => ∃ more, During r₀ (entries ++ more) r' ∧
    (strays r₀ more = [] ↔ ¬OwnCancelled r₀ r call)) = P
  have hstay : ∀ {r' : IntentRegistry}, During r₀ entries r' → ¬OwnCancelled r₀ r call → P r' := by
    intro r' h' hno
    rw [← hP]
    exact ⟨[], by rwa [List.append_nil], iff_of_true rfl hno⟩
  have hclosed : ∀ {Q : Prop}, r.transaction = none → Q := fun htx => by
    rw [h.transaction] at htx
    cases htx
  suffices hwp : wp call.program (fun _ => P) (fun _ => P) r by
    have := wp_after.mp hwp
    rwa [← hP] at this
  cases call with
  | create => exact (wp_map _ _).mpr (wp_ordinary (fun _ => hstay h id) hclosed)
  | destroy => exact (wp_map _ _).mpr (wp_ordinary (fun _ => hstay h id) hclosed)
  | destroyOwnedBy => exact (wp_map _ _).mpr (wp_ordinary (fun _ => hstay h id) hclosed)
  | createBehaviorPool owner =>
      unfold Call.program createBehaviorPool
      rw [wp_map, wp_bind]
      exact wp_ordinary (fun _ => hstay h id) hclosed
  | resolve => exact (wp_map _ _).mpr (wp_ordinary (fun _ => hstay h id) hclosed)
  | clearLifecycleRecords => exact (wp_map _ _).mpr (wp_ordinary (fun _ => hstay h id) hclosed)
  | beginTransaction =>
      unfold Call.program IntentRegistry.beginTransaction
      rw [wp_map, wp_bind, wp_get, if_pos (by rw [h.transaction]; rfl)]
      simpa only [wp_bind, wp_throw] using hstay h id
  | createIn owner type slot lifetime priority encodedValue name =>
      refine (wp_map _ _).mpr (h.wp_createIn (fun _ _ r' h' => ?_) fun _ r' h' => hstay h' id)
      rw [← hP]
      exact ⟨_, h', iff_of_true (strays_created ..) id⟩
  | cancel id =>
      refine (wp_map _ _).mpr (h.wp_cancel (fun i r' hi hlen h' => ?_) fun _ r' hno h' => ?_)
      · rw [← hP]
        refine ⟨_, h', strays_cancelled.trans (not_congr ?_)⟩
        rw [h.coherent.indexed.id_eq hi]
        constructor
        · rintro ⟨hid, htype⟩
          exact ⟨i, hi, hlen, hid, htype⟩
        · rintro ⟨j, hj, _, hid, htype⟩
          rw [hi] at hj
          cases hj
          exact ⟨hid, htype⟩
      · refine hstay h' ?_
        rintro ⟨i, hi, hlen, _⟩
        rcases hno with hno | hno
        · rw [hi] at hno
          cases hno
        · omega
  | commit => cases hcall
  | rollback => cases hcall

/-- All calls of a transaction: it leaves strays unless it is clean. -/
theorem During.run {r₀ : IntentRegistry} (calls : List Call)
    (hcalls : ∀ call ∈ calls, call.inside = true) {r : IntentRegistry}
    {entries : List IntentLifecycleRecord} (h : During r₀ entries r) :
    ∃ more, During r₀ (entries ++ more) (calls.foldl (fun r call => call.step r) r) ∧
      (strays r₀ more = [] ↔ Clean r₀ r calls) := by
  induction calls generalizing r entries with
  | nil => exact ⟨[], by rwa [List.append_nil], iff_of_true rfl trivial⟩
  | cons call rest ih =>
      obtain ⟨one, hone, hclean⟩ := h.step (hcalls call List.mem_cons_self)
      obtain ⟨more, hmore, hrest⟩ :=
        ih (fun call' hc => hcalls call' (List.mem_cons_of_mem _ hc)) hone
      refine ⟨one ++ more, by rwa [← List.append_assoc], ?_⟩
      rw [strays_append, List.append_eq_nil_iff, hclean, hrest]
      rfl

/-- A stray is in its storage after the rollback, and was not before. -/
theorem During.stray {r₀ r : IntentRegistry} {entries : List IntentLifecycleRecord}
    (h : During r₀ entries r) (h0 : r.slotWraps = 0) {c : ComponentTypeId × Intent}
    (hc : c ∈ strays r₀ entries) :
    storedIn r₀.storages c.1 c.2.id = none ∧
      storedIn ((strays r₀ entries).foldl putBack r₀.storages) c.1 c.2.id = some c.2 := by
  have htracked := h.tracked h0
  have hmem : ∀ {c}, c ∈ strays r₀ entries → (⟨false, c.2⟩ ∈ entries ∧ c.1 = c.2.target.type) ∧
      r₀.intentTypes.contains c.2.id = false ∧ r₀.storages.contains c.1 = true := by
    intro c hc
    unfold strays at hc
    rw [List.mem_filter, Bool.and_eq_true, Bool.not_eq_true'] at hc
    exact ⟨mem_cancelledOf.mp hc.1, hc.2⟩
  obtain ⟨⟨hentry, htype⟩, hid, _⟩ := hmem hc
  refine ⟨?_, ?_⟩
  · rcases htracked.origin c.2 hentry with hlive | ⟨_, hvacant⟩
    · rw [OrdMap.contains, (h.start.indexed.live hlive).1] at hid
      cases hid
    · rw [htype]
      exact hvacant
  · refine (foldl_putBack (strays r₀ entries) r₀.storages fun c' hc' => (hmem hc').2.2).2.1
      c.1 c.2.id c.2 hc rfl fun j hj hji => ?_
    exact htracked.once (hmem hj).1.1 hentry hji

/-- What holds in every state of a run: an open transaction was opened in a coherent state and
    has noted what happened since. -/
structure Running (r : IntentRegistry) : Prop where
  coherent : r.Coherent
  opened : r.transaction.isSome = true →
    ∃ r₀ entries, r₀.transaction = none ∧ During r₀ entries r

@[simp] theorem step_rollback (r : IntentRegistry) : Call.rollback.step r = r.rollback := rfl

theorem step_commit {r : IntentRegistry} {t : IntentTransaction} (ht : r.transaction = some t) :
    Call.commit.step r = { r with transaction := none } := by
  refine (wp_after (P := fun r' => r' = { r with transaction := none })).mp ?_
  refine (wp_map _ _).mpr (wp_ensureActive (fun _ hno => ?_) fun _ _ => (wp_modify _).mpr rfl)
  rw [hno] at ht
  cases ht

theorem Running.closed {r : IntentRegistry} (h : r.Coherent) (htx : r.transaction = none) :
    Running r := ⟨h, fun hopen => by rw [htx] at hopen; cases hopen⟩

theorem Running.during {r₀ r : IntentRegistry} {entries : List IntentLifecycleRecord}
    (h : During r₀ entries r) (htx : r₀.transaction = none) : Running r :=
  ⟨h.coherent, fun _ => ⟨r₀, entries, htx, h⟩⟩

theorem During.restarted {r₀ r : IntentRegistry} {entries : List IntentLifecycleRecord}
    (h : During r₀ entries r) (htx : r₀.transaction = none) : Running r.rollback :=
  .closed (h.coherent_rollback htx).1 (h.coherent_rollback htx).2

theorem Running.step {r : IntentRegistry} (h : Running r) (call : Call) :
    Running (call.step r) := by
  cases htx : r.transaction with
  | none =>
      have hdid := call.did h.coherent
      generalize call.step r = r' at hdid
      cases hdid with
      | ordinary kept transaction => exact .closed kept.coherent (transaction.trans htx)
      | began _ => exact .during (.begin h.coherent) htx
      | cancelled opened _ _ =>
          rw [htx] at opened
          cases opened
      | committed opened => exact .closed (h.coherent.framed _ _ _ _) rfl
      | rolledBack opened =>
          rw [htx] at opened
          cases opened
  | some t =>
      obtain ⟨r₀, entries, htx₀, hduring⟩ := h.opened (by rw [htx]; rfl)
      by_cases hcall : call.inside = true
      · obtain ⟨_, hmore, _⟩ := hduring.step hcall
        exact .during hmore htx₀
      · cases call with
        | commit =>
            rw [step_commit htx]
            exact .closed (h.coherent.framed _ _ _ _) rfl
        | rollback => exact hduring.restarted htx₀
        | _ => exact absurd rfl hcall

/-- The states of runs, with any transactions. -/
def Reached (world : UInt64) (r : IntentRegistry) : Prop :=
  Reaches Call.step (fun _ _ => True) (initial world) r

theorem Reached.running {world : UInt64} {r : IntentRegistry} (h : Reached world r) :
    Running r :=
  Reaches.induct h (.closed (initial_coherent world) rfl) fun call _ hr _ => hr.step call

/-- The runs in which `nextSlot` does not wrap. -/
def Unwrapped (world : UInt64) (r : IntentRegistry) : Prop :=
  Reaches Call.step (fun call r => call.wraps r = false) (initial world) r

theorem Unwrapped.reached {world : UInt64} {r : IntentRegistry} (h : Unwrapped world r) :
    Reached world r := Reaches.mono h fun _ _ _ => trivial

theorem Unwrapped.slotWraps {world : UInt64} {r : IntentRegistry} (h : Unwrapped world r) :
    r.slotWraps = 0 :=
  Reaches.induct h (P := SameWraps (initial world)) rfl fun _ _ h0 hcall =>
    SameWraps.trans _ _ _ h0 (Call.sameWraps hcall)

/-! ## Exactness -/

/-- No call of the transaction makes `nextSlot` wrap. -/
def Unwrapping : IntentRegistry → List Call → Prop
  | _, [] => True
  | r, call :: rest => call.wraps r = false ∧ Unwrapping (call.step r) rest

theorem Unwrapping.sameWraps {calls : List Call} {r : IntentRegistry} (h : Unwrapping r calls) :
    SameWraps r (calls.foldl (fun r call => call.step r) r) := by
  induction calls generalizing r with
  | nil => rfl
  | cons call rest ih => exact SameWraps.trans _ _ _ (Call.sameWraps h.1) (ih h.2)

theorem rolledBack_eq {r : IntentRegistry} (h : r.Coherent) (htx : r.transaction = none)
    {calls : List Call} (hcalls : ∀ call ∈ calls, call.inside = true)
    (hwraps : Unwrapping (Call.beginTransaction.step r) calls) :
    ∃ entries r', During r entries r' ∧ r'.slotWraps = r.slotWraps ∧
      rolledBack r calls = r'.rollback ∧
      (strays r entries = [] ↔ Clean r (Call.beginTransaction.step r) calls) := by
  have hbegin : During r [] (Call.beginTransaction.step r) := by
    refine (wp_after (P := During r [])).mp ((wp_map _ _).mpr ?_)
    unfold beginTransaction
    rw [wp_bind, wp_get, if_neg (by rw [htx]; exact nofun), wp_set]
    exact .begin h
  obtain ⟨entries, hduring, hclean⟩ := hbegin.run calls hcalls
  exact ⟨entries, _, hduring, SameWraps.trans _ _ _ (Call.sameWraps rfl) hwraps.sameWraps, rfl,
    hclean⟩

/-- **Rollback.** Where `nextSlot` does not wrap, a transaction that is rolled back leaves the
    registry as it was if and only if it has not cancelled an intent of its own, of a type that
    had a storage. -/
theorem rollback_exact_iff {world : UInt64} {r : IntentRegistry} (h : Unwrapped world r)
    (htx : r.transaction = none) {calls : List Call}
    (hcalls : ∀ call ∈ calls, call.inside = true)
    (hwraps : Unwrapping (Call.beginTransaction.step r) calls) :
    Exact r (rolledBack r calls) ↔ Clean r (Call.beginTransaction.step r) calls := by
  obtain ⟨entries, r', hduring, hsame, hrolled, hclean⟩ :=
    rolledBack_eq h.reached.running.coherent htx hcalls hwraps
  have h0 : r'.slotWraps = 0 := hsame.trans h.slotWraps
  rw [← hclean, hrolled, hduring.rollback htx h0]
  constructor
  · rintro ⟨⟨n, hsame⟩, _⟩
    by_contra hne
    -- a stray is a record the storage did not have
    obtain ⟨c, hc⟩ := List.exists_mem_of_ne_nil _ hne
    obtain ⟨hbefore, hafter⟩ := hduring.stray h0 hc
    rw [(IntentRegistry.mk.inj hsame).2.1, hbefore] at hafter
    cases hafter
  · intro hnil
    rw [hnil]
    exact Same.exact ⟨r'.capacityErrors, rfl⟩

/-! ### A record left behind -/

def startCalls : List Call :=
  [.createBehaviorPool ⟨7, 0, 1⟩,
    .create ⟨7, 0, 1⟩ ⟨0, 0, 7, 1⟩ ⟨7, 0, 1⟩ ⟨.persistent, 0⟩ .low .null []]

/-- One live intent. -/
def startState : IntentRegistry := startCalls.foldl (fun r call => call.step r) (initial 7)

/-- A second one is made in the transaction, and cancelled in it. -/
def madeAndCancelled : List Call :=
  [.createIn ⟨7, 0, 1⟩ ⟨0, 0, 7, 1⟩ ⟨7, 0, 1⟩ ⟨.persistent, 0⟩ .low .null [], .cancel ⟨7, 2, 1⟩]

def nextCreate : Call := .create ⟨7, 0, 1⟩ ⟨0, 0, 7, 1⟩ ⟨7, 0, 1⟩ ⟨.persistent, 0⟩ .low .null []

def answered (r : IntentRegistry) : Bool :=
  match nextCreate.program r with
  | .ok _ _ => true
  | .error _ _ => false

theorem answered_startState : answered startState = true := by decide +kernel

theorem answered_rolledBack : answered (rolledBack startState madeAndCancelled) = false := by
  decide +kernel

theorem startState_unwrapped : Unwrapped 7 startState :=
  Reaches.obeys .start ⟨by decide +kernel, by decide +kernel, trivial⟩

theorem startState_closed : startState.transaction = none := by
  have hisNone : startState.transaction.isNone = true := by decide +kernel
  simpa using hisNone

theorem madeAndCancelled_inside : ∀ call ∈ madeAndCancelled, call.inside = true := by
  intro call hcall
  simp only [madeAndCancelled, List.mem_cons, List.not_mem_nil, or_false] at hcall
  rcases hcall with rfl | rfl <;> rfl

theorem rollback_exact_iff_startState :
    Exact startState (rolledBack startState madeAndCancelled) ↔
      Clean startState (Call.beginTransaction.step startState) madeAndCancelled :=
  rollback_exact_iff startState_unwrapped startState_closed madeAndCancelled_inside
    ⟨by decide +kernel, by decide +kernel, trivial⟩

/-- The record that is left makes the next create throw. -/
theorem rollback_leaves_record : Reached 7 startState ∧ startState.transaction = none ∧
    (∀ call ∈ madeAndCancelled, call.inside = true) ∧
    ¬Exact startState (rolledBack startState madeAndCancelled) := by
  refine ⟨startState_unwrapped.reached, startState_closed, madeAndCancelled_inside, fun h => ?_⟩
  have hreply := h.2 [nextCreate]
  have hbefore := answered_startState
  have hafter := answered_rolledBack
  unfold replies at hreply
  unfold answered at hbefore hafter
  cases hs : nextCreate.program startState with
  | error e r =>
      rw [hs] at hbefore
      cases hbefore
  | ok reply r =>
      cases hr : nextCreate.program (rolledBack startState madeAndCancelled) with
      | ok reply' r' =>
          rw [hr] at hafter
          cases hafter
      | error e r' =>
          rw [hs, hr] at hreply
          cases hreply

end IntentRegistry

end LiquidLayer
