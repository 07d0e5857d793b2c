/-
  The event store of an evaluation case (BoundedEvaluationStore.hpp).

  All the stores of one evaluation share a budget. An append that does not fit stores nothing,
  and from then on nothing fits.

  The runtime and the host's callbacks are given the store, so what they do to it is what its
  calls do (`StoreOp.program`, `Accessed`). `HostCall` is a piece of the host's code with that
  promise as a field.

  * `Spent`: how the budget moves, whatever the host does with the store.
-/
import LiquidLayer.Authoring.Response
import LiquidLayer.Events.Stores
import LiquidLayer.Lib.Prog

namespace LiquidLayer

open Prog

namespace Evaluation

/-! ## The store -/

structure EvaluationRunBudget where
  maxRecords : Nat
  maxBytes : Nat
  records : Nat := 0
  bytes : Nat := 0
  exhausted : Bool := false
deriving DecidableEq

structure BoundedEvaluationStore where
  store : MemoryEventStore
  budget : EvaluationRunBudget

abbrev StoreM (α : Type) := EStateM Failure BoundedEvaluationStore α

/-- A record beyond its payload: one element of four fields, three of them scalars. -/
def eventHeaderBytes : Nat :=
  logicalElementBytes + 4 * logicalElementBytes + 3 * logicalScalarBytes

/-- The logical bytes of the events. -/
def eventsBytes (events : List EventData) : Nat :=
  events.foldl
    (fun bytes event =>
      saturatingAdd bytes (saturatingAdd eventHeaderBytes (logicalBytes event.payload))) 0

namespace BoundedEvaluationStore

/-- `admit`. -/
def admitEvents (events : List EventData) : StoreM Nat := do
  let s ← get
  let bytes := eventsBytes events
  if s.budget.exhausted = true ∨ events.length > s.budget.maxRecords - s.budget.records ∨
      bytes > s.budget.maxBytes - s.budget.bytes then
    set { s with budget := { s.budget with exhausted := true } }
    throw (.eventStoreError "evaluation event-store budget exhausted")
  else return bytes

def charge (records bytes : Nat) : StoreM PUnit :=
  modify fun s => { s with
    budget := { s.budget with
      records := s.budget.records + records
      bytes := s.budget.bytes + bytes } }

/-- `store.append_batch`. -/
def storeBatch (events : List EventData) : StoreM (List RecordId) := do
  let s ← get
  match s.store.appendBatch events with
  | .error e => throw e
  | .ok (ids, store) =>
      set { s with store }
      return ids

def appendBatch (events : List EventData) : StoreM (List RecordId) := do
  let bytes ← admitEvents events
  let ids ← storeBatch events
  charge events.length bytes
  return ids

def append (event : EventData) : StoreM RecordId := do
  let bytes ← admitEvents [event]
  let ids ← storeBatch [event]
  charge 1 bytes
  return ids.headD 0

def retainFromCheckpoint (checkpointSequence : RecordId) : StoreM PUnit := do
  let s ← get
  match s.store.retainFromCheckpoint checkpointSequence with
  | .error e => throw e
  | .ok store => set { s with store }

end BoundedEvaluationStore

/-! ## The host's calls -/

/-- The calls that can change the store; `flush` does nothing. -/
inductive StoreCall where
  | append (event : EventData)
  | appendBatch (events : List EventData)
  | retainFromCheckpoint (checkpointSequence : RecordId)

def StoreCall.program : StoreCall → StoreM PUnit
  | .append event => do let _ ← BoundedEvaluationStore.append event
  | .appendBatch events => do let _ ← BoundedEvaluationStore.appendBatch events
  | .retainFromCheckpoint checkpointSequence =>
      BoundedEvaluationStore.retainFromCheckpoint checkpointSequence

/-- The store after calls to it, whatever they threw. -/
def Accessed : BoundedEvaluationStore → BoundedEvaluationStore → Prop :=
  Reaches (fun (call : StoreCall) s => after call.program s) fun _ _ => True

/-- A piece of the host's code, over what the host has (`P`) and the store. -/
structure HostCall (P α : Type) where
  run : EStateM Failure (P × BoundedEvaluationStore) α
  accessed : ∀ s, Accessed s.2 (after run s).2

/-! ## The budget -/

/-- What can become of the budget: the bounds stay, the counters grow within them, and once it
    is exhausted they stay too. -/
structure Spent (budget budget' : EvaluationRunBudget) : Prop where
  maxRecords : budget'.maxRecords = budget.maxRecords
  maxBytes : budget'.maxBytes = budget.maxBytes
  records : budget.records ≤ budget'.records
  bytes : budget.bytes ≤ budget'.bytes
  within : budget.records ≤ budget.maxRecords → budget.bytes ≤ budget.maxBytes →
    budget'.records ≤ budget.maxRecords ∧ budget'.bytes ≤ budget.maxBytes
  exhausted : budget.exhausted = true → budget' = budget

namespace Spent

theorem refl (budget : EvaluationRunBudget) : Spent budget budget where
  maxRecords := rfl
  maxBytes := rfl
  records := Nat.le_refl _
  bytes := Nat.le_refl _
  within := fun hrecords hbytes => ⟨hrecords, hbytes⟩
  exhausted := fun _ => rfl

theorem trans {a b c : EvaluationRunBudget} (h : Spent a b) (h' : Spent b c) : Spent a c where
  maxRecords := h'.maxRecords.trans h.maxRecords
  maxBytes := h'.maxBytes.trans h.maxBytes
  records := h.records.trans h'.records
  bytes := h.bytes.trans h'.bytes
  within hrecords hbytes := by
    obtain ⟨hr, hb⟩ := h.within hrecords hbytes
    have hlater := h'.within (h.maxRecords.symm ▸ hr) (h.maxBytes.symm ▸ hb)
    exact ⟨h.maxRecords ▸ hlater.1, h.maxBytes ▸ hlater.2⟩
  exhausted hb := by
    have heq := h.exhausted hb
    rw [h'.exhausted (heq ▸ hb), heq]

/-- The budget is marked exhausted. -/
theorem mark (budget : EvaluationRunBudget) : Spent budget { budget with exhausted := true } where
  maxRecords := rfl
  maxBytes := rfl
  records := Nat.le_refl _
  bytes := Nat.le_refl _
  within := fun hrecords hbytes => ⟨hrecords, hbytes⟩
  exhausted hb := by
    obtain ⟨_, _, _, _, _⟩ := budget
    cases hb
    rfl

end Spent

section Store

variable {s : BoundedEvaluationStore}

/-- Either the events fit, or the budget is exhausted from now on. -/
theorem wp_admitEvents (events : List EventData) :
    wp (BoundedEvaluationStore.admitEvents events)
      (fun bytes s' => s' = s ∧ bytes = eventsBytes events ∧ s.budget.exhausted = false ∧
        events.length ≤ s.budget.maxRecords - s.budget.records ∧
        bytes ≤ s.budget.maxBytes - s.budget.bytes)
      (fun _ s' => s' = { s with budget := { s.budget with exhausted := true } }) s := by
  unfold BoundedEvaluationStore.admitEvents
  rw [wp_bind, wp_get, wp_ite]
  constructor
  · intro _
    rw [wp_bind, wp_set, wp_throw]
  · intro hfits
    rw [not_or, not_or] at hfits
    obtain ⟨hopen, hrecords, hbytes⟩ := hfits
    rw [wp_pure]
    exact ⟨rfl, rfl, Bool.not_eq_true _ ▸ hopen, Nat.le_of_not_gt hrecords,
      Nat.le_of_not_gt hbytes⟩

/-- The store appends without a look at the budget. -/
theorem wp_storeBatch (events : List EventData) :
    wp (BoundedEvaluationStore.storeBatch events)
      (fun _ s' => s'.budget = s.budget) (fun _ s' => s' = s) s := by
  unfold BoundedEvaluationStore.storeBatch
  rw [wp_bind, wp_get]
  cases s.store.appendBatch events with
  | error e => exact (wp_throw e).mpr rfl
  | ok reply =>
      obtain ⟨ids, store⟩ := reply
      rw [wp_bind, wp_set, wp_pure]

theorem wp_appended (events : List EventData) {α : Type} (reply : List RecordId → α) :
    wp (do
        let bytes ← BoundedEvaluationStore.admitEvents events
        let ids ← BoundedEvaluationStore.storeBatch events
        BoundedEvaluationStore.charge events.length bytes
        return reply ids)
      (fun _ s' => Spent s.budget s'.budget) (fun _ s' => Spent s.budget s'.budget) s := by
  rw [wp_bind]
  refine wp_mono (wp_admitEvents events) ?_ ?_
  · rintro bytes s' ⟨rfl, -, hopen, hrecords, hbytes⟩
    rw [wp_bind]
    refine wp_mono (wp_storeBatch events) ?_ ?_
    · intro ids t hbudget
      unfold BoundedEvaluationStore.charge
      rw [wp_bind, wp_modify, wp_pure]
      dsimp only
      rw [hbudget]
      exact {
        maxRecords := rfl
        maxBytes := rfl
        records := Nat.le_add_right _ _
        bytes := Nat.le_add_right _ _
        within := fun hr hb => by
          dsimp only
          omega
        exhausted := fun hexhausted => by rw [hopen] at hexhausted; cases hexhausted }
    · rintro _ t rfl
      exact .refl _
  · rintro _ s' rfl
    exact .mark _

theorem spent_call (call : StoreCall) (s : BoundedEvaluationStore) :
    Spent s.budget (after call.program s).budget := by
  refine (wp_after (P := fun s' : BoundedEvaluationStore => Spent s.budget s'.budget)).mp ?_
  cases call with
  | append event =>
      unfold StoreCall.program BoundedEvaluationStore.append
      rw [wp_bind]
      exact wp_mono (wp_appended [event] fun ids => ids.headD 0) (fun _ _ h => (wp_pure _).mpr h)
        fun _ _ h => h
  | appendBatch events =>
      unfold StoreCall.program BoundedEvaluationStore.appendBatch
      rw [wp_bind]
      exact wp_mono (wp_appended events id) (fun _ _ h => (wp_pure _).mpr h) fun _ _ h => h
  | retainFromCheckpoint checkpointSequence =>
      unfold StoreCall.program BoundedEvaluationStore.retainFromCheckpoint
      rw [wp_bind, wp_get]
      cases s.store.retainFromCheckpoint checkpointSequence with
      | error e => exact (wp_throw e).mpr (.refl _)
      | ok store => exact (wp_set _).mpr (.refl _)

end Store

theorem Accessed.spent {s s' : BoundedEvaluationStore} (h : Accessed s s') :
    Spent s.budget s'.budget :=
  h.induct (P := fun t => Spent s.budget t.budget) (.refl _)
    fun call t ht _ => ht.trans (spent_call call t)

end Evaluation

end LiquidLayer
