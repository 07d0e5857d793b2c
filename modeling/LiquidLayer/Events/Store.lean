/-
  The `EventStore` interface (EventStore.hpp) as the runtime sees it.

  Both stores of the sources append a batch as a whole or not at all, number the records
  consecutively, and refuse with an `EventStoreError` for reasons of their own (capacity, a
  payload limit, the medium). Which calls are refused is left open: `medium` answers the
  store's calls one after the other. `refused` counts the refused appends, so that "every
  append succeeded" can be said of a run.

  * `EventStore.appendBatch`, `EventStore.flush`, and what each can do to the store.
  * `durableRecords`: what a crash cannot take away.
-/
import LiquidLayer.Events.Record

namespace LiquidLayer

/-- `validate_metadata`. -/
def validateMetadata (metadata : EventStoreMetadata) : Except Failure Unit :=
  if metadata.fileFormatVersion ≠ currentFileFormatVersion then
    .error (.eventStoreError "unsupported event-store file format version")
  else if metadata.engineVersion.isEmpty ∨
      metadata.engineVersion.length > EventLimits.maxEngineVersionBytes then
    .error (.eventStoreError "invalid engine version")
  else if metadata.fileGeneration = 0 then
    .error (.eventStoreError "file generation must be nonzero")
  else if metadata.session = 0 then
    .error (.eventStoreError "session ID must be nonzero")
  else
    match (Value.string metadata.engineVersion).validate with
    | .error e => .error ⟨.eventStoreError, utf8 "invalid engine version: " ++ e.what⟩
    | .ok () => .ok ()

theorem of_validateMetadata {metadata : EventStoreMetadata}
    (h : validateMetadata metadata = .ok ()) :
    metadata.fileFormatVersion = currentFileFormatVersion ∧ metadata.engineVersion ≠ [] ∧
      metadata.engineVersion.length ≤ EventLimits.maxEngineVersionBytes ∧
      metadata.fileGeneration ≠ 0 ∧ metadata.session ≠ 0 ∧
      (Value.string metadata.engineVersion).validate = .ok () := by
  unfold validateMetadata at h
  split at h
  · cases h
  split at h
  · cases h
  split at h
  · cases h
  split at h
  · cases h
  next hf he hg hs =>
    split at h
    · cases h
    · next hv =>
        obtain ⟨he, hl⟩ := not_or.mp he
        refine ⟨not_not.mp hf, fun hn => he (by rw [hn]; rfl), Nat.le_of_not_gt hl, hg, hs, hv⟩

structure EventStore where
  metadata : EventStoreMetadata
  records : List EventRecord
  nextSequence : RecordId
  /-- How many records are on the medium for good. -/
  flushed : Nat
  /-- Whether the medium takes the `n`-th call. -/
  medium : Nat → Bool
  calls : Nat
  refused : Nat
  valid : validateMetadata metadata = .ok ()

namespace EventStore

/-- The records an append gives numbers to. -/
def numbered (first : RecordId) : List EventData → List EventRecord
  | [] => []
  | event :: rest =>
      { sequence := first, type := event.type, version := event.version,
        payload := event.payload } :: numbered (first + 1) rest

/-- The checks on a batch that both stores make before they touch the medium. -/
def admits (store : EventStore) (events : List EventData) : Bool :=
  decide (events.length ≤ EventLimits.maxRecordsPerBatch) && store.nextSequence != 0 &&
    decide (events.length - 1 ≤ maxU64.toNat - store.nextSequence.toNat) &&
    store.medium store.calls

/-- The store once it has taken a batch. -/
def push (store : EventStore) (events : List EventData) (durability : Durability) : EventStore :=
  { store with
    records := store.records ++ numbered store.nextSequence events
    nextSequence := store.nextSequence + UInt64.ofNat events.length
    flushed := if durability = .durable then store.records.length + events.length
      else store.flushed
    calls := store.calls + 1 }

/-- The store once it has refused a batch. -/
def refuse (store : EventStore) : EventStore :=
  { store with calls := store.calls + 1, refused := store.refused + 1 }

/-- `append_batch`: whether the batch was taken, and the store afterwards. -/
def appendBatch (store : EventStore) (events : List EventData) (durability : Durability) :
    Bool × EventStore :=
  if events.isEmpty then (true, store)
  else if store.admits events then (true, store.push events durability)
  else (false, store.refuse)

/-- `flush`: whether it went through, and the store afterwards. -/
def flush (store : EventStore) : Bool × EventStore :=
  if store.medium store.calls then
    (true, { store with flushed := store.records.length, calls := store.calls + 1 })
  else (false, { store with calls := store.calls + 1 })

/-- The part of the log that survives every crash. -/
def durableRecords (store : EventStore) : List EventRecord := store.records.take store.flushed

@[simp] theorem length_numbered (first : RecordId) (events : List EventData) :
    (numbered first events).length = events.length := by
  induction events generalizing first with
  | nil => rfl
  | cons e events ih => simp [numbered, ih]

end EventStore

end LiquidLayer
