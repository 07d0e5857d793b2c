/-
  The two event stores: MemoryEventStore.cpp and FileEventStore.cpp.

  A file store holds the bytes of its file beside the records it has in memory; opening one
  reads the records back from the bytes. The medium is taken to work: no read, write, flush or
  rename fails, and the fault injector of the tests is absent. What is left of failure is the
  bound on the file's size.

  `StoreOp` is a call that either store can receive, or the closing and reopening of the file.
-/
import LiquidLayer.Events.FileScan

namespace LiquidLayer

open EventLimits

/-! ## What both stores share -/

/-- `retention_payload`. -/
def retentionPayload (firstPruned lastPruned checkpoint : RecordId) : Value :=
  .object (eventObject [
    ("checkpoint", .unsignedInteger checkpoint),
    ("first_pruned", .unsignedInteger firstPruned),
    ("last_pruned", .unsignedInteger lastPruned)])

/-- The records before the one with this number, the record, and the records after it. -/
def splitAtSequence (sequence : RecordId) :
    List EventRecord → Option (List EventRecord × EventRecord × List EventRecord)
  | [] => none
  | record :: rest =>
      if record.sequence = sequence then some ([], record, rest)
      else
        match splitAtSequence sequence rest with
        | none => none
        | some (before, found, after) => some (record :: before, found, after)

/-- The checks with which `retain_from_checkpoint` begins, the same in both stores. -/
def retainedCheckpoint (metadata : EventStoreMetadata) (records : List EventRecord)
    (checkpointSequence : RecordId) :
    Except Failure (List EventRecord × EventRecord × List EventRecord) :=
  match splitAtSequence checkpointSequence records with
  | none => .error (.eventStoreError "retention requires a retained checkpoint record")
  | some (before, checkpoint, after) =>
      if checkpoint.type ≠ .checkpoint then
        .error (.eventStoreError "retention requires a retained checkpoint record")
      else
        match validateCheckpointAnchor checkpoint.payload metadata.session
            checkpointSequence with
        | .error e => .error e
        | .ok () =>
            match project metadata (before ++ [checkpoint]) with
            | .error e => .error e
            | .ok _ => .ok (before, checkpoint, after)

/-- The payload of the retention record. -/
def retentionOf (before : List EventRecord) (checkpointSequence : RecordId) : Value :=
  match before with
  | [] => retentionPayload 0 0 checkpointSequence
  | first :: _ => retentionPayload first.sequence (checkpointSequence - 1) checkpointSequence

/-- What is kept: everything from the checkpoint on, and the retention record. -/
def retainedRecords (before : List EventRecord) (checkpoint : EventRecord)
    (after : List EventRecord) (checkpointSequence next : RecordId) : List EventRecord :=
  checkpoint :: after ++ [⟨next, .retention, 1, retentionOf before checkpointSequence⟩]

def nextGeneration (metadata : EventStoreMetadata) : EventStoreMetadata :=
  { metadata with fileGeneration := metadata.fileGeneration + 1 }

/-- The numbers an append returns. -/
def sequencesFrom (first : RecordId) (events : List EventData) : List RecordId :=
  (EventStore.numbered first events).map EventRecord.sequence

/-- Every event passes `validate_event`. -/
def validateEvents : List EventData → Except Failure Unit
  | [] => .ok ()
  | event :: rest =>
      match validateEvent event with
      | .error e => .error e
      | .ok () => validateEvents rest

/-- The numbers are not exhausted by an append of `count` events. -/
def sequenceRoom (next : RecordId) (count : Nat) : Bool :=
  next != 0 && decide (count - 1 ≤ maxU64.toNat - next.toNat)

/-! ## `MemoryEventStore` -/

structure MemoryEventStore where
  metadata : EventStoreMetadata
  maximumRecords : Nat
  records : List EventRecord := []
  nextSequence : RecordId := 1

namespace MemoryEventStore

/-- The constructor. -/
def construct (metadata : EventStoreMetadata) (maxRecords : Nat) :
    Except Failure MemoryEventStore :=
  match validateMetadata metadata with
  | .error e => .error e
  | .ok () =>
      if maxRecords = 0 ∨ maxRecords > maxRecordsRead then
        .error (.eventStoreError "invalid memory event-store capacity")
      else .ok { metadata, maximumRecords := maxRecords }

/-- `append_batch`; a call that throws changes nothing. -/
def appendBatch (store : MemoryEventStore) (events : List EventData) :
    Except Failure (List RecordId × MemoryEventStore) :=
  if events.isEmpty then .ok ([], store)
  else if events.length > maxRecordsPerBatch ∨
      events.length > store.maximumRecords - store.records.length then
    .error (.eventStoreError "memory event-store capacity exceeded")
  else if sequenceRoom store.nextSequence events.length = false then
    .error (.eventStoreError "event record sequence exhausted")
  else
    match validateEvents events with
    | .error e => .error e
    | .ok () =>
        .ok (sequencesFrom store.nextSequence events,
          { store with
            records := store.records ++ EventStore.numbered store.nextSequence events
            nextSequence := store.nextSequence + UInt64.ofNat events.length })

/-- `retain_from_checkpoint`; a call that throws changes nothing. -/
def retainFromCheckpoint (store : MemoryEventStore) (checkpointSequence : RecordId) :
    Except Failure MemoryEventStore :=
  match retainedCheckpoint store.metadata store.records checkpointSequence with
  | .error e => .error e
  | .ok (before, checkpoint, after) =>
      if (checkpoint :: after).length ≥ store.maximumRecords then
        .error (.eventStoreError "memory event-store capacity exceeded by retention record")
      else if store.metadata.fileGeneration = maxU64 then
        .error (.eventStoreError "file generation exhausted")
      else if store.nextSequence = 0 then
        .error (.eventStoreError "event record sequence exhausted")
      else
        match validateEvent
            { type := .retention, payload := retentionOf before checkpointSequence } with
        | .error e => .error e
        | .ok () =>
            .ok { store with
              metadata := nextGeneration store.metadata
              records := retainedRecords before checkpoint after checkpointSequence
                store.nextSequence
              nextSequence := store.nextSequence + 1 }

end MemoryEventStore

/-! ## `FileEventStore` -/

structure FileEventStore where
  metadata : EventStoreMetadata
  file : Bytes
  records : List EventRecord := []
  nextSequence : RecordId := 1
  faulted : Bool := false

namespace FileEventStore

/-- `LockedFile::read_all`. -/
def readFile (contents : Bytes) : Except Failure Bytes :=
  if contents.length > maxFileBytes then
    .error (.eventStoreError "event-store file size limit exceeded")
  else .ok contents

/-- The inner loop of `build_replacement`: the longest batch of at most `count` records that
    `encode_batch` takes, and its number of records. -/
def shrinkBatch (records : List EventRecord) : Nat → Except Failure (Bytes × Nat)
  | 0 => .error (.eventStoreError "invalid event batch record count")
  | count + 1 =>
      match encodeBatch (records.take (count + 1)) with
      | .ok batch => .ok (batch, count + 1)
      | .error e =>
          if e.type = .eventStoreError ∧ count ≠ 0 then shrinkBatch records count else .error e

/-- The outer loop, with a bound on its turns. -/
def splitBatches : Nat → List EventRecord → Except Failure (List Bytes)
  | _, [] => .ok []
  | 0, _ :: _ => .error (.eventStoreError "")
  | turns + 1, record :: rest =>
      match shrinkBatch (record :: rest) (min (record :: rest).length maxRecordsPerBatch) with
      | .error e => .error e
      | .ok (batch, count) =>
          match splitBatches turns ((record :: rest).drop count) with
          | .error e => .error e
          | .ok batches => .ok (batch :: batches)

/-- `LockedFile::write` of one batch after the other. -/
def writeBatches (file : Bytes) : List Bytes → Except Failure Bytes
  | [] => .ok file
  | batch :: rest =>
      if batch.length > maxFileBytes - file.length then
        .error (.eventStoreError "event-store file size limit exceeded")
      else writeBatches (file ++ batch) rest

/-- `build_replacement`: the bytes of a validated replacement. The sources write each batch as
    soon as it is encoded; a failure discards the replacement either way. -/
def buildReplacement (metadata : EventStoreMetadata) (records : List EventRecord) :
    Except Failure Bytes :=
  match encodeHeader metadata with
  | .error e => .error e
  | .ok header =>
      match splitBatches records.length records with
      | .error e => .error e
      | .ok batches =>
          match writeBatches header batches with
          | .error e => .error e
          | .ok bytes =>
              match decodeHeader bytes with
              | .error e => .error e
              | .ok headerCheck =>
                  match scanBatches bytes headerCheck.bytes with
                  | .error e => .error e
                  | .ok scanCheck =>
                      if headerCheck.metadata ≠ metadata ∨ scanCheck.invalidTailBytes ≠ 0 ∨
                          scanCheck.records ≠ records then
                        .error (.eventStoreError "replacement event-store failed validation")
                      else .ok bytes

/-- The number that follows the last record. -/
def sequenceAfter (records : List EventRecord) : RecordId :=
  match records.getLast? with
  | none => 1
  | some last => if last.sequence = maxU64 then 0 else last.sequence + 1

/-- `install_replacement`. -/
def installReplacement (store : FileEventStore) (file : Bytes) (metadata : EventStoreMetadata)
    (records : List EventRecord) : FileEventStore :=
  { store with metadata, records, nextSequence := sequenceAfter records, file }

/-- `recovery_payload`. -/
def recoveryPayload (truncatedBytes : Nat) : Value :=
  .object (eventObject [("truncated_bytes", .unsignedInteger (UInt64.ofNat truncatedBytes))])

/-- `load_existing`. -/
def loadExisting (requested : EventStoreMetadata) (writableRecovery : Bool) (contents : Bytes) :
    Except Failure FileEventStore :=
  match readFile contents with
  | .error e => .error e
  | .ok bytes =>
      match decodeHeader bytes with
      | .error e => .error e
      | .ok header =>
          if header.metadata.session ≠ requested.session ∨
              header.metadata.engineVersion ≠ requested.engineVersion ∨
              header.metadata.feedbackTiming ≠ requested.feedbackTiming then
            .error (.eventStoreError "event-store metadata does not match existing file")
          else
            match scanBatches bytes header.bytes with
            | .error e => .error e
            | .ok scan =>
                let store : FileEventStore :=
                  { metadata := header.metadata, file := contents, records := scan.records,
                    nextSequence := sequenceAfter scan.records }
                if scan.invalidTailBytes = 0 then .ok store
                else if !writableRecovery then
                  .error (.eventStoreError "invalid final event-store batch")
                else if store.nextSequence = 0 then
                  .error (.eventStoreError "event record sequence exhausted during recovery")
                else
                  let recovered := scan.records ++
                    [⟨store.nextSequence, .recovery, 1, recoveryPayload scan.invalidTailBytes⟩]
                  match buildReplacement store.metadata recovered with
                  | .error e => .error e
                  | .ok file =>
                      .ok (store.installReplacement file store.metadata recovered)

/-- The constructor, on what the file holds. -/
def construct (requested : EventStoreMetadata) (writableRecovery : Bool) (contents : Bytes) :
    Except Failure FileEventStore :=
  if contents.isEmpty then
    match encodeHeader requested with
    | .error e => .error e
    | .ok header => .ok { metadata := requested, file := header }
  else loadExisting requested writableRecovery contents

/-- `append_many`: the answer, and the store afterwards. -/
def appendMany (store : FileEventStore) (events : List EventData) :
    Except Failure (List RecordId) × FileEventStore :=
  if store.faulted then (.error (.eventStoreError "event store is faulted"), store)
  else if events.isEmpty then (.ok [], store)
  else if events.length > maxRecordsPerBatch then
    (.error (.eventStoreError "event batch record count limit exceeded"), store)
  else if events.length > maxRecordsRead - store.records.length then
    (.error (.eventStoreError "event-store record count limit exceeded"), store)
  else if sequenceRoom store.nextSequence events.length = false then
    (.error (.eventStoreError "event record sequence exhausted"), store)
  else
    match validateEvents events with
    | .error e => (.error e, store)
    | .ok () =>
        let prepared := EventStore.numbered store.nextSequence events
        match encodeBatch prepared with
        | .error e => (.error e, store)
        | .ok encoded =>
            if encoded.length > maxFileBytes - store.file.length then
              (.error (.eventStoreError "event-store file size limit exceeded"),
                { store with faulted := true })
            else
              (.ok (sequencesFrom store.nextSequence events),
                { store with
                  file := store.file ++ encoded
                  records := store.records ++ prepared
                  nextSequence := store.nextSequence + UInt64.ofNat events.length })

/-- `retain_from_checkpoint`; a call that throws changes nothing. -/
def retainFromCheckpoint (store : FileEventStore) (checkpointSequence : RecordId) :
    Except Failure FileEventStore :=
  if store.faulted then .error (.eventStoreError "event store is faulted")
  else
    match retainedCheckpoint store.metadata store.records checkpointSequence with
    | .error e => .error e
    | .ok (before, checkpoint, after) =>
        if store.metadata.fileGeneration = maxU64 then
          .error (.eventStoreError "file generation exhausted")
        else if store.nextSequence = 0 then
          .error (.eventStoreError "event record sequence exhausted")
        else
          let retained := retainedRecords before checkpoint after checkpointSequence
            store.nextSequence
          match buildReplacement (nextGeneration store.metadata) retained with
          | .error e => .error e
          | .ok file =>
              .ok (store.installReplacement file (nextGeneration store.metadata) retained)

end FileEventStore

end LiquidLayer
