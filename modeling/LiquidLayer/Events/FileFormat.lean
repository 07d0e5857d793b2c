/-
  The bytes of an event file (FileEventStoreFormat.cpp), and the check every store makes on an
  event (`validate_event` of EventInternals.hpp).

  The scanner works on the bytes that are left (`bytes.subspan(position)`); the position itself
  is only counted. A `RecoverableTailError` is the answer `none` of `readBatch`; every other
  exception leaves `scan_batches`.

  * `encodeHeader`, `encodeBatch`: the bytes that are written.
  * `decodeHeader`, `scanBatches`: how they are read back, with every check of the sources.
  * `decodeHeader_encodeHeader`: the header is read back whatever follows it.
-/
import LiquidLayer.Events.Project
import LiquidLayer.Events.Store
import LiquidLayer.Value.Canonical

namespace LiquidLayer

open EventLimits

/-! ## `validate_event` -/

def EventRecord.data (record : EventRecord) : EventData :=
  { type := record.type, version := record.version, payload := record.payload }

/-- The extra check on a checkpoint, which the scanner makes too. -/
def validateCheckpointEvent (type : EventType) (payload : Value) : Except Failure Unit :=
  if type = .checkpoint then validateCheckpointProjection payload else .ok ()

/-- `validate_event`. The type is one of the enumerators by construction. -/
def validateEvent (event : EventData) : Except Failure Unit :=
  if event.version ≠ 1 then .error (.eventStoreError "unsupported event record version")
  else
    match validateCheckpointEvent event.type event.payload with
    | .error e => .error e
    | .ok () =>
        match encodeValue event.payload with
        | .error e => .error ⟨.eventStoreError, utf8 "invalid event payload: " ++ e.what⟩
        | .ok encoded =>
            if encoded.length > maxRecordPayloadBytes then
              .error (.eventStoreError "event record payload limit exceeded")
            else .ok ()

/-! ## CRC32C -/

/-- One turn of the inner loop. -/
def crcBit (crc : UInt32) : UInt32 := (crc >>> 1) ^^^ (0x82f63b78 &&& (0 - (crc &&& 1)))

def crcByte (crc : UInt32) (byte : UInt8) : UInt32 :=
  Nat.repeat crcBit 8 (crc ^^^ byte.toUInt32)

def crc32c (bytes : Bytes) : UInt32 := ~~~(bytes.foldl crcByte 0xffffffff)

/-! ## The header -/

def fileMagic : Bytes := [76, 73, 81, 69, 86, 84, 49, 0]

def batchMagic : Bytes := [76, 66, 65, 84]

def batchFormatVersion : Nat := 1
def batchPrefixBytes : Nat := 32
def batchTrailerBytes : Nat := 4

def FeedbackTiming.code : FeedbackTiming → Nat
  | .deferred => 0
  | .immediate => 1

def FeedbackTiming.ofCode : Nat → Option FeedbackTiming
  | 0 => some .deferred
  | 1 => some .immediate
  | _ => none

@[simp] theorem FeedbackTiming.ofCode_code (t : FeedbackTiming) :
    FeedbackTiming.ofCode t.code = some t := by cases t <;> rfl

structure ParsedHeader where
  metadata : EventStoreMetadata
  bytes : Nat
deriving DecidableEq, Repr

/-- The header up to its checksum. -/
def headerBody (metadata : EventStoreMetadata) : Bytes :=
  fileMagic ++ (toLE 2 metadata.fileFormatVersion.toNat ++
    (toLE 2 (38 + metadata.engineVersion.length) ++ (toLE 8 metadata.session.toNat ++
      (toLE 1 metadata.feedbackTiming.code ++ ([0, 0, 0] ++
        (toLE 8 metadata.fileGeneration.toNat ++
          (toLE 2 metadata.engineVersion.length ++ metadata.engineVersion)))))))

/-- `encode_header`. The size field, written last in the sources, is written in place. -/
def encodeHeader (metadata : EventStoreMetadata) : Except Failure Bytes :=
  match validateMetadata metadata with
  | .error e => .error e
  | .ok () =>
      if (headerBody metadata).length + 4 > 0xffff then
        .error (.eventStoreError "event-store header limit exceeded")
      else .ok (headerBody metadata ++ toLE 4 (crc32c (headerBody metadata)).toNat)

/-- What `ByteReader::require` throws. -/
def truncatedField : Failure := .eventStoreError "truncated binary event-store field"

/-- `decode_header`. -/
def decodeHeader (bytes : Bytes) : Except Failure ParsedHeader :=
  if bytes.length < 39 then .error (.eventStoreError "truncated event-store header")
  else if bytes.take 8 ≠ fileMagic then .error (.eventStoreError "invalid event-store magic")
  else do
    let (version, rest) ← takeLE truncatedField 2 (bytes.drop 8)
    let (headerBytes, rest) ← takeLE truncatedField 2 rest
    if version ≠ currentFileFormatVersion.toNat then
      .error (.eventStoreError "unsupported event-store file format version")
    else if headerBytes < 39 ∨ headerBytes > bytes.length then
      .error (.eventStoreError "invalid event-store header size")
    else do
      let (session, rest) ← takeLE truncatedField 8 rest
      if session = 0 then
        .error (.eventStoreError "invalid session ID in event-store header")
      else do
        let (timing, rest) ← takeLE truncatedField 1 rest
        match FeedbackTiming.ofCode timing with
        | none => .error (.eventStoreError "invalid feedback timing in event-store header")
        | some timing => do
            let (_, rest) ← takeBytes truncatedField 3 rest
            let (generation, rest) ← takeLE truncatedField 8 rest
            if generation = 0 then .error (.eventStoreError "invalid file generation")
            else do
              let (engineBytes, rest) ← takeLE truncatedField 2 rest
              -- `reader.position()` is 34 here
              if engineBytes = 0 ∨ engineBytes > maxEngineVersionBytes ∨
                  34 + engineBytes + 4 ≠ headerBytes then
                .error (.eventStoreError "invalid engine version in event-store header")
              else do
                let (engine, rest) ← takeBytes truncatedField engineBytes rest
                let (expectedCrc, _) ← takeLE truncatedField 4 rest
                if expectedCrc ≠ (crc32c (bytes.take (headerBytes - 4))).toNat then
                  .error (.eventStoreError "event-store header checksum mismatch")
                else
                  let metadata : EventStoreMetadata :=
                    { session := UInt64.ofNat session, engineVersion := engine,
                      feedbackTiming := timing, fileGeneration := UInt64.ofNat generation,
                      fileFormatVersion := UInt16.ofNat version }
                  match validateMetadata metadata with
                  | .error e => .error e
                  | .ok () => .ok ⟨metadata, headerBytes⟩

/-! ## Batches -/

/-- One record of a batch. -/
def encodeRecord (record : EventRecord) : Except Failure Bytes :=
  match encodeValue record.payload with
  | .error e => .error e
  | .ok encoded =>
      if encoded.length > maxRecordPayloadBytes then
        .error (.eventStoreError "event record payload limit exceeded")
      else .ok (toLE 2 record.type.code ++ (toLE 2 record.version.toNat ++
        (toLE 4 encoded.length ++ encoded)))

def encodeRecords : List EventRecord → Except Failure Bytes
  | [] => .ok []
  | record :: rest =>
      match encodeRecord record with
      | .error e => .error e
      | .ok first =>
          match encodeRecords rest with
          | .error e => .error e
          | .ok rest => .ok (first ++ rest)

/-- A batch up to its checksum. -/
def batchBody (payloadBytes recordCount first last : Nat) (payload : Bytes) : Bytes :=
  batchMagic ++ (toLE 2 batchFormatVersion ++ (toLE 2 0 ++ (toLE 4 payloadBytes ++
    (toLE 4 recordCount ++ (toLE 8 first ++ (toLE 8 last ++ payload))))))

/-- `encode_batch`. -/
def encodeBatch (records : List EventRecord) : Except Failure Bytes :=
  match records.head?, records.getLast? with
  | some first, some last =>
      if records.length > maxRecordsPerBatch then
        .error (.eventStoreError "invalid event batch record count")
      else
        match encodeRecords records with
        | .error e => .error e
        | .ok payload =>
            if batchPrefixBytes + payload.length + batchTrailerBytes > maxBatchBytes ∨
                payload.length > 0xffffffff then
              .error (.eventStoreError "event batch size limit exceeded")
            else
              let body := batchBody payload.length records.length first.sequence.toNat
                last.sequence.toNat payload
              .ok (body ++ toLE 4 (crc32c body).toNat)
  | _, _ => .error (.eventStoreError "invalid event batch record count")

/-- The fields in front of a batch's payload. -/
structure BatchPrefix where
  formatVersion : Nat
  flags : Nat
  payloadBytes : Nat
  recordCount : Nat
  firstSequence : Nat
  lastSequence : Nat
deriving DecidableEq, Repr

/-- The fields that follow the magic bytes, and the rest. -/
def readBatchPrefix (bytes : Bytes) : Except Failure (BatchPrefix × Bytes) := do
  let (formatVersion, rest) ← takeLE truncatedField 2 bytes
  let (flags, rest) ← takeLE truncatedField 2 rest
  let (payloadBytes, rest) ← takeLE truncatedField 4 rest
  let (recordCount, rest) ← takeLE truncatedField 4 rest
  let (firstSequence, rest) ← takeLE truncatedField 8 rest
  let (lastSequence, rest) ← takeLE truncatedField 8 rest
  .ok (⟨formatVersion, flags, payloadBytes, recordCount, firstSequence, lastSequence⟩, rest)

/-- The checksum at the end of the first `batchBytes` bytes is that of what precedes it. -/
def checksumMatches (bytes : Bytes) (batchBytes : Nat) : Bool :=
  ofLE ((bytes.drop (batchBytes - 4)).take 4) == (crc32c (bytes.take (batchBytes - 4))).toNat

/-- A candidate of `has_batch_magic_after`: the bytes start with a whole batch, as far as its
    prefix and checksum tell. -/
def looksLikeBatch (bytes : Bytes) : Bool :=
  bytes.take 4 == batchMagic && decide (batchPrefixBytes + batchTrailerBytes ≤ bytes.length) &&
    match readBatchPrefix (bytes.drop 4) with
    | .error _ => false
    | .ok (p, _) =>
        p.formatVersion == batchFormatVersion && p.flags == 0 && p.recordCount != 0 &&
          decide (p.recordCount ≤ maxRecordsPerBatch) &&
          decide (p.payloadBytes ≤ maxBatchBytes - batchPrefixBytes - batchTrailerBytes) &&
          decide (batchPrefixBytes + p.payloadBytes + batchTrailerBytes ≤ bytes.length) &&
          checksumMatches bytes (batchPrefixBytes + p.payloadBytes + batchTrailerBytes)

/-- The search of `has_batch_magic_after` over the bytes from its position on. -/
def hasBatch : Bytes → Bool
  | [] => false
  | byte :: rest => looksLikeBatch (byte :: rest) || hasBatch rest

def hasBatchMagicAfter (bytes : Bytes) (position : Nat) : Bool := hasBatch (bytes.drop position)

/-- `decode_event_payload`. -/
def decodeEventPayload (encoded : Bytes) : Except Failure Value :=
  match decodeValue encoded with
  | .error e => .error ⟨.eventStoreError, utf8 "invalid encoded event payload: " ++ e.what⟩
  | .ok value => .ok value

/-- One turn of the record loop of `scan_batches`. -/
def readRecord (sequence : RecordId) (payload : Bytes) : Except Failure (EventRecord × Bytes) := do
  let (code, rest) ← takeLE truncatedField 2 payload
  let (version, rest) ← takeLE truncatedField 2 rest
  let (encodedBytes, rest) ← takeLE truncatedField 4 rest
  match EventType.ofCode code with
  | none => .error (.eventStoreError "unknown event record type")
  | some type =>
      if version ≠ 1 then .error (.eventStoreError "unsupported event record version")
      else if encodedBytes > maxRecordPayloadBytes then
        .error (.eventStoreError "event record payload limit exceeded")
      else do
        let (encoded, rest) ← takeBytes truncatedField encodedBytes rest
        let value ← decodeEventPayload encoded
        match validateCheckpointEvent type value with
        | .error e => .error e
        | .ok () =>
            .ok ({ sequence, type, version := UInt16.ofNat version, payload := value }, rest)

def readRecords : Nat → RecordId → Bytes → Except Failure (List EventRecord × Bytes)
  | 0, _, payload => .ok ([], payload)
  | count + 1, sequence, payload =>
      match readRecord sequence payload with
      | .error e => .error e
      | .ok (record, payload) =>
          match readRecords count (sequence + 1) payload with
          | .error e => .error e
          | .ok (rest, payload) => .ok (record :: rest, payload)

/-- A batch the scanner takes. -/
structure ReadBatch where
  records : List EventRecord
  lastSequence : RecordId
  size : Nat

/-- The `try` block of `scan_batches` up to the point where the batch is taken; `none` is a
    `RecoverableTailError`. `taken` counts the records read before. -/
def readBatch (expectedSequence : RecordId) (taken : Nat) (bytes : Bytes) :
    Except Failure (Option ReadBatch) :=
  if bytes.length < batchPrefixBytes + batchTrailerBytes then .ok none
  else if bytes.take 4 ≠ batchMagic then .ok none
  else
    match readBatchPrefix (bytes.drop 4) with
    | .error e => .error e
    | .ok (p, rest) =>
        let batchBytes := batchPrefixBytes + p.payloadBytes + batchTrailerBytes
        if p.formatVersion ≠ batchFormatVersion ∨ p.flags ≠ 0 then
          .error (.eventStoreError "unsupported event batch version or flags")
        else if p.recordCount = 0 ∨ p.recordCount > maxRecordsPerBatch then
          .error (.eventStoreError "invalid event batch record count")
        else if p.payloadBytes > maxBatchBytes - batchPrefixBytes - batchTrailerBytes then
          .error (.eventStoreError "event batch size limit exceeded")
        else if batchBytes > bytes.length then .ok none
        else if checksumMatches bytes batchBytes = false then .ok none
        else if p.firstSequence = 0 ∨ p.recordCount - 1 > maxU64.toNat - p.firstSequence ∨
            p.lastSequence ≠ p.firstSequence + p.recordCount - 1 then
          .error (.eventStoreError "invalid event batch sequence range")
        else if expectedSequence ≠ 0 ∧ p.firstSequence ≠ expectedSequence.toNat then
          .error (.eventStoreError "event record sequence gap")
        else
          match readRecords p.recordCount (UInt64.ofNat p.firstSequence)
              (rest.take p.payloadBytes) with
          | .error e => .error e
          | .ok (decoded, left) =>
              if left ≠ [] then
                .error (.eventStoreError "event batch has trailing payload bytes")
              else if decoded.length > maxRecordsRead - taken then
                .error (.eventStoreError "event-store record count limit exceeded")
              else .ok (some ⟨decoded, UInt64.ofNat p.lastSequence, batchBytes⟩)

/-! ## `scan_batches` -/

structure ScanResult where
  records : List EventRecord
  validBytes : Nat
  invalidTailBytes : Nat
deriving DecidableEq

/-- The loop, with a bound on its turns. -/
def scanLoop : Nat → RecordId → List EventRecord → Nat → Bytes → Except Failure ScanResult
  | _, _, records, position, [] => .ok ⟨records, position, 0⟩
  | 0, _, _, _, _ :: _ => .error (.eventStoreError "")
  | turns + 1, expectedSequence, records, position, byte :: rest =>
      match readBatch expectedSequence records.length (byte :: rest) with
      | .error e => .error e
      | .ok none =>
          if hasBatch rest then .error (.eventStoreError "mid-file event-store corruption")
          else .ok ⟨records, position, (byte :: rest).length⟩
      | .ok (some batch) =>
          let expectedSequence :=
            if batch.lastSequence = maxU64 then 0 else batch.lastSequence + 1
          let left := (byte :: rest).drop batch.size
          if expectedSequence = 0 ∧ left ≠ [] then
            .error (.eventStoreError "records follow exhausted event sequence")
          else
            scanLoop turns expectedSequence (records ++ batch.records) (position + batch.size) left

/-- `scan_batches`. Every turn but the last takes a batch, and no batch is empty, so the loop
    has at most as many turns as there are bytes. -/
def scanBatches (bytes : Bytes) (position : Nat) : Except Failure ScanResult :=
  scanLoop bytes.length 0 [] position (bytes.drop position)

/-! ## Reading back what was written -/

theorem length_headerBody (metadata : EventStoreMetadata) :
    (headerBody metadata).length = 34 + metadata.engineVersion.length := by
  simp only [headerBody, List.length_append, length_toLE, fileMagic, List.length_cons,
    List.length_nil]
  omega

theorem encodeHeader_eq {metadata : EventStoreMetadata}
    (h : validateMetadata metadata = .ok ()) :
    encodeHeader metadata =
      .ok (headerBody metadata ++ toLE 4 (crc32c (headerBody metadata)).toNat) := by
  obtain ⟨-, -, hlen, -⟩ := of_validateMetadata h
  have hsize : ¬ (headerBody metadata).length + 4 > 0xffff := by
    rw [length_headerBody]
    unfold maxEngineVersionBytes at hlen
    omega
  rw [encodeHeader, h]
  exact if_neg hsize

theorem u16_lt (x : UInt16) : x.toNat < 256 ^ 2 := x.toNat_lt

theorem u32_lt (x : UInt32) : x.toNat < 256 ^ 4 := x.toNat_lt

theorem u64_lt (x : UInt64) : x.toNat < 256 ^ 8 := x.toNat_lt

theorem decodeHeader_encodeHeader {metadata : EventStoreMetadata} {header : Bytes}
    (h : encodeHeader metadata = .ok header) (rest : Bytes) :
    decodeHeader (header ++ rest) = .ok ⟨metadata, header.length⟩ := by
  have hvalid : validateMetadata metadata = .ok () := by
    unfold encodeHeader at h
    split at h
    · cases h
    · assumption
  obtain ⟨hversion, hne, hlen, hgen, hsession, -⟩ := of_validateMetadata hvalid
  rw [encodeHeader_eq hvalid] at h
  have hheader := Except.ok.inj h
  have hsize : header.length = 38 + metadata.engineVersion.length := by
    rw [← hheader, List.length_append, length_headerBody, length_toLE]
    omega
  have hpos : 0 < metadata.engineVersion.length := List.length_pos_iff.mpr hne
  unfold maxEngineVersionBytes at hlen
  have hcrc : (header ++ rest).take (38 + metadata.engineVersion.length - 4) =
      headerBody metadata := by
    rw [← hheader, List.append_assoc]
    exact List.take_left' (by rw [length_headerBody]; omega)
  -- the fields one after the other, as the reader meets them
  have hfields : header ++ rest = fileMagic ++ (toLE 2 metadata.fileFormatVersion.toNat ++
      (toLE 2 (38 + metadata.engineVersion.length) ++ (toLE 8 metadata.session.toNat ++
        (toLE 1 metadata.feedbackTiming.code ++ ([0, 0, 0] ++
          (toLE 8 metadata.fileGeneration.toNat ++ (toLE 2 metadata.engineVersion.length ++
            (metadata.engineVersion ++
              (toLE 4 (crc32c (headerBody metadata)).toNat ++ rest))))))))) := by
    rw [← hheader]
    simp only [headerBody, List.append_assoc]
  have hlong : ¬ (header ++ rest).length < 39 := by
    rw [List.length_append, hsize]
    omega
  have hmagic : (header ++ rest).take 8 = fileMagic := by
    rw [hfields]
    exact List.take_left' rfl
  have hdrop := congrArg (List.drop 8) hfields
  rw [List.drop_left' (show fileMagic.length = 8 from rfl)] at hdrop
  have hsession0 : metadata.session.toNat ≠ 0 := fun h0 => hsession (UInt64.toNat.inj h0)
  have hgen0 : metadata.fileGeneration.toNat ≠ 0 := fun h0 => hgen (UInt64.toNat.inj h0)
  have htiming : metadata.feedbackTiming.code < 256 ^ 1 := by
    cases metadata.feedbackTiming <;> decide
  have hbounds : ¬ (38 + metadata.engineVersion.length < 39 ∨
      38 + metadata.engineVersion.length > (header ++ rest).length) := by
    rw [List.length_append, hsize]
    omega
  have hengine : ¬ (metadata.engineVersion.length = 0 ∨ metadata.engineVersion.length > 64 ∨
      34 + metadata.engineVersion.length + 4 ≠ 38 + metadata.engineVersion.length) := by
    omega
  unfold decodeHeader
  rw [if_neg hlong, hmagic, if_neg (not_not.mpr rfl), hdrop, takeLE_append (u16_lt _), ok_bind]
  simp only [takeLE_append (show 38 + metadata.engineVersion.length < 256 ^ 2 by omega), ok_bind,
    hversion, ne_eq, not_true_eq_false, if_false, hbounds, takeLE_append (u64_lt _), hsession0,
    takeLE_append htiming, FeedbackTiming.ofCode_code,
    takeBytes_append (show ([0, 0, 0] : Bytes).length = 3 from rfl), hgen0,
    takeLE_append (show metadata.engineVersion.length < 256 ^ 2 by omega),
    maxEngineVersionBytes, hengine, takeBytes_append rfl, takeLE_append (u32_lt _), hcrc]
  have hmeta : (⟨UInt64.ofNat metadata.session.toNat, metadata.engineVersion,
      metadata.feedbackTiming, UInt64.ofNat metadata.fileGeneration.toNat,
      UInt16.ofNat currentFileFormatVersion.toNat⟩ : EventStoreMetadata) = metadata := by
    rw [← hversion, UInt64.ofNat_toNat, UInt64.ofNat_toNat, UInt16.ofNat_toNat]
  rw [hmeta, hvalid, hsize]

end LiquidLayer
