/-
  The file store and the memory store give the same answers.

  `Image` ties a file store's memory to its bytes: a header and the batches whose records it
  holds, numbered without a gap. Both stores then change in step.

  * `buildReplacement_eq`: a replacement is written exactly when the scanner can read it back.
  * `construct_image`: reopening a file changes nothing.
  * `Agree.perform`: one call keeps the two stores in agreement and gets the same answer.
  * `stores_agree`: so does every run.
-/
import LiquidLayer.Events.Stores
import LiquidLayer.Lib.Prog

namespace LiquidLayer

open EventLimits

/-! ## Calls -/

/-- A call to a store, or the closing and reopening of its file. -/
inductive StoreOp where
  | append (event : EventData) (durability : Durability)
  | appendBatch (events : List EventData) (durability : Durability)
  | checkpoint (projection : Value) (durability : Durability)
  | retainFromCheckpoint (sequence : RecordId)
  | reopen

/-- The events a call appends, once `EventStore::checkpoint` has checked the session. -/
def StoreOp.events (session : SessionId) : StoreOp → Except Failure (List EventData)
  | .append event _ => .ok [event]
  | .appendBatch events _ => .ok events
  | .checkpoint projection _ =>
      match validateCheckpointSession projection session with
      | .error e => .error e
      | .ok () => .ok [{ type := .checkpoint, payload := projection }]
  | .retainFromCheckpoint _ | .reopen => .ok []

namespace MemoryEventStore

/-- A call to the memory store: the numbers it returns, and the store afterwards. -/
def perform (op : StoreOp) (store : MemoryEventStore) :
    Except Failure (List RecordId) × MemoryEventStore :=
  match op with
  | .retainFromCheckpoint sequence =>
      match store.retainFromCheckpoint sequence with
      | .error e => (.error e, store)
      | .ok store => (.ok [], store)
  | .reopen => (.ok [], store)
  | op =>
      match op.events store.metadata.session with
      | .error e => (.error e, store)
      | .ok events =>
          match store.appendBatch events with
          | .error e => (.error e, store)
          | .ok (sequences, store) => (.ok sequences, store)

end MemoryEventStore

namespace FileEventStore

/-- A call to the file store, or its file opened again with the same request. -/
def perform (requested : EventStoreMetadata) (writableRecovery : Bool) (op : StoreOp)
    (store : FileEventStore) : Except Failure (List RecordId) × FileEventStore :=
  match op with
  | .retainFromCheckpoint sequence =>
      match store.retainFromCheckpoint sequence with
      | .error e => (.error e, store)
      | .ok store => (.ok [], store)
  | .reopen =>
      match construct requested writableRecovery store.file with
      | .error e => (.error e, store)
      | .ok store => (.ok [], store)
  | op =>
      match op.events store.metadata.session with
      | .error e => (.error e, store)
      | .ok events => store.appendMany events

end FileEventStore

/-- Both stores. -/
structure Stores where
  memory : MemoryEventStore
  file : FileEventStore

/-- The same call to both stores. -/
def Stores.step (requested : EventStoreMetadata) (writableRecovery : Bool) (op : StoreOp)
    (s : Stores) : Stores :=
  ⟨(s.memory.perform op).2, (s.file.perform requested writableRecovery op).2⟩

/-- `append_many` comes to `encode_batch`. -/
def FileEventStore.Encodes (store : FileEventStore) (events : List EventData) : Prop :=
  events ≠ [] ∧ events.length ≤ maxRecordsPerBatch ∧
    events.length ≤ maxRecordsRead - store.records.length ∧
    sequenceRoom store.nextSequence events.length = true ∧ validateEvents events = .ok ()

/-- The sizes of what a call encodes and writes, where it comes to that. -/
structure Stores.Fits (op : StoreOp) (s : Stores) : Prop where
  /-- The payloads are `Value`s. -/
  payloads : ∀ events, op.events s.file.metadata.session = .ok events →
    ∀ event ∈ events, event.payload.ordered = true
  /-- The batch is within `maxBatchBytes`, and the file with it within `maxFileBytes`. -/
  batch : ∀ events payload, op.events s.file.metadata.session = .ok events →
    s.file.Encodes events →
    encodeRecords (EventStore.numbered s.file.nextSequence events) = .ok payload →
      36 + payload.length ≤ maxBatchBytes ∧
        s.file.file.length + (36 + payload.length) ≤ maxFileBytes
  /-- The file that takes the place of the old one is within `maxFileBytes`. -/
  replacement : ∀ sequence, op = .retainFromCheckpoint sequence →
    ∀ before checkpoint after header batches,
      retainedCheckpoint s.file.metadata s.file.records sequence =
        .ok (before, checkpoint, after) →
      s.file.metadata.fileGeneration ≠ maxU64 → s.file.nextSequence ≠ 0 →
      (retainedRecords before checkpoint after sequence s.file.nextSequence).length ≤
        maxRecordsRead →
      encodeHeader (nextGeneration s.file.metadata) = .ok header →
      FileEventStore.splitBatches
          (retainedRecords before checkpoint after sequence s.file.nextSequence).length
          (retainedRecords before checkpoint after sequence s.file.nextSequence) =
        .ok batches →
      header.length + batches.flatten.length ≤ maxFileBytes

/-! ## Numbers -/

/-- Records numbered from `n` on, all within 64 bits; an empty log starts at 1. -/
structure Counted (n : Nat) (records : List EventRecord) (next : RecordId) : Prop where
  pos : 0 < n
  fresh : records = [] → n = 1
  numbered : NumberedFrom n records
  within : n + records.length ≤ 2 ^ 64
  next : next = UInt64.ofNat (n + records.length)

theorem ofNat_eq_zero {k : Nat} (hpos : 0 < k) (h : k ≤ 2 ^ 64) :
    UInt64.ofNat k = 0 ↔ k = 2 ^ 64 := by
  constructor
  · intro h0
    have := congrArg UInt64.toNat h0
    rw [UInt64.toNat_ofNat'] at this
    simp at this
    omega
  · rintro rfl
    rfl

theorem sequenceRoom_iff {k count : Nat} (hpos : 0 < k) (hle : k ≤ 2 ^ 64) (hcount : 0 < count) :
    sequenceRoom (UInt64.ofNat k) count = true ↔ k + count ≤ 2 ^ 64 := by
  have hmax : maxU64.toNat = 2 ^ 64 - 1 := rfl
  have hzero := ofNat_eq_zero hpos hle
  unfold sequenceRoom
  simp only [Bool.and_eq_true, bne_iff_ne, ne_eq, decide_eq_true_eq, hzero]
  rw [UInt64.toNat_ofNat']
  constructor
  · rintro ⟨hne, hroom⟩
    rw [Nat.mod_eq_of_lt (by omega)] at hroom
    omega
  · intro h
    have hne : k ≠ 2 ^ 64 := by omega
    rw [Nat.mod_eq_of_lt (by omega)]
    exact ⟨hne, by omega⟩

theorem numberedFrom_numbered {k : Nat} {events : List EventData}
    (hver : ∀ event ∈ events, event.version = 1) (h : k + events.length ≤ 2 ^ 64) :
    NumberedFrom k (EventStore.numbered (UInt64.ofNat k) events) := by
  induction events generalizing k with
  | nil => trivial
  | cons event events ih =>
      rw [List.length_cons] at h
      refine ⟨?_, hver event List.mem_cons_self, ?_⟩
      · rw [UInt64.toNat_ofNat', Nat.mod_eq_of_lt (by omega)]
      · have hnext : UInt64.ofNat k + 1 = UInt64.ofNat (k + 1) := by
          rw [UInt64.ofNat_add]
          rfl
        rw [hnext]
        exact ih (fun e he => hver e (List.mem_cons_of_mem _ he)) (by omega)

theorem Counted.sequenceAfter {n : Nat} {records : List EventRecord} {next : RecordId}
    (h : Counted n records next) : FileEventStore.sequenceAfter records = next := by
  have hmax : maxU64.toNat = 2 ^ 64 - 1 := rfl
  have hwithin := h.within
  unfold FileEventStore.sequenceAfter
  cases hlast : records.getLast? with
  | none =>
      have hnil : records = [] := List.getLast?_eq_none_iff.mp hlast
      rw [h.next, hnil, h.fresh hnil]
      rfl
  | some last =>
      have hseq := h.numbered.getLast hlast
      have hlen : 0 < records.length := by
        cases records with
        | nil => cases hlast
        | cons r rs => exact Nat.succ_pos _
      have hpos := h.pos
      rw [h.next]
      dsimp only
      by_cases hmaxed : last.sequence = maxU64
      · rw [if_pos hmaxed, eq_comm, ofNat_eq_zero (by omega) hwithin]
        rw [hmaxed] at hseq
        omega
      · rw [if_neg hmaxed]
        apply UInt64.toNat.inj
        have hlt : last.sequence.toNat < 2 ^ 64 - 1 := by
          have := last.sequence.toNat_lt
          rcases Nat.lt_or_ge last.sequence.toNat (2 ^ 64 - 1) with h | h
          · exact h
          · exact absurd (UInt64.toNat.inj (by omega)) hmaxed
        rw [UInt64.toNat_add, UInt64.toNat_one, UInt64.toNat_ofNat']
        omega

theorem Counted.append {n : Nat} {records : List EventRecord} {next : RecordId}
    {events : List EventData} (h : Counted n records next)
    (hver : ∀ event ∈ events, event.version = 1)
    (hroom : n + records.length + events.length ≤ 2 ^ 64) :
    Counted n (records ++ EventStore.numbered next events)
      (next + UInt64.ofNat events.length) := by
  have hnext := h.next
  refine ⟨h.pos, fun hnil => h.fresh (List.append_eq_nil_iff.mp hnil).1, ?_, ?_, ?_⟩
  · refine NumberedFrom.append.mpr ⟨h.numbered, ?_⟩
    rw [hnext]
    exact numberedFrom_numbered hver hroom
  · rw [List.length_append, EventStore.length_numbered]
    omega
  · rw [hnext, List.length_append, EventStore.length_numbered, ← UInt64.ofNat_add, Nat.add_assoc]

/-! ## Batches of valid records -/

/-- Every record passes `validate_event`, and its payload is a `Value`. -/
def AllValid (records : List EventRecord) : Prop :=
  ∀ record ∈ records, validateEvent record.data = .ok () ∧ record.payload.ordered = true

theorem Batch.allValid (log : List Batch) : AllValid (logRecords log) := by
  intro record hr
  obtain ⟨batch, -, hmem⟩ := List.mem_flatMap.mp hr
  exact ⟨batch.valid record hmem, batch.ordered record hmem⟩

theorem AllValid.sublist {a b : List EventRecord} (h : AllValid b) (hsub : ∀ r ∈ a, r ∈ b) :
    AllValid a := fun r hr => h r (hsub r hr)

theorem encodeRecord_ok {record : EventRecord} (h : validateEvent record.data = .ok ()) :
    ∃ bytes, encodeRecord record = .ok bytes ∧ bytes.length ≤ 8 + maxRecordPayloadBytes := by
  obtain ⟨-, -, encoded, henc, hlen⟩ := of_validateEvent h
  have henc : encodeValue record.payload = .ok encoded := henc
  refine ⟨_, by rw [encodeRecord, henc]; exact if_neg (Nat.not_lt.mpr hlen), ?_⟩
  simp only [List.length_append, length_toLE]
  omega

theorem encodeRecords_ok {records : List EventRecord} (h : AllValid records) :
    ∃ payload, encodeRecords records = .ok payload := by
  induction records with
  | nil => exact ⟨[], rfl⟩
  | cons record records ih =>
      obtain ⟨first, hfirst, -⟩ := encodeRecord_ok (h record List.mem_cons_self).1
      obtain ⟨rest, hrest⟩ := ih (h.sublist fun r hr => List.mem_cons_of_mem _ hr)
      exact ⟨first ++ rest, by simp only [encodeRecords, hfirst, hrest]⟩

/-- `encode_batch` on valid records fails only for the size of the batch. -/
theorem encodeBatch_valid {records : List EventRecord} {payload : Bytes} (hne : records ≠ [])
    (hcount : records.length ≤ maxRecordsPerBatch)
    (hpayload : encodeRecords records = .ok payload) :
    (36 + payload.length ≤ maxBatchBytes →
        ∃ bytes, encodeBatch records = .ok bytes ∧ bytes.length = 36 + payload.length) ∧
      (¬ 36 + payload.length ≤ maxBatchBytes →
        encodeBatch records = .error (.eventStoreError "event batch size limit exceeded")) := by
  obtain ⟨first, hfirst⟩ : ∃ first, records.head? = some first := by
    cases records with
    | nil => exact absurd rfl hne
    | cons r rs => exact ⟨r, rfl⟩
  obtain ⟨last, hlast⟩ : ∃ last, records.getLast? = some last :=
    ⟨records.getLast hne, List.getLast?_eq_some_getLast hne⟩
  unfold encodeBatch
  rw [hfirst, hlast]
  simp only [if_neg (Nat.not_lt.mpr hcount), hpayload]
  unfold batchPrefixBytes batchTrailerBytes maxBatchBytes
  constructor
  · intro hsize
    rw [if_neg (by omega)]
    refine ⟨_, rfl, ?_⟩
    rw [List.length_append, length_batchBody, length_toLE]
    omega
  · intro hsize
    rw [if_pos (by omega)]

/-- A batch of valid records that `encode_batch` takes. -/
def Batch.ofValid {records : List EventRecord} {bytes : Bytes} (h : AllValid records)
    (hencoded : encodeBatch records = .ok bytes) : Batch :=
  ⟨records, bytes, hencoded, fun r hr => (h r hr).1, fun r hr => (h r hr).2⟩

namespace FileEventStore

/-- The inner loop finds a batch: one record always fits. -/
theorem shrinkBatch_ok {records : List EventRecord} (h : AllValid records) {count : Nat}
    (hpos : 0 < count) (hle : count ≤ records.length) (hcount : count ≤ maxRecordsPerBatch) :
    ∃ bytes k, shrinkBatch records count = .ok (bytes, k) ∧ 0 < k ∧ k ≤ count ∧
      encodeBatch (records.take k) = .ok bytes := by
  induction count with
  | zero => omega
  | succ count ih =>
      have hvalid : AllValid (records.take (count + 1)) :=
        h.sublist fun r hr => List.mem_of_mem_take hr
      have hlen : (records.take (count + 1)).length = count + 1 := by
        rw [List.length_take]
        omega
      have hne : records.take (count + 1) ≠ [] := by
        intro h0
        rw [h0] at hlen
        cases hlen
      obtain ⟨payload, hpayload⟩ := encodeRecords_ok hvalid
      obtain ⟨hfits, hlarge⟩ := encodeBatch_valid hne (by omega) hpayload
      by_cases hsize : 36 + payload.length ≤ maxBatchBytes
      · obtain ⟨bytes, hbytes, -⟩ := hfits hsize
        exact ⟨bytes, count + 1, by simp only [shrinkBatch, hbytes], Nat.succ_pos _, le_rfl,
          hbytes⟩
      · have hcount0 : count ≠ 0 := by
          rintro rfl
          -- a single record is at most half as long as a batch may be
          obtain ⟨record, hrecord⟩ := List.length_eq_one_iff.mp hlen
          rw [hrecord] at hpayload hvalid
          obtain ⟨first, hfirst, hbound⟩ := encodeRecord_ok (hvalid record (by simp)).1
          simp only [encodeRecords, hfirst, List.append_nil, Except.ok.injEq] at hpayload
          rw [← hpayload] at hsize
          unfold maxRecordPayloadBytes at hbound
          unfold maxBatchBytes at hsize
          omega
        obtain ⟨bytes, k, hk, hkpos, hkle, hbytes⟩ := ih (Nat.pos_of_ne_zero hcount0) (by omega)
          (by omega)
        refine ⟨bytes, k, ?_, hkpos, by omega, hbytes⟩
        simp only [shrinkBatch, hlarge hsize, hk]
        exact if_pos ⟨rfl, hcount0⟩

/-- The replacement's batches hold the records, in order. -/
theorem splitBatches_ok {records : List EventRecord} (h : AllValid records) {turns : Nat}
    (hturns : records.length ≤ turns) :
    ∃ log : List Batch, splitBatches turns records = .ok (log.map Batch.bytes) ∧
      logRecords log = records := by
  induction turns generalizing records with
  | zero =>
      have hnil : records = [] := List.eq_nil_of_length_eq_zero (Nat.le_zero.mp hturns)
      subst hnil
      exact ⟨[], rfl, rfl⟩
  | succ turns ih =>
      cases records with
      | nil => exact ⟨[], rfl, rfl⟩
      | cons record rest =>
          obtain ⟨bytes, k, hk, hkpos, hkle, hbytes⟩ := @shrinkBatch_ok (record :: rest) h
            (min (record :: rest).length maxRecordsPerBatch)
            (Nat.lt_min.mpr ⟨Nat.succ_pos _, by decide⟩) (Nat.min_le_left _ _)
            (Nat.min_le_right _ _)
          have hshort : ((record :: rest).drop k).length ≤ turns := by
            rw [List.length_drop, List.length_cons]
            rw [List.length_cons] at hturns
            omega
          obtain ⟨log, hlog, hrecords⟩ :=
            ih (h.sublist fun r hr => List.mem_of_mem_drop hr) hshort
          have hvalid : AllValid ((record :: rest).take k) :=
            h.sublist fun r hr => List.mem_of_mem_take hr
          refine ⟨Batch.ofValid hvalid hbytes :: log, ?_, ?_⟩
          · simp only [splitBatches, hk, hlog, List.map_cons, Batch.ofValid]
          · rw [logRecords_cons, hrecords]
            exact List.take_append_drop k _

theorem writeBatches_ok {file : Bytes} {batches : List Bytes}
    (h : file.length + batches.flatten.length ≤ maxFileBytes) :
    writeBatches file batches = .ok (file ++ batches.flatten) := by
  induction batches generalizing file with
  | nil => simp [writeBatches]
  | cons batch batches ih =>
      rw [List.flatten_cons, List.length_append] at h
      rw [writeBatches, if_neg (by omega), ih (by rw [List.length_append]; omega),
        List.flatten_cons, List.append_assoc]

theorem writeBatches_error {file : Bytes} {batches : List Bytes}
    (hfile : file.length ≤ maxFileBytes)
    (h : ¬ file.length + batches.flatten.length ≤ maxFileBytes) :
    ∃ e, writeBatches file batches = .error e := by
  induction batches generalizing file with
  | nil => exact absurd hfile h
  | cons batch batches ih =>
      rw [List.flatten_cons, List.length_append] at h
      rw [writeBatches]
      split
      · exact ⟨_, rfl⟩
      · next hroom =>
          apply ih
          · rw [List.length_append]
            omega
          · rw [List.length_append]
            omega

end FileEventStore

/-! ## Whole files -/

theorem wholeBefore_length (log : List Batch) : wholeBefore (logBytes log).length log = log := by
  induction log with
  | nil => rfl
  | cons batch log ih =>
      rw [logBytes_cons, List.length_append, wholeBefore, if_pos (Nat.le_add_right _ _),
        Nat.add_sub_cancel_left, ih]

theorem flatten_bytes (log : List Batch) : (log.map Batch.bytes).flatten = logBytes log := rfl

/-- The scan of a file that is not cut. -/
theorem scanBatches_whole {metadata : EventStoreMetadata} {header : Bytes}
    (hheader : encodeHeader metadata = .ok header) (log : List Batch) {n : Nat} (hn : 0 < n)
    (hnum : NumberedFrom n (logRecords log)) :
    decodeHeader (header ++ logBytes log) = .ok ⟨metadata, header.length⟩ ∧
      ((logRecords log).length ≤ maxRecordsRead →
        scanBatches (header ++ logBytes log) header.length =
          .ok ⟨logRecords log, (header ++ logBytes log).length, 0⟩) ∧
      (¬ (logRecords log).length ≤ maxRecordsRead →
        ∃ e, scanBatches (header ++ logBytes log) header.length = .error e) := by
  have hcut := @scanBatches_cut metadata header hheader log n (header ++ logBytes log).length hn
    hnum (by rw [List.length_append]; omega) le_rfl
  have hwhole : wholeBefore ((header ++ logBytes log).length - header.length) log = log := by
    rw [List.length_append, Nat.add_sub_cancel_left, wholeBefore_length]
  have hend : hasBatchMagicAfter (header ++ logBytes log)
      ((header ++ logBytes log).length + 1) = false := by
    rw [hasBatchMagicAfter, List.drop_of_length_le (Nat.le_succ _)]
    rfl
  simp only [List.take_length, hwhole, ← List.length_append, Nat.sub_self] at hcut
  simp only [hend, and_true] at hcut
  exact ⟨hcut.1, hcut.2.2.1, hcut.2.2.2⟩

namespace FileEventStore

theorem length_header_le {metadata : EventStoreMetadata} (h : validateMetadata metadata = .ok ()) :
    (headerBody metadata ++ toLE 4 (crc32c (headerBody metadata)).toNat).length ≤
      maxFileBytes := by
  obtain ⟨-, -, hlen, -⟩ := of_validateMetadata h
  rw [List.length_append, length_headerBody, length_toLE]
  unfold maxEngineVersionBytes at hlen
  unfold maxFileBytes
  omega

/-- A replacement is built exactly when the scanner may read as many records back. -/
theorem buildReplacement_eq {metadata : EventStoreMetadata} {records : List EventRecord}
    {n : Nat} (hm : validateMetadata metadata = .ok ()) (hvalid : AllValid records)
    (hn : 0 < n) (hnum : NumberedFrom n records)
    (hfits : ∀ header batches, records.length ≤ maxRecordsRead →
      encodeHeader metadata = .ok header → splitBatches records.length records = .ok batches →
      header.length + batches.flatten.length ≤ maxFileBytes) :
    ∃ header log, encodeHeader metadata = .ok header ∧ logRecords log = records ∧
      (records.length ≤ maxRecordsRead → (header ++ logBytes log).length ≤ maxFileBytes ∧
        buildReplacement metadata records = .ok (header ++ logBytes log)) ∧
      (¬ records.length ≤ maxRecordsRead →
        ∃ e, buildReplacement metadata records = .error e) := by
  have hheader := encodeHeader_eq hm
  obtain ⟨log, hsplit, hrecords⟩ := splitBatches_ok hvalid le_rfl
  obtain ⟨hdecode, hscan, herr⟩ := scanBatches_whole hheader log hn (by rwa [hrecords])
  rw [hrecords] at hscan herr
  refine ⟨_, log, hheader, hrecords, fun hroom => ?_, fun hroom => ?_⟩
  · have hsize := hfits _ _ hroom hheader hsplit
    have hwrite := writeBatches_ok hsize
    rw [flatten_bytes] at hwrite hsize
    refine ⟨by rwa [List.length_append], ?_⟩
    simp only [buildReplacement, hheader, hsplit, hwrite, hdecode, hscan hroom, ne_eq,
      not_true_eq_false, or_self, if_false]
  · -- it is refused by the scanner, or before that for its size
    by_cases hsize : (headerBody metadata ++
        toLE 4 (crc32c (headerBody metadata)).toNat).length +
          (log.map Batch.bytes).flatten.length ≤ maxFileBytes
    · have hwrite := writeBatches_ok hsize
      rw [flatten_bytes] at hwrite
      obtain ⟨e, he⟩ := herr hroom
      exact ⟨e, by simp only [buildReplacement, hheader, hsplit, hwrite, hdecode, he]⟩
    · obtain ⟨e, he⟩ := writeBatches_error (length_header_le hm) hsize
      exact ⟨e, by simp only [buildReplacement, hheader, hsplit, he]⟩

/-! ## The file a store has -/

/-- The records in memory are those in the file. -/
structure Image (requested : EventStoreMetadata) (store : FileEventStore) : Prop where
  valid : validateMetadata store.metadata = .ok ()
  session : store.metadata.session = requested.session
  engineVersion : store.metadata.engineVersion = requested.engineVersion
  feedbackTiming : store.metadata.feedbackTiming = requested.feedbackTiming
  healthy : store.faulted = false
  size : store.file.length ≤ maxFileBytes
  room : store.records.length ≤ maxRecordsRead
  counted : ∃ n, Counted n store.records store.nextSequence
  batches : ∃ header log, encodeHeader store.metadata = .ok header ∧
    store.file = header ++ logBytes log ∧ logRecords log = store.records

/-- Reopening a file yields the store that wrote it. -/
theorem construct_image {requested : EventStoreMetadata} {store : FileEventStore}
    (h : Image requested store) (writableRecovery : Bool) :
    construct requested writableRecovery store.file = .ok store := by
  obtain ⟨n, hcounted⟩ := h.counted
  obtain ⟨header, log, hheader, hfile, hrecords⟩ := h.batches
  have hnum := hcounted.numbered
  rw [← hrecords] at hnum
  obtain ⟨hdecode, hscan, -⟩ := scanBatches_whole hheader log hcounted.pos hnum
  rw [hrecords, ← hfile] at hscan
  rw [← hfile] at hdecode
  have hne : store.file.isEmpty = false := by
    rw [encodeHeader_eq h.valid] at hheader
    cases hheader
    rw [hfile]
    rfl
  have hread : readFile store.file = .ok store.file := if_neg (Nat.not_lt.mpr h.size)
  unfold construct
  simp only [hne, Bool.false_eq_true, if_false, loadExisting, hread, hdecode, h.session,
    h.engineVersion, h.feedbackTiming, ne_eq, not_true_eq_false, or_self, hscan h.room,
    if_true, hcounted.sequenceAfter]
  have hhealthy := h.healthy
  cases store
  simp only at hhealthy
  subst hhealthy
  rfl

end FileEventStore

/-! ## Retention records -/

theorem retentionPayload_eq (first last checkpoint : RecordId) :
    retentionPayload first last checkpoint = .object
      [(utf8 "checkpoint", .unsignedInteger checkpoint),
        (utf8 "first_pruned", .unsignedInteger first),
        (utf8 "last_pruned", .unsignedInteger last)] := rfl

theorem ordered_retentionPayload (first last checkpoint : RecordId) :
    (retentionPayload first last checkpoint).ordered = true := by
  have hsorted := sorted_eventObject [("checkpoint", .unsignedInteger checkpoint),
    ("first_pruned", .unsignedInteger first), ("last_pruned", .unsignedInteger last)]
  simp only [retentionPayload, Value.ordered, hsorted, decide_true, Bool.true_and]
  rfl

theorem validateEvent_retention (first last checkpoint : RecordId) :
    validateEvent { type := .retention, payload := retentionPayload first last checkpoint } =
      .ok () := by
  have hfits : (retentionPayload first last checkpoint).fits 0 = true := by
    rw [retentionPayload_eq]
    rfl
  have hvalid : (retentionPayload first last checkpoint).valid = true := by
    refine (Value.valid_iff _).mpr ⟨hfits, ?_⟩
    simp only [retentionPayload_eq, Value.nodes, Value.nodesFields]
    decide
  have henc : encodeValue (retentionPayload first last checkpoint) =
      .ok (Wire.ofValue (retentionPayload first last checkpoint)).spelling := by
    rw [encodeValue_of_valid hvalid, (Wire.encode_ofValue _ 0 hfits).2]
  have hlen : (Wire.ofValue (retentionPayload first last checkpoint)).spelling.length ≤
      maxRecordPayloadBytes := by
    rw [retentionPayload_eq]
    simp only [Wire.ofValue, Wire.ofFields, Wire.spelling, Wire.spellFields, Wire.counted,
      tagByte, appendU64, List.length_append, length_toLE, List.length_nil]
    decide
  unfold validateEvent
  simp only [ne_eq, not_true_eq_false, if_false, validateCheckpointEvent, reduceCtorEq, henc,
    if_neg (Nat.not_lt.mpr hlen)]

/-! ## Calls to both stores -/

/-- The stores show the same records and numbers, and the file holds what the file store shows. -/
structure Agree (requested : EventStoreMetadata) (s : Stores) : Prop where
  metadata : s.memory.metadata = s.file.metadata
  records : s.memory.records = s.file.records
  nextSequence : s.memory.nextSequence = s.file.nextSequence
  capacity : s.memory.maximumRecords = maxRecordsRead
  image : s.file.Image requested

theorem validateEvents_eq_ok {events : List EventData} (h : validateEvents events = .ok ()) :
    ∀ event ∈ events, validateEvent event = .ok () := by
  induction events with
  | nil => exact nofun
  | cons event events ih =>
      simp only [validateEvents] at h
      split at h
      · cases h
      · next hfirst =>
          intro e he
          rcases List.mem_cons.mp he with rfl | he
          · exact hfirst
          · exact ih h e he

theorem mem_numbered {first : RecordId} {events : List EventData} {record : EventRecord}
    (h : record ∈ EventStore.numbered first events) : record.data ∈ events := by
  induction events generalizing first with
  | nil => cases h
  | cons event events ih =>
      rcases List.mem_cons.mp h with rfl | h
      · exact List.mem_cons_self
      · exact List.mem_cons_of_mem _ (ih h)

theorem allValid_numbered {first : RecordId} {events : List EventData}
    (hvalid : validateEvents events = .ok ())
    (ho : ∀ event ∈ events, event.payload.ordered = true) :
    AllValid (EventStore.numbered first events) := fun _ hr =>
  ⟨validateEvents_eq_ok hvalid _ (mem_numbered hr), ho _ (mem_numbered hr)⟩

/-- An append is refused by both stores, or taken by both. -/
theorem Agree.append {requested : EventStoreMetadata} {s : Stores} (h : Agree requested s)
    {events : List EventData} (ho : ∀ event ∈ events, event.payload.ordered = true)
    (hfits : ∀ payload, s.file.Encodes events →
      encodeRecords (EventStore.numbered s.file.nextSequence events) = .ok payload →
        36 + payload.length ≤ maxBatchBytes ∧
          s.file.file.length + (36 + payload.length) ≤ maxFileBytes) :
    (∃ e e', s.memory.appendBatch events = .error e ∧
        s.file.appendMany events = (.error e', s.file)) ∨
      ∃ sequences memory file, s.memory.appendBatch events = .ok (sequences, memory) ∧
        s.file.appendMany events = (.ok sequences, file) ∧ Agree requested ⟨memory, file⟩ := by
  have hhealthy : ¬ s.file.faulted = true := by simp [h.image.healthy]
  unfold MemoryEventStore.appendBatch FileEventStore.appendMany
  rw [if_neg hhealthy, h.capacity, h.records, h.nextSequence]
  by_cases hempty : events.isEmpty = true
  · rw [if_pos hempty, if_pos hempty]
    exact .inr ⟨[], s.memory, s.file, rfl, rfl, h⟩
  rw [if_neg hempty, if_neg hempty]
  by_cases hbatch : events.length > maxRecordsPerBatch
  · rw [if_pos (.inl hbatch), if_pos hbatch]
    exact .inl ⟨_, _, rfl, rfl⟩
  by_cases hroom : events.length > maxRecordsRead - s.file.records.length
  · rw [if_pos (.inr hroom), if_neg hbatch, if_pos hroom]
    exact .inl ⟨_, _, rfl, rfl⟩
  rw [if_neg (not_or.mpr ⟨hbatch, hroom⟩), if_neg hbatch, if_neg hroom]
  by_cases hsequence : sequenceRoom s.file.nextSequence events.length = false
  · rw [if_pos hsequence, if_pos hsequence]
    exact .inl ⟨_, _, rfl, rfl⟩
  rw [if_neg hsequence, if_neg hsequence]
  cases hvalid : validateEvents events with
  | error e => exact .inl ⟨_, _, rfl, rfl⟩
  | ok u =>
      have hall := @allValid_numbered s.file.nextSequence events hvalid ho
      have hne : events ≠ [] := fun h0 => hempty (by rw [h0]; rfl)
      have hnumbered : EventStore.numbered s.file.nextSequence events ≠ [] := by
        intro h0
        have := congrArg List.length h0
        rw [EventStore.length_numbered] at this
        exact hne (List.eq_nil_of_length_eq_zero this)
      obtain ⟨payload, hpayload⟩ := encodeRecords_ok hall
      obtain ⟨hbatchFits, hfileFits⟩ := hfits payload
        ⟨hne, Nat.le_of_not_gt hbatch, Nat.le_of_not_gt hroom, Bool.not_eq_false _ ▸ hsequence,
          hvalid⟩ hpayload
      obtain ⟨encoded, hencoded, hlen⟩ := (encodeBatch_valid hnumbered
        (by rw [EventStore.length_numbered]; omega) hpayload).1 hbatchFits
      have hwrite : ¬ encoded.length > maxFileBytes - s.file.file.length := by
        rw [hlen]
        omega
      simp only [hencoded, if_neg hwrite]
      refine .inr ⟨_, _, _, rfl, rfl, ?_⟩
      obtain ⟨n, hcounted⟩ := h.image.counted
      obtain ⟨header, log, hheader, hfile, hrecords⟩ := h.image.batches
      have hspace : n + s.file.records.length + events.length ≤ 2 ^ 64 := by
        rw [Bool.not_eq_false, hcounted.next, sequenceRoom_iff (by have := hcounted.pos; omega)
          hcounted.within (List.length_pos_iff.mpr hne)] at hsequence
        exact hsequence
      have hver : ∀ event ∈ events, event.version = 1 := fun event he =>
        (of_validateEvent (validateEvents_eq_ok hvalid event he)).1
      have hheld := h.image.room
      refine ⟨h.metadata, ?_, ?_, ?_, ?_⟩
      · rfl
      · rfl
      · rfl
      · refine ⟨h.image.valid, h.image.session, h.image.engineVersion, h.image.feedbackTiming,
          h.image.healthy, ?_, ?_, ⟨n, hcounted.append hver hspace⟩, header,
          log ++ [Batch.ofValid hall hencoded], hheader, ?_, ?_⟩
        · simp only [List.length_append, hlen]
          exact hfileFits
        · simp only [List.length_append, EventStore.length_numbered]
          omega
        · simp only [hfile, logBytes, List.flatMap_append, List.flatMap_singleton, Batch.ofValid,
            List.append_assoc]
        · rw [← hrecords]
          simp only [logRecords, List.flatMap_append, List.flatMap_singleton, Batch.ofValid]

/-! ### Retention -/

theorem splitAtSequence_eq {sequence : RecordId} {records before after : List EventRecord}
    {found : EventRecord} (h : splitAtSequence sequence records = some (before, found, after)) :
    records = before ++ found :: after := by
  induction records generalizing before with
  | nil => cases h
  | cons record records ih =>
      simp only [splitAtSequence] at h
      split at h
      · cases h
        rfl
      · split at h
        · cases h
        · next before' found' after' hrest =>
            cases h
            rw [ih hrest]
            rfl

theorem retainedCheckpoint_eq {metadata : EventStoreMetadata} {records : List EventRecord}
    {sequence : RecordId} {before after : List EventRecord} {checkpoint : EventRecord}
    (h : retainedCheckpoint metadata records sequence = .ok (before, checkpoint, after)) :
    records = before ++ checkpoint :: after := by
  unfold retainedCheckpoint at h
  split at h
  · cases h
  · next before' checkpoint' after' hsplit =>
      split at h
      · cases h
      · split at h
        · cases h
        · split at h
          · cases h
          · cases h
            exact splitAtSequence_eq hsplit

theorem validateEvent_retentionOf (before : List EventRecord) (sequence : RecordId) :
    validateEvent { type := .retention, payload := retentionOf before sequence } = .ok () ∧
      (retentionOf before sequence).ordered = true := by
  unfold retentionOf
  split
  · exact ⟨validateEvent_retention _ _ _, ordered_retentionPayload _ _ _⟩
  · exact ⟨validateEvent_retention _ _ _, ordered_retentionPayload _ _ _⟩

/-- What is kept is numbered on from the checkpoint. -/
theorem Counted.retained {n : Nat} {before after : List EventRecord} {checkpoint : EventRecord}
    {sequence next : RecordId} (h : Counted n (before ++ checkpoint :: after) next)
    (hnext : next ≠ 0) :
    Counted (n + before.length) (retainedRecords before checkpoint after sequence next)
      (next + 1) := by
  have hpos := h.pos
  have hwithin := h.within
  have hlen : (retainedRecords before checkpoint after sequence next).length =
      after.length + 2 := by
    simp only [retainedRecords, List.length_append, List.length_cons, List.length_nil]
  rw [List.length_append, List.length_cons] at hwithin
  have hnextEq := h.next
  rw [List.length_append, List.length_cons] at hnextEq
  have hroom : n + (before.length + (after.length + 1)) ≠ 2 ^ 64 := by
    intro hfull
    exact hnext (by rw [hnextEq, hfull]; rfl)
  obtain ⟨-, hkept⟩ := NumberedFrom.append.mp h.numbered
  refine ⟨by omega, fun h0 => ?_, ?_, by rw [hlen]; omega, ?_⟩
  · rw [h0] at hlen
    cases hlen
  · refine NumberedFrom.append.mpr ⟨hkept, ?_, rfl, trivial⟩
    simp only [hnextEq, UInt64.toNat_ofNat', List.length_cons]
    rw [Nat.mod_eq_of_lt (by omega)]
    omega
  · have hone : (1 : UInt64) = UInt64.ofNat 1 := rfl
    rw [hlen, hnextEq, hone, ← UInt64.ofNat_add]
    congr 1
    omega

theorem validateMetadata_nextGeneration {metadata : EventStoreMetadata}
    (h : validateMetadata metadata = .ok ()) (hmax : metadata.fileGeneration ≠ maxU64) :
    validateMetadata (nextGeneration metadata) = .ok () := by
  obtain ⟨hversion, hne, hlen, -, hsession, hengine⟩ := of_validateMetadata h
  have hgen : metadata.fileGeneration + 1 ≠ 0 := by
    unfold maxU64 at hmax
    grind
  have hempty : ¬ (metadata.engineVersion.isEmpty = true ∨
      metadata.engineVersion.length > maxEngineVersionBytes) := by
    rintro (h0 | h0)
    · exact hne (List.isEmpty_iff.mp h0)
    · exact absurd hlen (Nat.not_le.mpr h0)
  unfold validateMetadata nextGeneration
  simp only [hversion, ne_eq, not_true_eq_false, if_false, hempty, hgen, hsession, hengine]

/-- Retention is refused by both stores, or done by both. -/
theorem Agree.retain {requested : EventStoreMetadata} {s : Stores} (h : Agree requested s)
    {sequence : RecordId}
    (hfits : ∀ before checkpoint after header batches,
      retainedCheckpoint s.file.metadata s.file.records sequence =
        .ok (before, checkpoint, after) →
      s.file.metadata.fileGeneration ≠ maxU64 → s.file.nextSequence ≠ 0 →
      (retainedRecords before checkpoint after sequence s.file.nextSequence).length ≤
        maxRecordsRead →
      encodeHeader (nextGeneration s.file.metadata) = .ok header →
      FileEventStore.splitBatches
          (retainedRecords before checkpoint after sequence s.file.nextSequence).length
          (retainedRecords before checkpoint after sequence s.file.nextSequence) = .ok batches →
      header.length + batches.flatten.length ≤ maxFileBytes) :
    (∃ e e', s.memory.retainFromCheckpoint sequence = .error e ∧
        s.file.retainFromCheckpoint sequence = .error e') ∨
      ∃ memory file, s.memory.retainFromCheckpoint sequence = .ok memory ∧
        s.file.retainFromCheckpoint sequence = .ok file ∧ Agree requested ⟨memory, file⟩ := by
  have hhealthy : ¬ s.file.faulted = true := by simp [h.image.healthy]
  unfold MemoryEventStore.retainFromCheckpoint FileEventStore.retainFromCheckpoint
  rw [if_neg hhealthy, h.metadata, h.records, h.nextSequence, h.capacity]
  cases hfound : retainedCheckpoint s.file.metadata s.file.records sequence with
  | error e => exact .inl ⟨_, _, rfl, rfl⟩
  | ok found =>
      obtain ⟨before, checkpoint, after⟩ := found
      have hrecords := retainedCheckpoint_eq hfound
      obtain ⟨n, hcounted⟩ := h.image.counted
      rw [hrecords] at hcounted
      simp only
      by_cases hgeneration : s.file.metadata.fileGeneration = maxU64
      · -- the memory store may report its capacity first
        refine .inl ?_
        rw [if_pos hgeneration, if_pos hgeneration]
        split
        · exact ⟨_, _, rfl, rfl⟩
        · exact ⟨_, _, rfl, rfl⟩
      by_cases hnext : s.file.nextSequence = 0
      · refine .inl ?_
        rw [if_neg hgeneration, if_neg hgeneration, if_pos hnext, if_pos hnext]
        split
        · exact ⟨_, _, rfl, rfl⟩
        · exact ⟨_, _, rfl, rfl⟩
      rw [if_neg hgeneration, if_neg hgeneration, if_neg hnext, if_neg hnext]
      obtain ⟨hretention, hordered⟩ := validateEvent_retentionOf before sequence
      rw [hretention]
      have hmeta := validateMetadata_nextGeneration h.image.valid hgeneration
      have hkept := @Counted.retained n before after checkpoint sequence _ hcounted hnext
      have hvalid : AllValid (retainedRecords before checkpoint after sequence
          s.file.nextSequence) := by
        obtain ⟨header, log, -, -, hlog⟩ := h.image.batches
        have hall := Batch.allValid log
        rw [hlog, hrecords] at hall
        intro record hr
        rcases List.mem_append.mp hr with hr | hr
        · exact hall record (List.mem_append_right _ hr)
        · rw [List.mem_singleton.mp hr]
          exact ⟨hretention, hordered⟩
      obtain ⟨header, log, hheader, hlog, hok, herr⟩ :=
        FileEventStore.buildReplacement_eq hmeta hvalid hkept.pos hkept.numbered
          fun header batches => hfits before checkpoint after header batches hfound hgeneration
            hnext
      have hlen : (retainedRecords before checkpoint after sequence
          s.file.nextSequence).length = (checkpoint :: after).length + 1 := by
        simp only [retainedRecords, List.length_append, List.length_cons, List.length_nil]
      by_cases hroom : (checkpoint :: after).length ≥ maxRecordsRead
      · obtain ⟨e, he⟩ := herr (by rw [hlen]; omega)
        rw [if_pos hroom, he]
        exact .inl ⟨_, _, rfl, rfl⟩
      · obtain ⟨hsize, hok⟩ := hok (by rw [hlen]; omega)
        rw [if_neg hroom, hok]
        refine .inr ⟨_, _, rfl, rfl, rfl, rfl, ?_, rfl, hmeta, h.image.session,
          h.image.engineVersion, h.image.feedbackTiming, h.image.healthy, hsize, ?_, ?_, header,
          log, hheader, rfl, hlog⟩
        · exact hkept.sequenceAfter.symm
        · show (retainedRecords before checkpoint after sequence s.file.nextSequence).length ≤ _
          rw [hlen]
          omega
        · refine ⟨n + before.length, ?_⟩
          show Counted (n + before.length)
            (retainedRecords before checkpoint after sequence s.file.nextSequence)
            (FileEventStore.sequenceAfter
              (retainedRecords before checkpoint after sequence s.file.nextSequence))
          rw [hkept.sequenceAfter]
          exact hkept

/-! ## Runs -/

/-- Both answers of a call, and the stores it leaves. -/
def SameCall (requested : EventStoreMetadata)
    (memory : Except Failure (List RecordId) × MemoryEventStore)
    (file : Except Failure (List RecordId) × FileEventStore) : Prop :=
  memory.1.toOption = file.1.toOption ∧ Agree requested ⟨memory.2, file.2⟩

/-- One call: the answers are the same up to the text of an error, and the stores still agree. -/
theorem Agree.perform {requested : EventStoreMetadata} {s : Stores} (h : Agree requested s)
    (writableRecovery : Bool) {op : StoreOp} (hfits : s.Fits op) :
    SameCall requested (s.memory.perform op) (s.file.perform requested writableRecovery op) := by
  -- the three calls that append
  have happend : ∀ events, op.events s.file.metadata.session = .ok events →
      SameCall requested
        (match s.memory.appendBatch events with
          | .error e => (.error e, s.memory)
          | .ok (sequences, store) => (.ok sequences, store))
        (s.file.appendMany events) := by
    intro events hevents
    obtain ⟨e, e', hm, hf⟩ | ⟨sequences, memory, file, hm, hf, hagree⟩ :=
      h.append (hfits.payloads events hevents) fun payload => hfits.batch events payload hevents
    · rw [hm, hf]
      exact ⟨rfl, h⟩
    · rw [hm, hf]
      exact ⟨rfl, hagree⟩
  cases op with
  | append event durability => exact happend [event] rfl
  | appendBatch events durability => exact happend events rfl
  | checkpoint projection durability =>
      unfold MemoryEventStore.perform FileEventStore.perform
      simp only [h.metadata]
      cases hevents : (StoreOp.checkpoint projection durability).events
          s.file.metadata.session with
      | error e => exact ⟨rfl, h⟩
      | ok events => exact happend events hevents
  | retainFromCheckpoint sequence =>
      unfold MemoryEventStore.perform FileEventStore.perform
      obtain ⟨e, e', hm, hf⟩ | ⟨memory, file, hm, hf, hagree⟩ :=
        h.retain (hfits.replacement sequence rfl)
      · simp only [hm, hf]
        exact ⟨rfl, h⟩
      · simp only [hm, hf]
        exact ⟨rfl, hagree⟩
  | reopen =>
      unfold MemoryEventStore.perform FileEventStore.perform
      simp only [FileEventStore.construct_image h.image]
      exact ⟨rfl, h⟩

/-- The stores a run starts with. -/
theorem agree_construct {metadata : EventStoreMetadata} (hm : validateMetadata metadata = .ok ())
    (writableRecovery : Bool) :
    ∃ memory file, MemoryEventStore.construct metadata maxRecordsRead = .ok memory ∧
      FileEventStore.construct metadata writableRecovery [] = .ok file ∧
      Agree metadata ⟨memory, file⟩ := by
  have hcapacity : ¬ (maxRecordsRead = 0 ∨ maxRecordsRead > maxRecordsRead) := by decide
  have hheader := encodeHeader_eq hm
  have hsize := FileEventStore.length_header_le hm
  have hmemory : MemoryEventStore.construct metadata maxRecordsRead =
      .ok { metadata, maximumRecords := maxRecordsRead } := by
    simp only [MemoryEventStore.construct, hm, if_neg hcapacity]
  have hfile : FileEventStore.construct metadata writableRecovery [] =
      .ok { metadata, file := headerBody metadata ++
        toLE 4 (crc32c (headerBody metadata)).toNat } := by
    simp only [FileEventStore.construct, List.isEmpty_nil, if_true, hheader]
  refine ⟨_, _, hmemory, hfile, rfl, rfl, rfl, rfl, hm, rfl, rfl, rfl, rfl, hsize,
    Nat.zero_le _, ⟨1, ?_⟩, _, [], hheader, ?_, rfl⟩
  · exact ⟨Nat.one_pos, fun _ => rfl, trivial, Nat.one_le_two_pow, rfl⟩
  · simp [logBytes]

/-- The two stores agree. In every state that the same calls lead both stores to, with the file
    store closed and reopened at any point, they show the same records, generation and next
    number, and the next call is taken or refused by both and returns the same numbers. -/
theorem stores_agree (metadata : EventStoreMetadata) (hm : validateMetadata metadata = .ok ())
    (writableRecovery : Bool) :
    ∃ memory file, MemoryEventStore.construct metadata maxRecordsRead = .ok memory ∧
      FileEventStore.construct metadata writableRecovery [] = .ok file ∧
      ∀ s, Prog.Reaches (fun op s => Stores.step metadata writableRecovery op s)
          (fun op s => Stores.Fits op s) ⟨memory, file⟩ s →
        s.memory.records = s.file.records ∧
          s.memory.metadata.fileGeneration = s.file.metadata.fileGeneration ∧
          s.memory.nextSequence = s.file.nextSequence ∧
          ∀ op, s.Fits op →
            (s.memory.perform op).1.toOption =
              (s.file.perform metadata writableRecovery op).1.toOption := by
  obtain ⟨memory, file, hmemory, hfile, hagree⟩ := agree_construct hm writableRecovery
  refine ⟨memory, file, hmemory, hfile, fun s hs => ?_⟩
  have hinv : Agree metadata s := hs.induct hagree fun op s h hfits =>
    (h.perform writableRecovery hfits).2
  exact ⟨hinv.records, by rw [hinv.metadata], hinv.nextSequence, fun op hfits =>
    (hinv.perform writableRecovery hfits).1⟩

/-- Two new stores. -/
def tornStores : Stores :=
  ⟨{ metadata := tornMetadata, maximumRecords := maxRecordsRead },
    { metadata := tornMetadata, file := ((encodeHeader tornMetadata).toOption).getD [] }⟩

/-- An append, a retention that is refused, and the file opened again. -/
def tornCalls : List StoreOp :=
  [.append tornRecord.data .durable, .retainFromCheckpoint 7, .reopen]

/-- The stores after so many of the calls. -/
def tornStoresAfter (count : Nat) : Stores :=
  (tornCalls.take count).foldl (fun s op => s.step tornMetadata false op) tornStores

theorem Stores.fits_reopen (s : Stores) : s.Fits .reopen := by
  refine ⟨fun events hevents event hevent => ?_, fun events payload hevents hencodes => ?_, nofun⟩
  · obtain rfl := Except.ok.inj hevents
    cases hevent
  · obtain rfl := Except.ok.inj hevents
    exact absurd rfl hencodes.1

theorem Stores.fits_retain {s : Stores} {sequence : RecordId}
    (h : (retainedCheckpoint s.file.metadata s.file.records sequence).toOption = none) :
    s.Fits (.retainFromCheckpoint sequence) := by
  refine ⟨fun events hevents event hevent => ?_, fun events payload hevents hencodes => ?_,
    fun sequence' hsequence before checkpoint after header batches hfound => ?_⟩
  · obtain rfl := Except.ok.inj hevents
    cases hevent
  · obtain rfl := Except.ok.inj hevents
    exact absurd rfl hencodes.1
  · obtain rfl := StoreOp.retainFromCheckpoint.inj hsequence
    rw [hfound] at h
    cases h

/-- `tornRecord` appended to a file that has room for it. -/
theorem Stores.fits_torn {s : Stores} (hsize : s.file.file.length ≤ 1000)
    (hlength : ((encodeRecords (EventStore.numbered s.file.nextSequence
      [tornRecord.data])).toOption).map List.length = some 49) :
    s.Fits (.append tornRecord.data .durable) := by
  refine ⟨fun events hevents event he => ?_, fun events payload hevents _ hpayload => ?_, nofun⟩
  · obtain rfl := Except.ok.inj hevents
    rw [List.mem_singleton.mp he]
    rfl
  · obtain rfl := Except.ok.inj hevents
    rw [hpayload] at hlength
    have hlen : payload.length = 49 := Option.some.inj hlength
    rw [hlen]
    unfold maxBatchBytes maxFileBytes
    omega

/-- Behind an append, a call that is refused and the closing and opening of the file the stores
    have the same record, and the next append is answered alike. -/
theorem stores_agree_torn :
    validateMetadata tornMetadata = .ok () ∧
      ((tornStoresAfter 1).memory.perform (.retainFromCheckpoint 7)).1.toOption = none ∧
      (tornStoresAfter 3).memory.records = (tornStoresAfter 3).file.records ∧
      (tornStoresAfter 3).file.records.length = 1 ∧
      ((tornStoresAfter 3).memory.perform (.append tornRecord.data .durable)).1.toOption =
        ((tornStoresAfter 3).file.perform tornMetadata false
          (.append tornRecord.data .durable)).1.toOption := by
  have hm : validateMetadata tornMetadata = .ok () := by decide +kernel
  obtain ⟨memory, file, hmemory, hfile, hall⟩ := stores_agree tornMetadata hm false
  have hmemoryEq : MemoryEventStore.construct tornMetadata maxRecordsRead =
      .ok tornStores.memory := by
    simp only [MemoryEventStore.construct, hm]
    rfl
  have hfileEq : FileEventStore.construct tornMetadata false [] = .ok tornStores.file := by
    simp only [FileEventStore.construct, List.isEmpty_nil, if_true, encodeHeader_eq hm]
    rfl
  obtain rfl := Except.ok.inj (hmemory.symm.trans hmemoryEq)
  obtain rfl := Except.ok.inj (hfile.symm.trans hfileEq)
  have hreached : Prog.Reaches (fun op s => Stores.step tornMetadata false op s)
      (fun op s => Stores.Fits op s) tornStores (tornStoresAfter 3) := by
    have happend : (tornStoresAfter 0).Fits (.append tornRecord.data .durable) :=
      Stores.fits_torn (by decide +kernel) (by decide +kernel)
    have hretain : (tornStoresAfter 1).Fits (.retainFromCheckpoint 7) :=
      Stores.fits_retain (by decide +kernel)
    have hreopen : (tornStoresAfter 2).Fits .reopen := Stores.fits_reopen _
    exact ((Prog.Reaches.start.next _ happend).next _ hretain).next _ hreopen
  obtain ⟨hrecords, -, -, hanswer⟩ := hall _ hreached
  exact ⟨hm, by decide +kernel, hrecords, by decide +kernel,
    hanswer _ (Stores.fits_torn (by decide +kernel) (by decide +kernel))⟩

end LiquidLayer
