/-
  The scan of an event file that was cut anywhere (a torn write).

  * `readBatch_encoded`: a whole batch is taken, record for record.
  * `readBatch_torn`: a batch that is cut short is a recoverable tail.
  * `scanLoop_cut`: by induction over the batches, what the scan makes of a log that is cut at
    any position.
  * `scanBatches_cut_iff`: the scan recovers exactly the whole batches, unless the torn batch
    holds bytes that look like a batch of their own, or the log has too many records.
-/
import LiquidLayer.Events.FileFormat

namespace LiquidLayer

open EventLimits

/-- A batch of valid records with its bytes. -/
structure Batch where
  records : List EventRecord
  bytes : Bytes
  encoded : encodeBatch records = .ok bytes
  valid : ∀ record ∈ records, validateEvent record.data = .ok ()
  /-- The objects of every payload are `std::map`s. -/
  ordered : ∀ record ∈ records, record.payload.ordered = true

def logBytes (log : List Batch) : Bytes := log.flatMap Batch.bytes

def logRecords (log : List Batch) : List EventRecord := log.flatMap Batch.records

/-- The batches that lie wholly before the cut. -/
def wholeBefore : Nat → List Batch → List Batch
  | _, [] => []
  | cut, batch :: rest =>
      if batch.bytes.length ≤ cut then batch :: wholeBefore (cut - batch.bytes.length) rest
      else []

/-! ## Records -/

theorem of_validateEvent {event : EventData} (h : validateEvent event = .ok ()) :
    event.version = 1 ∧
      validateCheckpointEvent event.type event.payload = .ok () ∧
      ∃ encoded, encodeValue event.payload = .ok encoded ∧
        encoded.length ≤ maxRecordPayloadBytes := by
  unfold validateEvent at h
  split at h
  · cases h
  · next hver =>
      split at h
      · cases h
      · next hcheck =>
          split at h
          · cases h
          · next encoded henc =>
              split at h
              · cases h
              · next hlen =>
                  exact ⟨not_not.mp hver, hcheck, encoded, henc, Nat.le_of_not_gt hlen⟩

theorem readRecord_encoded {record : EventRecord} {bytes : Bytes}
    (hvalid : validateEvent record.data = .ok ()) (ho : record.payload.ordered = true)
    (h : encodeRecord record = .ok bytes) (rest : Bytes) :
    readRecord record.sequence (bytes ++ rest) = .ok (record, rest) := by
  obtain ⟨hver, hcheck, encoded, henc, hlen⟩ := of_validateEvent hvalid
  have henc : encodeValue record.payload = .ok encoded := henc
  have hver : record.version = 1 := hver
  have hdec : decodeEventPayload encoded = .ok record.payload := by
    simp only [decodeEventPayload, decodeValue_of_encodeValue ho henc]
  rw [encodeRecord, henc] at h
  simp only [if_neg (Nat.not_lt.mpr hlen)] at h
  obtain rfl := (Except.ok.inj h).symm
  have hcode : record.type.code < 256 ^ 2 := lt_of_le_of_lt record.type.code_le (by decide)
  have hsize : encoded.length < 256 ^ 4 := lt_of_le_of_lt hlen (by decide)
  simp only [EventRecord.data] at hcheck
  unfold readRecord
  simp only [List.append_assoc, takeLE_append hcode, hver, UInt16.reduceToNat,
    takeLE_append (show 1 < 256 ^ 2 by decide), takeLE_append hsize, ok_bind,
    EventType.ofCode_code, ne_eq, not_true_eq_false, if_false, if_neg (Nat.not_lt.mpr hlen),
    takeBytes_append rfl, hdec, hcheck]
  rw [show UInt16.ofNat 1 = record.version from hver.symm]

theorem readRecords_encoded {records : List EventRecord} {n : Nat} {bytes : Bytes}
    (hvalid : ∀ record ∈ records, validateEvent record.data = .ok ())
    (ho : ∀ record ∈ records, record.payload.ordered = true) (hnum : NumberedFrom n records)
    (h : encodeRecords records = .ok bytes) (rest : Bytes) :
    readRecords records.length (UInt64.ofNat n) (bytes ++ rest) = .ok (records, rest) := by
  induction records generalizing n bytes with
  | nil =>
      cases h
      rfl
  | cons record records ih =>
      simp only [encodeRecords] at h
      split at h
      · cases h
      · next first hfirst =>
          split at h
          · cases h
          · next tail htail =>
              cases h
              obtain ⟨hseq, -, hnum⟩ := hnum
              have hsequence : UInt64.ofNat n = record.sequence := by
                rw [← hseq, UInt64.ofNat_toNat]
              have hnext : record.sequence + 1 = UInt64.ofNat (n + 1) := by
                rw [← hsequence, UInt64.ofNat_add]
                rfl
              have hhead := readRecord_encoded (hvalid record List.mem_cons_self)
                (ho record List.mem_cons_self) hfirst (tail ++ rest)
              have hrest := ih (fun r hr => hvalid r (List.mem_cons_of_mem _ hr))
                (fun r hr => ho r (List.mem_cons_of_mem _ hr)) hnum htail
              simp only [List.length_cons, readRecords, List.append_assoc, hsequence, hhead,
                hnext, hrest]

/-! ## Batches -/

theorem NumberedFrom.append {n : Nat} {a b : List EventRecord} :
    NumberedFrom n (a ++ b) ↔ NumberedFrom n a ∧ NumberedFrom (n + a.length) b := by
  induction a generalizing n with
  | nil => simp [NumberedFrom]
  | cons r a ih =>
      simp only [List.cons_append, NumberedFrom, ih, List.length_cons, and_assoc]
      rw [show n + 1 + a.length = n + (a.length + 1) by omega]

theorem NumberedFrom.getLast {n : Nat} {records : List EventRecord} {last : EventRecord}
    (h : NumberedFrom n records) (hlast : records.getLast? = some last) :
    last.sequence.toNat = n + records.length - 1 := by
  obtain ⟨front, rfl⟩ := List.getLast?_eq_some_iff.mp hlast
  obtain ⟨-, hseq, -⟩ := NumberedFrom.append.mp h
  rw [hseq, List.length_append, List.length_singleton]
  omega

/-- What `encode_batch` writes: a prefix, the records, a checksum. -/
theorem encodeBatch_eq_ok {records : List EventRecord} {bytes : Bytes}
    (h : encodeBatch records = .ok bytes) :
    ∃ first last payload, records.head? = some first ∧ records.getLast? = some last ∧
      encodeRecords records = .ok payload ∧ records.length ≤ maxRecordsPerBatch ∧
      batchPrefixBytes + payload.length + batchTrailerBytes ≤ maxBatchBytes ∧
      bytes = batchBody payload.length records.length first.sequence.toNat
          last.sequence.toNat payload ++
        toLE 4 (crc32c (batchBody payload.length records.length first.sequence.toNat
          last.sequence.toNat payload)).toNat := by
  unfold encodeBatch at h
  split at h
  · next first last hfirst hlast =>
      split at h
      · cases h
      · next hcount =>
          split at h
          · cases h
          · next payload hpayload =>
              split at h
              · cases h
              · next hsize =>
                  refine ⟨first, last, payload, hfirst, hlast, hpayload,
                    Nat.le_of_not_gt hcount, Nat.le_of_not_gt fun hlt => hsize (.inl hlt), ?_⟩
                  exact (Except.ok.inj h).symm
  · cases h

theorem length_batchBody (a b c d : Nat) (payload : Bytes) :
    (batchBody a b c d payload).length = 32 + payload.length := by
  simp only [batchBody, List.length_append, length_toLE, batchMagic, List.length_cons,
    List.length_nil]
  omega

/-- The fields of a batch as `readBatchPrefix` meets them. -/
theorem readBatchPrefix_batchBody {a b c d : Nat} (ha : a < 256 ^ 4) (hb : b < 256 ^ 4)
    (hc : c < 256 ^ 8) (hd : d < 256 ^ 8) (payload rest : Bytes) :
    readBatchPrefix ((batchBody a b c d payload ++ rest).drop 4) =
      .ok (⟨batchFormatVersion, 0, a, b, c, d⟩, payload ++ rest) := by
  have hversion : batchFormatVersion < 256 ^ 2 := by decide
  have hflags : 0 < 256 ^ 2 := by decide
  unfold batchBody
  rw [List.append_assoc, List.drop_left' (show batchMagic.length = 4 from rfl)]
  unfold readBatchPrefix
  simp only [List.append_assoc, takeLE_append hversion, takeLE_append hflags, takeLE_append ha,
    takeLE_append hb, takeLE_append hc, takeLE_append hd, ok_bind]

theorem take_batchBody (a b c d : Nat) (payload rest : Bytes) :
    (batchBody a b c d payload ++ rest).take 4 = batchMagic := by
  unfold batchBody
  rw [List.append_assoc]
  exact List.take_left' rfl

theorem checksumMatches_append (body rest : Bytes) :
    checksumMatches (body ++ toLE 4 (crc32c body).toNat ++ rest) (body.length + 4) = true := by
  unfold checksumMatches
  rw [Nat.add_sub_cancel, List.append_assoc, List.drop_left' rfl, List.take_left' rfl,
    List.take_left' (length_toLE 4 _), ofLE_toLE (u32_lt _)]
  exact beq_self_eq_true _

/-- A whole batch is taken, unless the records read so far leave no room for it. -/
theorem readBatch_encoded (batch : Batch) {n taken : Nat} {expected : RecordId}
    (hn : 0 < n) (hnum : NumberedFrom n batch.records)
    (hexp : expected = 0 ∨ expected.toNat = n) (rest : Bytes) :
    ∃ last, batch.records.getLast? = some last ∧
      readBatch expected taken (batch.bytes ++ rest) =
        if batch.records.length > maxRecordsRead - taken then
          .error (.eventStoreError "event-store record count limit exceeded")
        else .ok (some ⟨batch.records, last.sequence, batch.bytes.length⟩) := by
  obtain ⟨first, last, payload, hfirst, hlast, hpayload, hcount, hsize, hbytes⟩ :=
    encodeBatch_eq_ok batch.encoded
  refine ⟨last, hlast, ?_⟩
  have hcount0 : 0 < batch.records.length := by
    cases hr : batch.records with
    | nil => rw [hr] at hfirst; cases hfirst
    | cons r rs => exact Nat.succ_pos _
  have hfirstSeq : first.sequence.toNat = n := by
    cases hr : batch.records with
    | nil => rw [hr] at hfirst; cases hfirst
    | cons r rs =>
        rw [hr] at hfirst hnum
        cases hfirst
        exact hnum.1
  have hlastSeq := hnum.getLast hlast
  have hlastLt := last.sequence.toNat_lt
  have hlen : batch.bytes.length = 32 + payload.length + 4 := by
    rw [hbytes, List.length_append, length_batchBody, length_toLE]
  unfold batchPrefixBytes batchTrailerBytes maxBatchBytes at hsize
  unfold maxRecordsPerBatch at hcount
  have hprefix := readBatchPrefix_batchBody (show payload.length < 256 ^ 4 by omega)
    (show batch.records.length < 256 ^ 4 by omega) (u64_lt first.sequence)
    (u64_lt last.sequence) payload (toLE 4 (crc32c (batchBody payload.length
      batch.records.length first.sequence.toNat last.sequence.toNat payload)).toNat ++ rest)
  have hmagic := take_batchBody payload.length batch.records.length first.sequence.toNat
    last.sequence.toNat payload (toLE 4 (crc32c (batchBody payload.length
      batch.records.length first.sequence.toNat last.sequence.toNat payload)).toNat ++ rest)
  have hchecksum := checksumMatches_append (batchBody payload.length
      batch.records.length first.sequence.toNat last.sequence.toNat payload) rest
  rw [← List.append_assoc, ← hbytes] at hprefix hmagic
  rw [← hbytes, length_batchBody] at hchecksum
  have hrecords := readRecords_encoded batch.valid batch.ordered hnum hpayload []
  rw [List.append_nil] at hrecords
  have hlong : ¬ (batch.bytes ++ rest).length < batchPrefixBytes + batchTrailerBytes := by
    rw [List.length_append, hlen]
    unfold batchPrefixBytes batchTrailerBytes
    omega
  have hfits : ¬ batchPrefixBytes + payload.length + batchTrailerBytes >
      (batch.bytes ++ rest).length := by
    rw [List.length_append, hlen]
    unfold batchPrefixBytes batchTrailerBytes
    omega
  have hcounts : ¬ (batch.records.length = 0 ∨ batch.records.length > maxRecordsPerBatch) := by
    unfold maxRecordsPerBatch
    omega
  have hpayloadSize : ¬ payload.length > maxBatchBytes - batchPrefixBytes - batchTrailerBytes := by
    unfold batchPrefixBytes batchTrailerBytes maxBatchBytes
    omega
  have hmax : maxU64.toNat = 2 ^ 64 - 1 := rfl
  have hrange : ¬ (first.sequence.toNat = 0 ∨
      batch.records.length - 1 > maxU64.toNat - first.sequence.toNat ∨
      last.sequence.toNat ≠ first.sequence.toNat + batch.records.length - 1) := by
    omega
  have hgap : ¬ (expected ≠ 0 ∧ first.sequence.toNat ≠ expected.toNat) := by
    rintro ⟨hne, hgap⟩
    rcases hexp with h | h
    · exact hne h
    · exact hgap (by omega)
  have hsequence : UInt64.ofNat first.sequence.toNat = UInt64.ofNat n := by rw [hfirstSeq]
  unfold readBatch
  rw [if_neg hlong, hmagic, if_neg (not_not.mpr rfl), hprefix]
  simp only [ne_eq, not_true_eq_false, or_self, if_false, hcounts, hpayloadSize, hfits]
  rw [show batchPrefixBytes + payload.length + batchTrailerBytes = 32 + payload.length + 4
    from rfl, hchecksum]
  simp only [Bool.true_eq_false, if_false, hrange, hgap, hsequence,
    List.take_left' rfl, hrecords, not_true_eq_false, hlen, UInt64.ofNat_toNat]

/-- A batch that is cut short is a recoverable tail. -/
theorem readBatch_torn (batch : Batch) {cut taken : Nat} {expected : RecordId}
    (hcut : cut < batch.bytes.length) :
    readBatch expected taken (batch.bytes.take cut) = .ok none := by
  obtain ⟨first, last, payload, hfirst, -, -, hcount, hsize, hbytes⟩ :=
    encodeBatch_eq_ok batch.encoded
  have hcount0 : 0 < batch.records.length := by
    cases hr : batch.records with
    | nil => rw [hr] at hfirst; cases hfirst
    | cons r rs => exact Nat.succ_pos _
  have hlen : batch.bytes.length = 32 + payload.length + 4 := by
    rw [hbytes, List.length_append, length_batchBody, length_toLE]
  have hcutLen : (batch.bytes.take cut).length = cut := by
    rw [List.length_take]
    omega
  unfold readBatch
  by_cases hshort : cut < batchPrefixBytes + batchTrailerBytes
  · rw [hcutLen, if_pos hshort]
  · -- the whole prefix is there, and it announces more bytes than are left
    unfold batchPrefixBytes batchTrailerBytes at hshort
    unfold batchPrefixBytes batchTrailerBytes maxBatchBytes at hsize
    unfold maxRecordsPerBatch at hcount
    obtain ⟨tail, htail⟩ : ∃ tail, batch.bytes.take cut =
        batchBody payload.length batch.records.length first.sequence.toNat
          last.sequence.toNat [] ++ tail := by
      have hsplit : batch.bytes = batchBody payload.length batch.records.length
          first.sequence.toNat last.sequence.toNat [] ++ (payload ++
            toLE 4 (crc32c (batchBody payload.length batch.records.length first.sequence.toNat
              last.sequence.toNat payload)).toNat) := by
        rw [hbytes]
        unfold batchBody
        simp only [List.append_assoc, List.nil_append]
      have hlead : batchBody payload.length batch.records.length first.sequence.toNat
          last.sequence.toNat [] <+: batch.bytes.take cut := by
        refine List.prefix_take_iff.mpr ⟨⟨_, hsplit.symm⟩, ?_⟩
        rw [length_batchBody, List.length_nil]
        omega
      obtain ⟨tail, htail⟩ := hlead
      exact ⟨tail, htail.symm⟩
    have hprefix := readBatchPrefix_batchBody (show payload.length < 256 ^ 4 by omega)
      (show batch.records.length < 256 ^ 4 by omega) (u64_lt first.sequence)
      (u64_lt last.sequence) [] tail
    have hmagic := take_batchBody payload.length batch.records.length first.sequence.toNat
      last.sequence.toNat [] tail
    rw [← htail] at hprefix hmagic
    have hcounts : ¬ (batch.records.length = 0 ∨
        batch.records.length > maxRecordsPerBatch) := by
      unfold maxRecordsPerBatch
      omega
    have hpayloadSize : ¬ payload.length >
        maxBatchBytes - batchPrefixBytes - batchTrailerBytes := by
      unfold batchPrefixBytes batchTrailerBytes maxBatchBytes
      omega
    have hmore : batchPrefixBytes + payload.length + batchTrailerBytes > cut := by
      unfold batchPrefixBytes batchTrailerBytes
      omega
    rw [hcutLen, if_neg (show ¬ cut < batchPrefixBytes + batchTrailerBytes from hshort), hmagic,
      if_neg (not_not.mpr rfl), hprefix]
    simp only [ne_eq, not_true_eq_false, or_self, if_false, hcounts, hpayloadSize, hmore, if_true]

/-! ## Logs -/

@[simp] theorem logBytes_cons (batch : Batch) (log : List Batch) :
    logBytes (batch :: log) = batch.bytes ++ logBytes log := rfl

@[simp] theorem logRecords_cons (batch : Batch) (log : List Batch) :
    logRecords (batch :: log) = batch.records ++ logRecords log := rfl

theorem Batch.length_bytes (batch : Batch) : 36 ≤ batch.bytes.length := by
  obtain ⟨first, last, payload, -, -, -, -, -, hbytes⟩ := encodeBatch_eq_ok batch.encoded
  rw [hbytes, List.length_append, length_batchBody, length_toLE]
  omega

theorem scanLoop_cons (turns : Nat) (expected : RecordId) (records : List EventRecord)
    (position : Nat) {bytes : Bytes} (h : bytes ≠ []) :
    scanLoop (turns + 1) expected records position bytes =
      match readBatch expected records.length bytes with
      | .error e => .error e
      | .ok none =>
          if hasBatch (bytes.drop 1) then
            .error (.eventStoreError "mid-file event-store corruption")
          else .ok ⟨records, position, bytes.length⟩
      | .ok (some batch) =>
          if (if batch.lastSequence = maxU64 then 0 else batch.lastSequence + 1) = 0 ∧
              bytes.drop batch.size ≠ [] then
            .error (.eventStoreError "records follow exhausted event sequence")
          else
            scanLoop turns (if batch.lastSequence = maxU64 then 0 else batch.lastSequence + 1)
              (records ++ batch.records) (position + batch.size) (bytes.drop batch.size) := by
  cases bytes with
  | nil => exact absurd rfl h
  | cons byte rest => rfl

theorem scanLoop_nil (turns : Nat) (expected : RecordId) (records : List EventRecord)
    (position : Nat) : scanLoop turns expected records position [] = .ok ⟨records, position, 0⟩ := by
  cases turns <;> rfl

/-- A number follows the last one of a batch, unless that is the greatest. -/
theorem NumberedFrom.after {n : Nat} {records : List EventRecord} {last : EventRecord}
    (h : NumberedFrom n records) (hlast : records.getLast? = some last)
    (hmax : last.sequence ≠ maxU64) : (last.sequence + 1).toNat = n + records.length := by
  have hseq := h.getLast hlast
  have hpos : 0 < records.length := List.length_pos_of_mem (List.mem_of_getLast? hlast)
  have hgreatest : maxU64.toNat = 2 ^ 64 - 1 := rfl
  have hlt : last.sequence.toNat < 2 ^ 64 - 1 := by
    have := last.sequence.toNat_lt
    rcases Nat.lt_or_ge last.sequence.toNat (2 ^ 64 - 1) with h | h
    · exact h
    · exact absurd (UInt64.toNat.inj (by omega)) hmax
  rw [UInt64.toNat_add, UInt64.toNat_one]
  omega

/-- The numbers run out only at the end of the log. -/
theorem NumberedFrom.ends {n : Nat} {log : List Batch} (h : NumberedFrom n (logRecords log))
    (hn : 2 ^ 64 ≤ n) : log = [] := by
  cases log with
  | nil => rfl
  | cons next log =>
      obtain ⟨hnext, -⟩ := NumberedFrom.append.mp h
      obtain ⟨first, -, -, hfirst, -⟩ := encodeBatch_eq_ok next.encoded
      cases hr : next.records with
      | nil =>
          rw [hr] at hfirst
          cases hfirst
      | cons r rs =>
          rw [hr] at hnext
          have hseq := hnext.1
          have hlt := r.sequence.toNat_lt
          omega

/-- A whole batch is taken, if there is room for its records. -/
theorem scanLoop_whole (batch : Batch) (log : List Batch) {n turns left : Nat}
    {expected : RecordId} {records : List EventRecord} {position : Nat} (hn : 0 < n)
    (hnum : NumberedFrom n (logRecords (batch :: log)))
    (hexp : expected = 0 ∨ expected.toNat = n) :
    ∃ next : RecordId, (next = 0 ∨ next.toNat = n + batch.records.length) ∧
      scanLoop (turns + 1) expected records position
          (batch.bytes ++ (logBytes log).take left) =
        if batch.records.length > maxRecordsRead - records.length then
          .error (.eventStoreError "event-store record count limit exceeded")
        else scanLoop turns next (records ++ batch.records) (position + batch.bytes.length)
          ((logBytes log).take left) := by
  obtain ⟨hhead, htail⟩ := NumberedFrom.append.mp hnum
  have hpos := batch.length_bytes
  obtain ⟨last, hlast, hread⟩ := @readBatch_encoded batch n records.length expected hn hhead
    hexp ((logBytes log).take left)
  have hne : batch.bytes ++ (logBytes log).take left ≠ [] := by
    intro h0
    have := congrArg List.length h0
    simp only [List.length_append, List.length_nil] at this
    omega
  refine ⟨if last.sequence = maxU64 then 0 else last.sequence + 1, ?_, ?_⟩
  · by_cases hmax : last.sequence = maxU64
    · exact .inl (if_pos hmax)
    · rw [if_neg hmax]
      exact .inr (hhead.after hlast hmax)
  have hmore : ¬ ((if last.sequence = maxU64 then 0 else last.sequence + 1) = 0 ∧
      (logBytes log).take left ≠ []) := by
    rintro ⟨hzero, hleft⟩
    by_cases hmax : last.sequence = maxU64
    · have hseq := hhead.getLast hlast
      have hlog := htail.ends (by
        have hgreatest : maxU64.toNat = 2 ^ 64 - 1 := rfl
        rw [hmax] at hseq
        omega)
      rw [hlog] at hleft
      exact hleft List.take_nil
    · have hnext := hhead.after hlast hmax
      rw [if_neg hmax] at hzero
      rw [hzero, UInt64.toNat_zero] at hnext
      omega
  rw [scanLoop_cons turns expected records position hne, hread]
  by_cases hfull : batch.records.length > maxRecordsRead - records.length
  · rw [if_pos hfull, if_pos hfull]
  · rw [if_neg hfull, if_neg hfull]
    dsimp only
    rw [List.drop_left, if_neg hmore]

/-- A batch that is cut short ends the scan, and so does a cut at its start. -/
theorem scanLoop_torn (batch : Batch) {turns cut : Nat} {expected : RecordId}
    {records : List EventRecord} {position : Nat} (hcut : cut < batch.bytes.length)
    (hturns : cut ≤ turns) :
    scanLoop turns expected records position (batch.bytes.take cut) =
      if hasBatch ((batch.bytes.take cut).drop 1) then
        .error (.eventStoreError "mid-file event-store corruption")
      else .ok ⟨records, position, cut⟩ := by
  cases cut with
  | zero =>
      rw [List.take_zero, scanLoop_nil]
      rfl
  | succ cut =>
      obtain ⟨turns, rfl⟩ : ∃ t, turns = t + 1 := ⟨turns - 1, by omega⟩
      have hlen : (batch.bytes.take (cut + 1)).length = cut + 1 := by
        rw [List.length_take]
        omega
      have hne : batch.bytes.take (cut + 1) ≠ [] := by
        intro h0
        rw [h0] at hlen
        cases hlen
      rw [scanLoop_cons turns expected records position hne, readBatch_torn batch hcut, hlen]

/-- The scan of a cut log, by induction over its batches: a whole batch is taken and the rest
    is a cut log again; the first batch that is not whole ends the scan. -/
theorem scanLoop_cut (log : List Batch) {n turns cut : Nat} {expected : RecordId}
    {records : List EventRecord} {position : Nat} (hn : 0 < n)
    (hnum : NumberedFrom n (logRecords log)) (hexp : expected = 0 ∨ expected.toNat = n)
    (hroom : records.length ≤ maxRecordsRead) (hcut : cut ≤ (logBytes log).length)
    (hturns : cut ≤ turns) :
    let whole := wholeBefore cut log
    let size := (logBytes whole).length
    let scan := scanLoop turns expected records position ((logBytes log).take cut)
    let recoverable := records.length + (logRecords whole).length ≤ maxRecordsRead ∧
      hasBatch (((logBytes log).take cut).drop (size + 1)) = false
    size ≤ cut ∧
      (recoverable → scan = .ok ⟨records ++ logRecords whole, position + size, cut - size⟩) ∧
      (¬ recoverable → ∃ e, scan = .error e) := by
  induction log generalizing n turns cut expected records position with
  | nil =>
      have hcut0 : cut = 0 := by simpa [logBytes] using hcut
      subst hcut0
      simp only [wholeBefore, logBytes, logRecords, List.flatMap_nil, List.length_nil,
        List.take_nil, List.drop_nil, scanLoop_nil, hasBatch, List.append_nil, Nat.add_zero,
        Nat.le_refl, and_true, hroom, not_true_eq_false, false_implies, implies_true,
        Nat.sub_zero]
  | cons batch log ih =>
      have hpos := batch.length_bytes
      by_cases hwhole : batch.bytes.length ≤ cut
      · obtain ⟨turns, rfl⟩ : ∃ t, turns = t + 1 := ⟨turns - 1, by omega⟩
        obtain ⟨left, rfl⟩ : ∃ left, cut = batch.bytes.length + left :=
          ⟨cut - batch.bytes.length, by omega⟩
        have htail := (NumberedFrom.append.mp hnum).2
        have hcutLeft : left ≤ (logBytes log).length := by
          rw [logBytes_cons, List.length_append] at hcut
          omega
        have htake : (logBytes (batch :: log)).take (batch.bytes.length + left) =
            batch.bytes ++ (logBytes log).take left := by
          rw [logBytes_cons, List.take_length_add_append]
        have hdrop : ∀ k, (batch.bytes ++ (logBytes log).take left).drop
            (batch.bytes.length + k) = ((logBytes log).take left).drop k := fun k =>
          List.drop_length_add_append _
        have hwholes : wholeBefore (batch.bytes.length + left) (batch :: log) =
            batch :: wholeBefore left log := by
          rw [wholeBefore, if_pos (Nat.le_add_right _ _), Nat.add_sub_cancel_left]
        obtain ⟨next, hnext, hscan⟩ := @scanLoop_whole batch log n turns left expected records
          position hn hnum hexp
        simp only [hwholes, htake, hscan]
        simp only [logBytes_cons, logRecords_cons, List.length_append, Nat.add_assoc, hdrop]
        by_cases hfull : batch.records.length > maxRecordsRead - records.length
        · -- no room for the batch's records
          rw [if_pos hfull]
          obtain ⟨hsize, -, -⟩ := @ih _ left left 0 [] 0 (by omega) htail (.inl rfl)
            (Nat.zero_le _) hcutLeft le_rfl
          exact ⟨by omega, fun h => by omega, fun _ => ⟨_, rfl⟩⟩
        · rw [if_neg hfull]
          have hroom' : (records ++ batch.records).length ≤ maxRecordsRead := by
            rw [List.length_append]
            omega
          obtain ⟨hsize, hok, herr⟩ := @ih _ turns left next (records ++ batch.records)
            (position + batch.bytes.length) (by omega) htail hnext hroom' hcutLeft (by omega)
          simp only [List.length_append, List.append_assoc, Nat.add_assoc] at hok herr
          refine ⟨by omega, fun h => ?_, herr⟩
          rw [hok h, Nat.add_sub_add_left]
      · have htake : (logBytes (batch :: log)).take cut = batch.bytes.take cut := by
          rw [logBytes_cons, List.take_append_of_le_length (by omega)]
        simp only [wholeBefore, if_neg hwhole, htake]
        simp only [logBytes, logRecords, List.flatMap_nil, List.length_nil, Nat.add_zero,
          Nat.zero_add, List.append_nil, Nat.zero_le, true_and, hroom, Nat.sub_zero]
        rw [scanLoop_torn batch (Nat.not_le.mp hwhole) hturns]
        refine ⟨fun h => ?_, fun h => ?_⟩
        · rw [h]
          rfl
        · rw [Bool.not_eq_false] at h
          rw [h]
          exact ⟨_, rfl⟩

/-! ## Torn files -/

theorem scanBatches_cut {metadata : EventStoreMetadata} {header : Bytes}
    (hheader : encodeHeader metadata = .ok header) (log : List Batch) {n p : Nat} (hn : 0 < n)
    (hnum : NumberedFrom n (logRecords log)) (hp : header.length ≤ p)
    (hend : p ≤ (header ++ logBytes log).length) :
    let file := (header ++ logBytes log).take p
    let whole := wholeBefore (p - header.length) log
    let validEnd := header.length + (logBytes whole).length
    let recoverable := (logRecords whole).length ≤ maxRecordsRead ∧
      hasBatchMagicAfter file (validEnd + 1) = false
    decodeHeader file = .ok ⟨metadata, header.length⟩ ∧ validEnd ≤ p ∧
      (recoverable →
        scanBatches file header.length = .ok ⟨logRecords whole, validEnd, p - validEnd⟩) ∧
      (¬ recoverable → ∃ e, scanBatches file header.length = .error e) := by
  have hfile : (header ++ logBytes log).take p =
      header ++ (logBytes log).take (p - header.length) := by
    rw [List.take_append, List.take_of_length_le hp]
  have hcut : p - header.length ≤ (logBytes log).length := by
    rw [List.length_append] at hend
    omega
  have hlen : (header ++ (logBytes log).take (p - header.length)).length = p := by
    rw [List.length_append, List.length_take]
    omega
  obtain ⟨hsize, hok, herr⟩ := @scanLoop_cut log n p (p - header.length) 0 [] header.length hn
    hnum (.inl rfl) (Nat.zero_le _) hcut (Nat.sub_le _ _)
  simp only [hfile]
  refine ⟨decodeHeader_encodeHeader hheader _, by omega, ?_⟩
  unfold scanBatches hasBatchMagicAfter
  rw [List.drop_left' rfl, hlen, Nat.add_assoc, List.drop_length_add_append]
  simp only [List.length_nil, Nat.zero_add, List.nil_append] at hok herr
  refine ⟨fun h => ?_, herr⟩
  rw [hok h, Nat.sub_sub]

/-- A file that is cut at or after the end of its header is recovered up to the last whole
    batch, if and only if these batches have at most `maxRecordsRead` records and what is left
    of the torn batch holds nothing that `has_batch_magic_after` takes for a batch. -/
theorem scanBatches_cut_iff (metadata : EventStoreMetadata)
    (hm : validateMetadata metadata = .ok ()) :
    ∃ header, encodeHeader metadata = .ok header ∧
      ∀ (log : List Batch) (n p : Nat), 0 < n → NumberedFrom n (logRecords log) →
        header.length ≤ p → p ≤ (header ++ logBytes log).length →
        let file := (header ++ logBytes log).take p
        let whole := wholeBefore (p - header.length) log
        let validEnd := header.length + (logBytes whole).length
        (decodeHeader file = .ok ⟨metadata, header.length⟩ ∧
            scanBatches file header.length =
              .ok ⟨logRecords whole, validEnd, p - validEnd⟩) ↔
          (logRecords whole).length ≤ maxRecordsRead ∧
            hasBatchMagicAfter file (validEnd + 1) = false := by
  refine ⟨_, encodeHeader_eq hm, fun log n p hn hnum hp hend => ?_⟩
  obtain ⟨hdecode, -, hok, herr⟩ := scanBatches_cut (encodeHeader_eq hm) log hn hnum hp hend
  refine ⟨fun h => ?_, fun h => ⟨hdecode, hok h⟩⟩
  by_contra hnot
  obtain ⟨e, he⟩ := herr hnot
  rw [h.2] at he
  cases he

/-- A file header for session 1. -/
def tornMetadata : EventStoreMetadata :=
  { session := 1, engineVersion := utf8 "v1", feedbackTiming := .deferred }

/-- 36 bytes with the prefix and the checksum of a batch. -/
def embeddedBatch : Bytes :=
  batchBody 0 1 1 1 [] ++ toLE 4 (crc32c (batchBody 0 1 1 1 [])).toNat

/-- A record whose payload is such bytes. -/
def tornRecord : EventRecord :=
  { sequence := 1, type := .sessionStarted, payload := .bytes embeddedBatch }

def tornBatch : Batch where
  records := [tornRecord]
  bytes := ((encodeBatch [tornRecord]).toOption).getD []
  encoded := by decide +kernel
  valid := by
    intro record hr
    rw [List.mem_singleton.mp hr]
    decide +kernel
  ordered := by
    intro record hr
    rw [List.mem_singleton.mp hr]
    rfl

/-- The record that follows it. -/
def secondRecord : EventRecord :=
  { sequence := 2, type := .sessionStarted, payload := .null }

def secondBatch : Batch where
  records := [secondRecord]
  bytes := ((encodeBatch [secondRecord]).toOption).getD []
  encoded := by decide +kernel
  valid := by
    intro record hr
    rw [List.mem_singleton.mp hr]
    decide +kernel
  ordered := by
    intro record hr
    rw [List.mem_singleton.mp hr]
    rfl

/-- The file is cut in its second batch. -/
theorem scanBatches_cut_torn :
    validateMetadata tornMetadata = .ok () ∧
      ∃ header, encodeHeader tornMetadata = .ok header ∧
        let p := header.length + ((logBytes [tornBatch]).length + 10)
        let file := (header ++ logBytes [tornBatch, secondBatch]).take p
        let whole := wholeBefore (p - header.length) [tornBatch, secondBatch]
        let validEnd := header.length + (logBytes whole).length
        logRecords whole = [tornRecord] ∧
          ((decodeHeader file = .ok ⟨tornMetadata, header.length⟩ ∧
              scanBatches file header.length =
                .ok ⟨logRecords whole, validEnd, p - validEnd⟩) ↔
            (logRecords whole).length ≤ maxRecordsRead ∧
              hasBatchMagicAfter file (validEnd + 1) = false) := by
  have hm : validateMetadata tornMetadata = .ok () := by decide +kernel
  have hsize : (logBytes [tornBatch]).length + 10 ≤
      (logBytes [tornBatch, secondBatch]).length := by
    decide +kernel
  have hwhole : logRecords (wholeBefore ((logBytes [tornBatch]).length + 10)
      [tornBatch, secondBatch]) = [tornRecord] := by
    decide +kernel
  obtain ⟨header, hheader, hcut⟩ := scanBatches_cut_iff tornMetadata hm
  refine ⟨hm, header, hheader, ?_, hcut [tornBatch, secondBatch] 1 _ (by decide)
    ⟨rfl, rfl, rfl, rfl, trivial⟩ (Nat.le_add_right _ _) ?_⟩
  · rw [Nat.add_sub_cancel_left]
    exact hwhole
  · rw [List.length_append]
    omega

/-- The last two bytes of `tornBatch` are missing, and the scan takes the bytes inside its payload
    for a batch that follows. -/
theorem scanBatches_torn_fails :
    ¬ ∀ (metadata : EventStoreMetadata) (header : Bytes), encodeHeader metadata = .ok header →
      ∀ (log : List Batch) (n p : Nat), 0 < n → NumberedFrom n (logRecords log) →
        header.length ≤ p → p ≤ (header ++ logBytes log).length →
        scanBatches ((header ++ logBytes log).take p) header.length =
          .ok ⟨logRecords (wholeBefore (p - header.length) log),
            header.length + (logBytes (wholeBefore (p - header.length) log)).length,
            p - (header.length +
              (logBytes (wholeBefore (p - header.length) log)).length)⟩ := by
  intro h
  have hm : validateMetadata tornMetadata = .ok () := by decide +kernel
  have hscan := h tornMetadata _ (encodeHeader_eq hm) [tornBatch] 1 123 (by decide)
    ⟨rfl, rfl, trivial⟩ (by decide +kernel) (by decide +kernel)
  have herr : scanBatches ((headerBody tornMetadata ++
      toLE 4 (crc32c (headerBody tornMetadata)).toNat ++ logBytes [tornBatch]).take 123)
      (headerBody tornMetadata ++ toLE 4 (crc32c (headerBody tornMetadata)).toNat).length =
      .error (.eventStoreError "mid-file event-store corruption") := by
    decide +kernel
  rw [herr] at hscan
  cases hscan

end LiquidLayer
