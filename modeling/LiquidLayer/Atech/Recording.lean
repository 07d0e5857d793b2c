/-
  The `.csirec` recording format (csirec.py), and its reader of the native replay test
  (`readRec` of test_ruview_edge.cpp).

  A recording is ended by interrupting the program that writes it, so it may be cut anywhere.
  `read` looks whether the next header is there, but not whether the payload is, and a cut inside
  a payload leaves it a record with a part of it. `readRec` stops there.

  * `record_eq`: packets that fit their header are all written.
  * `read_cut_iff`: what `read` makes of a cut recording is right exactly if no payload is cut.
  * `readRec_cut`: `readRec` is right for every cut.
-/
import LiquidLayer.Lib.Bytes
import LiquidLayer.Basic

namespace LiquidLayer

namespace Csirec

def magicFile : Bytes := utf8 "CSIREC01"

/-- `HDR.size`. -/
def headerSize : Nat := 12

def magicCsi : Nat := 0xc5110001
def magicVitals : Nat := 0xc5110002
def magicStatus : Nat := 0xa11e0002

def kindCsi : UInt8 := 1
def kindVitals : UInt8 := 2
def kindStatus : UInt8 := 3

def kindOf (payload : Bytes) : UInt8 :=
  if payload.length < 4 then 0
  else
    let magic := ofLE (payload.take 4)
    if magic = magicCsi then kindCsi
    else if magic = magicVitals then kindVitals
    else if magic = magicStatus then kindStatus
    else 0

inductive Error where
  | structError
  | notCsirec
deriving DecidableEq

/-! ## Writing -/

/-- The arguments of a `write`. -/
structure Packet where
  payload : Bytes
  segment : Int
  tUs : Int

/-- `"<q"`. -/
def packSigned (n : Int) : Bytes := toLE 8 (n % 2 ^ 64).toNat

/-- `HDR.pack`; `struct` refuses a number that does not fit. -/
def packHeader (kind : UInt8) (tUs : Int) (segment n : Nat) : Except Error Bytes :=
  if tUs < -2 ^ 63 ∨ 2 ^ 63 ≤ tUs ∨ 255 < segment ∨ 65535 < n then .error .structError
  else .ok (kind :: packSigned tUs ++ UInt8.ofNat segment :: toLE 2 n)

structure Recorder where
  file : Bytes
  count : Nat

def Recorder.opened : Recorder := ⟨magicFile, 0⟩

/-- `write` with its time. `segment & 3` is the remainder modulo 4, of negative numbers too. -/
def Recorder.write (r : Recorder) (p : Packet) : Except Error Recorder := do
  let header ← packHeader (kindOf p.payload) p.tUs (p.segment % 4).toNat p.payload.length
  return { file := r.file ++ (header ++ p.payload), count := r.count + 1 }

def record (packets : List Packet) : Except Error Recorder :=
  packets.foldlM Recorder.write .opened

/-! ## Reading -/

structure Record where
  kind : UInt8
  tUs : Int
  segment : UInt8
  payload : Bytes
deriving DecidableEq

def unpackSigned (bytes : Bytes) : Int :=
  if ofLE bytes < 2 ^ 63 then ofLE bytes else ofLE bytes - 2 ^ 64

/-- `HDR.unpack_from`: kind, time, segment and length. -/
def unpackHeader (data : Bytes) : UInt8 × Int × UInt8 × Nat :=
  (data.getD 0 0, unpackSigned ((data.drop 1).take 8), data.getD 9 0,
    ofLE ((data.drop 10).take 2))

/-- The loop of `read` over the bytes from its position on. -/
def readLoop : Nat → Bytes → List Record
  | 0, _ => []
  | fuel + 1, data =>
      if headerSize ≤ data.length then
        let (kind, tUs, segment, n) := unpackHeader data
        let rest := data.drop headerSize
        ⟨kind, tUs, segment, rest.take n⟩ :: readLoop fuel (rest.drop n)
      else []

def read (data : Bytes) : Except Error (List Record) :=
  if data.take 8 ≠ magicFile then .error .notCsirec
  else .ok (readLoop data.length (data.drop 8))

/-- The loop of `readRec`, which stops at a payload that is not all there. -/
def readRecLoop : Nat → Bytes → List Record
  | 0, _ => []
  | fuel + 1, data =>
      if headerSize ≤ data.length then
        let (kind, tUs, segment, n) := unpackHeader data
        let rest := data.drop headerSize
        if n ≤ rest.length then
          ⟨kind, tUs, segment, rest.take n⟩ :: readRecLoop fuel (rest.drop n)
        else []
      else []

def readRec (data : Bytes) : Option (List Record) :=
  if data.take 8 ≠ magicFile then none else some (readRecLoop data.length (data.drop 8))

/-! ## What a recording holds -/

/-- The packet fits its header. -/
structure Packet.Fits (p : Packet) : Prop where
  payload : p.payload.length ≤ 65535
  lower : -2 ^ 63 ≤ p.tUs
  upper : p.tUs < 2 ^ 63

def Packet.header (p : Packet) : Bytes :=
  kindOf p.payload :: packSigned p.tUs ++ UInt8.ofNat (p.segment % 4).toNat ::
    toLE 2 p.payload.length

def Packet.bytes (p : Packet) : Bytes := p.header ++ p.payload

/-- The record of a packet. -/
def Packet.record (p : Packet) : Record :=
  ⟨kindOf p.payload, p.tUs, UInt8.ofNat (p.segment % 4).toNat, p.payload⟩

def size (packets : List Packet) : Nat :=
  (packets.map fun p => headerSize + p.payload.length).sum

/-- The records that lie in the first `room` bytes. -/
def within : List Packet → Nat → List Record
  | [], _ => []
  | p :: rest, room =>
      if headerSize + p.payload.length ≤ room then
        p.record :: within rest (room - (headerSize + p.payload.length))
      else []

/-- The records that lie wholly before the cut of the file. -/
def wholeRecords (packets : List Packet) (cut : Nat) : List Record :=
  within packets (cut - magicFile.length)

/-- The cut is behind the header of a packet, and its payload goes on after it. -/
def PayloadCut (packets : List Packet) (cut : Nat) : Prop :=
  ∃ before p after, packets = before ++ p :: after ∧
    magicFile.length + size before + headerSize ≤ cut ∧
    cut < magicFile.length + size before + headerSize + p.payload.length

/-! ## Headers -/

@[simp] theorem length_header (p : Packet) : p.header.length = headerSize := by
  unfold Packet.header packSigned
  simp [headerSize]

theorem unpackSigned_packSigned {n : Int} (hlower : -2 ^ 63 ≤ n) (hupper : n < 2 ^ 63) :
    unpackSigned (packSigned n) = n := by
  have hsmall : (n % 2 ^ 64).toNat < 256 ^ 8 := by omega
  unfold unpackSigned packSigned
  rw [ofLE_toLE hsmall]
  split <;> omega

theorem unpackHeader_header {p : Packet} (hp : p.Fits) (rest : Bytes) :
    unpackHeader (p.header ++ rest) = (kindOf p.payload, p.tUs,
      UInt8.ofNat (p.segment % 4).toNat, p.payload.length) := by
  have htime : ((p.header ++ rest).drop 1).take 8 = packSigned p.tUs := by
    unfold Packet.header
    simp [packSigned]
  have hlength : ((p.header ++ rest).drop 10).take 2 = toLE 2 p.payload.length := by
    have hsplit : p.header ++ rest =
        (kindOf p.payload :: packSigned p.tUs ++ [UInt8.ofNat (p.segment % 4).toNat]) ++
          (toLE 2 p.payload.length ++ rest) := by
      unfold Packet.header
      simp
    rw [hsplit, List.drop_left' (by simp [packSigned]), List.take_left' (length_toLE 2 _)]
  have hsegment : (p.header ++ rest).getD 9 0 = UInt8.ofNat (p.segment % 4).toNat := by
    unfold Packet.header
    simp [packSigned]
  have hsmall : p.payload.length < 256 ^ 2 := Nat.lt_succ_of_le hp.payload
  unfold unpackHeader
  rw [htime, hlength, hsegment, unpackSigned_packSigned hp.lower hp.upper, ofLE_toLE hsmall]
  rfl

theorem packHeader_eq {p : Packet} (hp : p.Fits) :
    packHeader (kindOf p.payload) p.tUs (p.segment % 4).toNat p.payload.length =
      .ok p.header := by
  have hlower := hp.lower
  have hupper := hp.upper
  have hpayload := hp.payload
  unfold packHeader
  rw [if_neg (by omega)]
  rfl

/-! ## Files -/

/-- The packets behind each other. -/
def body (packets : List Packet) : Bytes := packets.flatMap Packet.bytes

theorem foldlM_write {packets : List Packet} (hfits : ∀ p ∈ packets, p.Fits) (r : Recorder) :
    packets.foldlM Recorder.write r = .ok ⟨r.file ++ body packets, r.count + packets.length⟩ := by
  induction packets generalizing r with
  | nil =>
      show Except.ok r = _
      rw [body, List.flatMap_nil, List.append_nil]
      rfl
  | cons p rest ih =>
      have hp := hfits p List.mem_cons_self
      have hwrite : r.write p = .ok ⟨r.file ++ p.bytes, r.count + 1⟩ := by
        unfold Recorder.write
        rw [packHeader_eq hp]
        rfl
      rw [List.foldlM_cons, hwrite, ok_bind, ih fun q hq => hfits q (List.mem_cons_of_mem _ hq),
        body, body, List.flatMap_cons, List.length_cons]
      dsimp only
      rw [List.append_assoc, Nat.add_assoc, Nat.add_comm 1]

theorem record_eq {packets : List Packet} (hfits : ∀ p ∈ packets, p.Fits) :
    record packets = .ok ⟨magicFile ++ body packets, packets.length⟩ := by
  unfold record
  rw [foldlM_write hfits]
  unfold Recorder.opened
  rw [Nat.zero_add]

/-- What `read` makes of a packet whose header is there and whose payload is not. -/
def cutRecord : List Packet → Nat → List Record
  | [], _ => []
  | p :: rest, room =>
      if headerSize + p.payload.length ≤ room then
        cutRecord rest (room - (headerSize + p.payload.length))
      else if headerSize ≤ room then
        [⟨kindOf p.payload, p.tUs, UInt8.ofNat (p.segment % 4).toNat,
          p.payload.take (room - headerSize)⟩]
      else []

/-- The three places of a cut: behind the packet, inside its payload, inside its header. -/
theorem take_body_cons (p : Packet) (rest : List Packet) (room : Nat) :
    (headerSize + p.payload.length ≤ room →
        (body (p :: rest)).take room = p.header ++ (p.payload ++
          (body rest).take (room - (headerSize + p.payload.length)))) ∧
      (headerSize ≤ room → room < headerSize + p.payload.length →
        (body (p :: rest)).take room = p.header ++ p.payload.take (room - headerSize)) ∧
      (room < headerSize → ((body (p :: rest)).take room).length < headerSize) := by
  have hbody : body (p :: rest) = p.header ++ (p.payload ++ body rest) := by
    rw [body, List.flatMap_cons, Packet.bytes, List.append_assoc]
    rfl
  refine ⟨fun hwhole => ?_, fun hheader hcut => ?_, fun hshort => ?_⟩
  · rw [hbody, List.take_append, List.take_append, List.take_of_length_le (by simp; omega),
      List.take_of_length_le (by simp; omega), length_header, Nat.sub_sub]
  · rw [hbody, List.take_append, List.take_of_length_le (by simp; omega), length_header,
      List.take_append_of_le_length (by omega)]
  · rw [List.length_take]
    omega

theorem readLoop_cut {packets : List Packet} (hfits : ∀ p ∈ packets, p.Fits) (room fuel : Nat)
    (hfuel : ((body packets).take room).length ≤ fuel) :
    readLoop fuel ((body packets).take room) = within packets room ++ cutRecord packets room := by
  induction packets generalizing room fuel with
  | nil =>
      have hnil : (body []).take room = [] := by
        rw [body, List.flatMap_nil, List.take_nil]
      rw [hnil]
      cases fuel <;> rfl
  | cons p rest ih =>
      obtain ⟨hwhole, hpayload, hheader⟩ := take_body_cons p rest room
      have hp := hfits p List.mem_cons_self
      have hrest : ∀ q ∈ rest, q.Fits := fun q hq => hfits q (List.mem_cons_of_mem _ hq)
      unfold within cutRecord
      by_cases hin : headerSize + p.payload.length ≤ room
      · rw [if_pos hin, if_pos hin]
        rw [hwhole hin] at hfuel ⊢
        simp only [List.length_append, length_header, headerSize] at hfuel
        obtain ⟨fuel, rfl⟩ : ∃ n, fuel = n + 1 := ⟨fuel - 1, by omega⟩
        unfold readLoop
        rw [if_pos (by simp), unpackHeader_header hp]
        dsimp only
        rw [List.drop_left' (length_header p), List.take_left, List.drop_left,
          ih hrest _ _ (by simp only [headerSize]; omega)]
        rfl
      · rw [if_neg hin, if_neg hin]
        by_cases hat : headerSize ≤ room
        · rw [if_pos hat]
          rw [hpayload hat (by omega)] at hfuel ⊢
          simp only [List.length_append, length_header, headerSize] at hfuel
          obtain ⟨fuel, rfl⟩ : ∃ n, fuel = n + 1 := ⟨fuel - 1, by omega⟩
          unfold readLoop
          rw [if_pos (by simp), unpackHeader_header hp]
          dsimp only
          rw [List.drop_left' (length_header p), List.take_of_length_le (by simp),
            List.drop_of_length_le (by simp)]
          cases fuel <;> rfl
        · rw [if_neg hat]
          have hshort := hheader (by omega)
          cases fuel with
          | zero => rfl
          | succ fuel =>
              unfold readLoop
              rw [if_neg (by omega)]
              rfl

theorem readRecLoop_cut {packets : List Packet} (hfits : ∀ p ∈ packets, p.Fits) (room fuel : Nat)
    (hfuel : ((body packets).take room).length ≤ fuel) :
    readRecLoop fuel ((body packets).take room) = within packets room := by
  induction packets generalizing room fuel with
  | nil =>
      have hnil : (body []).take room = [] := by
        rw [body, List.flatMap_nil, List.take_nil]
      rw [hnil]
      cases fuel <;> rfl
  | cons p rest ih =>
      obtain ⟨hwhole, hpayload, hheader⟩ := take_body_cons p rest room
      have hp := hfits p List.mem_cons_self
      have hrest : ∀ q ∈ rest, q.Fits := fun q hq => hfits q (List.mem_cons_of_mem _ hq)
      unfold within
      by_cases hin : headerSize + p.payload.length ≤ room
      · rw [if_pos hin]
        rw [hwhole hin] at hfuel ⊢
        simp only [List.length_append, length_header, headerSize] at hfuel
        obtain ⟨fuel, rfl⟩ : ∃ n, fuel = n + 1 := ⟨fuel - 1, by omega⟩
        unfold readRecLoop
        rw [if_pos (by simp), unpackHeader_header hp]
        dsimp only
        rw [List.drop_left' (length_header p), if_pos (by simp), List.take_left, List.drop_left,
          ih hrest _ _ (by simp only [headerSize]; omega)]
        rfl
      · rw [if_neg hin]
        by_cases hat : headerSize ≤ room
        · rw [hpayload hat (by omega)] at hfuel ⊢
          simp only [List.length_append, length_header, headerSize] at hfuel
          obtain ⟨fuel, rfl⟩ : ∃ n, fuel = n + 1 := ⟨fuel - 1, by omega⟩
          unfold readRecLoop
          rw [if_pos (by simp), unpackHeader_header hp]
          dsimp only
          rw [List.drop_left' (length_header p), if_neg]
          rw [List.length_take]
          omega
        · have hshort := hheader (by omega)
          cases fuel with
          | zero => rfl
          | succ fuel =>
              unfold readRecLoop
              rw [if_neg (by omega)]

/-- A cut behind the magic leaves the magic whole. -/
theorem take_file (packets : List Packet) {cut : Nat} (hcut : magicFile.length ≤ cut) :
    ((magicFile ++ body packets).take cut).take 8 = magicFile ∧
      ((magicFile ++ body packets).take cut).drop 8 =
        (body packets).take (cut - magicFile.length) := by
  have hmagic : magicFile.length = 8 := by decide +kernel
  rw [List.take_append, List.take_of_length_le hcut]
  exact ⟨List.take_left' hmagic, List.drop_left' hmagic⟩

/-- A record is left over exactly if a payload is cut. -/
theorem cutRecord_eq_nil (packets : List Packet) (room : Nat) :
    cutRecord packets room = [] ↔ ¬PayloadCut packets (room + magicFile.length) := by
  induction packets generalizing room with
  | nil =>
      refine iff_of_true rfl ?_
      rintro ⟨before, p, after, heq, -⟩
      exact List.append_ne_nil_of_right_ne_nil before (List.cons_ne_nil p after) heq.symm
  | cons p rest ih =>
      unfold cutRecord
      by_cases hin : headerSize + p.payload.length ≤ room
      · rw [if_pos hin, ih, not_iff_not]
        constructor
        · rintro ⟨before, q, after, heq, hlow, hhigh⟩
          refine ⟨p :: before, q, after, by rw [heq]; rfl, ?_, ?_⟩
          · rw [size, List.map_cons, List.sum_cons]
            unfold size at hlow
            omega
          · rw [size, List.map_cons, List.sum_cons]
            unfold size at hhigh
            omega
        · rintro ⟨before, q, after, heq, hlow, hhigh⟩
          cases before with
          | nil =>
              cases heq
              rw [size, List.map_nil, List.sum_nil] at hhigh
              omega
          | cons p' before =>
              cases heq
              rw [size, List.map_cons, List.sum_cons] at hlow hhigh
              refine ⟨before, q, after, rfl, ?_, ?_⟩
              · unfold size
                omega
              · unfold size
                omega
      · rw [if_neg hin]
        by_cases hat : headerSize ≤ room
        · rw [if_pos hat]
          refine iff_of_false (List.cons_ne_nil _ _) (not_not_intro ⟨[], p, rest, rfl, ?_, ?_⟩)
          · rw [size, List.map_nil, List.sum_nil]
            omega
          · rw [size, List.map_nil, List.sum_nil]
            omega
        · rw [if_neg hat]
          refine iff_of_true rfl ?_
          rintro ⟨before, q, after, -, hlow, -⟩
          omega

/-- What is read from a cut recording is what lies before the cut, exactly if the cut is not
    inside a payload. -/
theorem read_cut_iff {packets : List Packet} (hfits : ∀ p ∈ packets, p.Fits) {cut : Nat}
    (hcut : magicFile.length ≤ cut) :
    ∃ r, record packets = .ok r ∧
      (read (r.file.take cut) = .ok (wholeRecords packets cut) ↔ ¬PayloadCut packets cut) := by
  refine ⟨_, record_eq hfits, ?_⟩
  dsimp only
  obtain ⟨hmagic, hbody⟩ := take_file packets hcut
  have hread : read ((magicFile ++ body packets).take cut) = .ok
      (within packets (cut - magicFile.length) ++
        cutRecord packets (cut - magicFile.length)) := by
    unfold read
    rw [if_neg (not_not_intro hmagic), hbody, readLoop_cut hfits]
    rw [← hbody, List.length_drop]
    omega
  have hback : cut - magicFile.length + magicFile.length = cut := Nat.sub_add_cancel hcut
  unfold wholeRecords
  rw [hread, Except.ok.injEq, List.append_right_eq_self, cutRecord_eq_nil, hback]

def twoFrames : List Packet := [⟨[1, 2, 3], -1, 40⟩, ⟨[1, 0, 0x11, 0xc5, 9], 6, -5⟩]

theorem twoFrames_fits : ∀ p ∈ twoFrames, p.Fits := by
  intro p hp
  simp only [twoFrames, List.mem_cons, List.not_mem_nil, or_false] at hp
  obtain rfl | rfl := hp
  · exact ⟨by decide, by decide, by decide⟩
  · exact ⟨by decide, by decide, by decide⟩

/-- A cut after the header of the second frame has started. -/
theorem read_cut_iff_header : ∃ r, record twoFrames = .ok r ∧
    (read (r.file.take 30) = .ok (wholeRecords twoFrames 30) ↔ ¬PayloadCut twoFrames 30) :=
  read_cut_iff twoFrames_fits (by decide +kernel)

/-- A cut after four of the five bytes of the second payload. -/
theorem read_torn : ∃ r, record twoFrames = .ok r ∧
    read (r.file.take 39) = .ok (wholeRecords twoFrames 39 ++ [⟨1, -5, 2, [1, 0, 0x11, 0xc5]⟩]) ∧
    read (r.file.take 39) ≠ .ok (wholeRecords twoFrames 39) :=
  ⟨_, rfl, by decide +kernel, by decide +kernel⟩

/-- The native reader yields what lies before the cut. -/
theorem readRec_cut {packets : List Packet} (hfits : ∀ p ∈ packets, p.Fits) {cut : Nat}
    (hcut : magicFile.length ≤ cut) :
    ∃ r, record packets = .ok r ∧
      readRec (r.file.take cut) = some (wholeRecords packets cut) := by
  refine ⟨_, record_eq hfits, ?_⟩
  dsimp only
  obtain ⟨hmagic, hbody⟩ := take_file packets hcut
  unfold readRec wholeRecords
  rw [if_neg (not_not_intro hmagic), hbody, readRecLoop_cut hfits]
  rw [← hbody, List.length_drop]
  omega

end Csirec

end LiquidLayer
