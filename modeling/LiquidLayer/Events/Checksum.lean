/-
  What the checksum of the event file detects (`crc32c` of FileEventStoreFormat.cpp).

  `crc32c` is a register of 32 bits with the reflected polynomial of CRC-32C, and a window of
  four bytes fits in it: `crc32c_burst`. The scanner compares the checksum of a batch with what
  is stored behind it, so a batch whose bytes were changed inside one such window is refused
  (`checksumMatches_burst`).
-/
import LiquidLayer.Lib.Crc
import LiquidLayer.Events.FileFormat

namespace LiquidLayer

/-- `0x82f63b78`. -/
def crcPolynomial : BitVec 32 := 0x82f63b78#32

theorem crcBit_turn (crc : UInt32) :
    (crcBit crc).toBitVec = Crc.turn crcPolynomial crc.toBitVec := by
  have hlow : (crc &&& 1).toBitVec =
      BitVec.setWidth 32 (BitVec.ofBool (crc.toBitVec.getLsbD 0)) := by
    rw [UInt32.toBitVec_and]
    exact BitVec.and_one_eq_setWidth_ofBool_getLsbD
  unfold crcBit Crc.turn
  cases hbit : crc.toBitVec.getLsbD 0 with
  | true =>
      rw [hbit] at hlow
      have hone : crc &&& 1 = 1 := UInt32.toBitVec_inj.mp (by rw [hlow]; decide)
      rw [hone, if_pos rfl]
      rfl
  | false =>
      rw [hbit] at hlow
      have hzero : crc &&& 1 = 0 := UInt32.toBitVec_inj.mp (by rw [hlow]; decide)
      rw [hzero, if_neg Bool.false_ne_true]
      exact BitVec.xor_zero

theorem crcByte_absorb (crc : UInt32) (byte : UInt8) :
    (crcByte crc byte).toBitVec = Crc.absorb crcPolynomial crc.toBitVec byte := by
  have hrepeat : ∀ (n : Nat) (c : UInt32),
      (Nat.repeat crcBit n c).toBitVec = Crc.turns crcPolynomial n c.toBitVec := by
    intro n c
    induction n with
    | zero => rfl
    | succ n ih => exact (crcBit_turn _).trans (congrArg (Crc.turn crcPolynomial) ih)
  have hbyte : byte.toUInt32.toBitVec = BitVec.ofNat 32 byte.toNat := by
    apply BitVec.eq_of_toNat_eq
    have hlt : byte.toNat < 256 := byte.toNat_lt
    rw [BitVec.toNat_ofNat, Nat.mod_eq_of_lt (by omega)]
    exact UInt8.toNat_toUInt32 byte
  unfold crcByte Crc.absorb
  rw [hrepeat, UInt32.toBitVec_xor, hbyte]

theorem foldl_crcByte (l : Bytes) (crc : UInt32) :
    (l.foldl crcByte crc).toBitVec = l.foldl (Crc.absorb crcPolynomial) crc.toBitVec := by
  induction l generalizing crc with
  | nil => rfl
  | cons byte l ih => rw [List.foldl_cons, List.foldl_cons, ih, crcByte_absorb]

/-- Two messages that are equal outside of a window have different checksums. -/
theorem crc32c_window {window window' : Bytes} (hlength : window.length = window'.length)
    (hshort : window.length ≤ 4) (hne : window ≠ window') (before after : Bytes) :
    crc32c (before ++ window ++ after) ≠ crc32c (before ++ window' ++ after) := by
  intro h
  have hregister := congrArg UInt32.toBitVec (UInt32.not_inj.mp h)
  rw [foldl_crcByte, foldl_crcByte] at hregister
  exact Crc.foldl_absorb_ne (by decide) hlength (by omega) hne before after _ hregister

/-- A change inside four consecutive bytes changes the checksum. -/
theorem crc32c_burst {x y : Bytes} (hlength : x.length = y.length) {start : Nat}
    (hsame : ∀ i, i < start ∨ start + 4 ≤ i → x[i]? = y[i]?) (hne : x ≠ y) :
    crc32c x ≠ crc32c y := by
  have hparts : ∀ l : Bytes, l = l.take start ++ (l.drop start).take 4 ++ l.drop (start + 4) := by
    intro l
    rw [List.append_assoc, ← List.drop_drop, List.take_append_drop, List.take_append_drop]
  have hbefore : x.take start = y.take start := by
    apply List.ext_getElem?
    intro i
    rw [List.getElem?_take, List.getElem?_take]
    split
    · next hi => exact hsame i (Or.inl hi)
    · rfl
  have hafter : x.drop (start + 4) = y.drop (start + 4) := by
    apply List.ext_getElem?
    intro i
    rw [List.getElem?_drop, List.getElem?_drop]
    exact hsame _ (Or.inr (Nat.le_add_right _ _))
  have hwindow : (x.drop start).take 4 ≠ (y.drop start).take 4 := by
    intro h
    apply hne
    rw [hparts x, hparts y, hbefore, hafter, h]
  have hshort : ((x.drop start).take 4).length ≤ 4 := List.length_take_le 4 _
  have hsize : ((x.drop start).take 4).length = ((y.drop start).take 4).length := by
    rw [List.length_take, List.length_take, List.length_drop, List.length_drop, hlength]
  rw [hparts x, hparts y, hbefore, hafter]
  exact crc32c_window hsize hshort hwindow _ _

/-- The first byte and the fourth are changed. -/
theorem crc32c_burst_sample : crc32c [1, 2, 3, 4, 5] ≠ crc32c [9, 2, 3, 7, 5] := by
  have hsame : ∀ i, i < 0 ∨ 0 + 4 ≤ i → ([1, 2, 3, 4, 5] : Bytes)[i]? = [9, 2, 3, 7, 5][i]? := ?_
  · exact crc32c_burst rfl hsame (by decide)
  intro i hi
  rcases i with _ | _ | _ | _ | i
  · omega
  · omega
  · omega
  · omega
  · rfl

/-- A batch that was changed in such a window of its body is refused. -/
theorem checksumMatches_burst {before window window' after trailer : Bytes}
    (hlength : window.length = window'.length) (hshort : window.length ≤ 4)
    (hne : window ≠ window') {batchBytes : Nat}
    (hbytes : batchBytes = (before ++ window ++ after).length + 4)
    (hmatches : checksumMatches (before ++ window ++ after ++ trailer) batchBytes = true) :
    checksumMatches (before ++ window' ++ after ++ trailer) batchBytes = false := by
  have hbody : batchBytes - 4 = (before ++ window ++ after).length := by omega
  have hbody' : batchBytes - 4 = (before ++ window' ++ after).length := by
    rw [hbody]
    simp only [List.length_append, hlength]
  unfold checksumMatches at hmatches ⊢
  rw [hbody, List.drop_left, List.take_left, beq_iff_eq] at hmatches
  rw [hbody', List.drop_left, List.take_left, beq_eq_false_iff_ne, hmatches]
  exact fun h => crc32c_window hlength hshort hne before after (UInt32.toNat.inj h)

end LiquidLayer
