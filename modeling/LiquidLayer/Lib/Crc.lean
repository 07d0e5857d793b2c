/-
  Cyclic redundancy checks over a reflected register of any width.

  `turn p` is one bit step of a register with polynomial `p`, `turns p n` are `n` of them, and
  `absorb p` takes one byte. A turn is linear in exclusive or (`turn_xor`), and where the top
  bit of the polynomial is set it is injective (`turn_inj`), for that bit tells which of the two
  branches was taken.

  * `foldl_absorb`: a list of bytes that fits in the register is the turns of the register with
    the whole list taken in at once.
  * `foldl_absorb_ne`: two messages that are equal outside of one such list leave different
    registers.
-/
import Mathlib
import LiquidLayer.Lib.Bytes

namespace Crc

open LiquidLayer

variable {w : Nat} (p : BitVec w)

/-- One bit leaves at the bottom, and brings the polynomial in if it was set. -/
def turn (x : BitVec w) : BitVec w :=
  if x.getLsbD 0 then (x >>> 1) ^^^ p else x >>> 1

def turns : Nat → BitVec w → BitVec w
  | 0, x => x
  | n + 1, x => turn p (turns n x)

def absorb (x : BitVec w) (byte : UInt8) : BitVec w :=
  turns p 8 (x ^^^ BitVec.ofNat w byte.toNat)

/-! ## Turns -/

theorem xor_xor_xor_self (x y : BitVec w) : x ^^^ p ^^^ (y ^^^ p) = x ^^^ y := by
  rw [BitVec.xor_assoc, BitVec.xor_comm y p, ← BitVec.xor_assoc p p y, BitVec.xor_self,
    BitVec.zero_xor]

theorem turn_xor (x y : BitVec w) : turn p (x ^^^ y) = turn p x ^^^ turn p y := by
  unfold turn
  rw [BitVec.getLsbD_xor, BitVec.ushiftRight_xor_distrib]
  cases x.getLsbD 0 <;> cases y.getLsbD 0
  · rfl
  · exact BitVec.xor_assoc _ _ _
  · show (x >>> 1) ^^^ (y >>> 1) ^^^ p = (x >>> 1) ^^^ p ^^^ (y >>> 1)
    rw [BitVec.xor_assoc, BitVec.xor_assoc, BitVec.xor_comm p]
  · exact (xor_xor_xor_self p _ _).symm

theorem turns_xor (n : Nat) (x y : BitVec w) :
    turns p n (x ^^^ y) = turns p n x ^^^ turns p n y := by
  induction n with
  | zero => rfl
  | succ n ih =>
      unfold turns
      rw [ih, turn_xor]

theorem turns_add (m n : Nat) (x : BitVec w) : turns p (m + n) x = turns p n (turns p m x) := by
  induction n with
  | zero => rfl
  | succ n ih => exact congrArg (turn p) ih

/-- While the low bits are clear, the register only moves down. -/
theorem turns_clear (n : Nat) {x : BitVec w} (h : ∀ i < n, x.getLsbD i = false) :
    turns p n x = x >>> n := by
  induction n with
  | zero => exact (BitVec.ushiftRight_zero x).symm
  | succ n ih =>
      have hlow : (x >>> n).getLsbD 0 = false := by
        rw [BitVec.getLsbD_ushiftRight]
        exact h n (Nat.lt_succ_self n)
      unfold turns turn
      rw [ih fun i hi => h i (Nat.lt_succ_of_lt hi), hlow, if_neg Bool.false_ne_true,
        BitVec.shiftRight_add]

variable {p}

/-- Only the empty register is turned into the empty one. -/
theorem turn_eq_zero (hp : p.msb = true) {x : BitVec w} (h : turn p x = 0#w) : x = 0#w := by
  unfold turn at h
  cases hlow : x.getLsbD 0 with
  | true =>
      rw [hlow, if_pos rfl, BitVec.xor_eq_zero_iff] at h
      -- a register that has moved down has no top bit
      have hmsb : (x >>> 1).msb = false := by
        rw [BitVec.msb_ushiftRight]
        rfl
      rw [h, hp] at hmsb
      cases hmsb
  | false =>
      rw [hlow, if_neg Bool.false_ne_true] at h
      apply BitVec.eq_of_getLsbD_eq
      intro i hi
      rw [BitVec.getLsbD_zero]
      cases i with
      | zero => exact hlow
      | succ i =>
          have hbit := congrArg (fun y : BitVec w => y.getLsbD i) h
          rw [BitVec.getLsbD_ushiftRight, BitVec.getLsbD_zero, Nat.add_comm] at hbit
          exact hbit

theorem turn_inj (hp : p.msb = true) {x y : BitVec w} (h : turn p x = turn p y) : x = y := by
  have hzero : turn p (x ^^^ y) = 0#w := by
    rw [turn_xor, h, BitVec.xor_self]
  exact BitVec.xor_eq_zero_iff.mp (turn_eq_zero hp hzero)

theorem turns_inj (hp : p.msb = true) (n : Nat) {x y : BitVec w}
    (h : turns p n x = turns p n y) : x = y := by
  induction n with
  | zero => exact h
  | succ n ih => exact ih (turn_inj hp h)

/-! ## Bytes -/

theorem xor_right_inj {x y z : BitVec w} (h : x ^^^ z = y ^^^ z) : x = y := by
  have hz : x ^^^ z ^^^ z = y ^^^ z ^^^ z := by rw [h]
  rwa [BitVec.xor_assoc, BitVec.xor_assoc, BitVec.xor_self, BitVec.xor_zero,
    BitVec.xor_zero] at hz

/-- The same bytes keep two registers apart. -/
theorem foldl_absorb_inj (hp : p.msb = true) (l : List UInt8) {x y : BitVec w}
    (h : l.foldl (absorb p) x = l.foldl (absorb p) y) : x = y := by
  induction l generalizing x y with
  | nil => exact h
  | cons byte l ih => exact xor_right_inj (turns_inj hp 8 (ih h))

/-- The number of a list is its first byte beside that of the others, moved up. -/
theorem ofNat_ofLE_cons (byte : UInt8) (l : List UInt8) :
    BitVec.ofNat w (ofLE (byte :: l)) =
      BitVec.ofNat w byte.toNat ^^^ (BitVec.ofNat w (ofLE l) <<< 8) := by
  have hbyte : byte.toNat < 2 ^ 8 := byte.toNat_lt
  apply BitVec.eq_of_getLsbD_eq
  intro i hi
  have hsum : ofLE (byte :: l) = 2 ^ 8 * ofLE l + byte.toNat := by
    show byte.toNat + 256 * ofLE l = _
    omega
  rw [BitVec.getLsbD_xor, BitVec.getLsbD_shiftLeft, BitVec.getLsbD_ofNat, BitVec.getLsbD_ofNat,
    BitVec.getLsbD_ofNat, hsum, Nat.testBit_two_pow_mul_add _ hbyte]
  by_cases hlow : i < 8
  · simp [hi, hlow]
  · have hhigh : byte.toNat.testBit i = false := by
      apply Nat.testBit_lt_two_pow
      exact hbyte.trans_le (Nat.pow_le_pow_right (by decide) (by omega))
    have hrest : i - 8 < w := by omega
    simp [hi, hlow, hhigh, hrest]

/-- Bytes that fit in the register can be taken in all at once. -/
theorem foldl_absorb (l : List UInt8) (hl : 8 * l.length ≤ w) (x : BitVec w) :
    l.foldl (absorb p) x = turns p (8 * l.length) (x ^^^ BitVec.ofNat w (ofLE l)) := by
  induction l generalizing x with
  | nil =>
      show x = x ^^^ BitVec.ofNat w 0
      rw [BitVec.xor_zero]
  | cons byte l ih =>
      rw [List.length_cons] at hl
      have hlt : ofLE l < 2 ^ (8 * l.length) := by
        have := ofLE_lt l
        rwa [show (256 : Nat) = 2 ^ 8 by rfl, ← pow_mul] at this
      -- eight turns bring down what was moved up by eight
      have hdown : turns p 8 (BitVec.ofNat w (ofLE l) <<< 8) = BitVec.ofNat w (ofLE l) := by
        rw [turns_clear p 8 fun i hi => by simp [BitVec.getLsbD_shiftLeft, hi]]
        apply BitVec.eq_of_getLsbD_eq
        intro i hi
        rw [BitVec.getLsbD_ushiftRight, BitVec.getLsbD_shiftLeft, BitVec.getLsbD_ofNat,
          BitVec.getLsbD_ofNat]
        by_cases hin : 8 + i < w
        · simp [hin, hi]
        · have hbit : (ofLE l).testBit i = false := by
            apply Nat.testBit_lt_two_pow
            exact hlt.trans_le (Nat.pow_le_pow_right (by decide) (by omega))
          simp [hin, hbit]
      rw [List.foldl_cons, ih (by omega), List.length_cons, Nat.mul_add, Nat.add_comm,
        turns_add, ofNat_ofLE_cons, ← BitVec.xor_assoc, turns_xor p 8, hdown]
      rfl

/-- One burst that fits in the register is never lost. -/
theorem foldl_absorb_ne (hp : p.msb = true) {l l' : List UInt8} (hlength : l.length = l'.length)
    (hl : 8 * l.length ≤ w) (hne : l ≠ l') (before after : List UInt8) (x : BitVec w) :
    (before ++ l ++ after).foldl (absorb p) x ≠ (before ++ l' ++ after).foldl (absorb p) x := by
  intro h
  rw [List.foldl_append, List.foldl_append, List.foldl_append, List.foldl_append] at h
  have hwindow := foldl_absorb_inj hp after h
  rw [foldl_absorb l hl, foldl_absorb l' (hlength ▸ hl), hlength] at hwindow
  have hword := turns_inj hp _ hwindow
  rw [BitVec.xor_comm, BitVec.xor_comm _ (BitVec.ofNat w (ofLE l'))] at hword
  have hnumber := congrArg BitVec.toNat (xor_right_inj hword)
  have hsmall : ∀ k : List UInt8, 8 * k.length ≤ w → ofLE k < 2 ^ w := by
    intro k hk
    have := ofLE_lt k
    rw [show (256 : Nat) = 2 ^ 8 by rfl, ← pow_mul] at this
    exact this.trans_le (Nat.pow_le_pow_right (by decide) hk)
  rw [BitVec.toNat_ofNat, BitVec.toNat_ofNat, Nat.mod_eq_of_lt (hsmall l hl),
    Nat.mod_eq_of_lt (hsmall l' (hlength ▸ hl))] at hnumber
  apply hne
  calc l = toLE l.length (ofLE l) := (toLE_ofLE l).symm
    _ = toLE l'.length (ofLE l') := by rw [hlength, hnumber]
    _ = l' := toLE_ofLE l'

end Crc
