/-
  Little-endian words and bounded reads over byte lists.

  * `toLE` / `ofLE`: a number as a fixed count of bytes, least significant first.
  * `takeBytes`, `takeLE`: reads that fail with a given error when the input is too short.
    `takeBytes_append` runs a read on what was written, `takeBytes_eq_ok` inverts one.
-/
import Mathlib.Data.Nat.Digits.Lemmas

namespace LiquidLayer

/-! ## Little-endian words -/

/-- The lowest `width` bytes of `n`, least significant first. -/
def toLE : Nat → Nat → List UInt8
  | 0, _ => []
  | width + 1, n => UInt8.ofNat n :: toLE width (n / 256)

/-- The number that the bytes spell, least significant first. -/
def ofLE : List UInt8 → Nat
  | [] => 0
  | b :: rest => b.toNat + 256 * ofLE rest

@[simp] theorem length_toLE (width n : Nat) : (toLE width n).length = width := by
  induction width generalizing n with
  | zero => rfl
  | succ width ih => simp [toLE, ih]

theorem ofLE_toLE {width n : Nat} (h : n < 256 ^ width) : ofLE (toLE width n) = n := by
  induction width generalizing n with
  | zero =>
      have hn : n = 0 := by simpa using h
      simp [toLE, ofLE, hn]
  | succ width ih =>
      have hdiv : n / 256 < 256 ^ width := by
        rw [pow_succ] at h
        exact Nat.div_lt_of_lt_mul (by rwa [Nat.mul_comm])
      simp only [toLE, ofLE, ih hdiv, UInt8.toNat_ofNat']
      omega

theorem ofLE_lt (l : List UInt8) : ofLE l < 256 ^ l.length := by
  induction l with
  | nil => simp [ofLE]
  | cons b l ih =>
      have hb : b.toNat < 256 := b.toNat_lt
      simp only [ofLE, List.length_cons, pow_succ]
      omega

theorem toLE_ofLE (l : List UInt8) : toLE l.length (ofLE l) = l := by
  induction l with
  | nil => rfl
  | cons b l ih =>
      have hb : b.toNat < 256 := b.toNat_lt
      have hdiv : (b.toNat + 256 * ofLE l) / 256 = ofLE l := by omega
      have hlow : UInt8.ofNat (b.toNat + 256 * ofLE l) = b := by
        apply UInt8.toNat.inj
        rw [UInt8.toNat_ofNat']
        omega
      simp only [List.length_cons, toLE, ofLE, hdiv, hlow, ih]

theorem toLE_inj {width m n : Nat} (hm : m < 256 ^ width) (hn : n < 256 ^ width)
    (h : toLE width m = toLE width n) : m = n := by
  rw [← ofLE_toLE hm, ← ofLE_toLE hn, h]

/-! ## Reads -/

section Reads

variable {α ε : Type}

/-- The next `count` items and what follows them. -/
def takeBytes (e : ε) (count : Nat) (input : List α) : Except ε (List α × List α) :=
  if count > input.length then .error e else .ok (input.take count, input.drop count)

theorem takeBytes_append {e : ε} {count : Nat} {a : List α} (h : a.length = count)
    (rest : List α) : takeBytes e count (a ++ rest) = .ok (a, rest) := by
  have hlen : ¬ count > (a ++ rest).length := by simp [h]
  rw [takeBytes, if_neg hlen, List.take_left' h, List.drop_left' h]

theorem takeBytes_eq_ok {e : ε} {count : Nat} {input a rest : List α}
    (h : takeBytes e count input = .ok (a, rest)) : input = a ++ rest ∧ a.length = count := by
  unfold takeBytes at h
  split at h
  · cases h
  · next hlen =>
      cases h
      exact ⟨(List.take_append_drop count input).symm, by
        rw [List.length_take, Nat.min_eq_left (Nat.le_of_not_gt hlen)]⟩

/-- The next `width` bytes as a little-endian word, and what follows them. -/
def takeLE (e : ε) (width : Nat) (input : List UInt8) : Except ε (Nat × List UInt8) :=
  match takeBytes e width input with
  | .error e => .error e
  | .ok (a, rest) => .ok (ofLE a, rest)

theorem takeLE_append {e : ε} {width n : Nat} (h : n < 256 ^ width) (rest : List UInt8) :
    takeLE e width (toLE width n ++ rest) = .ok (n, rest) := by
  rw [takeLE, takeBytes_append (length_toLE width n)]
  simp only [ofLE_toLE h]

theorem takeLE_eq_ok {e : ε} {width n : Nat} {input rest : List UInt8}
    (h : takeLE e width input = .ok (n, rest)) :
    input = toLE width n ++ rest ∧ n < 256 ^ width := by
  unfold takeLE at h
  split at h
  · cases h
  · next a r hb =>
      cases h
      obtain ⟨rfl, rfl⟩ := takeBytes_eq_ok hb
      exact ⟨by rw [toLE_ofLE], ofLE_lt a⟩

end Reads

end LiquidLayer
