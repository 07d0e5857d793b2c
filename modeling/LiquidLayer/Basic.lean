/-
  Byte strings, decimal texts and exceptions, as the C++ sources use them.

  A `std::string` is a list of bytes. An exception is its class (only the classes a `catch`
  clause of the sources tells apart) with its `what()` text.
-/
import LiquidLayer.Lib.OrdMap

namespace LiquidLayer

instance instLinearOrderUInt8 : LinearOrder UInt8 where
  le_refl := UInt8.le_refl
  le_trans _ _ _ := UInt8.le_trans
  le_antisymm _ _ := UInt8.le_antisymm
  le_total := UInt8.le_total
  lt_iff_le_not_ge a b := by
    simp only [UInt8.lt_iff_toNat_lt, UInt8.le_iff_toNat_le]
    omega
  toDecidableLE := inferInstance
  toDecidableLT := inferInstance
  toDecidableEq := inferInstance

instance instLinearOrderUInt64 : LinearOrder UInt64 where
  le_refl := UInt64.le_refl
  le_trans _ _ _ := UInt64.le_trans
  le_antisymm _ _ := UInt64.le_antisymm
  le_total := UInt64.le_total
  lt_iff_le_not_ge a b := by
    simp only [UInt64.lt_iff_toNat_lt, UInt64.le_iff_toNat_le]
    omega
  toDecidableLE := inferInstance
  toDecidableLT := inferInstance
  toDecidableEq := inferInstance

instance instLinearOrderUInt32 : LinearOrder UInt32 where
  le_refl := UInt32.le_refl
  le_trans _ _ _ := UInt32.le_trans
  le_antisymm _ _ := UInt32.le_antisymm
  le_total := UInt32.le_total
  lt_iff_le_not_ge a b := by
    simp only [UInt32.lt_iff_toNat_lt, UInt32.le_iff_toNat_le]
    omega
  toDecidableLE := inferInstance
  toDecidableLT := inferInstance
  toDecidableEq := inferInstance

/-- `std::string` and `std::vector<std::uint8_t>`. -/
abbrev Bytes := List UInt8

/-- A name for the proof that every look-up of a byte string in a list takes. -/
instance instLawfulBEqBytes : LawfulBEq Bytes := inferInstance

instance instLawfulBEqUInt64 : LawfulBEq UInt64 := inferInstance

/-- The bytes of a string literal. -/
def utf8 (s : String) : Bytes := s.toUTF8.data.toList

theorem utf8_inj {s t : String} : utf8 s = utf8 t ↔ s = t := by
  constructor
  · intro h
    have harr := Array.toList_inj.mp h
    exact String.toByteArray_inj.mp (ByteArray.ext harr)
  · rintro rfl
    rfl

/-- `std::numeric_limits<std::uint64_t>::max()`. -/
def maxU64 : UInt64 := 0xffffffffffffffff

/-- `std::numeric_limits<std::uint32_t>::max()`. -/
def maxU32 : UInt32 := 0xffffffff

/-! ## `std::to_string` -/

/-- The decimal digits of `n`, most significant first. -/
def decimal (n : Nat) : Bytes :=
  if n = 0 then [48] else (Nat.digits 10 n).reverse.map fun d => UInt8.ofNat (48 + d)

theorem digit_inj {a b : Nat} (ha : a < 10) (hb : b < 10)
    (h : UInt8.ofNat (48 + a) = UInt8.ofNat (48 + b)) : a = b := by
  have h' := congrArg UInt8.toNat h
  simp only [UInt8.toNat_ofNat'] at h'
  omega

theorem map_digit_inj {l₁ l₂ : List Nat} (h₁ : ∀ d ∈ l₁, d < 10) (h₂ : ∀ d ∈ l₂, d < 10)
    (h : (l₁.map fun d => UInt8.ofNat (48 + d)) = l₂.map fun d => UInt8.ofNat (48 + d)) :
    l₁ = l₂ := by
  induction l₁ generalizing l₂ with
  | nil => exact (List.map_eq_nil_iff.mp h.symm).symm
  | cons a l₁ ih =>
      cases l₂ with
      | nil => cases h
      | cons b l₂ =>
          simp only [List.map_cons, List.cons.injEq] at h
          rw [digit_inj (h₁ a List.mem_cons_self) (h₂ b List.mem_cons_self) h.1,
            ih (fun d hd => h₁ d (List.mem_cons_of_mem _ hd))
              (fun d hd => h₂ d (List.mem_cons_of_mem _ hd)) h.2]

theorem decimal_inj {m n : Nat} (h : decimal m = decimal n) : m = n := by
  -- a nonzero number's first digit is not `0`, so `decimal 0` stands alone
  have key : ∀ {n : Nat}, n ≠ 0 →
      [(48 : UInt8)] ≠ (Nat.digits 10 n).reverse.map fun d => UInt8.ofNat (48 + d) := by
    intro n hn he
    have hlen := congrArg List.length he
    simp only [List.length_singleton, List.length_map, List.length_reverse] at hlen
    obtain ⟨d, hd⟩ := List.length_eq_one_iff.mp hlen.symm
    have hdig : d < 10 := Nat.digits_lt_base (by decide) (hd ▸ List.mem_singleton_self d)
    rw [hd] at he
    have h48 : UInt8.ofNat (48 + 0) = UInt8.ofNat (48 + d) := by simpa using he
    have hd0 : 0 = d := digit_inj (by decide) hdig h48
    have hval := Nat.ofDigits_digits 10 n
    rw [hd, ← hd0] at hval
    exact hn (by simpa using hval.symm)
  unfold decimal at h
  split at h
  · next hm =>
      split at h
      · next hn => rw [hm, hn]
      · next hn => exact absurd h (key hn)
  · next hm =>
      split at h
      · exact absurd h.symm (key hm)
      · have hlt : ∀ k : Nat, ∀ d ∈ (Nat.digits 10 k).reverse, d < 10 := fun k d hd =>
          Nat.digits_lt_base (by decide) (List.mem_reverse.mp hd)
        exact Nat.digits_inj_iff.mp (List.reverse_injective (map_digit_inj (hlt m) (hlt n) h))

/-! ## Texts with separators -/

/-- A separator that occurs in neither first part splits both texts at the same place. -/
theorem append_cons_inj {α : Type} {c : α} {a a' b b' : List α} (ha : c ∉ a) (ha' : c ∉ a')
    (h : a ++ c :: b = a' ++ c :: b') : a = a' ∧ b = b' := by
  induction a generalizing a' with
  | nil =>
      cases a' with
      | nil => exact ⟨rfl, (List.cons.inj h).2⟩
      | cons x a' =>
          obtain ⟨hx, _⟩ := List.cons.inj h
          exact absurd (hx ▸ List.mem_cons_self) ha'
  | cons x a ih =>
      cases a' with
      | nil =>
          obtain ⟨hx, _⟩ := List.cons.inj h
          exact absurd (hx ▸ List.mem_cons_self) ha
      | cons x' a' =>
          obtain ⟨hx, h⟩ := List.cons.inj h
          obtain ⟨h1, h2⟩ := ih (fun hc => ha (List.mem_cons_of_mem _ hc))
            (fun hc => ha' (List.mem_cons_of_mem _ hc)) h
          exact ⟨by rw [hx, h1], h2⟩

/-! ## Exceptions -/

/-- The exception classes the sources distinguish. `foreign` is one outside `std::exception`. -/
inductive ExceptionType where
  | invalidArgument
  | logicError
  | runtimeError
  | overflowError
  | outOfRange
  | lengthError
  | eventStoreError
  | foreign
deriving DecidableEq, Repr

/-- A thrown exception. -/
structure Failure where
  type : ExceptionType
  what : Bytes
deriving DecidableEq, Repr

namespace Failure

def invalidArgument (what : String) : Failure := ⟨.invalidArgument, utf8 what⟩
def logicError (what : String) : Failure := ⟨.logicError, utf8 what⟩
def runtimeError (what : String) : Failure := ⟨.runtimeError, utf8 what⟩
def overflowError (what : String) : Failure := ⟨.overflowError, utf8 what⟩
def outOfRange (what : String) : Failure := ⟨.outOfRange, utf8 what⟩
def lengthError (what : String) : Failure := ⟨.lengthError, utf8 what⟩
def eventStoreError (what : String) : Failure := ⟨.eventStoreError, utf8 what⟩

end Failure

/-! ## Computations that may fail -/

section Except

variable {α β ε : Type}

theorem ok_bind (a : α) (f : α → Except ε β) : ((.ok a : Except ε α) >>= f) = f a := rfl

theorem error_bind (e : ε) (f : α → Except ε β) : ((.error e : Except ε α) >>= f) = .error e := rfl

theorem bind_eq_ok {x : Except ε α} {f : α → Except ε β} {b : β} (h : (x >>= f) = .ok b) :
    ∃ a, x = .ok a ∧ f a = .ok b := by
  cases x with
  | error e => cases h
  | ok a => exact ⟨a, rfl, h⟩

end Except

end LiquidLayer
