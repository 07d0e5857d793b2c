/-
  The `Value` of Value.hpp / Value.cpp: the one data type that crosses the event log, the
  adapters and the component codecs.

  * `Value` itself. Object fields are an entry list; in every `Value` the program holds they
    are sorted by key (`Value.Ordered`, the invariant of `std::map`).
  * `validUtf8`: the loop of `valid_utf8`.
  * `validateValue`: `validate_value`, with the node counter threaded through the recursion.
    `validateValue_ok_iff` says what it accepts: every node in bounds (`Value.fits`), and the
    number of nodes counted so far plus those of the value at most `maxTotalNodes`.
-/
import LiquidLayer.Basic

namespace LiquidLayer

/-! ## Limits -/

namespace ValueLimits

def maxDepth : Nat := 32
def maxStringBytes : Nat := 1024 * 1024
def maxByteStringBytes : Nat := 1024 * 1024
def maxArrayItems : Nat := 4096
def maxObjectItems : Nat := 4096
def maxTotalNodes : Nat := 16384

end ValueLimits

/-! ## The type -/

/-- The exponent bits of a double are not all set. -/
def isfinite (bits : UInt64) : Bool := (bits >>> 52) &&& 0x7ff != 0x7ff

/-- The bit pattern of `-0.0`. -/
def negativeZero : UInt64 := 0x8000000000000000

/-- A double as `Value(double)` stores it: finite, and never `-0.0`. -/
structure FiniteDouble where
  bits : UInt64
  finite : isfinite bits = true
  normalised : bits ≠ negativeZero
deriving DecidableEq, Repr

inductive Value where
  | null
  | boolean (value : Bool)
  | signedInteger (value : Int64)
  | unsignedInteger (value : UInt64)
  | double (value : FiniteDouble)
  | string (text : Bytes)
  | bytes (data : Bytes)
  | array (items : List Value)
  | object (fields : List (Bytes × Value))
deriving Repr

/-- `Value::Object`. -/
abbrev Object := List (Bytes × Value)

/-! ### Accessors

  `as_boolean` and its siblings throw `std::bad_variant_access` on another kind; every caller
  in the sources checks `kind()` first, so they are modelled as partial functions. -/

namespace Value

def asBoolean? : Value → Option Bool
  | .boolean b => some b
  | _ => none

def asSignedInteger? : Value → Option Int64
  | .signedInteger i => some i
  | _ => none

def asUnsignedInteger? : Value → Option UInt64
  | .unsignedInteger u => some u
  | _ => none

def asDouble? : Value → Option FiniteDouble
  | .double d => some d
  | _ => none

def asString? : Value → Option Bytes
  | .string text => some text
  | _ => none

def asBytes? : Value → Option Bytes
  | .bytes data => some data
  | _ => none

def asArray? : Value → Option (List Value)
  | .array items => some items
  | _ => none

def asObject? : Value → Option Object
  | .object fields => some fields
  | _ => none

theorem asArray?_eq_some {v : Value} {items : List Value} :
    v.asArray? = some items ↔ v = .array items := by
  cases v <;> simp [asArray?]

theorem asObject?_eq_some {v : Value} {fields : Object} :
    v.asObject? = some fields ↔ v = .object fields := by
  cases v <;> simp [asObject?]

end Value

mutual

/-- `operator==` of two values. -/
def Value.decEq : (a b : Value) → Decidable (a = b)
  | .null, .null => isTrue rfl
  | .null, .boolean _ | .null, .signedInteger _ | .null, .unsignedInteger _ | .null, .double _
  | .null, .string _ | .null, .bytes _ | .null, .array _ | .null, .object _ => isFalse nofun
  | .boolean x, b => decidable_of_iff (b.asBoolean? = some x)
      (by cases b <;> simp [Value.asBoolean?, eq_comm])
  | .signedInteger x, b => decidable_of_iff (b.asSignedInteger? = some x)
      (by cases b <;> simp [Value.asSignedInteger?, eq_comm])
  | .unsignedInteger x, b => decidable_of_iff (b.asUnsignedInteger? = some x)
      (by cases b <;> simp [Value.asUnsignedInteger?, eq_comm])
  | .double x, b => decidable_of_iff (b.asDouble? = some x)
      (by cases b <;> simp [Value.asDouble?, eq_comm])
  | .string x, b => decidable_of_iff (b.asString? = some x)
      (by cases b <;> simp [Value.asString?, eq_comm])
  | .bytes x, b => decidable_of_iff (b.asBytes? = some x)
      (by cases b <;> simp [Value.asBytes?, eq_comm])
  | .array xs, b =>
      match hb : b.asArray? with
      | none => isFalse (by rintro rfl; cases hb)
      | some ys =>
          match decEqItems xs ys with
          | isTrue h => isTrue (by rw [Value.asArray?_eq_some.mp hb, h])
          | isFalse h => isFalse (by rw [Value.asArray?_eq_some.mp hb]; simpa using h)
  | .object xs, b =>
      match hb : b.asObject? with
      | none => isFalse (by rintro rfl; cases hb)
      | some ys =>
          match decEqFields xs ys with
          | isTrue h => isTrue (by rw [Value.asObject?_eq_some.mp hb, h])
          | isFalse h => isFalse (by rw [Value.asObject?_eq_some.mp hb]; simpa using h)

def Value.decEqItems : (a b : List Value) → Decidable (a = b)
  | [], [] => isTrue rfl
  | [], _ :: _ => isFalse nofun
  | _ :: _, [] => isFalse nofun
  | a :: as, b :: bs =>
      match Value.decEq a b, decEqItems as bs with
      | isTrue h, isTrue h' => isTrue (by rw [h, h'])
      | isFalse h, _ => isFalse (by simp [h])
      | _, isFalse h => isFalse (by simp [h])

def Value.decEqFields : (a b : List (Bytes × Value)) → Decidable (a = b)
  | [], [] => isTrue rfl
  | [], _ :: _ => isFalse nofun
  | _ :: _, [] => isFalse nofun
  | (k, a) :: as, (l, b) :: bs =>
      match (inferInstance : Decidable (k = l)), Value.decEq a b, decEqFields as bs with
      | isTrue hk, isTrue h, isTrue h' => isTrue (by rw [hk, h, h'])
      | isFalse h, _, _ => isFalse (by simp [h])
      | _, isFalse h, _ => isFalse (by simp [h])
      | _, _, isFalse h => isFalse (by simp [h])

end

instance : DecidableEq Value := Value.decEq

/-! ## `valid_utf8` -/

/-- The continuation count and the first code-point bits a lead byte announces. -/
def leadByte (first : UInt8) : Option (Nat × UInt32) :=
  if 0xc2 ≤ first ∧ first ≤ 0xdf then some (1, (first &&& 0x1f).toUInt32)
  else if 0xe0 ≤ first ∧ first ≤ 0xef then some (2, (first &&& 0x0f).toUInt32)
  else if 0xf0 ≤ first ∧ first ≤ 0xf4 then some (3, (first &&& 0x07).toUInt32)
  else none

/-- Folds continuation bytes into the code point. -/
def continuationBytes (codePoint : UInt32) : Bytes → Option UInt32
  | [] => some codePoint
  | c :: rest =>
      if c &&& 0xc0 ≠ 0x80 then none
      else continuationBytes ((codePoint <<< 6) ||| (c &&& 0x3f).toUInt32) rest

/-- One turn of the loop: how many bytes follow the lead byte, if the sequence is valid. -/
def utf8Sequence (first : UInt8) (rest : Bytes) : Option Nat :=
  if first ≤ 0x7f then some 0
  else
    match leadByte first with
    | none => none
    | some (count, bits) =>
        if rest.length < count then none
        else
          match continuationBytes bits (rest.take count) with
          | none => none
          | some codePoint =>
              if (count = 2 ∧ codePoint < 0x800) ∨ (count = 3 ∧ codePoint < 0x10000) ∨
                  codePoint > 0x10ffff ∨ (0xd800 ≤ codePoint ∧ codePoint ≤ 0xdfff) then none
              else some count

/-- The loop, with the text's length as the bound on its turns. -/
def validUtf8Loop : Nat → Bytes → Bool
  | _, [] => true
  | 0, _ :: _ => false
  | turns + 1, first :: rest =>
      match utf8Sequence first rest with
      | some count => validUtf8Loop turns (rest.drop count)
      | none => false

def validUtf8 (text : Bytes) : Bool := validUtf8Loop text.length text

/-- An ASCII prefix does not affect validity. -/
theorem validUtf8_ascii_append {a : Bytes} (ha : ∀ b ∈ a, b ≤ 0x7f) (text : Bytes) :
    validUtf8 (a ++ text) = validUtf8 text := by
  induction a with
  | nil => rfl
  | cons b a ih =>
      have hb : utf8Sequence b (a ++ text) = some 0 := if_pos (ha b List.mem_cons_self)
      rw [← ih fun c hc => ha c (List.mem_cons_of_mem _ hc)]
      simp only [validUtf8, List.cons_append, List.length_cons, validUtf8Loop, hb, List.drop_zero]

theorem validUtf8_ascii {a : Bytes} (ha : ∀ b ∈ a, b ≤ 0x7f) : validUtf8 a = true := by
  have := validUtf8_ascii_append ha []
  rwa [List.append_nil] at this

/-! ## `validate_value` -/

open ValueLimits in
mutual

def validateValue : Value → Nat → Nat → Except Failure Nat
  | value, depth, nodes =>
    if depth > maxDepth then throw (.invalidArgument "value nesting limit exceeded")
    else if nodes + 1 > maxTotalNodes then throw (.invalidArgument "value node limit exceeded")
    else
      match value with
      | .null | .boolean _ | .signedInteger _ | .unsignedInteger _ => pure (nodes + 1)
      | .double d =>
          if !isfinite d.bits then throw (.invalidArgument "value double must be finite")
          else pure (nodes + 1)
      | .string text =>
          if text.length > maxStringBytes then
            throw (.invalidArgument "value string limit exceeded")
          else if !validUtf8 text then
            throw (.invalidArgument "value string is not valid UTF-8")
          else pure (nodes + 1)
      | .bytes data =>
          if data.length > maxByteStringBytes then
            throw (.invalidArgument "value byte-string limit exceeded")
          else pure (nodes + 1)
      | .array items =>
          if items.length > maxArrayItems then
            throw (.invalidArgument "value array limit exceeded")
          else validateItems items (depth + 1) (nodes + 1)
      | .object fields =>
          if fields.length > maxObjectItems then
            throw (.invalidArgument "value object limit exceeded")
          else validateFields fields (depth + 1) (nodes + 1)

def validateItems : List Value → Nat → Nat → Except Failure Nat
  | [], _, nodes => pure nodes
  | child :: rest, depth, nodes =>
      match validateValue child depth nodes with
      | .error e => .error e
      | .ok nodes => validateItems rest depth nodes

def validateFields : List (Bytes × Value) → Nat → Nat → Except Failure Nat
  | [], _, nodes => pure nodes
  | (key, child) :: rest, depth, nodes =>
      if key.length > maxStringBytes ∨ validUtf8 key = false then
        throw (.invalidArgument "value object key is invalid")
      else
        match validateValue child depth nodes with
        | .error e => .error e
        | .ok nodes => validateFields rest depth nodes

end

/-- `Value::validate`. -/
def Value.validate (value : Value) : Except Failure Unit :=
  match validateValue value 0 0 with
  | .ok _ => pure ()
  | .error e => throw e

/-- The value passes `validate`. -/
def Value.valid (value : Value) : Bool := (value.validate).isOk

/-! ### What `validate_value` accepts -/

mutual

/-- The number of nodes `validate_value` counts. -/
def Value.nodes : Value → Nat
  | .array items => 1 + nodesItems items
  | .object fields => 1 + nodesFields fields
  | _ => 1

def Value.nodesItems : List Value → Nat
  | [] => 0
  | v :: rest => Value.nodes v + nodesItems rest

def Value.nodesFields : List (Bytes × Value) → Nat
  | [] => 0
  | (_, v) :: rest => Value.nodes v + nodesFields rest

end

open ValueLimits in
mutual

/-- Every node at or below this one is in bounds when it sits at depth `depth`. -/
def Value.fits : Value → Nat → Bool
  | .string text, depth =>
      decide (depth ≤ maxDepth) && decide (text.length ≤ maxStringBytes) && validUtf8 text
  | .bytes data, depth => decide (depth ≤ maxDepth) && decide (data.length ≤ maxByteStringBytes)
  | .array items, depth =>
      decide (depth ≤ maxDepth) && decide (items.length ≤ maxArrayItems) &&
        fitsItems items (depth + 1)
  | .object fields, depth =>
      decide (depth ≤ maxDepth) && decide (fields.length ≤ maxObjectItems) &&
        fitsFields fields (depth + 1)
  | .null, depth | .boolean _, depth | .signedInteger _, depth | .unsignedInteger _, depth
  | .double _, depth => decide (depth ≤ maxDepth)

def Value.fitsItems : List Value → Nat → Bool
  | [], _ => true
  | v :: rest, depth => Value.fits v depth && fitsItems rest depth

def Value.fitsFields : List (Bytes × Value) → Nat → Bool
  | [], _ => true
  | (key, v) :: rest, depth =>
      decide (key.length ≤ maxStringBytes) && validUtf8 key && Value.fits v depth &&
        fitsFields rest depth

end

open ValueLimits in
mutual

theorem validateValue_ok_iff : ∀ (v : Value) (depth n n' : Nat),
    validateValue v depth n = .ok n' ↔
      v.fits depth = true ∧ n' = n + v.nodes ∧ n' ≤ maxTotalNodes
  | v, depth, n, n' => by
      unfold validateValue
      by_cases hd : depth > maxDepth
      · -- no node fits below the nesting limit
        have hfit : v.fits depth = false := by
          cases v <;> simp [Value.fits, Nat.not_le.mpr hd]
        simp [hd, hfit]
      by_cases hn : n + 1 > maxTotalNodes
      · have hpos : 1 ≤ v.nodes := by cases v <;> simp [Value.nodes]
        simp only [hd, hn, if_true, if_false]
        exact ⟨nofun, fun h => by omega⟩
      have hd' : depth ≤ maxDepth := Nat.le_of_not_gt hd
      have hn' : n + 1 ≤ maxTotalNodes := Nat.le_of_not_gt hn
      simp only [hd, hn, if_false]
      cases v with
      | null | boolean | signedInteger | unsignedInteger =>
          simp only [Value.fits, Value.nodes, hd', decide_true, true_and, pure, Except.pure,
            Except.ok.injEq]
          omega
      | double d =>
          simp only [Value.fits, Value.nodes, hd', decide_true, true_and, d.finite,
            Bool.not_true, Bool.false_eq_true, if_false, pure, Except.pure, Except.ok.injEq]
          omega
      | string text =>
          by_cases hl : text.length > maxStringBytes
          · simp [Value.fits, hl, Nat.not_le.mpr hl]
          by_cases hu : validUtf8 text = true
          · simp only [Value.fits, Value.nodes, hd', hl, hu, Nat.le_of_not_gt hl, decide_true,
              Bool.and_self, true_and, Bool.not_true, Bool.false_eq_true, if_false,
              pure, Except.pure, Except.ok.injEq]
            omega
          · simp [Value.fits, hl, hu]
      | bytes data =>
          by_cases hl : data.length > maxByteStringBytes
          · simp [Value.fits, hl, Nat.not_le.mpr hl]
          · simp only [Value.fits, Value.nodes, hd', hl, Nat.le_of_not_gt hl, decide_true,
              Bool.and_self, true_and, if_false, pure, Except.pure, Except.ok.injEq]
            omega
      | array items =>
          by_cases hl : items.length > maxArrayItems
          · simp [Value.fits, hl, Nat.not_le.mpr hl]
          · simp only [hl, if_false, Value.fits, Value.nodes, hd', Nat.le_of_not_gt hl,
              decide_true, Bool.true_and]
            rw [validateItems_ok_iff items (depth + 1) (n + 1) n' hn', Nat.add_assoc]
      | object fields =>
          by_cases hl : fields.length > maxObjectItems
          · simp [Value.fits, hl, Nat.not_le.mpr hl]
          · simp only [hl, if_false, Value.fits, Value.nodes, hd', Nat.le_of_not_gt hl,
              decide_true, Bool.true_and]
            rw [validateFields_ok_iff fields (depth + 1) (n + 1) n' hn', Nat.add_assoc]

theorem validateItems_ok_iff : ∀ (items : List Value) (depth n n' : Nat), n ≤ maxTotalNodes →
    (validateItems items depth n = .ok n' ↔
      Value.fitsItems items depth = true ∧ n' = n + Value.nodesItems items ∧ n' ≤ maxTotalNodes)
  | [], depth, n, n', hn => by
      simp only [validateItems, Value.fitsItems, Value.nodesItems, pure, Except.pure,
        Except.ok.injEq, true_and]
      omega
  | v :: rest, depth, n, n', hn => by
      simp only [validateItems, Value.fitsItems, Value.nodesItems, Bool.and_eq_true]
      cases hv : validateValue v depth n with
      | error e =>
          refine ⟨nofun, fun h => ?_⟩
          have := (validateValue_ok_iff v depth n (n + v.nodes)).mpr ⟨h.1.1, rfl, by omega⟩
          rw [hv] at this
          cases this
      | ok m =>
          obtain ⟨hf, hm, hle⟩ := (validateValue_ok_iff v depth n m).mp hv
          simp only
          rw [validateItems_ok_iff rest depth m n' hle, hf, hm]
          simp only [true_and, Nat.add_assoc]

theorem validateFields_ok_iff : ∀ (fields : List (Bytes × Value)) (depth n n' : Nat),
    n ≤ maxTotalNodes →
    (validateFields fields depth n = .ok n' ↔
      Value.fitsFields fields depth = true ∧ n' = n + Value.nodesFields fields ∧
        n' ≤ maxTotalNodes)
  | [], depth, n, n', hn => by
      simp only [validateFields, Value.fitsFields, Value.nodesFields, pure, Except.pure,
        Except.ok.injEq, true_and]
      omega
  | (key, v) :: rest, depth, n, n', hn => by
      simp only [validateFields, Value.fitsFields, Value.nodesFields, Bool.and_eq_true]
      by_cases hk : key.length > maxStringBytes ∨ validUtf8 key = false
      · rw [if_pos hk]
        refine ⟨nofun, fun h => ?_⟩
        rcases hk with hk | hk
        · exact absurd (of_decide_eq_true h.1.1.1.1) (Nat.not_le.mpr hk)
        · rw [h.1.1.1.2] at hk
          cases hk
      · obtain ⟨hkl, hku⟩ := not_or.mp hk
        rw [if_neg hk]
        cases hv : validateValue v depth n with
        | error e =>
            refine ⟨nofun, fun h => ?_⟩
            have := (validateValue_ok_iff v depth n (n + v.nodes)).mpr ⟨h.1.1.2, rfl, by omega⟩
            rw [hv] at this
            cases this
        | ok m =>
            obtain ⟨hf, hm, hle⟩ := (validateValue_ok_iff v depth n m).mp hv
            simp only
            rw [validateFields_ok_iff rest depth m n' hle, hf, hm]
            simp only [Nat.le_of_not_gt hkl, decide_true, Bool.eq_true_of_not_eq_false hku,
              true_and, Nat.add_assoc]

end

/-- What `Value::validate` accepts. -/
theorem Value.valid_iff (v : Value) :
    v.valid = true ↔ v.fits 0 = true ∧ v.nodes ≤ ValueLimits.maxTotalNodes := by
  have key := validateValue_ok_iff v 0 0
  unfold Value.valid Value.validate
  cases h : validateValue v 0 0 with
  | ok n =>
      obtain ⟨hf, hn, hle⟩ := (key n).mp h
      rw [Nat.zero_add] at hn
      exact ⟨fun _ => ⟨hf, hn ▸ hle⟩, fun _ => rfl⟩
  | error e =>
      refine ⟨nofun, fun hv => ?_⟩
      have := (key v.nodes).mpr ⟨hv.1, (Nat.zero_add _).symm, hv.2⟩
      rw [h] at this
      cases this

/-! ## The invariant of `std::map` -/

mutual

/-- Every object inside the value has its fields in strict key order. -/
def Value.ordered : Value → Bool
  | .array items => orderedItems items
  | .object fields => decide (Assoc.Sorted fields) && orderedFields fields
  | _ => true

def Value.orderedItems : List Value → Bool
  | [] => true
  | v :: rest => Value.ordered v && orderedItems rest

def Value.orderedFields : List (Bytes × Value) → Bool
  | [] => true
  | (_, v) :: rest => Value.ordered v && orderedFields rest

end

end LiquidLayer
