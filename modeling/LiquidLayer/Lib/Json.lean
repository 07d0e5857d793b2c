/-
  JSON texts as Python's `json` module reads them, over code points (a Python `str` may hold lone
  surrogates, which a `\u` escape can name).

  The interpreter's own bounds are parameters (`Limits`). Every failure is `none`: a text that is
  no JSON, one nested too deeply, an integer with too many digits, and what the two hooks of the
  decoder refuse here, the constants `NaN` and `Infinity` and an object that repeats a field.

  * `scanString`: a string literal from behind its opening quote.
  * `parseValue`, `loads`: a value; `parse_fuel` says that the bound on the turns never cuts a
    text short.
  * `dumpable`: whether `json.dumps` can write a value.
-/
import LiquidLayer.Lib.Utf8

namespace Json

/-- A Python `str`. -/
abbrev Text := List Nat

def text (s : String) : Text := s.toList.map Char.toNat

inductive Value where
  | null
  | boolean (value : Bool)
  | integer (value : Int)
  | float (literal : Text)
  | string (value : Text)
  | array (items : List Value)
  | object (fields : List (Text × Value))

structure Limits where
  /-- How deeply arrays and objects may nest. -/
  recursion : Nat
  /-- The digits an integer may have; 0 is no bound. -/
  intDigits : Nat

/-! ## Strings -/

def hexDigit (c : Nat) : Option Nat :=
  if 48 ≤ c ∧ c ≤ 57 then some (c - 48)
  else if 97 ≤ c ∧ c ≤ 102 then some (c - 87)
  else if 65 ≤ c ∧ c ≤ 70 then some (c - 55)
  else none

/-- The code point of a `\u` escape. -/
def hexQuad (a b c d : Nat) : Option Nat := do
  let a ← hexDigit a
  let b ← hexDigit b
  let c ← hexDigit c
  let d ← hexDigit d
  return ((a * 16 + b) * 16 + c) * 16 + d

/-- What a one-character escape stands for. -/
def simpleEscape (c : Nat) : Option Nat :=
  if c = 34 then some 34
  else if c = 92 then some 92
  else if c = 47 then some 47
  else if c = 98 then some 8
  else if c = 102 then some 12
  else if c = 110 then some 10
  else if c = 114 then some 13
  else if c = 116 then some 9
  else none

/-- The code points up to the closing quote, and the text behind it. -/
def scanString : Text → Option (Text × Text)
  | [] => none
  | 92 :: 117 :: a :: b :: c :: d :: rest =>
      match hexQuad a b c d, scanString rest with
      | some code, some (scanned, rest) => some (code :: scanned, rest)
      | _, _ => none
  | 92 :: c :: rest =>
      match simpleEscape c, scanString rest with
      | some code, some (scanned, rest) => some (code :: scanned, rest)
      | _, _ => none
  | c :: rest =>
      if c = 34 then some ([], rest)
      else if c < 32 ∨ c = 92 then none
      else
        match scanString rest with
        | some (scanned, rest) => some (c :: scanned, rest)
        | none => none

/-- Two escapes that name a surrogate pair are one code point. -/
def joinSurrogates : Text → Text
  | [] => []
  | [c] => [c]
  | high :: low :: rest =>
      if 0xd800 ≤ high ∧ high ≤ 0xdbff ∧ 0xdc00 ≤ low ∧ low ≤ 0xdfff then
        (0x10000 + (high - 0xd800) * 0x400 + (low - 0xdc00)) :: joinSurrogates rest
      else high :: joinSurrogates (low :: rest)

/-! ## Numbers -/

def isDigit (c : Nat) : Bool := decide (48 ≤ c) && decide (c ≤ 57)

def digitsValue (digits : Text) : Nat := digits.foldl (fun n c => n * 10 + (c - 48)) 0

/-- A part of a number that is there only with at least one digit: `.` or `e`, perhaps a sign. -/
def numberPart (isStart isSign : Nat → Bool) : Text → Text × Text
  | [] => ([], [])
  | c :: rest =>
      if isStart c then
        let signed :=
          match rest with
          | s :: _ => if isSign s then [s] else []
          | [] => []
        let unsigned := rest.drop signed.length
        let digits := unsigned.takeWhile isDigit
        if digits.isEmpty then ([], c :: rest)
        else (c :: signed ++ digits, unsigned.drop digits.length)
      else ([], c :: rest)

def fraction : Text → Text × Text := numberPart (· == 46) fun _ => false

def exponent : Text → Text × Text :=
  numberPart (fun c => c == 101 || c == 69) fun c => c == 43 || c == 45

def parseNumber (limits : Limits) (input : Text) : Option (Value × Text) :=
  let negative := input.head? == some 45
  let unsigned := if negative then input.drop 1 else input
  let digits :=
    match unsigned with
    | 48 :: _ => [48]
    | _ => unsigned.takeWhile isDigit
  if digits.isEmpty then none
  else
    let (fractional, rest) := fraction (unsigned.drop digits.length)
    let (exponential, rest) := exponent rest
    if fractional.isEmpty && exponential.isEmpty then
      if 0 < limits.intDigits ∧ limits.intDigits < digits.length then none
      else
        let magnitude : Int := digitsValue digits
        some (.integer (if negative then -magnitude else magnitude), rest)
    else
      some (.float ((if negative then [45] else []) ++ digits ++ fractional ++ exponential), rest)

/-! ## Values -/

def isSpace (c : Nat) : Bool := c == 32 || c == 9 || c == 10 || c == 13

def skipSpace (input : Text) : Text := input.dropWhile isSpace

/-- `null`, `true`, `false` or a number. -/
def parseScalar (limits : Limits) (input : Text) : Option (Value × Text) :=
  if (text "null").isPrefixOf input then some (.null, input.drop 4)
  else if (text "true").isPrefixOf input then some (.boolean true, input.drop 4)
  else if (text "false").isPrefixOf input then some (.boolean false, input.drop 5)
  else parseNumber limits input

def parseString (input : Text) : Option (Text × Text) :=
  (scanString input).map fun scanned => (joinSurrogates scanned.1, scanned.2)

def uniqueFields (fields : List (Text × Value)) : Option Value :=
  if (fields.map Prod.fst).Nodup then some (.object fields) else none

mutual

/-- `depth` is how many arrays and objects may still be opened. -/
def parseValue (limits : Limits) : Nat → Nat → Text → Option (Value × Text)
  | 0, _, _ => none
  | turns + 1, depth, input =>
      match input with
      | 34 :: rest => (parseString rest).map fun parsed => (.string parsed.1, parsed.2)
      | 91 :: rest =>
          if depth = 0 then none
          else if (skipSpace rest).head? = some 93 then some (.array [], (skipSpace rest).drop 1)
          else
            match parseItems limits turns (depth - 1) (skipSpace rest) with
            | some (items, rest) => some (.array items, rest)
            | none => none
      | 123 :: rest =>
          if depth = 0 then none
          else if (skipSpace rest).head? = some 125 then some (.object [], (skipSpace rest).drop 1)
          else
            match parseFields limits turns (depth - 1) (skipSpace rest) with
            | some (fields, rest) => (uniqueFields fields).map fun value => (value, rest)
            | none => none
      | _ => parseScalar limits input

def parseItems (limits : Limits) : Nat → Nat → Text → Option (List Value × Text)
  | 0, _, _ => none
  | turns + 1, depth, input =>
      match parseValue limits turns depth input with
      | none => none
      | some (item, rest) =>
          match skipSpace rest with
          | 93 :: rest => some ([item], rest)
          | 44 :: rest =>
              match parseItems limits turns depth (skipSpace rest) with
              | some (items, rest) => some (item :: items, rest)
              | none => none
          | _ => none

def parseFields (limits : Limits) : Nat → Nat → Text → Option (List (Text × Value) × Text)
  | 0, _, _ => none
  | turns + 1, depth, input =>
      match input with
      | 34 :: rest =>
          match parseString rest with
          | none => none
          | some (name, rest) =>
              match skipSpace rest with
              | 58 :: rest =>
                  match parseValue limits turns depth (skipSpace rest) with
                  | none => none
                  | some (value, rest) =>
                      match skipSpace rest with
                      | 125 :: rest => some ([(name, value)], rest)
                      | 44 :: rest =>
                          match parseFields limits turns depth (skipSpace rest) with
                          | some (fields, rest) => some ((name, value) :: fields, rest)
                          | none => none
                      | _ => none
              | _ => none
      | _ => none

end

/-! ## Enough turns

  A turn is spent on every value, item and field. An item is a value of the same text, and
  everything else is behind at least one character, so twice the text's length is enough. -/

theorem scanString_length {input scanned rest : Text} (h : scanString input = some (scanned, rest)) :
    rest.length < input.length := by
  fun_induction scanString input generalizing scanned rest with
  | case1 => cases h
  | case2 a b c d tail code scanned' rest' hscan hquad ih =>
      cases h
      have hlt := ih hscan
      simp only [List.length_cons]
      omega
  | case3 => cases h
  | case4 c tail hne code scanned' rest' hscan hescape ih =>
      cases h
      have hlt := ih hscan
      simp only [List.length_cons]
      omega
  | case5 => cases h
  | case6 => 
      cases h
      exact Nat.lt_succ_self _
  | case7 => cases h
  | case8 c tail hne1 hne2 hne3 hne4 scanned' rest' hscan ih =>
      cases h
      have hlt := ih hscan
      simp only [List.length_cons]
      omega
  | case9 => cases h

theorem numberPart_length (isStart isSign : Nat → Bool) (input : Text) :
    (numberPart isStart isSign input).2.length ≤ input.length := by
  cases input with
  | nil => exact le_rfl
  | cons c rest =>
      simp only [numberPart]
      by_cases hstart : isStart c = true
      · simp only [if_pos hstart]
        split_ifs
        · exact le_rfl
        · simp only [List.length_drop, List.length_cons]
          omega
      · rw [if_neg hstart]

theorem parseNumber_length {limits : Limits} {input rest : Text} {value : Value}
    (h : parseNumber limits input = some (value, rest)) : rest.length < input.length := by
  simp only [parseNumber] at h
  generalize hunsigned : (if (input.head? == some 45) = true then input.drop 1 else input) = unsigned
    at h
  have hle : unsigned.length ≤ input.length := by
    rw [← hunsigned]
    split
    · exact (List.drop_sublist 1 input).length_le
    · exact le_rfl
  generalize hdigits : (match unsigned with
    | 48 :: _ => [48]
    | _ => unsigned.takeWhile isDigit) = digits at h
  have hdigitsLe : digits.length ≤ unsigned.length := by
    rw [← hdigits]
    split
    · simp
    · exact (List.takeWhile_sublist _).length_le
  have hfraction := numberPart_length (· == 46) (fun _ => false) (unsigned.drop digits.length)
  have hexponent := numberPart_length (fun c => c == 101 || c == 69) (fun c => c == 43 || c == 45)
    (fraction (unsigned.drop digits.length)).2
  rw [List.length_drop] at hfraction
  have hrest : digits ≠ [] → (exponent (fraction (unsigned.drop digits.length)).2).2.length <
      input.length := by
    intro hne
    have hpos := List.length_pos_of_ne_nil hne
    simp only [exponent, fraction] at hexponent hfraction ⊢
    omega
  split at h
  · cases h
  · next hne =>
      have hne' : digits ≠ [] := fun hnil => hne (by rw [hnil]; rfl)
      split at h
      · split at h
        · cases h
        · cases h
          exact hrest hne'
      · cases h
        exact hrest hne'

theorem parseScalar_length {limits : Limits} {input rest : Text} {value : Value}
    (h : parseScalar limits input = some (value, rest)) : rest.length < input.length := by
  have hprefix : ∀ word : Text, word.isPrefixOf input = true → word.length ≤ input.length :=
    fun word hword => (List.isPrefixOf_iff_prefix.mp hword).length_le
  unfold parseScalar at h
  split at h
  · next hword =>
      cases h
      have hle := hprefix _ hword
      rw [List.length_drop]
      have : (text "null").length = 4 := rfl
      omega
  · split at h
    · next hword =>
        cases h
        have hle := hprefix _ hword
        rw [List.length_drop]
        have : (text "true").length = 4 := rfl
        omega
    · split at h
      · next hword =>
          cases h
          have hle := hprefix _ hword
          rw [List.length_drop]
          have : (text "false").length = 5 := rfl
          omega
      · exact parseNumber_length h

theorem skipSpace_length (input : Text) : (skipSpace input).length ≤ input.length :=
  (List.dropWhile_sublist _).length_le

theorem parseString_length {input parsed rest : Text} (h : parseString input = some (parsed, rest)) :
    rest.length < input.length := by
  obtain ⟨⟨scanned, rest'⟩, hscan, heq⟩ := Option.map_eq_some_iff.mp h
  cases heq
  exact scanString_length hscan

/-- Each of the three leaves a shorter text. -/
theorem parse_length (limits : Limits) (turns : Nat) :
    (∀ depth input value rest, parseValue limits turns depth input = some (value, rest) →
      rest.length < input.length) ∧
    (∀ depth input items rest, parseItems limits turns depth input = some (items, rest) →
      rest.length < input.length) ∧
    (∀ depth input fields rest, parseFields limits turns depth input = some (fields, rest) →
      rest.length < input.length) := by
  induction turns with
  | zero => exact ⟨nofun, nofun, nofun⟩
  | succ turns ih =>
      obtain ⟨ihValue, ihItems, ihFields⟩ := ih
      refine ⟨?_, ?_, ?_⟩
      · intro depth input value rest h
        unfold parseValue at h
        split at h
        · obtain ⟨⟨parsed, rest'⟩, hparsed, heq⟩ := Option.map_eq_some_iff.mp h
          cases heq
          exact (parseString_length hparsed).trans (Nat.lt_succ_self _)
        · next tail =>
            have h₁ := skipSpace_length tail
            split at h
            · cases h
            split at h
            · cases h
              simp only [List.length_drop, List.length_cons]
              omega
            · split at h
              · next items rest' hitems =>
                  cases h
                  have h₂ := ihItems _ _ _ _ hitems
                  rw [List.length_cons]
                  omega
              · cases h
        · next tail =>
            have h₁ := skipSpace_length tail
            split at h
            · cases h
            split at h
            · cases h
              simp only [List.length_drop, List.length_cons]
              omega
            · split at h
              · next fields rest' hfields =>
                  obtain ⟨object, -, heq⟩ := Option.map_eq_some_iff.mp h
                  cases heq
                  have h₂ := ihFields _ _ _ _ hfields
                  rw [List.length_cons]
                  omega
              · cases h
        · exact parseScalar_length h
      · intro depth input items rest h
        unfold parseItems at h
        split at h
        · cases h
        · next item rest₁ hvalue =>
            have h₁ := ihValue _ _ _ _ hvalue
            have h₂ := skipSpace_length rest₁
            split at h
            · next rest₂ hskip =>
                cases h
                rw [hskip, List.length_cons] at h₂
                omega
            · next rest₂ hskip =>
                rw [hskip, List.length_cons] at h₂
                split at h
                · next items' rest₃ hitems =>
                    cases h
                    have h₃ := ihItems _ _ _ _ hitems
                    have h₄ := skipSpace_length rest₂
                    omega
                · cases h
            · cases h
      · intro depth input fields rest h
        unfold parseFields at h
        split at h
        · split at h
          · cases h
          · next tail name rest₁ hname =>
              have h₁ := parseString_length hname
              have h₂ := skipSpace_length rest₁
              split at h
              · next rest₂ hcolon =>
                  rw [hcolon, List.length_cons] at h₂
                  have h₃ := skipSpace_length rest₂
                  split at h
                  · cases h
                  · next value rest₃ hvalue =>
                      have h₄ := ihValue _ _ _ _ hvalue
                      have h₅ := skipSpace_length rest₃
                      rw [List.length_cons]
                      split at h
                      · next rest₄ hend =>
                          cases h
                          rw [hend, List.length_cons] at h₅
                          omega
                      · next rest₄ hcomma =>
                          rw [hcomma, List.length_cons] at h₅
                          have h₆ := skipSpace_length rest₄
                          split at h
                          · next fields' rest₅ hfields =>
                              cases h
                              have h₇ := ihFields _ _ _ _ hfields
                              omega
                          · cases h
                      · cases h
              · cases h
        · cases h

/-- One turn more changes nothing once there are enough. -/
theorem parse_turns (limits : Limits) (turns : Nat) :
    (∀ depth input, 2 * input.length + 1 ≤ turns →
      parseValue limits (turns + 1) depth input = parseValue limits turns depth input) ∧
    (∀ depth input, 2 * input.length + 2 ≤ turns →
      parseItems limits (turns + 1) depth input = parseItems limits turns depth input) ∧
    (∀ depth input, 2 * input.length + 2 ≤ turns →
      parseFields limits (turns + 1) depth input = parseFields limits turns depth input) := by
  induction turns with
  | zero =>
      refine ⟨fun _ _ h => ?_, fun _ _ h => ?_, fun _ _ h => ?_⟩
      · omega
      · omega
      · omega
  | succ turns ih =>
      obtain ⟨ihValue, ihItems, ihFields⟩ := ih
      refine ⟨fun depth input h => ?_, fun depth input h => ?_, fun depth input h => ?_⟩
      · cases input with
        | nil => rfl
        | cons c tail =>
            have hskip := skipSpace_length tail
            rw [List.length_cons] at h
            unfold parseValue
            split
            · rfl
            · next tail' heq =>
                cases heq
                rw [ihItems _ _ (by omega)]
            · next tail' heq =>
                cases heq
                rw [ihFields _ _ (by omega)]
            · rfl
      · unfold parseItems
        rw [ihValue _ _ (by omega)]
        split
        · rfl
        · next item rest hvalue =>
            have hlt := (parse_length limits turns).1 _ _ _ _ hvalue
            have hskip := skipSpace_length rest
            split
            · rfl
            · next rest' hcomma =>
                have hskip' := skipSpace_length rest'
                rw [hcomma, List.length_cons] at hskip
                rw [ihItems _ _ (by omega)]
            · rfl
      · unfold parseFields
        split
        · split
          · rfl
          · next tail name rest hname =>
              have hlt := parseString_length hname
              have hskip := skipSpace_length rest
              rw [List.length_cons] at h
              split
              · next rest' hcolon =>
                  have hskip' := skipSpace_length rest'
                  rw [hcolon, List.length_cons] at hskip
                  rw [ihValue _ _ (by omega)]
                  split
                  · rfl
                  · next value rest₂ hvalue =>
                      have hlt₂ := (parse_length limits turns).1 _ _ _ _ hvalue
                      have hskip₂ := skipSpace_length rest₂
                      split
                      · rfl
                      · next rest₃ hcomma =>
                          have hskip₃ := skipSpace_length rest₃
                          rw [hcomma, List.length_cons] at hskip₂
                          rw [ihFields _ _ (by omega)]
                      · rfl
              · rfl
        · rfl

/-- The bound on the turns never cuts a text short. -/
theorem parse_fuel (limits : Limits) {turns turns' : Nat} {depth : Nat} {input : Text}
    (h : 2 * input.length + 1 ≤ turns) (hturns : turns ≤ turns') :
    parseValue limits turns' depth input = parseValue limits turns depth input := by
  induction turns', hturns using Nat.le_induction with
  | base => rfl
  | succ turns' hle ih => rw [(parse_turns limits turns').1 depth input (h.trans hle), ih]

/-- `json.loads` of a `str`; a leading byte order mark is refused. -/
def loadsText (limits : Limits) (input : Text) : Option Value :=
  if input.head? = some 0xfeff then none
  else
    match parseValue limits (2 * input.length + 1) limits.recursion (skipSpace input) with
    | some (value, rest) => if (skipSpace rest).isEmpty then some value else none
    | none => none

/-- `json.loads(data.decode("utf-8", errors="strict"))`. -/
def loads (limits : Limits) (data : List UInt8) : Option Value :=
  match Utf8.decode data with
  | some chars => loadsText limits (chars.map Char.toNat)
  | none => none

/-! ## Writing

  `json.dumps(value, ensure_ascii=True, allow_nan=False)` refuses a number: a float that is
  infinite, and an integer with too many digits. It can nest what `loads` could. -/

/-- The digits of a literal as an integer, and the power of ten it is multiplied by. -/
def floatParts (literal : Text) : Nat × Int :=
  let unsigned := if literal.head? == some 45 then literal.drop 1 else literal
  let whole := unsigned.takeWhile isDigit
  let (fractional, rest) := fraction (unsigned.drop whole.length)
  let digits := whole ++ fractional.drop 1
  let power : Int :=
    match (exponent rest).1.drop 1 with
    | 45 :: power => -(digitsValue power : Int)
    | 43 :: power => digitsValue power
    | power => digitsValue power
  (digitsValue digits, power - (fractional.drop 1).length)

/-- `float(literal)` is finite: from half a unit above the greatest double on it is not. -/
def finite (literal : Text) : Bool :=
  let (digits, power) := floatParts literal
  decide (digits * 10 ^ power.toNat < (2 ^ 1024 - 2 ^ 970) * 10 ^ (-power).toNat)

def printable (limits : Limits) (n : Int) : Bool :=
  limits.intDigits == 0 || decide (n.natAbs < 10 ^ limits.intDigits)

mutual

def dumpable (limits : Limits) : Value → Bool
  | .integer n => printable limits n
  | .float literal => finite literal
  | .array items => dumpableItems limits items
  | .object fields => dumpableFields limits fields
  | _ => true

def dumpableItems (limits : Limits) : List Value → Bool
  | [] => true
  | item :: items => dumpable limits item && dumpableItems limits items

def dumpableFields (limits : Limits) : List (Text × Value) → Bool
  | [] => true
  | (_, value) :: fields => dumpable limits value && dumpableFields limits fields

end

example : finite (text "1.7976931348623157e308") = true ∧ finite (text "-1.8E+308") = false ∧
    finite (text "0.001e-400") = true := by decide +kernel

end Json
