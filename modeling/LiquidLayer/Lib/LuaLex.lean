/-
  The lexical rules of Lua 5.4 (llex.c), as far as index expressions need them: names, reserved
  words, short string literals with their escapes, single-character tokens, and the suffixes
  `.name` and `["key"]` of an expression (`suffixedexp` of lparser.c).

  Text that begins a numeral, a comment, a long bracket, an operator of several characters or a
  `\u` escape is outside this fragment: reading it fails.

  `lexToken`: one token off the front of a text. `tokens`: the whole text.
  `readExpression`: the expression a text denotes.
-/
import Mathlib

namespace LuaLex

/-! ## Characters -/

def newline : UInt8 := 10
def carriageReturn : UInt8 := 13
def space : UInt8 := 32
def doubleQuote : UInt8 := 34
def singleQuote : UInt8 := 39
def dot : UInt8 := 46
def leftBracket : UInt8 := 91
def backslash : UInt8 := 92
def rightBracket : UInt8 := 93

/-- `lisdigit`. -/
def isDigit (c : UInt8) : Bool := decide (48 ≤ c) && decide (c ≤ 57)

/-- `lislalpha`: the underscore counts as a letter. -/
def isLetter (c : UInt8) : Bool :=
  (decide (65 ≤ c) && decide (c ≤ 90)) || (decide (97 ≤ c) && decide (c ≤ 122)) || c == 95

/-- `lislalnum`. -/
def isWordByte (c : UInt8) : Bool := isLetter c || isDigit c

/-- `lisspace`. -/
def isSpace (c : UInt8) : Bool := c == space || (decide (9 ≤ c) && decide (c ≤ 13))

/-- The value of a hexadecimal digit. -/
def hexValue (c : UInt8) : Option UInt8 :=
  if isDigit c then some (c - 48)
  else if 97 ≤ c ∧ c ≤ 102 then some (c - 87)
  else if 65 ≤ c ∧ c ≤ 70 then some (c - 55)
  else none

/-- `luaX_tokens` up to the reserved words' end. -/
def reservedWords : List (List UInt8) :=
  ["and", "break", "do", "else", "elseif", "end", "false", "for", "function", "goto", "if",
    "in", "local", "nil", "not", "or", "repeat", "return", "then", "true", "until",
    "while"].map fun word => word.toUTF8.data.toList

inductive Token where
  | name (text : List UInt8)
  | reserved (word : List UInt8)
  | string (text : List UInt8)
  | char (c : UInt8)
deriving DecidableEq, Repr

/-! ## Short strings -/

/-- `readdecesc`: at most `digits` more digits of a decimal escape worth `value` so far, and the
    text after them. -/
def decimalEscape : Nat → Nat → List UInt8 → Nat × List UInt8
  | digits + 1, value, c :: rest =>
      if isDigit c then decimalEscape digits (10 * value + (c.toNat - 48)) rest
      else (value, c :: rest)
  | _, value, rest => (value, rest)

/-- The byte an escape of one letter stands for. -/
def letterEscape (c : UInt8) : Option UInt8 :=
  if c = 97 then some 7
  else if c = 98 then some 8
  else if c = 102 then some 12
  else if c = 110 then some 10
  else if c = 114 then some 13
  else if c = 116 then some 9
  else if c = 118 then some 11
  else if c = backslash ∨ c = doubleQuote ∨ c = singleQuote then some c
  else none

/-- `inclinenumber`: the text after a line break, which may be of two bytes. -/
def afterNewline (first : UInt8) : List UInt8 → List UInt8
  | second :: rest =>
      if (second = newline ∨ second = carriageReturn) ∧ second ≠ first then rest
      else second :: rest
  | [] => []

/-- What an escape sequence adds to the string, with the text after it. `text` starts after the
    backslash. -/
def escapeSequence : List UInt8 → Option (List UInt8 × List UInt8)
  | [] => none
  | c :: rest =>
      match letterEscape c with
      | some byte => some ([byte], rest)
      | none =>
          if c = newline ∨ c = carriageReturn then some ([newline], afterNewline c rest)
          else if c = 122 then some ([], rest.dropWhile isSpace)
          else if c = 120 then
            match rest with
            | high :: low :: rest =>
                match hexValue high, hexValue low with
                | some h, some l => some ([16 * h + l], rest)
                | _, _ => none
            | _ => none
          else if isDigit c then
            let read := decimalEscape 3 0 (c :: rest)
            if read.1 ≤ 255 then some ([UInt8.ofNat read.1], read.2) else none
          else none

/-- `read_string` after the opening delimiter: the string and the text after the closing one.
    `turns` bounds the turns of the loop. -/
def readString (delimiter : UInt8) : Nat → List UInt8 → Option (List UInt8 × List UInt8)
  | 0, _ => none
  | _ + 1, [] => none
  | turns + 1, c :: rest =>
      if c = delimiter then some ([], rest)
      else if c = newline ∨ c = carriageReturn then none
      else if c = backslash then
        match escapeSequence rest with
        | none => none
        | some (bytes, rest) =>
            match readString delimiter turns rest with
            | none => none
            | some (text, rest) => some (bytes ++ text, rest)
      else
        match readString delimiter turns rest with
        | none => none
        | some (text, rest) => some (c :: text, rest)

/-! ## Tokens -/

/-- A word is a reserved one or a name. -/
def wordToken (word : List UInt8) : Token :=
  if word ∈ reservedWords then .reserved word else .name word

/-- The characters that begin tokens outside the fragment: `-`, `=`, `<`, `>`, `/`, `~`, `:` and
    the digits. -/
def beginsOther (c : UInt8) : Bool :=
  c == 45 || c == 61 || c == 60 || c == 62 || c == 47 || c == 126 || c == 58 || isDigit c

/-- `llex` on a text that does not start with a space. -/
def lexToken : List UInt8 → Option (Token × List UInt8)
  | [] => none
  | c :: rest =>
      if isLetter c then
        some (wordToken (c :: rest.takeWhile isWordByte), rest.dropWhile isWordByte)
      else if c = doubleQuote ∨ c = singleQuote then
        (readString c (rest.length + 1) rest).map fun read => (.string read.1, read.2)
      else if c = leftBracket then
        -- `[[` and `[=` begin a long bracket
        if rest.head? = some leftBracket ∨ rest.head? = some 61 then none
        else some (.char c, rest)
      else if c = dot then
        if rest.head? = some dot ∨ (rest.head?.any isDigit) = true then none
        else some (.char c, rest)
      else if beginsOther c then none
      else some (.char c, rest)

/-- The tokens of a text, with a bound on their number. -/
def tokens : Nat → List UInt8 → Option (List Token)
  | turns, text =>
      match text.dropWhile isSpace with
      | [] => some []
      | c :: rest =>
          match turns with
          | 0 => none
          | turns + 1 =>
              match lexToken (c :: rest) with
              | none => none
              | some (token, rest) => (tokens turns rest).map (token :: ·)

/-! ## Index expressions -/

inductive Expr where
  | name (text : List UInt8)
  | index (table : Expr) (key : List UInt8)
deriving DecidableEq, Repr

/-- The loop of `suffixedexp`. -/
def suffixes (expr : Expr) : List Token → Option Expr
  | [] => some expr
  | .char c :: .name key :: rest =>
      if c = dot then suffixes (.index expr key) rest else none
  | .char c :: .string key :: .char c' :: rest =>
      if c = leftBracket ∧ c' = rightBracket then suffixes (.index expr key) rest else none
  | _ => none

/-- The index expression a text denotes. -/
def readExpression (text : List UInt8) : Option Expr :=
  match tokens text.length text with
  | some (.name text :: rest) => suffixes (.name text) rest
  | _ => none

/-! ## Rules -/

theorem not_isSpace_of_isLetter {c : UInt8} (h : isLetter c = true) : isSpace c = false :=
  (by decide +kernel : ∀ c : UInt8, isLetter c = true → isSpace c = false) c h

/-- More turns than are needed change nothing. -/
theorem tokens_mono {m n : Nat} {text : List UInt8} {read : List Token}
    (h : tokens m text = some read) (hmn : m ≤ n) : tokens n text = some read := by
  induction m generalizing n text read with
  | zero =>
      unfold tokens at h ⊢
      split at h
      · exact h
      · cases h
  | succ m ih =>
      obtain ⟨n, rfl⟩ : ∃ k, n = k + 1 := ⟨n - 1, by omega⟩
      unfold tokens at h ⊢
      split at h
      · exact h
      · next c rest hd =>
          dsimp only at h ⊢
          cases hl : lexToken (c :: rest) with
          | none => rw [hl] at h; cases h
          | some p =>
              rw [hl] at h
              dsimp only at h ⊢
              obtain ⟨read', hr, rfl⟩ := Option.map_eq_some_iff.mp h
              rw [ih hr (by omega), Option.map_some]

theorem tokens_nil (n : Nat) : tokens n [] = some [] := by
  unfold tokens
  rfl

/-- One token off the front. -/
theorem tokens_cons {n : Nat} {c : UInt8} {text rest : List UInt8} {token : Token}
    {read : List Token} (hc : isSpace c = false) (ht : lexToken (c :: text) = some (token, rest))
    (hr : tokens n rest = some read) : tokens (n + 1) (c :: text) = some (token :: read) := by
  unfold tokens
  rw [List.dropWhile_cons_of_neg (by simp [hc])]
  dsimp only
  rw [ht]
  dsimp only
  rw [hr, Option.map_some]

/-- A word ends where its bytes end. -/
theorem lexToken_word {c : UInt8} {word rest : List UInt8} (hc : isLetter c = true)
    (hw : ∀ b ∈ word, isWordByte b = true) (hr : rest.head?.all (fun b => !isWordByte b) = true) :
    lexToken (c :: word ++ rest) = some (wordToken (c :: word), rest) := by
  have hdrop : rest.dropWhile isWordByte = rest := by
    cases rest with
    | nil => rfl
    | cons b rest => exact List.dropWhile_cons_of_neg (by simpa using hr)
  have htake : rest.takeWhile isWordByte = [] := by
    cases rest with
    | nil => rfl
    | cons b rest => exact List.takeWhile_cons_of_neg (by simpa using hr)
  rw [List.cons_append, lexToken, if_pos hc, List.takeWhile_append_of_pos hw,
    List.dropWhile_append_of_pos hw, hdrop, htake, List.append_nil]

/-- An opening bracket before a string literal. -/
theorem lexToken_leftBracket (text : List UInt8) :
    lexToken (leftBracket :: doubleQuote :: text) =
      some (.char leftBracket, doubleQuote :: text) := by
  simp [lexToken, leftBracket, doubleQuote, singleQuote, isLetter]

theorem lexToken_rightBracket (text : List UInt8) :
    lexToken (rightBracket :: text) = some (.char rightBracket, text) := by
  simp [lexToken, leftBracket, rightBracket, doubleQuote, singleQuote, isLetter, dot,
    beginsOther, isDigit]

/-- A dot before a word. -/
theorem lexToken_dot {c : UInt8} (text : List UInt8) (hc : isLetter c = true) :
    lexToken (dot :: c :: text) = some (.char dot, c :: text) := by
  have hdot : c ≠ dot ∧ isDigit c = false :=
    (by decide +kernel : ∀ c : UInt8, isLetter c = true → c ≠ dot ∧ isDigit c = false) c hc
  simp [lexToken, leftBracket, doubleQuote, singleQuote, isLetter, dot, hdot.2]
  exact hdot.1

/-- A byte that stands for itself in a short string. -/
theorem readString_plain {delimiter c : UInt8} {turns : Nat} {text read rest : List UInt8}
    (hd : c ≠ delimiter) (hn : c ≠ newline) (hr : c ≠ carriageReturn) (hb : c ≠ backslash)
    (h : readString delimiter turns text = some (read, rest)) :
    readString delimiter (turns + 1) (c :: text) = some (c :: read, rest) := by
  simp only [readString, hd, hn, hr, hb, or_self, if_false, h]

/-- An escape sequence in a short string. -/
theorem readString_escape {delimiter : UInt8} {turns : Nat}
    {text text' bytes read rest : List UInt8} (hd : backslash ≠ delimiter)
    (he : escapeSequence text = some (bytes, text'))
    (h : readString delimiter turns text' = some (read, rest)) :
    readString delimiter (turns + 1) (backslash :: text) = some (bytes ++ read, rest) := by
  have hn : ¬(backslash = newline ∨ backslash = carriageReturn) := by decide
  simp only [readString, hd, hn, if_false, if_true, he, h]

/-- Three digits make one byte, whatever follows them. -/
theorem escapeSequence_decimal {a b c : UInt8} (rest : List UInt8) (ha : isDigit a = true)
    (hb : isDigit b = true) (hc : isDigit c = true)
    (hle : 100 * (a.toNat - 48) + 10 * (b.toNat - 48) + (c.toNat - 48) ≤ 255) :
    escapeSequence (a :: b :: c :: rest) =
      some ([UInt8.ofNat (100 * (a.toNat - 48) + 10 * (b.toNat - 48) + (c.toNat - 48))], rest) := by
  have hplain : letterEscape a = none ∧ ¬(a = newline ∨ a = carriageReturn) ∧ a ≠ 122 ∧
      a ≠ 120 :=
    (by decide +kernel : ∀ a : UInt8, isDigit a = true → letterEscape a = none ∧
      ¬(a = newline ∨ a = carriageReturn) ∧ a ≠ 122 ∧ a ≠ 120) a ha
  have hread : decimalEscape 3 0 (a :: b :: c :: rest) =
      (100 * (a.toNat - 48) + 10 * (b.toNat - 48) + (c.toNat - 48), rest) := by
    simp only [decimalEscape, ha, hb, hc, if_true, Prod.mk.injEq, and_true]
    omega
  obtain ⟨hl, hn, hz, hx⟩ := hplain
  simp only [escapeSequence, hl, hn, hz, hx, ha, if_false, if_true, hread, hle]

end LuaLex
