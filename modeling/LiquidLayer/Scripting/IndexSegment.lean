/-
  Access expressions (LuaValueSchema.cpp, LuaCapabilityManifest.cpp): the text by which a script
  names a component, `access` followed by one index segment for the type and one for the
  component.

  A Lua reader of the expression indexes `access` by exactly the type's name and then by exactly
  the component's name, whatever bytes the two names are made of
  (`accessExpression_faithful`).
-/
import LiquidLayer.Basic
import LiquidLayer.Lib.LuaLex

namespace LiquidLayer

open LuaLex

/-! ## The renderer -/

def isIdentifierStart (byte : UInt8) : Bool :=
  (decide (65 ≤ byte) && decide (byte ≤ 90)) || (decide (97 ≤ byte) && decide (byte ≤ 122)) ||
    byte == 95

def isIdentifierByte (byte : UInt8) : Bool :=
  isIdentifierStart byte || (decide (48 ≤ byte) && decide (byte ≤ 57))

def luaKeywords : List Bytes :=
  ["and", "break", "do", "else", "elseif", "end", "false", "for", "function", "goto", "if",
    "in", "local", "nil", "not", "or", "repeat", "return", "then", "true", "until",
    "while"].map utf8

def isLuaIdentifier (name : Bytes) : Bool :=
  match name with
  | [] => false
  | front :: _ =>
      isIdentifierStart front && name.all isIdentifierByte && !decide (name ∈ luaKeywords)

/-- One turn of the loop in `render_index_segment`. -/
def escapedByte (byte : UInt8) : Bytes :=
  if byte = 34 ∨ byte = 92 then [92, byte]
  else if 0x20 ≤ byte ∧ byte ≤ 0x7e then [byte]
  else [92, 48 + byte / 100, 48 + byte / 10 % 10, 48 + byte % 10]

def renderIndexSegment (name : Bytes) : Bytes :=
  if isLuaIdentifier name then 46 :: name
  else [91, 34] ++ name.flatMap escapedByte ++ [34, 93]

/-- The expression of a capability (`LuaCapabilityManifest::Builder::add`). -/
def accessExpression (scriptTypeName componentName : Bytes) : Bytes :=
  utf8 "access" ++ renderIndexSegment scriptTypeName ++ renderIndexSegment componentName

/-! ## How Lua reads it -/

/-- The renderer and the reader agree on what an identifier is. -/
theorem of_isLuaIdentifier {name : Bytes} (h : isLuaIdentifier name = true) :
    ∃ front rest, name = front :: rest ∧ isLetter front = true ∧
      (∀ b ∈ rest, isWordByte b = true) ∧ wordToken name = .name name := by
  cases name with
  | nil => cases h
  | cons front rest =>
      simp only [isLuaIdentifier, Bool.and_eq_true, Bool.not_eq_true', decide_eq_false_iff_not,
        List.all_eq_true] at h
      obtain ⟨⟨hfront, hall⟩, hword⟩ := h
      refine ⟨front, rest, rfl, hfront, fun b hb => hall b (List.mem_cons_of_mem _ hb), ?_⟩
      have hreserved : front :: rest ∉ reservedWords := hword
      rw [wordToken, if_neg hreserved]

/-- The tokens of one segment. -/
def segmentTokens (name : Bytes) : List Token :=
  if isLuaIdentifier name then [.char dot, .name name]
  else [.char leftBracket, .string name, .char rightBracket]

/-- Every byte of a quoted name is read back. -/
theorem readString_escaped (name rest : Bytes) (turns : Nat) (h : name.length < turns) :
    readString doubleQuote turns (name.flatMap escapedByte ++ doubleQuote :: rest) =
      some (name, rest) := by
  induction name generalizing turns with
  | nil =>
      obtain ⟨turns, rfl⟩ : ∃ k, turns = k + 1 := ⟨turns - 1, by simp at h; omega⟩
      simp [readString]
  | cons byte name ih =>
      obtain ⟨turns, rfl⟩ : ∃ k, turns = k + 1 := ⟨turns - 1, by simp at h; omega⟩
      have hread := ih turns (by simpa using h)
      rw [List.flatMap_cons, List.append_assoc]
      unfold escapedByte
      split
      · next hquoted =>
          -- a quote or a backslash stands behind a backslash
          have hletter : escapeSequence (byte :: (name.flatMap escapedByte ++ doubleQuote :: rest)) =
              some ([byte], name.flatMap escapedByte ++ doubleQuote :: rest) := by
            rcases hquoted with rfl | rfl <;> rfl
          exact readString_escape (by decide) hletter hread
      · next hquoted =>
          obtain ⟨hquote, hbackslash⟩ := not_or.mp hquoted
          split
          · next hprintable =>
              have hline : byte ≠ newline ∧ byte ≠ carriageReturn := by
                constructor <;> rintro rfl <;> exact absurd hprintable.1 (by decide)
              exact readString_plain hquote hline.1 hline.2 hbackslash hread
          · have hdigits : ∀ b : UInt8, isDigit (48 + b / 100) = true ∧
                isDigit (48 + b / 10 % 10) = true ∧ isDigit (48 + b % 10) = true ∧
                100 * ((48 + b / 100).toNat - 48) + 10 * ((48 + b / 10 % 10).toNat - 48) +
                  ((48 + b % 10).toNat - 48) = b.toNat := by decide +kernel
            obtain ⟨ha, hb, hc, hvalue⟩ := hdigits byte
            have hle := byte.toNat_lt
            have hdecimal := escapeSequence_decimal (name.flatMap escapedByte ++ doubleQuote :: rest)
              ha hb hc (by omega)
            rw [hvalue, UInt8.ofNat_toNat] at hdecimal
            exact readString_escape (by decide) hdecimal hread

theorem length_le_flatMap_escapedByte (name : Bytes) :
    name.length ≤ (name.flatMap escapedByte).length := by
  induction name with
  | nil => exact Nat.zero_le _
  | cons byte name ih =>
      have hone : 1 ≤ (escapedByte byte).length := by
        unfold escapedByte
        split
        · simp
        · split <;> simp
      rw [List.flatMap_cons, List.length_append, List.length_cons]
      omega

/-- What follows a name ends it. -/
def EndsWord (rest : Bytes) : Prop := rest.head?.all (fun b => !isWordByte b) = true

theorem endsWord_segment (name rest : Bytes) : EndsWord (renderIndexSegment name ++ rest) := by
  unfold EndsWord renderIndexSegment
  split <;> rfl

/-- A segment is read as its tokens. -/
theorem tokens_segment {n : Nat} {name rest : Bytes} {read : List Token}
    (hend : EndsWord rest) (h : tokens n rest = some read) :
    tokens (n + (segmentTokens name).length) (renderIndexSegment name ++ rest) =
      some (segmentTokens name ++ read) := by
  unfold renderIndexSegment segmentTokens
  by_cases hid : isLuaIdentifier name = true
  · obtain ⟨front, word, rfl, hfront, hword, htoken⟩ := of_isLuaIdentifier hid
    have hname := lexToken_word hfront hword hend
    rw [htoken] at hname
    have hrest := tokens_cons (not_isSpace_of_isLetter hfront) hname h
    rw [if_pos hid, if_pos hid]
    exact tokens_cons (by decide) (lexToken_dot (word ++ rest) hfront) hrest
  · have hclose : tokens (n + 1) (rightBracket :: rest) =
        some (.char rightBracket :: read) :=
      tokens_cons (by decide) (lexToken_rightBracket rest) h
    have hstring : lexToken (doubleQuote ::
        (name.flatMap escapedByte ++ doubleQuote :: rightBracket :: rest)) =
        some (.string name, rightBracket :: rest) := by
      have hread := readString_escaped name (rightBracket :: rest)
        ((name.flatMap escapedByte ++ doubleQuote :: rightBracket :: rest).length + 1) (by
          have := length_le_flatMap_escapedByte name
          rw [List.length_append]
          omega)
      rw [lexToken, if_neg (by decide), if_pos (.inl rfl), hread, Option.map_some]
    have hopen := tokens_cons (by decide) (lexToken_leftBracket _)
      (tokens_cons (by decide) hstring hclose)
    have hsplit : [91, 34] ++ name.flatMap escapedByte ++ [34, 93] ++ rest =
        leftBracket :: doubleQuote ::
          (name.flatMap escapedByte ++ doubleQuote :: rightBracket :: rest) := by
      simp [leftBracket, rightBracket, doubleQuote]
    rw [if_neg hid, if_neg hid, hsplit]
    exact hopen

theorem length_segmentTokens_le (name : Bytes) :
    (segmentTokens name).length ≤ (renderIndexSegment name).length := by
  unfold segmentTokens renderIndexSegment
  by_cases hid : isLuaIdentifier name = true
  · obtain ⟨front, word, rfl, _⟩ := of_isLuaIdentifier hid
    simp [hid]
  · simp [hid]

/-- The parser takes one segment as one indexing. -/
theorem suffixes_segment (expr : Expr) (name : Bytes) (rest : List Token) :
    suffixes expr (segmentTokens name ++ rest) = suffixes (.index expr name) rest := by
  unfold segmentTokens
  split
  · simp [suffixes]
  · simp [suffixes]

theorem lexToken_access {rest : Bytes} (h : EndsWord rest) :
    lexToken (utf8 "access" ++ rest) = some (.name (utf8 "access"), rest) := by
  have hword : ∀ b ∈ utf8 "ccess", isWordByte b = true := by decide +kernel
  have hname : wordToken (utf8 "access") = .name (utf8 "access") := by decide +kernel
  have hread := lexToken_word (by decide : isLetter 97 = true) hword h
  have hsplit : (97 : UInt8) :: utf8 "ccess" = utf8 "access" := by decide +kernel
  rwa [hsplit, hname] at hread

theorem readExpression_accessExpression (scriptTypeName componentName : Bytes) :
    readExpression (accessExpression scriptTypeName componentName) =
      some (.index (.index (.name (utf8 "access")) scriptTypeName) componentName) := by
  have hcomponent := @tokens_segment 0 componentName [] [] rfl (tokens_nil 0)
  have hend : EndsWord (renderIndexSegment componentName) := by
    have := endsWord_segment componentName []
    rwa [List.append_nil] at this
  rw [List.append_nil, List.append_nil] at hcomponent
  have htype := @tokens_segment _ scriptTypeName _ _ hend hcomponent
  have hsplit : (97 : UInt8) :: utf8 "ccess" = utf8 "access" := by decide +kernel
  have haccess := lexToken_access (endsWord_segment scriptTypeName (renderIndexSegment componentName))
  rw [← hsplit, List.cons_append] at haccess
  have hall := tokens_cons (by decide) haccess htype
  rw [← List.cons_append, hsplit, ← List.append_assoc] at hall
  have hlength : 0 + (segmentTokens componentName).length + (segmentTokens scriptTypeName).length + 1 ≤
      (accessExpression scriptTypeName componentName).length := by
    have h₁ := length_segmentTokens_le scriptTypeName
    have h₂ := length_segmentTokens_le componentName
    have h₃ : (utf8 "access").length = 6 := by decide +kernel
    simp only [accessExpression, List.length_append]
    omega
  have hread := tokens_mono hall hlength
  unfold readExpression
  rw [accessExpression] at hread ⊢
  rw [hread]
  dsimp only
  have hlast := suffixes_segment (.index (.name (utf8 "access")) scriptTypeName) componentName []
  rw [List.append_nil] at hlast
  rw [suffixes_segment, hlast]
  rfl

/-- An access expression denotes indexing by exactly the two names, so different names never
    share an expression. -/
theorem accessExpression_faithful :
    (∀ scriptTypeName componentName : Bytes,
      readExpression (accessExpression scriptTypeName componentName) =
        some (.index (.index (.name (utf8 "access")) scriptTypeName) componentName)) ∧
      Function.Injective fun names : Bytes × Bytes => accessExpression names.1 names.2 := by
  refine ⟨readExpression_accessExpression, ?_⟩
  rintro ⟨t, c⟩ ⟨t', c'⟩ h
  have hread := readExpression_accessExpression t c
  have hsame : accessExpression t c = accessExpression t' c' := h
  rw [hsame, readExpression_accessExpression t' c'] at hread
  simp only [Option.some.injEq, Expr.index.injEq] at hread
  rw [hread.1.2, hread.2]

end LiquidLayer
