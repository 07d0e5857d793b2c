/-
  `json_string` of apps/SimulationTrace.cpp: the string literals of the trace.

  `pieces` cuts a byte string into characters and bytes that are part of none;
  `jsonString_render` says that the loop writes them one after another, and `loads_render` that a
  JSON reader gets them back.
-/
import LiquidLayer.Basic
import LiquidLayer.Lib.Json

namespace LiquidLayer

namespace SimulationTrace

/-! ## The loop -/

/-- `HexDigits[n]`. -/
def hexDigit (n : UInt8) : UInt8 := if n < 10 then 48 + n else 87 + n

/-- `\u00` and the two digits of the byte. -/
def escapeByte (byte : UInt8) : Bytes :=
  [92, 117, 48, 48, hexDigit (byte >>> 4), hexDigit (byte &&& 0x0f)]

/-- The length a lead byte announces; 0 for no lead byte. -/
def announced (byte : UInt8) : Nat :=
  if 0xc2 ≤ byte ∧ byte ≤ 0xdf then 2
  else if 0xe0 ≤ byte ∧ byte ≤ 0xef then 3
  else if 0xf0 ≤ byte ∧ byte ≤ 0xf4 then 4
  else 0

/-- `valid`, for the text from the byte on. -/
def validSequence (byte : UInt8) (text : Bytes) : Bool :=
  let length := announced byte
  let second := text.getD 1 0
  let valid := decide (length ≠ 0) && decide (length ≤ text.length) &&
    ((text.take length).drop 1).all fun continuation =>
      decide (continuation ≥ 0x80) && decide (continuation ≤ 0xbf)
  let valid :=
    if valid && length == 3 then
      (decide (byte ≠ 0xe0) || decide (second ≥ 0xa0)) &&
        (decide (byte ≠ 0xed) || decide (second ≤ 0x9f))
    else valid
  if valid && length == 4 then
    (decide (byte ≠ 0xf0) || decide (second ≥ 0x90)) &&
      (decide (byte ≠ 0xf4) || decide (second ≤ 0x8f))
  else valid

/-- The loop, with the text's length as the bound on its turns. -/
def jsonStringLoop : Nat → Bytes → Bytes
  | _, [] => []
  | 0, _ :: _ => []
  | turns + 1, text@(byte :: rest) =>
      if byte = 34 then 92 :: 34 :: jsonStringLoop turns rest
      else if byte = 92 then 92 :: 92 :: jsonStringLoop turns rest
      else if 0x20 ≤ byte ∧ byte ≤ 0x7e then byte :: jsonStringLoop turns rest
      else if validSequence byte text then
        text.take (announced byte) ++ jsonStringLoop turns (text.drop (announced byte))
      else escapeByte byte ++ jsonStringLoop turns rest

def jsonString (value : Bytes) : Bytes := [34] ++ jsonStringLoop value.length value ++ [34]

/-! ## Pieces -/

/-- A piece of a byte string: a character, or a byte that is part of none. -/
inductive Piece where
  | char (c : Char)
  | byte (b : UInt8)

namespace Piece

def bytes : Piece → Bytes
  | char c => String.utf8EncodeChar c
  | byte b => [b]

/-- The number that stands for the piece in a literal's value. -/
def code : Piece → Nat
  | char c => c.toNat
  | byte b => b.toNat

def hexChar (n : Nat) : Char := Char.ofNat (if n < 10 then 48 + n else 87 + n)

def escape (n : Nat) : List Char := ['\\', 'u', '0', '0', hexChar (n / 16), hexChar (n % 16)]

/-- How a literal writes the piece. -/
def render : Piece → List Char
  | char c =>
      if c = '"' then ['\\', '"']
      else if c = '\\' then ['\\', '\\']
      else if c.toNat < 0x20 ∨ c.toNat = 0x7f then escape c.toNat
      else [c]
  | byte b => escape b.toNat

end Piece

/-- The pieces, from the left; `turns` is at least the text's length. -/
def piecesLoop : Nat → Bytes → List Piece
  | _, [] => []
  | 0, _ :: _ => []
  | turns + 1, text@(b :: rest) =>
      match Utf8.sequenceLength text with
      | some n =>
          .char (Char.ofNat (Utf8.codePoint (text.take n))) :: piecesLoop turns (text.drop n)
      | none => .byte b :: piecesLoop turns rest

def pieces (text : Bytes) : List Piece := piecesLoop text.length text

theorem piecesLoop_char {c : Char} (turns : Nat) (text : Bytes) :
    piecesLoop (turns + 1) (String.utf8EncodeChar c ++ text) = .char c :: piecesLoop turns text := by
  have hseq := Utf8.isSequence_iff.mpr ⟨c, rfl⟩
  have hlength := Utf8.sequenceLength_append hseq text
  cases hencode : String.utf8EncodeChar c with
  | nil => rw [hencode] at hseq; cases hseq
  | cons lead rest =>
      rw [hencode, List.cons_append] at hlength
      simp only [List.cons_append, piecesLoop, hlength]
      rw [← List.cons_append, List.drop_left, List.take_left, ← hencode, Utf8.ofNat_codePoint]

theorem piecesLoop_byte {b : UInt8} {rest : Bytes} (turns : Nat)
    (h : Utf8.sequenceLength (b :: rest) = none) :
    piecesLoop (turns + 1) (b :: rest) = .byte b :: piecesLoop turns rest := by
  simp only [piecesLoop, h]

/-- A text is empty, begins with a character, or with a byte that begins none. -/
theorem cases_text (text : Bytes) :
    text = [] ∨ (∃ c rest, text = String.utf8EncodeChar c ++ rest ∧ rest.length < text.length) ∨
      ∃ b rest, text = b :: rest ∧ Utf8.sequenceLength text = none := by
  cases hlength : Utf8.sequenceLength text with
  | none =>
      cases text with
      | nil => exact .inl rfl
      | cons b rest => exact .inr (.inr ⟨b, rest, rfl, rfl⟩)
  | some n =>
      obtain ⟨hle, hseq⟩ := Utf8.sequenceLength_eq_some.mp hlength
      obtain ⟨c, hc⟩ := Utf8.isSequence_iff.mp hseq
      have hpos := Utf8.length_pos_of_isSequence hseq
      refine .inr (.inl ⟨c, text.drop n, by rw [hc, List.take_append_drop], ?_⟩)
      rw [List.length_take] at hpos
      rw [List.length_drop]
      omega

theorem piecesLoop_bytes {turns : Nat} {text : Bytes} (h : text.length ≤ turns) :
    (piecesLoop turns text).flatMap Piece.bytes = text := by
  induction turns generalizing text with
  | zero =>
      have hnil : text = [] := List.eq_nil_of_length_eq_zero (Nat.le_zero.mp h)
      rw [hnil]
      rfl
  | succ turns ih =>
      rcases cases_text text with rfl | ⟨c, rest, rfl, hlt⟩ | ⟨b, rest, rfl, hnone⟩
      · rfl
      · rw [piecesLoop_char, List.flatMap_cons, ih (by omega)]
        rfl
      · rw [piecesLoop_byte turns hnone, List.flatMap_cons, ih (Nat.le_of_succ_le_succ h)]
        rfl

/-- Every sequence in the text is one of the characters among the pieces. -/
theorem piecesLoop_occurs {turns : Nat} {text : Bytes} (h : text.length ≤ turns)
    {pre seq post : Bytes} (hseq : Utf8.isSequence seq = true) (heq : text = pre ++ (seq ++ post)) :
    ∃ before c after, piecesLoop turns text = before ++ .char c :: after ∧
      before.flatMap Piece.bytes = pre ∧ String.utf8EncodeChar c = seq := by
  have hstart : ∀ {t : Bytes}, Utf8.sequenceLength t = none → t ≠ seq ++ post := by
    rintro t hnone rfl
    rw [Utf8.sequenceLength_append hseq] at hnone
    cases hnone
  induction turns generalizing text pre with
  | zero =>
      rw [List.eq_nil_of_length_eq_zero (Nat.le_zero.mp h)] at heq
      rw [(List.append_eq_nil_iff.mp (List.append_eq_nil_iff.mp heq.symm).2).1] at hseq
      cases hseq
  | succ turns ih =>
      rcases cases_text text with rfl | ⟨c, rest, rfl, hlt⟩ | ⟨b, rest, rfl, hnone⟩
      · rw [(List.append_eq_nil_iff.mp (List.append_eq_nil_iff.mp heq.symm).2).1] at hseq
        cases hseq
      · have hc : Utf8.isSequence (String.utf8EncodeChar c) = true :=
          Utf8.isSequence_iff.mpr ⟨c, rfl⟩
        rw [piecesLoop_char]
        by_cases hpre : pre = []
        · subst hpre
          exact ⟨[], c, _, rfl, rfl, (Utf8.eq_of_isSequence hc hseq heq).1⟩
        · obtain ⟨pre', rfl, hrest⟩ := Utf8.split_of_isSequence hc hseq hpre heq
          obtain ⟨before, c', after, hpieces, hbefore, hc'⟩ := ih (by omega) hrest
          exact ⟨.char c :: before, c', after, by rw [hpieces, List.cons_append],
            by rw [List.flatMap_cons, hbefore]; rfl, hc'⟩
      · rw [piecesLoop_byte turns hnone]
        cases pre with
        | nil => exact absurd heq (hstart hnone)
        | cons b' pre =>
            obtain ⟨rfl, hrest⟩ := List.cons.inj heq
            obtain ⟨before, c', after, hpieces, hbefore, hc'⟩ :=
              ih (Nat.le_of_succ_le_succ h) hrest
            exact ⟨.byte b :: before, c', after, by rw [hpieces, List.cons_append],
              by rw [List.flatMap_cons, hbefore]; rfl, hc'⟩

/-- The byte at this position is part of a well-formed sequence. -/
def InSequence (text : Bytes) (position : Nat) : Prop :=
  ∃ pre seq post, text = pre ++ (seq ++ post) ∧ Utf8.isSequence seq = true ∧
    pre.length ≤ position ∧ position < pre.length + seq.length

/-- The bytes among the pieces are part of no sequence. -/
theorem pieces_byte {text : Bytes} {before after : List Piece} {b : UInt8}
    (h : pieces text = before ++ .byte b :: after) :
    ¬InSequence text (before.flatMap Piece.bytes).length := by
  rintro ⟨pre, seq, post, htext, hseq, hle, hlt⟩
  obtain ⟨before', c, after', hpieces, rfl, rfl⟩ := piecesLoop_occurs le_rfl hseq htext
  have heq : before ++ .byte b :: after = before' ++ .char c :: after' := h.symm.trans hpieces
  rcases List.append_eq_append_iff.mp heq with ⟨m, hbefore, hm⟩ | ⟨m, hbefore, hm⟩
  · cases m with
    | nil => cases hm
    | cons piece m =>
        -- the character begins behind the byte
        obtain ⟨rfl, -⟩ := List.cons.inj hm
        rw [hbefore, List.flatMap_append, List.length_append, List.flatMap_cons,
          List.length_append] at hle
        have hone : (Piece.bytes (.byte b)).length = 1 := rfl
        omega
  · cases m with
    | nil => cases hm
    | cons piece m =>
        -- the character ends before the byte
        obtain ⟨rfl, -⟩ := List.cons.inj hm
        rw [hbefore, List.flatMap_append, List.length_append, List.flatMap_cons,
          List.length_append] at hlt
        have hlength : (Piece.bytes (.char c)).length = (String.utf8EncodeChar c).length := rfl
        omega

/-! ## The loop writes the pieces -/

theorem escapeByte_eq (b : UInt8) :
    escapeByte b = (Piece.escape b.toNat).flatMap String.utf8EncodeChar := by
  have hall : ∀ n : Fin 256, escapeByte (UInt8.ofNat n) =
      (Piece.escape (UInt8.ofNat n).toNat).flatMap String.utf8EncodeChar := by
    decide +kernel
  simpa using hall ⟨b.toNat, b.toNat_lt⟩

theorem announced_ascii {byte : UInt8} (h : byte ≤ 0x7f) : announced byte = 0 := by
  have h2 : ¬(0xc2 ≤ byte ∧ byte ≤ 0xdf) := fun hle => absurd (UInt8.le_trans hle.1 h) (by decide)
  have h3 : ¬(0xe0 ≤ byte ∧ byte ≤ 0xef) := fun hle => absurd (UInt8.le_trans hle.1 h) (by decide)
  have h4 : ¬(0xf0 ≤ byte ∧ byte ≤ 0xf4) := fun hle => absurd (UInt8.le_trans hle.1 h) (by decide)
  rw [announced, if_neg h2, if_neg h3, if_neg h4]

theorem validSequence_ascii {byte : UInt8} (h : byte ≤ 0x7f) (text : Bytes) :
    validSequence byte text = false := by
  simp [validSequence, announced_ascii h]

theorem validSequence_short {byte : UInt8} {text : Bytes} (h : text.length < announced byte) :
    validSequence byte text = false := by
  simp [validSequence, not_le.mpr h]

/-- From 80 on, `valid` says that a sequence begins here, of the announced length. -/
theorem sequenceLength_eq {byte : UInt8} (h : ¬byte ≤ 0x7f) (rest : Bytes) :
    Utf8.sequenceLength (byte :: rest) =
      if validSequence byte (byte :: rest) then some (announced byte) else none := by
  by_cases h2 : 0xc2 ≤ byte ∧ byte ≤ 0xdf
  · have hannounced : announced byte = 2 := if_pos h2
    have hlength := Utf8.leadLength_two h2
    rw [Utf8.sequenceLength_cons hlength, hannounced]
    cases rest with
    | nil =>
        rw [if_neg (Utf8.not_isSequence_short hlength (by simp)),
          if_neg (by rw [validSequence_short (by rw [hannounced]; simp)]; decide)]
    | cons b rest =>
        congr 1
        simp [validSequence, hannounced, Utf8.isSequence, Utf8.isContinuation, h2]
  by_cases h3 : 0xe0 ≤ byte ∧ byte ≤ 0xef
  · have hannounced : announced byte = 3 := by rw [announced, if_neg h2, if_pos h3]
    have hlength := Utf8.leadLength_three h3
    rw [Utf8.sequenceLength_cons hlength, hannounced]
    rcases rest with _ | ⟨b, _ | ⟨c, rest⟩⟩
    · rw [if_neg (Utf8.not_isSequence_short hlength (by simp)),
        if_neg (by rw [validSequence_short (by rw [hannounced]; simp)]; decide)]
    · rw [if_neg (Utf8.not_isSequence_short hlength (by simp)),
        if_neg (by rw [validSequence_short (by rw [hannounced]; simp)]; decide)]
    · congr 1
      simp [validSequence, hannounced, Utf8.isSequence, Utf8.isContinuation, h3, and_assoc]
  by_cases h4 : 0xf0 ≤ byte ∧ byte ≤ 0xf4
  · have hannounced : announced byte = 4 := by rw [announced, if_neg h2, if_neg h3, if_pos h4]
    have hlength := Utf8.leadLength_four h4
    rw [Utf8.sequenceLength_cons hlength, hannounced]
    rcases rest with _ | ⟨b, _ | ⟨c, _ | ⟨d, rest⟩⟩⟩
    · rw [if_neg (Utf8.not_isSequence_short hlength (by simp)),
        if_neg (by rw [validSequence_short (by rw [hannounced]; simp)]; decide)]
    · rw [if_neg (Utf8.not_isSequence_short hlength (by simp)),
        if_neg (by rw [validSequence_short (by rw [hannounced]; simp)]; decide)]
    · rw [if_neg (Utf8.not_isSequence_short hlength (by simp)),
        if_neg (by rw [validSequence_short (by rw [hannounced]; simp)]; decide)]
    · congr 1
      simp [validSequence, hannounced, Utf8.isSequence, Utf8.isContinuation, h4, and_assoc]
  · have hannounced : announced byte = 0 := by
      rw [announced, if_neg h2, if_neg h3, if_neg h4]
    have hvalid : validSequence byte (byte :: rest) = false := by
      simp [validSequence, hannounced]
    rw [Utf8.sequenceLength_eq_none h h2 h3 h4, hvalid]
    rfl

/-- A character of one byte, as the loop writes it. -/
theorem jsonStringLoop_ascii {b : UInt8} (h : b ≤ 0x7f) (turns : Nat) (rest : Bytes) :
    jsonStringLoop (turns + 1) (b :: rest) =
      (Piece.render (.char (Char.ofNat b.toNat))).flatMap String.utf8EncodeChar ++
        jsonStringLoop turns rest := by
  have hall : ∀ n : Fin 128, (if UInt8.ofNat n = 34 then [92, 34]
      else if UInt8.ofNat n = 92 then [92, 92]
      else if 0x20 ≤ UInt8.ofNat n ∧ UInt8.ofNat n ≤ 0x7e then [UInt8.ofNat n]
      else escapeByte (UInt8.ofNat n)) =
        (Piece.render (.char (Char.ofNat n))).flatMap String.utf8EncodeChar := by
    decide +kernel
  have hlt : b.toNat < 128 := Nat.lt_succ_of_le (UInt8.le_iff_toNat_le.mp h)
  have hout := hall ⟨b.toNat, hlt⟩
  simp only [UInt8.ofNat_toNat] at hout
  simp only [jsonStringLoop, validSequence_ascii h, Bool.false_eq_true, if_false]
  rw [← hout]
  split_ifs
  · rfl
  · rfl
  · rfl
  · rfl

/-- A character of several bytes is written as it is. -/
theorem jsonStringLoop_long {c : Char} (h : 0x7f < c.toNat) (turns : Nat) (rest : Bytes) :
    jsonStringLoop (turns + 1) (String.utf8EncodeChar c ++ rest) =
      String.utf8EncodeChar c ++ jsonStringLoop turns rest := by
  have hseq := Utf8.isSequence_iff.mpr ⟨c, rfl⟩
  have hlength := Utf8.sequenceLength_append hseq rest
  have hcode : Utf8.codePoint (String.utf8EncodeChar c) = c.toNat :=
    Utf8.codePoint_encodeNat c.valid
  cases hencode : String.utf8EncodeChar c with
  | nil => rw [hencode] at hseq; cases hseq
  | cons lead more =>
      rw [hencode] at hseq hlength hcode
      have hascii : ¬lead ≤ 0x7f := by
        intro hle
        have hone : Utf8.isSequence [lead] = true := decide_eq_true hle
        have happend : [lead] ++ more = lead :: more ++ [] := by rw [List.append_nil]; rfl
        have hsame := Utf8.eq_of_isSequence hone hseq happend
        rw [← hsame.1] at hcode
        have hle' : lead.toNat ≤ 0x7f := UInt8.le_iff_toNat_le.mp hle
        have hcode' : lead.toNat = c.toNat := hcode
        omega
      rw [List.cons_append] at hlength ⊢
      rw [sequenceLength_eq hascii] at hlength
      by_cases hvalid : validSequence lead (lead :: (more ++ rest)) = true
      · rw [if_pos hvalid] at hlength
        have hannounced := Option.some.inj hlength
        have h34 : lead ≠ 34 := by rintro rfl; exact hascii (by decide)
        have h92 : lead ≠ 92 := by rintro rfl; exact hascii (by decide)
        have hprint : ¬(0x20 ≤ lead ∧ lead ≤ 0x7e) := fun hle =>
          hascii (UInt8.le_trans hle.2 (by decide))
        simp only [jsonStringLoop, if_neg h34, if_neg h92, if_neg hprint, if_pos hvalid,
          hannounced]
        rw [← List.cons_append, List.take_left, List.drop_left]
      · rw [if_neg hvalid] at hlength
        cases hlength

theorem Piece.render_long {c : Char} (h : 0x7f < c.toNat) : Piece.render (.char c) = [c] := by
  have hquote : c ≠ '"' := by rintro rfl; exact absurd h (by decide)
  have hslash : c ≠ '\\' := by rintro rfl; exact absurd h (by decide)
  have hcontrol : ¬(c.toNat < 0x20 ∨ c.toNat = 0x7f) := by omega
  simp only [render, if_neg hquote, if_neg hslash, if_neg hcontrol]

theorem jsonStringLoop_pieces {turns : Nat} {text : Bytes} (h : text.length ≤ turns) :
    jsonStringLoop turns text =
      ((piecesLoop turns text).flatMap Piece.render).flatMap String.utf8EncodeChar := by
  induction turns generalizing text with
  | zero =>
      have hnil : text = [] := List.eq_nil_of_length_eq_zero (Nat.le_zero.mp h)
      rw [hnil]
      rfl
  | succ turns ih =>
      rcases cases_text text with rfl | ⟨c, rest, rfl, hlt⟩ | ⟨b, rest, rfl, hnone⟩
      · rfl
      · rw [piecesLoop_char, List.flatMap_cons, List.flatMap_append, ← ih (by omega)]
        by_cases hlong : 0x7f < c.toNat
        · rw [jsonStringLoop_long hlong, Piece.render_long hlong]
          simp
        · have hencode : String.utf8EncodeChar c = [UInt8.ofNat c.toNat] := by
            rw [Utf8.utf8EncodeChar_eq, Utf8.encodeNat, if_pos (by omega)]
          have hnat : (UInt8.ofNat c.toNat).toNat = c.toNat := by
            rw [UInt8.toNat_ofNat']
            omega
          have hle : UInt8.ofNat c.toNat ≤ 0x7f := by
            rw [UInt8.le_iff_toNat_le, hnat]
            exact not_lt.mp hlong
          rw [hencode, List.singleton_append, jsonStringLoop_ascii hle, hnat, Char.ofNat_toNat]
      · have hascii : ¬b ≤ 0x7f := by
          intro hle
          have hseq : Utf8.isSequence [b] = true := decide_eq_true hle
          have hsome := Utf8.sequenceLength_append hseq rest
          rw [List.singleton_append, hnone] at hsome
          cases hsome
        have hinvalid : ¬validSequence b (b :: rest) = true := by
          intro hvalid
          rw [sequenceLength_eq hascii, if_pos hvalid] at hnone
          cases hnone
        have h34 : b ≠ 34 := by rintro rfl; exact hascii (by decide)
        have h92 : b ≠ 92 := by rintro rfl; exact hascii (by decide)
        have hprint : ¬(0x20 ≤ b ∧ b ≤ 0x7e) := fun hle =>
          hascii (UInt8.le_trans hle.2 (by decide))
        rw [piecesLoop_byte turns hnone, List.flatMap_cons, List.flatMap_append,
          ← ih (Nat.le_of_succ_le_succ h)]
        simp only [jsonStringLoop, if_neg h34, if_neg h92, if_neg hprint, if_neg hinvalid,
          escapeByte_eq]
        rfl

/-! ## Reading a literal -/

theorem jsonString_eq (s : Bytes) :
    jsonString s =
      ('"' :: (pieces s).flatMap Piece.render ++ ['"']).flatMap String.utf8EncodeChar := by
  have hquote : String.utf8EncodeChar '"' = [34] := by decide
  rw [List.cons_append, List.flatMap_cons, List.flatMap_append, List.flatMap_singleton, hquote,
    jsonString, jsonStringLoop_pieces le_rfl, List.append_assoc]
  rfl

/-- A control character of ASCII. -/
def asciiControl (c : Char) : Bool := decide (c.toNat < 0x20) || decide (c.toNat = 0x7f)

theorem escape_printable {n : Nat} (h : n < 256) :
    ∀ c ∈ Piece.escape n, asciiControl c = false := by
  have hall : ∀ n : Fin 256, (Piece.escape n).all (fun c => !asciiControl c) = true := by
    decide +kernel
  intro c hc
  simpa using List.all_eq_true.mp (hall ⟨n, h⟩) c hc

theorem render_printable (piece : Piece) : ∀ c ∈ piece.render, asciiControl c = false := by
  cases piece with
  | byte b => exact escape_printable b.toNat_lt
  | char c =>
      simp only [Piece.render]
      split_ifs with hquote hslash hcontrol
      · intro c' hc'
        rcases List.mem_pair.mp hc' with rfl | rfl
        · rfl
        · rfl
      · intro c' hc'
        rcases List.mem_pair.mp hc' with rfl | rfl
        · rfl
        · rfl
      · exact escape_printable (by omega)
      · intro c' hc'
        rw [List.mem_singleton.mp hc']
        simpa [asciiControl] using hcontrol

/-- What scanning yields, with a code point before it. -/
def prepend (code : Nat) (scanned : Option (Json.Text × Json.Text)) :
    Option (Json.Text × Json.Text) :=
  scanned.map fun entry => (code :: entry.1, entry.2)

theorem scanString_escape {n : Nat} (h : n < 256) (rest : Json.Text) :
    Json.scanString ((Piece.escape n).map Char.toNat ++ rest) =
      prepend n (Json.scanString rest) := by
  have hall : ∀ n : Fin 256, Json.hexQuad 48 48 (Piece.hexChar (n / 16)).toNat
      (Piece.hexChar (n % 16)).toNat = some n := by decide +kernel
  have hquad : Json.hexQuad 48 48 (Piece.hexChar (n / 16)).toNat (Piece.hexChar (n % 16)).toNat =
      some n := hall ⟨n, h⟩
  show Json.scanString (92 :: 117 :: 48 :: 48 :: (Piece.hexChar (n / 16)).toNat ::
    (Piece.hexChar (n % 16)).toNat :: rest) = _
  rw [Json.scanString, hquad]
  cases Json.scanString rest with
  | none => rfl
  | some entry => rfl

theorem scanString_render (piece : Piece) (rest : Json.Text) :
    Json.scanString (piece.render.map Char.toNat ++ rest) =
      prepend piece.code (Json.scanString rest) := by
  cases piece with
  | byte b => exact scanString_escape b.toNat_lt rest
  | char c =>
      simp only [Piece.render]
      split_ifs with hquote hslash hcontrol
      · subst hquote
        show Json.scanString (92 :: 34 :: rest) = prepend 34 _
        rw [Json.scanString]
        · cases Json.scanString rest <;> rfl
        · simp
      · subst hslash
        show Json.scanString (92 :: 92 :: rest) = prepend 92 _
        rw [Json.scanString]
        · cases Json.scanString rest <;> rfl
        · simp
      · exact scanString_escape (by omega) rest
      · have h34 : c.toNat ≠ 34 := fun h => hquote (Char.toNat_inj.mp h)
        have h92 : c.toNat ≠ 92 := fun h => hslash (Char.toNat_inj.mp h)
        show Json.scanString (c.toNat :: rest) = prepend c.toNat _
        rw [Json.scanString, if_neg h34, if_neg (by omega)]
        · cases Json.scanString rest <;> rfl
        · exact fun _ _ _ _ _ h => absurd h h92
        · exact fun _ _ h => absurd h h92

theorem scanString_pieces (l : List Piece) (rest : Json.Text) :
    Json.scanString ((l.flatMap Piece.render).map Char.toNat ++ 34 :: rest) =
      some (l.map Piece.code, rest) := by
  induction l with
  | nil => rfl
  | cons piece l ih =>
      rw [List.flatMap_cons, List.map_append, List.append_assoc, scanString_render, ih]
      rfl

/-- No code of a piece is a surrogate. -/
theorem code_not_high (piece : Piece) : ¬(0xd800 ≤ piece.code ∧ piece.code ≤ 0xdbff) := by
  cases piece with
  | char c =>
      have hvalid : c.toNat < 0xd800 ∨ 0xdfff < c.toNat ∧ c.toNat < 0x110000 := c.valid
      show ¬(0xd800 ≤ c.toNat ∧ c.toNat ≤ 0xdbff)
      omega
  | byte b =>
      have hlt := b.toNat_lt
      show ¬(0xd800 ≤ b.toNat ∧ b.toNat ≤ 0xdbff)
      omega

theorem joinSurrogates_codes (l : List Piece) :
    Json.joinSurrogates (l.map Piece.code) = l.map Piece.code := by
  induction l with
  | nil => rfl
  | cons piece l ih =>
      cases l with
      | nil => rfl
      | cons next l =>
          have hhigh : ¬(0xd800 ≤ piece.code ∧ piece.code ≤ 0xdbff ∧ 0xdc00 ≤ next.code ∧
              next.code ≤ 0xdfff) := fun h => code_not_high piece ⟨h.1, h.2.1⟩
          rw [List.map_cons, List.map_cons, Json.joinSurrogates, if_neg hhigh, ← List.map_cons, ih]

/-- A JSON reader gets the codes of the pieces back. -/
theorem loads_jsonString (limits : Json.Limits) (s : Bytes) :
    Json.loads limits (jsonString s) = some (.string ((pieces s).map Piece.code)) := by
  have hdecode := Utf8.decode_eq_some.mpr (jsonString_eq s)
  have hnat : ('"' :: (pieces s).flatMap Piece.render ++ ['"']).map Char.toNat =
      34 :: (((pieces s).flatMap Piece.render).map Char.toNat ++ [34]) := by
    rw [List.cons_append, List.map_cons, List.map_append]
    rfl
  have hparse : Json.parseString (((pieces s).flatMap Piece.render).map Char.toNat ++ [34]) =
      some ((pieces s).map Piece.code, []) := by
    rw [Json.parseString, scanString_pieces, Option.map_some, joinSurrogates_codes]
  rw [Json.loads, hdecode]
  simp only [hnat]
  generalize ((pieces s).flatMap Piece.render).map Char.toNat ++ [34] = body at hparse
  have hspace : Json.skipSpace (34 :: body) = 34 :: body := rfl
  have hvalue : Json.parseValue limits (2 * (34 :: body).length + 1) limits.recursion (34 :: body) =
      some (.string ((pieces s).map Piece.code), []) := by
    simp only [Json.parseValue, hparse, Option.map_some]
  rw [Json.loadsText, hspace, hvalue]
  rfl

theorem pieces_wellFormed (chars : List Char) :
    pieces (chars.flatMap String.utf8EncodeChar) = chars.map .char := by
  have hloop : ∀ turns, (chars.flatMap String.utf8EncodeChar).length ≤ turns →
      piecesLoop turns (chars.flatMap String.utf8EncodeChar) = chars.map .char := by
    induction chars with
    | nil => intro turns _; cases turns <;> rfl
    | cons c chars ih =>
        intro turns h
        have hpos := Utf8.length_pos_of_isSequence (Utf8.isSequence_iff.mpr ⟨c, rfl⟩)
        rw [List.flatMap_cons] at h ⊢
        rw [List.length_append] at h
        cases turns with
        | zero => omega
        | succ turns => rw [piecesLoop_char, ih turns (by omega), List.map_cons]
  exact hloop _ le_rfl

/-! ## Faithful literals -/

/-- What a trace string promises. -/
structure Faithful (limits : Json.Limits) (s literal : Bytes) : Prop where
  /-- It is text without control characters of ASCII. -/
  printable : ∃ chars : List Char, literal = chars.flatMap String.utf8EncodeChar ∧
    ∀ c ∈ chars, asciiControl c = false
  /-- It is a JSON string. -/
  string : ∃ content, Json.loads limits literal = some (.string content)
  /-- Of a well-formed text it is the literal. -/
  decodes : ∀ chars : List Char, s = chars.flatMap String.utf8EncodeChar →
    Json.loads limits literal = some (.string (chars.map Char.toNat))
  /-- It writes the pieces of `s` in a row; the bytes among them, which it escapes, are those in no
      well-formed sequence. -/
  escapes : ∃ l : List Piece, l.flatMap Piece.bytes = s ∧
    literal = ('"' :: l.flatMap Piece.render ++ ['"']).flatMap String.utf8EncodeChar ∧
    ∀ before b after, l = before ++ .byte b :: after →
      ¬InSequence s (before.flatMap Piece.bytes).length

theorem jsonString_faithful (limits : Json.Limits) (s : Bytes) :
    Faithful limits s (jsonString s) where
  printable := by
    refine ⟨_, jsonString_eq s, fun c hc => ?_⟩
    rcases List.mem_append.mp hc with hc | hc
    · rcases List.mem_cons.mp hc with rfl | hc
      · rfl
      · obtain ⟨piece, -, hc⟩ := List.mem_flatMap.mp hc
        exact render_printable piece c hc
    · rw [List.mem_singleton.mp hc]
      rfl
  string := ⟨_, loads_jsonString limits s⟩
  decodes := by
    rintro chars rfl
    rw [loads_jsonString, pieces_wellFormed, List.map_map]
    rfl
  escapes := ⟨pieces s, piecesLoop_bytes le_rfl, jsonString_eq s, fun _ _ _ => pieces_byte⟩

/-- A control character of Unicode (general category `Cc`). -/
def control (c : Char) : Bool := asciiControl c || decide (0x80 ≤ c.toNat) && decide (c.toNat ≤ 0x9f)

/-- The next-line character is written as it is. -/
theorem jsonString_nextLine :
    ¬∃ chars : List Char, jsonString [0xc2, 0x85] = chars.flatMap String.utf8EncodeChar ∧
      ∀ c ∈ chars, control c = false := by
  rintro ⟨chars, hchars, hcontrol⟩
  have hdecode : Utf8.decode (jsonString [0xc2, 0x85]) = some ['"', Char.ofNat 0x85, '"'] := by
    decide +kernel
  have heq : chars = ['"', Char.ofNat 0x85, '"'] := by
    have hsome := Utf8.decode_eq_some.mpr hchars
    rw [hdecode] at hsome
    exact (Option.some.inj hsome).symm
  have hmem : Char.ofNat 0x85 ∈ chars := by
    rw [heq]
    exact List.mem_cons_of_mem _ List.mem_cons_self
  exact absurd (hcontrol _ hmem) (by decide)

/-- The literal writes every byte of `s` in turn, and just those of well-formed sequences as they
    are. -/
def EscapesExactly (s literal : Bytes) : Prop :=
  ∃ written : List Bytes, written.length = s.length ∧ literal = [34] ++ written.flatten ++ [34] ∧
    ∀ position b, s[position]? = some b →
      (written[position]? = some [b] ↔ InSequence s position)

/-- Before a stray byte, a quote is a well-formed sequence, and is escaped all the same. -/
theorem quote_escaped : ¬EscapesExactly [0x22, 0x80] (jsonString [0x22, 0x80]) := by
  rintro ⟨written, hlength, hliteral, hexact⟩
  have hin : InSequence [0x22, 0x80] 0 :=
    ⟨[], [0x22], [0x80], rfl, by decide, Nat.le_refl _, Nat.one_pos⟩
  cases written with
  | nil => cases hlength
  | cons first written =>
      have hfirst : first = [0x22] := Option.some.inj ((hexact 0 0x22 rfl).mpr hin)
      have hescaped : jsonString [0x22, 0x80] = 34 :: 92 :: 34 :: (escapeByte 0x80 ++ [34]) := by
        decide
      rw [hescaped, hfirst] at hliteral
      cases hliteral

end SimulationTrace

end LiquidLayer
