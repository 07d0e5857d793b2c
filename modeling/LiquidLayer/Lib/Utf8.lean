/-
  UTF-8: the byte strings that encode a list of characters. A `Char` is a Unicode scalar value,
  so this leaves out overlong forms, surrogates, code points above U+10FFFF and sequences cut
  short.

  * `WellFormed`: the specification.
  * `isSequence`, `isSequence_iff`: the encodings of single characters by the ranges of their
    bytes.
  * `sequenceLength`: the length of the sequence a text begins with; no other sequence begins the
    same way.
  * `decode`, `decode_eq_some`: the characters of a well-formed text.
  * `decodeReplacing`: a text that need not be well-formed.
-/
import Mathlib

namespace Utf8

def WellFormed (text : List UInt8) : Prop :=
  ∃ chars : List Char, text = chars.flatMap String.utf8EncodeChar

/-! ## The sequence of one character -/

/-- A byte that may follow a lead byte. -/
def isContinuation (b : UInt8) : Bool := decide (0x80 ≤ b) && decide (b ≤ 0xbf)

def isSequence : List UInt8 → Bool
  | [a] => decide (a ≤ 0x7f)
  | [a, b] => decide (0xc2 ≤ a) && decide (a ≤ 0xdf) && isContinuation b
  | [a, b, c] =>
      decide (0xe0 ≤ a) && decide (a ≤ 0xef) && isContinuation b && isContinuation c &&
        (decide (a ≠ 0xe0) || decide (0xa0 ≤ b)) && (decide (a ≠ 0xed) || decide (b ≤ 0x9f))
  | [a, b, c, d] =>
      decide (0xf0 ≤ a) && decide (a ≤ 0xf4) && isContinuation b && isContinuation c &&
        isContinuation d && (decide (a ≠ 0xf0) || decide (0x90 ≤ b)) &&
        (decide (a ≠ 0xf4) || decide (b ≤ 0x8f))
  | _ => false

theorem isContinuation_iff {b : UInt8} :
    isContinuation b = true ↔ 0x80 ≤ b.toNat ∧ b.toNat ≤ 0xbf := by
  simp [isContinuation, UInt8.le_iff_toNat_le]

theorem isSequence_two {a b : UInt8} : isSequence [a, b] = true ↔
    (0xc2 ≤ a.toNat ∧ a.toNat ≤ 0xdf) ∧ 0x80 ≤ b.toNat ∧ b.toNat ≤ 0xbf := by
  simp [isSequence, isContinuation_iff, UInt8.le_iff_toNat_le, and_assoc]

theorem isSequence_three {a b c : UInt8} : isSequence [a, b, c] = true ↔
    (0xe0 ≤ a.toNat ∧ a.toNat ≤ 0xef) ∧ (0x80 ≤ b.toNat ∧ b.toNat ≤ 0xbf) ∧
      (0x80 ≤ c.toNat ∧ c.toNat ≤ 0xbf) ∧ (a.toNat = 0xe0 → 0xa0 ≤ b.toNat) ∧
      (a.toNat = 0xed → b.toNat ≤ 0x9f) := by
  simp [isSequence, isContinuation_iff, UInt8.le_iff_toNat_le, ← UInt8.toNat_inj, and_assoc,
    imp_iff_not_or]

theorem isSequence_four {a b c d : UInt8} : isSequence [a, b, c, d] = true ↔
    (0xf0 ≤ a.toNat ∧ a.toNat ≤ 0xf4) ∧ (0x80 ≤ b.toNat ∧ b.toNat ≤ 0xbf) ∧
      (0x80 ≤ c.toNat ∧ c.toNat ≤ 0xbf) ∧ (0x80 ≤ d.toNat ∧ d.toNat ≤ 0xbf) ∧
      (a.toNat = 0xf0 → 0x90 ≤ b.toNat) ∧ (a.toNat = 0xf4 → b.toNat ≤ 0x8f) := by
  simp [isSequence, isContinuation_iff, UInt8.le_iff_toNat_le, ← UInt8.toNat_inj, and_assoc,
    imp_iff_not_or]

/-- The bytes of a character by the number of its code point. -/
def encodeNat (v : Nat) : List UInt8 :=
  if v ≤ 0x7f then [UInt8.ofNat v]
  else if v ≤ 0x7ff then [UInt8.ofNat (v / 64 % 0x20 + 0xc0), UInt8.ofNat (v % 0x40 + 0x80)]
  else if v ≤ 0xffff then
    [UInt8.ofNat (v / 4096 % 0x10 + 0xe0), UInt8.ofNat (v / 64 % 0x40 + 0x80),
      UInt8.ofNat (v % 0x40 + 0x80)]
  else
    [UInt8.ofNat (v / 262144 % 0x08 + 0xf0), UInt8.ofNat (v / 4096 % 0x40 + 0x80),
      UInt8.ofNat (v / 64 % 0x40 + 0x80), UInt8.ofNat (v % 0x40 + 0x80)]

theorem utf8EncodeChar_eq (c : Char) : String.utf8EncodeChar c = encodeNat c.toNat := rfl

theorem isSequence_encodeNat {v : Nat} (h : v.isValidChar) : isSequence (encodeNat v) = true := by
  have hvalid : v < 0xd800 ∨ 0xdfff < v ∧ v < 0x110000 := h
  unfold encodeNat
  split
  · simp [isSequence, UInt8.le_iff_toNat_le]
    omega
  · split
    · rw [isSequence_two]
      simp only [UInt8.toNat_ofNat']
      omega
    · split
      · rw [isSequence_three]
        simp only [UInt8.toNat_ofNat']
        omega
      · rw [isSequence_four]
        simp only [UInt8.toNat_ofNat']
        omega

/-- The code point of a sequence. -/
def codePoint : List UInt8 → Nat
  | [a] => a.toNat
  | [a, b] => a.toNat % 32 * 64 + b.toNat % 64
  | [a, b, c] => a.toNat % 16 * 4096 + b.toNat % 64 * 64 + c.toNat % 64
  | [a, b, c, d] =>
      a.toNat % 8 * 262144 + b.toNat % 64 * 4096 + c.toNat % 64 * 64 + d.toNat % 64
  | _ => 0

theorem encodeNat_codePoint {s : List UInt8} (h : isSequence s = true) :
    (codePoint s).isValidChar ∧ encodeNat (codePoint s) = s := by
  match s, h with
  | [a], h =>
      have ha : a.toNat ≤ 0x7f := by simpa [isSequence, UInt8.le_iff_toNat_le] using h
      refine ⟨.inl ?_, ?_⟩
      · show a.toNat < 0xd800
        omega
      · simp [codePoint, encodeNat, ha]
  | [a, b], h =>
      obtain ⟨ha, hb⟩ := isSequence_two.mp h
      simp only [codePoint]
      refine ⟨.inl (by omega), ?_⟩
      rw [encodeNat, if_neg (by omega), if_pos (by omega)]
      simp only [List.cons.injEq, and_true, ← UInt8.toNat_inj, UInt8.toNat_ofNat']
      omega
  | [a, b, c], h =>
      obtain ⟨ha, hb, hc, hlow, hhigh⟩ := isSequence_three.mp h
      simp only [codePoint]
      constructor
      · -- the surrogates are the code points with lead byte ED and a second byte above 9F
        by_cases hlt : a.toNat < 0xed
        · exact .inl (by omega)
        · by_cases hed : a.toNat = 0xed
          · have hsecond := hhigh hed
            exact .inl (by omega)
          · exact .inr (by omega)
      · rw [encodeNat, if_neg (by omega), if_neg (by omega), if_pos (by omega)]
        simp only [List.cons.injEq, and_true, ← UInt8.toNat_inj, UInt8.toNat_ofNat']
        omega
  | [a, b, c, d], h =>
      obtain ⟨ha, hb, hc, hd, hlow, hhigh⟩ := isSequence_four.mp h
      simp only [codePoint]
      refine ⟨.inr (by omega), ?_⟩
      rw [encodeNat, if_neg (by omega), if_neg (by omega), if_neg (by omega)]
      simp only [List.cons.injEq, and_true, ← UInt8.toNat_inj, UInt8.toNat_ofNat']
      omega

theorem codePoint_encodeNat {v : Nat} (h : v.isValidChar) : codePoint (encodeNat v) = v := by
  have hvalid : v < 0xd800 ∨ 0xdfff < v ∧ v < 0x110000 := h
  unfold encodeNat
  split
  · show (UInt8.ofNat v).toNat = v
    rw [UInt8.toNat_ofNat']
    omega
  · split
    · simp only [codePoint, UInt8.toNat_ofNat']
      omega
    · split
      · simp only [codePoint, UInt8.toNat_ofNat']
        omega
      · simp only [codePoint, UInt8.toNat_ofNat']
        omega

theorem isSequence_iff {s : List UInt8} :
    isSequence s = true ↔ ∃ c : Char, String.utf8EncodeChar c = s := by
  constructor
  · intro h
    obtain ⟨hvalid, hencode⟩ := encodeNat_codePoint h
    exact ⟨Char.ofNatAux (codePoint s) hvalid, hencode⟩
  · rintro ⟨c, rfl⟩
    exact isSequence_encodeNat c.valid

/-! ## The sequence a text begins with -/

/-- How many bytes a sequence with this lead byte has. -/
def leadLength (lead : UInt8) : Nat :=
  if lead ≤ 0x7f then 1 else if lead ≤ 0xdf then 2 else if lead ≤ 0xef then 3 else 4

def sequenceLength (text : List UInt8) : Option Nat :=
  match text with
  | [] => none
  | lead :: _ =>
      if isSequence (text.take (leadLength lead)) then some (leadLength lead) else none

section Lead

variable {lead : UInt8}

theorem leadLength_two (h : 0xc2 ≤ lead ∧ lead ≤ 0xdf) : leadLength lead = 2 := by
  have hascii : ¬lead ≤ 0x7f := fun hle => absurd (UInt8.le_trans h.1 hle) (by decide)
  rw [leadLength, if_neg hascii, if_pos h.2]

theorem leadLength_three (h : 0xe0 ≤ lead ∧ lead ≤ 0xef) : leadLength lead = 3 := by
  have hascii : ¬lead ≤ 0x7f := fun hle => absurd (UInt8.le_trans h.1 hle) (by decide)
  have htwo : ¬lead ≤ 0xdf := fun hle => absurd (UInt8.le_trans h.1 hle) (by decide)
  rw [leadLength, if_neg hascii, if_neg htwo, if_pos h.2]

theorem leadLength_four (h : 0xf0 ≤ lead ∧ lead ≤ 0xf4) : leadLength lead = 4 := by
  have hascii : ¬lead ≤ 0x7f := fun hle => absurd (UInt8.le_trans h.1 hle) (by decide)
  have htwo : ¬lead ≤ 0xdf := fun hle => absurd (UInt8.le_trans h.1 hle) (by decide)
  have hthree : ¬lead ≤ 0xef := fun hle => absurd (UInt8.le_trans h.1 hle) (by decide)
  rw [leadLength, if_neg hascii, if_neg htwo, if_neg hthree]

end Lead

theorem leadLength_of_isSequence {lead : UInt8} {rest : List UInt8}
    (h : isSequence (lead :: rest) = true) : (lead :: rest).length = leadLength lead := by
  match rest, h with
  | [], h =>
      have ha : lead ≤ 0x7f := by simpa [isSequence] using h
      simp [leadLength, ha]
  | [b], h =>
      simp only [isSequence, Bool.and_eq_true, decide_eq_true_eq] at h
      exact (leadLength_two h.1).symm
  | [b, c], h =>
      simp only [isSequence, Bool.and_eq_true, decide_eq_true_eq] at h
      exact (leadLength_three h.1.1.1.1).symm
  | [b, c, d], h =>
      simp only [isSequence, Bool.and_eq_true, decide_eq_true_eq] at h
      exact (leadLength_four h.1.1.1.1.1).symm

theorem lead_of_isSequence {lead : UInt8} {rest : List UInt8}
    (h : isSequence (lead :: rest) = true) :
    lead ≤ 0x7f ∨ (0xc2 ≤ lead ∧ lead ≤ 0xdf) ∨ (0xe0 ≤ lead ∧ lead ≤ 0xef) ∨
      (0xf0 ≤ lead ∧ lead ≤ 0xf4) := by
  match rest, h with
  | [], h => exact .inl (of_decide_eq_true h)
  | [b], h =>
      simp only [isSequence, Bool.and_eq_true, decide_eq_true_eq] at h
      exact .inr (.inl h.1)
  | [b, c], h =>
      simp only [isSequence, Bool.and_eq_true, decide_eq_true_eq] at h
      exact .inr (.inr (.inl h.1.1.1.1))
  | [b, c, d], h =>
      simp only [isSequence, Bool.and_eq_true, decide_eq_true_eq] at h
      exact .inr (.inr (.inr h.1.1.1.1.1))

theorem not_isContinuation_of_isSequence {lead : UInt8} {rest : List UInt8}
    (h : isSequence (lead :: rest) = true) : ¬isContinuation lead = true := by
  have hlead := lead_of_isSequence h
  simp only [UInt8.le_iff_toNat_le, UInt8.reduceToNat] at hlead
  rw [isContinuation_iff]
  omega

theorem length_pos_of_isSequence {s : List UInt8} (h : isSequence s = true) : 0 < s.length := by
  cases s with
  | nil => cases h
  | cons a s => exact Nat.succ_pos _

theorem sequenceLength_append {s : List UInt8} (h : isSequence s = true) (t : List UInt8) :
    sequenceLength (s ++ t) = some s.length := by
  cases s with
  | nil => cases h
  | cons lead rest =>
      have hlength := leadLength_of_isSequence h
      have htake : (lead :: rest ++ t).take (leadLength lead) = lead :: rest := by
        rw [← hlength]
        exact List.take_left
      show (if isSequence ((lead :: rest ++ t).take (leadLength lead)) then _ else _) = _
      rw [htake, if_pos h, hlength]

theorem sequenceLength_eq_some {text : List UInt8} {n : Nat} :
    sequenceLength text = some n ↔ n ≤ text.length ∧ isSequence (text.take n) = true := by
  constructor
  · intro h
    cases text with
    | nil => cases h
    | cons lead rest =>
        simp only [sequenceLength] at h
        split at h
        · next hseq =>
            cases h
            refine ⟨?_, hseq⟩
            have hpos : 0 < leadLength lead := by
              unfold leadLength
              split_ifs <;> omega
            obtain ⟨m, hm⟩ : ∃ m, leadLength lead = m + 1 := ⟨leadLength lead - 1, by omega⟩
            rw [hm, List.take_succ_cons] at hseq
            have hlength := leadLength_of_isSequence hseq
            rw [List.length_cons, List.length_take, hm] at hlength
            rw [hm, List.length_cons]
            omega
        · cases h
  · rintro ⟨hle, hseq⟩
    have happend := sequenceLength_append hseq (text.drop n)
    rwa [List.take_append_drop, List.length_take, Nat.min_eq_left hle] at happend

theorem sequenceLength_eq_none {lead : UInt8} (hascii : ¬lead ≤ 0x7f)
    (h2 : ¬(0xc2 ≤ lead ∧ lead ≤ 0xdf)) (h3 : ¬(0xe0 ≤ lead ∧ lead ≤ 0xef))
    (h4 : ¬(0xf0 ≤ lead ∧ lead ≤ 0xf4)) (rest : List UInt8) :
    sequenceLength (lead :: rest) = none := by
  cases hlength : sequenceLength (lead :: rest) with
  | none => rfl
  | some n =>
      obtain ⟨-, hseq⟩ := sequenceLength_eq_some.mp hlength
      cases n with
      | zero => cases hseq
      | succ n =>
          rcases lead_of_isSequence hseq with h | h | h | h
          · exact absurd h hascii
          · exact absurd h h2
          · exact absurd h h3
          · exact absurd h h4

theorem sequenceLength_cons {lead : UInt8} {rest : List UInt8} {n : Nat}
    (h : leadLength lead = n + 1) : sequenceLength (lead :: rest) =
      if isSequence (lead :: rest.take n) then some (n + 1) else none := by
  simp only [sequenceLength, h, List.take_succ_cons]

/-- A lead byte with too few bytes behind it. -/
theorem not_isSequence_short {lead : UInt8} {rest : List UInt8} {n : Nat}
    (h : leadLength lead = n + 1) (hshort : rest.length < n) :
    ¬isSequence (lead :: rest.take n) = true := by
  intro hseq
  have hlength := leadLength_of_isSequence hseq
  rw [h, List.length_cons, List.length_take] at hlength
  omega

/-- No sequence is a proper prefix of another. -/
theorem eq_of_isSequence {s s' t t' : List UInt8} (h : isSequence s = true)
    (h' : isSequence s' = true) (heq : s ++ t = s' ++ t') : s = s' ∧ t = t' := by
  have hlength : s.length = s'.length := by
    have hs := sequenceLength_append h t
    rw [heq, sequenceLength_append h' t'] at hs
    exact (Option.some.inj hs).symm
  exact List.append_inj heq hlength

/-- The bytes of a sequence behind the first are continuations. -/
theorem isContinuation_of_isSequence {lead : UInt8} {rest : List UInt8}
    (h : isSequence (lead :: rest) = true) : ∀ b ∈ rest, isContinuation b = true := by
  match rest, h with
  | [], h => exact fun _ hb => nomatch hb
  | [b], h =>
      simp only [isSequence, Bool.and_eq_true] at h
      simpa using h.2
  | [b, c], h =>
      simp only [isSequence, Bool.and_eq_true] at h
      simpa using ⟨h.1.1.1.2, h.1.1.2⟩
  | [b, c, d], h =>
      simp only [isSequence, Bool.and_eq_true] at h
      simpa using ⟨h.1.1.1.1.2, h.1.1.1.2, h.1.1.2⟩

/-- Where one sequence ends no later than another begins, or both are the same: none begins inside
    another. -/
theorem split_of_isSequence {s s' t pre post : List UInt8} (h : isSequence s = true)
    (h' : isSequence s' = true) (hne : pre ≠ []) (heq : s ++ t = pre ++ (s' ++ post)) :
    ∃ pre', pre = s ++ pre' ∧ t = pre' ++ (s' ++ post) := by
  rcases List.append_eq_append_iff.mp heq with ⟨between, hpre, ht⟩ | ⟨inside, hs, hs'⟩
  · exact ⟨between, hpre, ht⟩
  · cases inside with
    | nil => exact ⟨[], by rw [List.append_nil] at hs ⊢; exact hs.symm, hs'.symm⟩
    | cons b inside =>
        cases pre with
        | nil => exact absurd rfl hne
        | cons lead pre =>
            -- the other sequence's lead byte would be a continuation
            rw [hs] at h
            have hcont := isContinuation_of_isSequence h b
              (List.mem_append_right _ List.mem_cons_self)
            cases s' with
            | nil => cases h'
            | cons lead' rest' =>
                obtain ⟨rfl, -⟩ := List.cons.inj hs'
                exact absurd hcont (not_isContinuation_of_isSequence h')

/-! ## Well-formed texts -/

@[simp] theorem wellFormed_nil : WellFormed [] := ⟨[], rfl⟩

theorem wellFormed_append {s : List UInt8} (h : isSequence s = true) (t : List UInt8) :
    WellFormed (s ++ t) ↔ WellFormed t := by
  obtain ⟨c, hc⟩ := isSequence_iff.mp h
  constructor
  · rintro ⟨chars, hchars⟩
    cases chars with
    | nil =>
        have hnil := (List.append_eq_nil_iff.mp hchars).1
        rw [hnil] at h
        cases h
    | cons c' chars =>
        rw [List.flatMap_cons] at hchars
        obtain ⟨-, ht⟩ := eq_of_isSequence h (isSequence_iff.mpr ⟨c', rfl⟩) hchars
        exact ⟨chars, ht⟩
  · rintro ⟨chars, rfl⟩
    exact ⟨c :: chars, by rw [List.flatMap_cons, hc]⟩

/-- A well-formed text begins with a sequence. -/
theorem WellFormed.sequenceLength {text : List UInt8} (h : WellFormed text) (hne : text ≠ []) :
    ∃ n, Utf8.sequenceLength text = some n := by
  obtain ⟨chars, rfl⟩ := h
  cases chars with
  | nil => exact absurd rfl hne
  | cons c chars => exact ⟨_, sequenceLength_append (isSequence_iff.mpr ⟨c, rfl⟩) _⟩

/-! ## Decoding -/

/-- `turns` is at least the text's length. -/
def decodeLoop : Nat → List UInt8 → Option (List Char)
  | _, [] => some []
  | 0, _ :: _ => none
  | turns + 1, text@(_ :: _) =>
      match sequenceLength text with
      | none => none
      | some n => (decodeLoop turns (text.drop n)).map (Char.ofNat (codePoint (text.take n)) :: ·)

def decode (text : List UInt8) : Option (List Char) := decodeLoop text.length text

/-- A part that one more byte or two make a sequence of three or four bytes. -/
def isBeginning : List UInt8 → Bool
  | [a] => decide (0xc2 ≤ a) && decide (a ≤ 0xf4)
  | [a, b] => isSequence [a, b, 0x80] || isSequence [a, b, 0x80, 0x80]
  | [a, b, c] => isSequence [a, b, c, 0x80]
  | _ => false

/-- The bytes at the front that one replacement character stands for. -/
def brokenLength (text : List UInt8) : Nat :=
  if isBeginning (text.take 3) then 3 else if isBeginning (text.take 2) then 2 else 1

def replaceLoop : Nat → List UInt8 → List Nat
  | _, [] => []
  | 0, _ :: _ => []
  | turns + 1, text@(_ :: _) =>
      match sequenceLength text with
      | none => 0xfffd :: replaceLoop turns (text.drop (brokenLength text))
      | some n => codePoint (text.take n) :: replaceLoop turns (text.drop n)

/-- The code points of any text, U+FFFD for each part that is no sequence. -/
def decodeReplacing (text : List UInt8) : List Nat := replaceLoop text.length text

theorem ofNat_codePoint (c : Char) : Char.ofNat (codePoint (String.utf8EncodeChar c)) = c := by
  have hcode : codePoint (String.utf8EncodeChar c) = c.toNat := codePoint_encodeNat c.valid
  rw [hcode, Char.ofNat_toNat]

theorem decodeLoop_append {s : List UInt8} (h : isSequence s = true) (turns : Nat)
    (t : List UInt8) : decodeLoop (turns + 1) (s ++ t) =
      (decodeLoop turns t).map (Char.ofNat (codePoint s) :: ·) := by
  have hlength := sequenceLength_append h t
  cases s with
  | nil => cases h
  | cons lead rest =>
      rw [List.cons_append] at hlength ⊢
      simp only [decodeLoop, hlength]
      rw [← List.cons_append, List.drop_left, List.take_left]

theorem flatMap_cons_ne_nil (c : Char) (chars : List Char) :
    (c :: chars).flatMap String.utf8EncodeChar ≠ [] := by
  intro hnil
  have hseq := isSequence_iff.mpr ⟨c, rfl⟩
  rw [List.flatMap_cons] at hnil
  rw [(List.append_eq_nil_iff.mp hnil).1] at hseq
  cases hseq

theorem decodeLoop_nil {turns : Nat} {chars : List Char} :
    decodeLoop turns [] = some chars ↔ [] = chars.flatMap String.utf8EncodeChar := by
  cases chars with
  | nil => simp [decodeLoop]
  | cons c chars => simp [decodeLoop, (flatMap_cons_ne_nil c chars).symm, -List.flatMap_cons]

theorem decodeLoop_eq_some {turns : Nat} {text : List UInt8} (hturns : text.length ≤ turns)
    {chars : List Char} :
    decodeLoop turns text = some chars ↔ text = chars.flatMap String.utf8EncodeChar := by
  induction turns generalizing text chars with
  | zero =>
      have hnil : text = [] := List.eq_nil_of_length_eq_zero (Nat.le_zero.mp hturns)
      rw [hnil]
      exact decodeLoop_nil
  | succ turns ih =>
      cases hlength : sequenceLength text with
      | none =>
          cases text with
          | nil => exact decodeLoop_nil
          | cons lead rest =>
              simp only [decodeLoop, hlength, reduceCtorEq, false_iff]
              intro h
              obtain ⟨n, hn⟩ := WellFormed.sequenceLength ⟨chars, h⟩ (List.cons_ne_nil _ _)
              rw [hlength] at hn
              cases hn
      | some n =>
          obtain ⟨hn, hseq⟩ := sequenceLength_eq_some.mp hlength
          have hsplit : text.take n ++ text.drop n = text := List.take_append_drop n text
          have hrest : (text.drop n).length ≤ turns := by
            have hpos := length_pos_of_isSequence hseq
            rw [List.length_take] at hpos
            rw [List.length_drop]
            omega
          obtain ⟨c, hc⟩ := isSequence_iff.mp hseq
          have hcode : Char.ofNat (codePoint (text.take n)) = c := by rw [← hc, ofNat_codePoint]
          rw [← hsplit, decodeLoop_append hseq, hcode]
          constructor
          · intro h
            obtain ⟨chars', hchars', rfl⟩ := Option.map_eq_some_iff.mp h
            rw [List.flatMap_cons, hc, (ih hrest).mp hchars']
          · intro h
            cases chars with
            | nil =>
                rw [(List.append_eq_nil_iff.mp h).1] at hseq
                cases hseq
            | cons c' chars =>
                rw [List.flatMap_cons] at h
                obtain ⟨hhead, htail⟩ := eq_of_isSequence hseq (isSequence_iff.mpr ⟨c', rfl⟩) h
                have hc' : c' = c := by rw [← hcode, hhead, ofNat_codePoint]
                rw [(ih hrest).mpr htail, hc']
                rfl

/-- `decode` gives the characters of a well-formed text and nothing of another. -/
theorem decode_eq_some {text : List UInt8} {chars : List Char} :
    decode text = some chars ↔ text = chars.flatMap String.utf8EncodeChar :=
  decodeLoop_eq_some le_rfl

end Utf8
