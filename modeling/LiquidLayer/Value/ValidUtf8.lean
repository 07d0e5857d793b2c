/-
  The three UTF-8 validators: `valid_utf8` of Value.cpp (`validUtf8`), of LuaValueSchema.cpp and
  of AuthoringSession.cpp.

  One turn of each loop recognises the sequence the rest of the text begins with
  (`utf8Sequence_eq`), so all three accept the well-formed texts (`validUtf8_agree`).
-/
import LiquidLayer.Value.Basic
import LiquidLayer.Lib.Utf8

namespace LiquidLayer

/-! ## The two later validators -/

/-- The length and the first code-point bits a lead byte announces. -/
def leadSequence (lead : UInt8) : Option (Nat × UInt32) :=
  if 0xc2 ≤ lead ∧ lead ≤ 0xdf then some (2, (lead &&& 0x1f).toUInt32)
  else if 0xe0 ≤ lead ∧ lead ≤ 0xef then some (3, (lead &&& 0x0f).toUInt32)
  else if 0xf0 ≤ lead ∧ lead ≤ 0xf4 then some (4, (lead &&& 0x07).toUInt32)
  else none

/-- The loop of both; they differ in how they write the last test (`rejects`). `text` is what is
    left of the text at `index`, so its length is `text.size() - index`. -/
def validUtf8Turns (rejects : Nat → UInt32 → Bool) : Nat → Bytes → Bool
  | _, [] => true
  | 0, _ :: _ => false
  | turns + 1, text@(lead :: rest) =>
      if lead < 0x80 then validUtf8Turns rejects turns rest
      else
        match leadSequence lead with
        | none => false
        | some (length, bits) =>
            if text.length < length then false
            else
              match continuationBytes bits (rest.take (length - 1)) with
              | none => false
              | some codePoint =>
                  if rejects length codePoint then false
                  else validUtf8Turns rejects turns (text.drop length)

namespace LuaValueSchema

def rejects (length : Nat) (codePoint : UInt32) : Bool :=
  if (length = 3 ∧ codePoint < 0x800) ∨ (length = 4 ∧ codePoint < 0x10000) then true
  else decide (codePoint > 0x10ffff ∨ (codePoint ≥ 0xd800 ∧ codePoint ≤ 0xdfff))

/-- `valid_utf8` of LuaValueSchema.cpp. -/
def validUtf8 (text : Bytes) : Bool := validUtf8Turns rejects text.length text

end LuaValueSchema

namespace AuthoringSession

def rejects (length : Nat) (codePoint : UInt32) : Bool :=
  decide ((length = 3 ∧ codePoint < 0x800) ∨ (length = 4 ∧ codePoint < 0x10000) ∨
    codePoint > 0x10ffff ∨ (codePoint ≥ 0xd800 ∧ codePoint ≤ 0xdfff))

/-- `valid_utf8` of AuthoringSession.cpp. -/
def validUtf8 (text : Bytes) : Bool := validUtf8Turns rejects text.length text

end AuthoringSession

/-! ## One turn -/

theorem continuation_iff (c : UInt8) : c &&& 0xc0 = 0x80 ↔ Utf8.isContinuation c = true := by
  have hall : ∀ n : Fin 256,
      UInt8.ofNat n &&& 0xc0 = 0x80 ↔ Utf8.isContinuation (UInt8.ofNat n) = true := by
    decide +kernel
  simpa using hall ⟨c.toNat, c.toNat_lt⟩

theorem toNat_fold {codePoint : UInt32} (h : codePoint.toNat < 2 ^ 26) (c : UInt8) :
    ((codePoint <<< 6) ||| (c &&& 0x3f).toUInt32).toNat = codePoint.toNat * 64 + c.toNat % 64 := by
  have hand : (c &&& 0x3f).toNat = c.toNat % 64 := by
    rw [UInt8.toNat_and]
    exact Nat.and_two_pow_sub_one_eq_mod c.toNat 6
  have hshift : (codePoint <<< 6).toNat = codePoint.toNat * 64 := by
    rw [UInt32.toNat_shiftLeft]
    show codePoint.toNat <<< 6 % 2 ^ 32 = _
    rw [Nat.shiftLeft_eq]
    omega
  rw [UInt32.toNat_or, hshift, UInt8.toNat_toUInt32, hand, Nat.mul_comm]
  exact (@Nat.two_pow_add_eq_or_of_lt 6 _ (by omega) _).symm

/-- The code point of some continuation bytes. -/
def foldNat (bits : Nat) : Bytes → Nat
  | [] => bits
  | c :: rest => foldNat (bits * 64 + c.toNat % 64) rest

theorem continuationBytes_eq_some {bits codePoint : UInt32} {conts : Bytes}
    (h : (bits.toNat + 1) * 64 ^ conts.length ≤ 2 ^ 32) :
    continuationBytes bits conts = some codePoint ↔
      (∀ c ∈ conts, Utf8.isContinuation c = true) ∧
        codePoint.toNat = foldNat bits.toNat conts := by
  induction conts generalizing bits with
  | nil =>
      simp only [continuationBytes, foldNat, Option.some.injEq, List.not_mem_nil, false_implies,
        implies_true, true_and, ← UInt32.toNat_inj]
      exact eq_comm
  | cons c rest ih =>
      rw [List.length_cons, Nat.pow_succ'] at h
      have hpos : 1 ≤ 64 ^ rest.length := Nat.one_le_pow _ _ (by decide)
      have hbits : bits.toNat < 2 ^ 26 := by
        have hle : (bits.toNat + 1) * 64 * 1 ≤ (bits.toNat + 1) * 64 * 64 ^ rest.length :=
          Nat.mul_le_mul_left _ hpos
        rw [Nat.mul_assoc _ _ (64 ^ rest.length)] at hle
        omega
      have hfold := toNat_fold hbits c
      have hnext : (((bits <<< 6) ||| (c &&& 0x3f).toUInt32).toNat + 1) * 64 ^ rest.length ≤
          2 ^ 32 := by
        rw [hfold]
        refine le_trans (Nat.mul_le_mul_right _ ?_) (le_of_eq_of_le (Nat.mul_assoc _ _ _) h)
        omega
      have hcont := continuation_iff c
      by_cases hc : Utf8.isContinuation c = true
      · simp only [continuationBytes, if_neg (not_not.mpr (hcont.mpr hc)), ih hnext, hfold,
          foldNat, List.forall_mem_cons, hc, true_and]
      · simp only [continuationBytes, if_pos (mt hcont.mp hc), List.forall_mem_cons, hc,
          Bool.false_eq_true, false_and, reduceCtorEq]

theorem continuationBytes_isSome (bits : UInt32) (conts : Bytes) :
    (continuationBytes bits conts).isSome = true ↔
      ∀ c ∈ conts, Utf8.isContinuation c = true := by
  induction conts generalizing bits with
  | nil => simp [continuationBytes]
  | cons c rest ih =>
      have hcont := continuation_iff c
      by_cases hc : Utf8.isContinuation c = true
      · simp only [continuationBytes, if_neg (not_not.mpr (hcont.mpr hc)), ih,
          List.forall_mem_cons, hc, true_and]
      · simp only [continuationBytes, if_pos (mt hcont.mp hc), List.forall_mem_cons, hc,
          Bool.false_eq_true, false_and, Option.isSome_none]

/-- The test of the code point at the end of a turn. -/
def Refused (count codePoint : Nat) : Prop :=
  (count = 2 ∧ codePoint < 0x800) ∨ (count = 3 ∧ codePoint < 0x10000) ∨ codePoint > 0x10ffff ∨
    (0xd800 ≤ codePoint ∧ codePoint ≤ 0xdfff)

theorem refused_iff {count : Nat} {codePoint : UInt32} :
    ((count = 2 ∧ codePoint < 0x800) ∨ (count = 3 ∧ codePoint < 0x10000) ∨
      codePoint > 0x10ffff ∨ (0xd800 ≤ codePoint ∧ codePoint ≤ 0xdfff)) ↔
      Refused count codePoint.toNat := by
  simp only [Refused, UInt32.lt_iff_toNat_lt, UInt32.le_iff_toNat_le, gt_iff_lt]
  rfl

/-- A turn with a lead byte that announces `count` continuation bytes, if the test accepts the
    right ones. -/
theorem utf8Sequence_lead {first : UInt8} {rest : Bytes} {count : Nat} {bits : UInt32}
    (hascii : ¬first ≤ 0x7f) (hlead : leadByte first = some (count, bits))
    (hlength : Utf8.leadLength first = count + 1) (hbits : (bits.toNat + 1) * 64 ^ count ≤ 2 ^ 32)
    (htest : ∀ conts : Bytes, conts.length = count →
      (Utf8.isSequence (first :: conts) = true ↔
        (∀ c ∈ conts, Utf8.isContinuation c = true) ∧ ¬Refused count (foldNat bits.toNat conts))) :
    (utf8Sequence first rest).map (· + 1) = Utf8.sequenceLength (first :: rest) := by
  rw [Utf8.sequenceLength_cons hlength]
  simp only [utf8Sequence, if_neg hascii, hlead]
  by_cases hshort : rest.length < count
  · rw [if_pos hshort, if_neg (Utf8.not_isSequence_short hlength hshort)]
    rfl
  · have htake : (rest.take count).length = count := by
      rw [List.length_take]
      omega
    have htaken := htest _ htake
    rw [if_neg hshort]
    cases hconts : continuationBytes bits (rest.take count) with
    | none =>
        have hnone := continuationBytes_isSome bits (rest.take count)
        rw [hconts] at hnone
        rw [if_neg fun hseq => absurd (hnone.mpr (htaken.mp hseq).1) Bool.false_ne_true]
        rfl
    | some codePoint =>
        obtain ⟨hall, hcode⟩ := (continuationBytes_eq_some (by rwa [htake])).mp hconts
        rw [← hcode] at htaken
        by_cases hrefused : Refused count codePoint.toNat
        · simp only [if_pos (refused_iff.mpr hrefused)]
          rw [if_neg fun hseq => (htaken.mp hseq).2 hrefused]
          rfl
        · simp only [if_neg (mt refused_iff.mp hrefused)]
          rw [if_pos (htaken.mpr ⟨hall, hrefused⟩)]
          rfl

/-- A turn of `valid_utf8` of Value.cpp recognises the sequence the text begins with. -/
theorem utf8Sequence_eq (first : UInt8) (rest : Bytes) :
    (utf8Sequence first rest).map (· + 1) = Utf8.sequenceLength (first :: rest) := by
  by_cases hascii : first ≤ 0x7f
  · have hlength : Utf8.leadLength first = 1 := if_pos hascii
    have hseq : Utf8.isSequence [first] = true := decide_eq_true hascii
    rw [Utf8.sequenceLength_cons hlength, List.take_zero, if_pos hseq, utf8Sequence,
      if_pos hascii]
    rfl
  have hlow : 0x7f < first.toNat := UInt8.lt_iff_toNat_lt.mp (not_le.mp hascii)
  by_cases h2 : 0xc2 ≤ first ∧ first ≤ 0xdf
  · have hlead : leadByte first = some (1, (first &&& 0x1f).toUInt32) := if_pos h2
    have hbits : (first &&& 0x1f).toUInt32.toNat = first.toNat % 32 := by
      rw [UInt8.toNat_toUInt32, UInt8.toNat_and]
      exact Nat.and_two_pow_sub_one_eq_mod _ 5
    have hlength := Utf8.leadLength_two h2
    have hrange : 0xc2 ≤ first.toNat ∧ first.toNat ≤ 0xdf :=
      ⟨UInt8.le_iff_toNat_le.mp h2.1, UInt8.le_iff_toNat_le.mp h2.2⟩
    refine utf8Sequence_lead hascii hlead hlength (by rw [hbits]; omega) fun conts hconts => ?_
    obtain ⟨b, rfl⟩ := List.length_eq_one_iff.mp hconts
    simp only [Utf8.isSequence_two, List.forall_mem_singleton, Utf8.isContinuation_iff, hbits,
      foldNat, Refused]
    omega
  by_cases h3 : 0xe0 ≤ first ∧ first ≤ 0xef
  · have hlead : leadByte first = some (2, (first &&& 0x0f).toUInt32) := by
      rw [leadByte, if_neg h2, if_pos h3]
    have hbits : (first &&& 0x0f).toUInt32.toNat = first.toNat % 16 := by
      rw [UInt8.toNat_toUInt32, UInt8.toNat_and]
      exact Nat.and_two_pow_sub_one_eq_mod _ 4
    have hrange : 0xe0 ≤ first.toNat ∧ first.toNat ≤ 0xef :=
      ⟨UInt8.le_iff_toNat_le.mp h3.1, UInt8.le_iff_toNat_le.mp h3.2⟩
    have hlength := Utf8.leadLength_three h3
    refine utf8Sequence_lead hascii hlead hlength (by rw [hbits]; omega) fun conts hconts => ?_
    obtain ⟨b, c, rfl⟩ := List.length_eq_two.mp hconts
    simp only [Utf8.isSequence_three, List.forall_mem_cons, List.not_mem_nil, false_implies,
      implies_true, and_true, Utf8.isContinuation_iff, hbits, foldNat, Refused]
    have hfirst : first.toNat % 16 = first.toNat - 0xe0 := by omega
    constructor
    · rintro ⟨-, hb, hc, hlow, hhigh⟩
      have hmod : b.toNat % 64 = b.toNat - 0x80 ∧ c.toNat % 64 = c.toNat - 0x80 := by omega
      rw [hfirst, hmod.1, hmod.2]
      omega
    · rintro ⟨⟨hb, hc⟩, htest⟩
      have hmod : b.toNat % 64 = b.toNat - 0x80 ∧ c.toNat % 64 = c.toNat - 0x80 := by omega
      simp only [hfirst, hmod, true_and] at htest
      omega
  by_cases h4 : 0xf0 ≤ first ∧ first ≤ 0xf4
  · have hlead : leadByte first = some (3, (first &&& 0x07).toUInt32) := by
      rw [leadByte, if_neg h2, if_neg h3, if_pos h4]
    have hbits : (first &&& 0x07).toUInt32.toNat = first.toNat % 8 := by
      rw [UInt8.toNat_toUInt32, UInt8.toNat_and]
      exact Nat.and_two_pow_sub_one_eq_mod _ 3
    have hrange : 0xf0 ≤ first.toNat ∧ first.toNat ≤ 0xf4 :=
      ⟨UInt8.le_iff_toNat_le.mp h4.1, UInt8.le_iff_toNat_le.mp h4.2⟩
    have hlength := Utf8.leadLength_four h4
    refine utf8Sequence_lead hascii hlead hlength (by rw [hbits]; omega) fun conts hconts => ?_
    obtain ⟨b, c, d, rfl⟩ := List.length_eq_three.mp hconts
    simp only [Utf8.isSequence_four, List.forall_mem_cons, List.not_mem_nil, false_implies,
      implies_true, and_true, Utf8.isContinuation_iff, hbits, foldNat, Refused]
    have hfirst : first.toNat % 8 = first.toNat - 0xf0 := by omega
    constructor
    · rintro ⟨-, hb, hc, hd, hlow, hhigh⟩
      have hmod : b.toNat % 64 = b.toNat - 0x80 ∧ c.toNat % 64 = c.toNat - 0x80 ∧
          d.toNat % 64 = d.toNat - 0x80 := by omega
      rw [hfirst, hmod.1, hmod.2.1, hmod.2.2]
      omega
    · rintro ⟨⟨hb, hc, hd⟩, htest⟩
      have hmod : b.toNat % 64 = b.toNat - 0x80 ∧ c.toNat % 64 = c.toNat - 0x80 ∧
          d.toNat % 64 = d.toNat - 0x80 := by omega
      simp only [hfirst, hmod, true_and] at htest
      omega
  · -- no lead byte
    have hlead : leadByte first = none := by rw [leadByte, if_neg h2, if_neg h3, if_neg h4]
    have hnone := Utf8.sequenceLength_eq_none hascii h2 h3 h4 rest
    rw [hnone]
    simp only [utf8Sequence, if_neg hascii, hlead, Option.map_none]

/-! ## The loops -/

theorem validUtf8Loop_iff {turns : Nat} {text : Bytes} (h : text.length ≤ turns) :
    validUtf8Loop turns text = true ↔ Utf8.WellFormed text := by
  induction turns generalizing text with
  | zero =>
      have hnil : text = [] := List.eq_nil_of_length_eq_zero (Nat.le_zero.mp h)
      rw [hnil]
      exact iff_of_true rfl Utf8.wellFormed_nil
  | succ turns ih =>
      cases text with
      | nil => exact iff_of_true rfl Utf8.wellFormed_nil
      | cons first rest =>
          have hturn := utf8Sequence_eq first rest
          cases hseq : utf8Sequence first rest with
          | none =>
              rw [hseq, Option.map_none] at hturn
              simp only [validUtf8Loop, hseq, Bool.false_eq_true, false_iff]
              intro hwell
              obtain ⟨n, hn⟩ := hwell.sequenceLength (List.cons_ne_nil _ _)
              rw [← hturn] at hn
              cases hn
          | some count =>
              rw [hseq, Option.map_some] at hturn
              obtain ⟨-, hhead⟩ := Utf8.sequenceLength_eq_some.mp hturn.symm
              rw [List.take_succ_cons] at hhead
              have hsplit : first :: rest = (first :: rest.take count) ++ rest.drop count := by
                rw [List.cons_append, List.take_append_drop]
              have hrest : (rest.drop count).length ≤ turns := by
                rw [List.length_cons] at h
                rw [List.length_drop]
                omega
              simp only [validUtf8Loop, hseq]
              rw [ih hrest, hsplit, Utf8.wellFormed_append hhead]

/-- The later validators' lead bytes announce the lead byte too. -/
theorem leadSequence_eq (lead : UInt8) :
    leadSequence lead = (leadByte lead).map fun entry => (entry.1 + 1, entry.2) := by
  unfold leadSequence leadByte
  split
  · rfl
  · split
    · rfl
    · split
      · rfl
      · rfl

/-- A loop whose last test is that of Value.cpp answers as Value.cpp does. -/
theorem validUtf8Turns_eq {rejects : Nat → UInt32 → Bool}
    (htest : ∀ count codePoint, rejects (count + 1) codePoint = true ↔
      (count = 2 ∧ codePoint < 0x800) ∨ (count = 3 ∧ codePoint < 0x10000) ∨
        codePoint > 0x10ffff ∨ (0xd800 ≤ codePoint ∧ codePoint ≤ 0xdfff))
    (turns : Nat) (text : Bytes) :
    validUtf8Turns rejects turns text = validUtf8Loop turns text := by
  induction turns generalizing text with
  | zero => cases text <;> rfl
  | succ turns ih =>
      cases text with
      | nil => rfl
      | cons lead rest =>
          have hascii : lead < 0x80 ↔ lead ≤ 0x7f := by
            rw [UInt8.lt_iff_toNat_lt, UInt8.le_iff_toNat_le]
            exact Nat.lt_succ_iff
          simp only [validUtf8Turns, validUtf8Loop, utf8Sequence, hascii, leadSequence_eq]
          split
          · exact ih rest
          · cases hlead : leadByte lead with
            | none => rfl
            | some entry =>
                obtain ⟨count, bits⟩ := entry
                simp only [Option.map_some, List.length_cons, Nat.add_lt_add_iff_right,
                  Nat.add_sub_cancel, List.drop_succ_cons]
                split
                · rfl
                · cases continuationBytes bits (rest.take count) with
                  | none => rfl
                  | some codePoint =>
                      by_cases hrejects : rejects (count + 1) codePoint = true
                      · simp only [if_pos hrejects, if_pos ((htest count codePoint).mp hrejects)]
                      · simp only [if_neg hrejects, if_neg (mt (htest count codePoint).mpr hrejects),
                          ih]

/-! ## Agreement -/

theorem LuaValueSchema.rejects_iff (count : Nat) (codePoint : UInt32) :
    LuaValueSchema.rejects (count + 1) codePoint = true ↔
      (count = 2 ∧ codePoint < 0x800) ∨ (count = 3 ∧ codePoint < 0x10000) ∨
        codePoint > 0x10ffff ∨ (0xd800 ≤ codePoint ∧ codePoint ≤ 0xdfff) := by
  unfold LuaValueSchema.rejects
  simp only [Nat.reduceEqDiff]
  split
  · next h => simp [← or_assoc, h]
  · next h => simp [← or_assoc, h]

theorem AuthoringSession.rejects_iff (count : Nat) (codePoint : UInt32) :
    AuthoringSession.rejects (count + 1) codePoint = true ↔
      (count = 2 ∧ codePoint < 0x800) ∨ (count = 3 ∧ codePoint < 0x10000) ∨
        codePoint > 0x10ffff ∨ (0xd800 ≤ codePoint ∧ codePoint ≤ 0xdfff) := by
  simp [AuthoringSession.rejects]

/-- The three validators give the same answer, and it is that of `Utf8.WellFormed`. -/
theorem validUtf8_agree (text : Bytes) :
    LuaValueSchema.validUtf8 text = validUtf8 text ∧
      AuthoringSession.validUtf8 text = validUtf8 text ∧
        (validUtf8 text = true ↔ Utf8.WellFormed text) :=
  ⟨validUtf8Turns_eq LuaValueSchema.rejects_iff _ _,
    validUtf8Turns_eq AuthoringSession.rejects_iff _ _, validUtf8Loop_iff le_rfl⟩

end LiquidLayer
