/-
  The line reader of the serial action bus (`poll` of atech_actions.h).

  `poll` collects a line in a buffer of 768 bytes that it keeps from one call to the next. When
  the buffer is full it is emptied, but what comes next is taken for a new line, so of a long
  line the last bytes are dispatched: `kept` is what of a line is in the buffer.

  * `dispatched_eq`: what is dispatched, for every stream and every way it comes in.
  * `dispatched_iff`: it is the lines that fit, exactly if every longer line has a length at
    which the buffer has just been emptied.
-/
import LiquidLayer.Lib.Segments
import LiquidLayer.Basic

namespace LiquidLayer

namespace AtechActions

/-- `sizeof buf`. -/
def bufferBytes : Nat := 768

def isLineEnd (c : UInt8) : Bool := c == 10 || c == 13

/-- One byte: the buffer after it, and the line that is dispatched. -/
def pollByte (buf : Bytes) (c : UInt8) : Bytes × Option Bytes :=
  if isLineEnd c then
    if buf.length > 0 then ([], some buf) else (buf, none)
  else if buf.length + 1 < bufferBytes then (buf ++ [c], none)
  else ([], none)

/-- A call, as long as something is available; a negative answer of `read` ends it. -/
def poll : List (Option UInt8) → Bytes → Bytes × List Bytes
  | [], buf => (buf, [])
  | none :: _, buf => (buf, [])
  | some c :: rest, buf =>
      let (buf, line) := pollByte buf c
      let (buf, lines) := poll rest buf
      (buf, line.toList ++ lines)

def polls : List (List (Option UInt8)) → Bytes → List Bytes
  | [], _ => []
  | reads :: rest, buf =>
      let (buf, lines) := poll reads buf
      lines ++ polls rest buf

/-- Everything that is passed to `dispatchLine`. -/
def dispatched (calls : List (List (Option UInt8))) : List Bytes := polls calls []

/-! ## Streams -/

/-- The bytes a call reads. -/
def bytesRead (reads : List (Option UInt8)) : Bytes := (reads.takeWhile Option.isSome).reduceOption

def stream (calls : List (List (Option UInt8))) : Bytes := calls.flatMap bytesRead

/-- The lines of a stream: its segments that end. -/
def lines (stream : Bytes) : List Bytes := (stream.splitOnP isLineEnd).dropLast

def fits (line : Bytes) : Bool := decide (1 ≤ line.length ∧ line.length ≤ bufferBytes - 1)

/-- What of a line is in the buffer. -/
def kept (line : Bytes) : Bytes := line.drop (bufferBytes * (line.length / bufferBytes))

@[simp] theorem length_kept (line : Bytes) :
    (kept line).length = line.length % bufferBytes := by
  unfold kept
  rw [List.length_drop]
  have := Nat.div_add_mod line.length bufferBytes
  omega

theorem kept_of_lt {line : Bytes} (h : line.length < bufferBytes) : kept line = line := by
  unfold kept
  rw [Nat.div_eq_of_lt h]
  rfl

/-- A byte of the line. -/
theorem pollByte_kept (line : Bytes) {c : UInt8} (hc : isLineEnd c = false) :
    pollByte (kept line) c = (kept (line ++ [c]), none) := by
  have hdiv := Nat.div_add_mod line.length bufferBytes
  have hmod : line.length % bufferBytes < bufferBytes := Nat.mod_lt _ (by decide)
  unfold pollByte
  rw [if_neg (by rw [hc]; decide), length_kept]
  by_cases hroom : line.length % bufferBytes + 1 < bufferBytes
  · have hsame : (line ++ [c]).length / bufferBytes = line.length / bufferBytes := by
      rw [List.length_append, List.length_singleton]
      unfold bufferBytes at *
      omega
    have hkept : kept (line ++ [c]) = kept line ++ [c] := by
      unfold kept
      rw [hsame, List.drop_append_of_le_length (by omega)]
    rw [if_pos hroom, hkept]
  · have hkept : kept (line ++ [c]) = [] := by
      apply List.eq_nil_of_length_eq_zero
      rw [length_kept, List.length_append, List.length_singleton]
      unfold bufferBytes at *
      omega
    rw [if_neg hroom, hkept]

/-- What is dispatched at the end of a line. -/
def dispatchedOf (line : Bytes) : Option Bytes := if kept line = [] then none else some (kept line)

theorem pollByte_end (line : Bytes) {c : UInt8} (hc : isLineEnd c = true) :
    pollByte (kept line) c = ([], dispatchedOf line) := by
  unfold pollByte dispatchedOf
  rw [if_pos hc]
  by_cases hnil : kept line = []
  · rw [hnil]
    rfl
  · rw [if_pos (List.length_pos_iff.mpr hnil), if_neg hnil]

theorem poll_kept (reads : List (Option UInt8)) (pending : Bytes) :
    poll reads (kept pending) = (kept (Segments.openFrom isLineEnd pending (bytesRead reads)),
      (Segments.segmentsFrom isLineEnd pending (bytesRead reads)).filterMap dispatchedOf) := by
  induction reads generalizing pending with
  | nil => rfl
  | cons read rest ih =>
      cases read with
      | none => rfl
      | some c =>
          have hbytes : bytesRead (some c :: rest) = c :: bytesRead rest := rfl
          unfold poll
          rw [hbytes, Segments.openFrom_cons, Segments.segmentsFrom_cons]
          cases hc : isLineEnd c with
          | true =>
              have hempty : ([] : Bytes) = kept [] := rfl
              rw [pollByte_end pending hc, if_pos rfl, if_pos rfl, List.filterMap_cons]
              dsimp only
              rw [hempty, ih]
              cases dispatchedOf pending <;> rfl
          | false =>
              rw [pollByte_kept pending hc]
              dsimp only
              rw [ih]
              rfl

theorem polls_kept (calls : List (List (Option UInt8))) (pending : Bytes) :
    polls calls (kept pending) =
      (Segments.segmentsFrom isLineEnd pending (stream calls)).filterMap dispatchedOf := by
  induction calls generalizing pending with
  | nil => rfl
  | cons reads rest ih =>
      have hstream : stream (reads :: rest) = bytesRead reads ++ stream rest := rfl
      unfold polls
      rw [poll_kept]
      dsimp only
      rw [ih, hstream, Segments.segmentsFrom_append, List.filterMap_append]

theorem dispatched_eq (calls : List (List (Option UInt8))) :
    dispatched calls = (lines (stream calls)).filterMap dispatchedOf := by
  have hempty : ([] : Bytes) = kept [] := rfl
  unfold dispatched lines
  rw [hempty, polls_kept, Segments.splitOnP_eq, List.dropLast_concat]
  rfl

/-! ## Long lines -/

/-- A line that does not fit and is not dropped whole. -/
def leaves (line : Bytes) : Bool :=
  decide (bufferBytes ≤ line.length ∧ line.length % bufferBytes ≠ 0)

theorem dispatchedOf_eq (line : Bytes) : dispatchedOf line =
    if leaves line then some (kept line) else if fits line then some line else none := by
  have hpositive : 0 < bufferBytes := by decide
  have hnil : kept line = [] ↔ line.length % bufferBytes = 0 := by
    rw [← List.length_eq_zero_iff, length_kept]
  unfold dispatchedOf leaves fits
  simp only [decide_eq_true_eq, hnil]
  by_cases hlong : bufferBytes ≤ line.length
  · by_cases hmod : line.length % bufferBytes = 0
    · rw [if_pos hmod, if_neg (by omega), if_neg (by omega)]
    · rw [if_neg hmod, if_pos ⟨hlong, hmod⟩]
  · have hshort : ¬(bufferBytes ≤ line.length ∧ line.length % bufferBytes ≠ 0) := fun h =>
      hlong h.1
    rw [Nat.mod_eq_of_lt (by omega), kept_of_lt (by omega)]
    by_cases hempty : line.length = 0
    · rw [if_pos hempty, if_neg (by omega), if_neg (by omega)]
    · rw [if_neg hempty, if_neg (by omega), if_pos (by omega)]

/-- One line more is dispatched for each long line that leaves something. -/
theorem length_dispatched (l : List Bytes) :
    (l.filterMap dispatchedOf).length = (l.filter fits).length + l.countP leaves := by
  induction l with
  | nil => rfl
  | cons line l ih =>
      have hone : leaves line = true → fits line = false := by
        unfold leaves fits
        simp only [decide_eq_true_eq, decide_eq_false_iff_not]
        have hpositive : 0 < bufferBytes := by decide
        omega
      rw [List.filterMap_cons, dispatchedOf_eq, List.filter_cons, List.countP_cons]
      cases hleaves : leaves line with
      | true =>
          rw [hone hleaves, if_pos rfl, if_neg Bool.false_ne_true, if_pos rfl]
          dsimp only
          rw [List.length_cons, ih]
          omega
      | false =>
          cases hfits : fits line with
          | true =>
              simp only [Bool.false_eq_true, if_false, if_true, List.length_cons, ih]
              omega
          | false =>
              simp only [Bool.false_eq_true, if_false, ih]
              omega

/-- The lines that fit are dispatched and no others, exactly if no longer line ends anywhere but
    where the buffer has just been emptied. -/
theorem dispatched_iff (calls : List (List (Option UInt8))) :
    dispatched calls = (lines (stream calls)).filter fits ↔
      ∀ line ∈ lines (stream calls), bufferBytes ≤ line.length → bufferBytes ∣ line.length := by
  have hcondition : (lines (stream calls)).countP leaves = 0 ↔
      ∀ line ∈ lines (stream calls), bufferBytes ≤ line.length → bufferBytes ∣ line.length := by
    rw [List.countP_eq_zero]
    refine forall_congr' fun line => forall_congr' fun _ => ?_
    unfold leaves
    rw [decide_eq_true_eq, Nat.dvd_iff_mod_eq_zero]
    tauto
  rw [dispatched_eq, ← hcondition]
  constructor
  · intro h
    have hlength := length_dispatched (lines (stream calls))
    rw [h] at hlength
    omega
  · intro h
    rw [← List.filterMap_eq_filter]
    refine List.filterMap_congr fun line hline => ?_
    have hnone := List.countP_eq_zero.mp h line hline
    rw [dispatchedOf_eq, if_neg hnone]
    rfl

/-- The end of a line of 769 bytes is dispatched. -/
theorem dispatched_tail :
    dispatched [List.replicate 768 (some 97) ++ [some 98, some 10]] = [[98]] ∧
      (lines (stream [List.replicate 768 (some 97) ++ [some 98, some 10]])).filter fits = [] := by
  decide +kernel

end AtechActions

end LiquidLayer
