/-
  The segments of a stream.

  An item with `ends` ends a segment. `segmentsFrom ends open' l` are the segments that end in
  `l` when the items of `open'` have come before, and `openFrom ends open' l` is what has come of
  the next one. Both can be taken in parts (`segmentsFrom_append`, `openFrom_append`), so a
  program that keeps its state from one part to the next is measured against the whole stream.

  * `splitOnP_eq`: they are what splitting the stream gives, the last piece being the open one.
  * `segments_append`: what is open at the end of one part goes in front of the next.
-/
import Mathlib

namespace Segments

variable {α : Type} (ends : α → Bool)

/-- The segments that end in the list, the first of them with the items in front of it. -/
def segmentsFrom : List α → List α → List (List α)
  | _, [] => []
  | pending, a :: rest =>
      if ends a then pending :: segmentsFrom [] rest else segmentsFrom (pending ++ [a]) rest

/-- The items since the last end. -/
def openFrom : List α → List α → List α
  | pending, [] => pending
  | pending, a :: rest => if ends a then openFrom [] rest else openFrom (pending ++ [a]) rest

def segments (l : List α) : List (List α) := segmentsFrom ends [] l

theorem segmentsFrom_cons (pending : List α) (a : α) (rest : List α) :
    segmentsFrom ends pending (a :: rest) =
      if ends a then pending :: segmentsFrom ends [] rest
      else segmentsFrom ends (pending ++ [a]) rest := rfl

theorem openFrom_cons (pending : List α) (a : α) (rest : List α) :
    openFrom ends pending (a :: rest) =
      if ends a then openFrom ends [] rest else openFrom ends (pending ++ [a]) rest := rfl

theorem segmentsFrom_append (pending l l' : List α) : segmentsFrom ends pending (l ++ l') =
    segmentsFrom ends pending l ++ segmentsFrom ends (openFrom ends pending l) l' := by
  induction l generalizing pending with
  | nil => rfl
  | cons a l ih =>
      rw [List.cons_append, segmentsFrom_cons, segmentsFrom_cons, openFrom_cons]
      split
      · rw [ih, List.cons_append]
      · exact ih _

theorem openFrom_append (pending l l' : List α) : openFrom ends pending (l ++ l') =
    openFrom ends (openFrom ends pending l) l' := by
  induction l generalizing pending with
  | nil => rfl
  | cons a l ih =>
      rw [List.cons_append, openFrom_cons, openFrom_cons]
      split
      · exact ih _
      · exact ih _

/-- Items without an end among them. -/
theorem from_clear (pending : List α) {l : List α} (h : ∀ a ∈ l, ends a = false) :
    segmentsFrom ends pending l = [] ∧ openFrom ends pending l = pending ++ l := by
  induction l generalizing pending with
  | nil => exact ⟨rfl, (List.append_nil _).symm⟩
  | cons a l ih =>
      have ha : ¬ends a = true := by
        rw [h a (List.mem_cons_self ..)]
        exact Bool.false_ne_true
      obtain ⟨hsegments, hopen⟩ := ih (pending ++ [a]) fun b hb => h b (List.mem_cons_of_mem _ hb)
      rw [segmentsFrom_cons, openFrom_cons, if_neg ha, if_neg ha]
      exact ⟨hsegments, by rw [hopen, List.append_assoc]; rfl⟩

theorem openFrom_clear {pending : List α} (hpending : ∀ a ∈ pending, ends a = false)
    (l : List α) : ∀ a ∈ openFrom ends pending l, ends a = false := by
  induction l generalizing pending with
  | nil => exact hpending
  | cons a l ih =>
      rw [openFrom_cons]
      split
      · exact ih nofun
      · next ha =>
          refine ih fun b hb => ?_
          cases List.mem_append.mp hb with
          | inl hb => exact hpending b hb
          | inr hb => rw [List.mem_singleton.mp hb, Bool.eq_false_iff]; exact ha

/-- What is open at the end of one part goes in front of the next. -/
theorem segments_append {pending : List α} (hpending : ∀ a ∈ pending, ends a = false)
    (l : List α) : segments ends (pending ++ l) = segmentsFrom ends pending l ∧
      openFrom ends [] (pending ++ l) = openFrom ends pending l := by
  obtain ⟨hsegments, hopen⟩ := from_clear ends [] hpending
  unfold segments
  rw [segmentsFrom_append, openFrom_append, hsegments, hopen]
  exact ⟨rfl, rfl⟩

/-- Either nothing ends, or the first segment that does holds all that was open. -/
theorem from_cases (pending l : List α) :
    (segmentsFrom ends pending l = [] ∧ openFrom ends pending l = pending ++ l) ∨
      ∃ more behind, segmentsFrom ends pending l = (pending ++ more) :: behind := by
  induction l generalizing pending with
  | nil => exact .inl ⟨rfl, (List.append_nil _).symm⟩
  | cons a l ih =>
      rw [segmentsFrom_cons, openFrom_cons]
      by_cases ha : ends a = true
      · rw [if_pos ha]
        exact .inr ⟨[], _, by rw [List.append_nil]⟩
      · rw [if_neg ha, if_neg ha]
        obtain ⟨hsegments, hopen⟩ | ⟨more, behind, hsegments⟩ := ih (pending ++ [a])
        · exact .inl ⟨hsegments, by rw [hopen, List.append_assoc]; rfl⟩
        · exact .inr ⟨a :: more, behind, by rw [hsegments, List.append_assoc]; rfl⟩

theorem splitOnP_from (pending l : List α) :
    (l.splitOnP ends).modifyHead (pending ++ ·) =
      segmentsFrom ends pending l ++ [openFrom ends pending l] := by
  induction l generalizing pending with
  | nil =>
      rw [List.splitOnP_nil]
      show [pending ++ []] = [pending]
      rw [List.append_nil]
  | cons a l ih =>
      rw [List.splitOnP_cons_eq_if_modifyHead, segmentsFrom_cons, openFrom_cons]
      split
      · have hrest := ih []
        rw [show (fun s : List α => [] ++ s) = id by funext s; rfl, List.modifyHead_id] at hrest
        rw [List.modifyHead_cons, List.append_nil, List.cons_append, ← hrest]
        rfl
      · rw [List.modifyHead_modifyHead, ← ih]
        congr 1
        funext s
        show pending ++ a :: s = pending ++ [a] ++ s
        rw [List.append_assoc]
        rfl

/-- A stream is its segments and what is open at its end. -/
theorem splitOnP_eq (l : List α) :
    l.splitOnP ends = segments ends l ++ [openFrom ends [] l] := by
  have hfrom := splitOnP_from ends [] l
  rwa [show (fun s : List α => [] ++ s) = id by funext s; rfl, List.modifyHead_id] at hfrom

end Segments
