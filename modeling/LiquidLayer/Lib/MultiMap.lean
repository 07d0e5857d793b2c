/-
  Maps that may hold several values under a key, as key-sorted entry lists (the behaviour of a
  `std::multimap`: iteration in key order, and in order of insertion under equal keys).

  A position in the entry list is an iterator: `upperBound` is the first entry with a greater
  key, `eraseAt` removes one entry. `through k` and `later k` are the entries before and from the
  upper bound of `k`.
-/
import Mathlib

structure MultiMap (K V : Type) [LinearOrder K] where
  entries : List (K × V)
  sorted : entries.Pairwise fun a b => a.1 ≤ b.1

namespace MultiMap

variable {K V : Type} [LinearOrder K]

def empty : MultiMap K V := ⟨[], List.Pairwise.nil⟩

def size (m : MultiMap K V) : Nat := m.entries.length

/-- Insertion behind the entries with a key no greater. -/
def insertAfter (k : K) (v : V) : List (K × V) → List (K × V)
  | [] => [(k, v)]
  | e :: rest => if e.1 ≤ k then e :: insertAfter k v rest else (k, v) :: e :: rest

theorem perm_insertAfter (k : K) (v : V) (l : List (K × V)) :
    (insertAfter k v l).Perm ((k, v) :: l) := by
  induction l with
  | nil => exact List.Perm.refl _
  | cons e l ih =>
      rw [insertAfter]
      split
      · exact (ih.cons e).trans (List.Perm.swap _ _ _)
      · exact List.Perm.refl _

theorem sorted_insertAfter (k : K) (v : V) {l : List (K × V)}
    (h : l.Pairwise fun a b => a.1 ≤ b.1) :
    (insertAfter k v l).Pairwise fun a b => a.1 ≤ b.1 := by
  induction l with
  | nil => exact List.pairwise_singleton _ _
  | cons e l ih =>
      obtain ⟨hhead, htail⟩ := List.pairwise_cons.mp h
      rw [insertAfter]
      split
      · next hle =>
          refine List.pairwise_cons.mpr ⟨fun a ha => ?_, ih htail⟩
          rcases List.mem_cons.mp ((perm_insertAfter k v l).mem_iff.mp ha) with rfl | ha
          · exact hle
          · exact hhead a ha
      · next hnle =>
          have hlt : k < e.1 := lt_of_not_ge hnle
          refine List.pairwise_cons.mpr ⟨fun a ha => ?_, h⟩
          rcases List.mem_cons.mp ha with rfl | ha
          · exact hlt.le
          · exact hlt.le.trans (hhead a ha)

def emplace (m : MultiMap K V) (k : K) (v : V) : MultiMap K V :=
  ⟨insertAfter k v m.entries, sorted_insertAfter k v m.sorted⟩

/-- The position of the first entry with a key greater than `k`. -/
def upperBound (m : MultiMap K V) (k : K) : Nat :=
  (m.entries.takeWhile fun e => decide (e.1 ≤ k)).length

def eraseAt (m : MultiMap K V) (i : Nat) : MultiMap K V :=
  ⟨m.entries.eraseIdx i, m.sorted.sublist (List.eraseIdx_sublist _ _)⟩

/-- The entries with a key no greater than `k`. -/
def through (m : MultiMap K V) (k : K) : List (K × V) :=
  m.entries.takeWhile fun e => decide (e.1 ≤ k)

/-- The entries with a greater key. -/
def later (m : MultiMap K V) (k : K) : List (K × V) :=
  m.entries.dropWhile fun e => decide (e.1 ≤ k)

theorem entries_eq (m : MultiMap K V) (k : K) : m.entries = m.through k ++ m.later k :=
  (List.takeWhile_append_dropWhile ..).symm

theorem le_of_mem_through {m : MultiMap K V} {k : K} {e : K × V} (h : e ∈ m.through k) :
    e.1 ≤ k := by
  have hdecide := List.mem_takeWhile_imp h
  simpa using hdecide

theorem lt_of_mem_later {m : MultiMap K V} {k : K} {e : K × V} (h : e ∈ m.later k) :
    k < e.1 := by
  have hsorted : (m.later k).Pairwise fun a b => a.1 ≤ b.1 :=
    m.sorted.sublist (List.dropWhile_sublist _)
  cases hlater : m.later k with
  | nil => rw [hlater] at h; cases h
  | cons first rest =>
      have hfirst : k < first.1 := by
        have hnot := List.head?_dropWhile_not (fun e : K × V => decide (e.1 ≤ k)) m.entries
        unfold later at hlater
        rw [hlater] at hnot
        simpa using hnot
      rw [hlater] at h hsorted
      rcases List.mem_cons.mp h with rfl | h
      · exact hfirst
      · exact hfirst.trans_le ((List.pairwise_cons.mp hsorted).1 e h)

theorem upperBound_eq {m : MultiMap K V} {k : K} {l l' : List (K × V)} (h : m.entries = l ++ l')
    (hl : ∀ e ∈ l, e.1 ≤ k) (hl' : ∀ e ∈ l', k < e.1) : m.upperBound k = l.length := by
  have hnone : l'.takeWhile (fun e => decide (e.1 ≤ k)) = [] := by
    cases l' with
    | nil => rfl
    | cons e l' =>
        have hlt := hl' e List.mem_cons_self
        simp [not_le.mpr hlt]
  unfold upperBound
  rw [h, List.takeWhile_append_of_pos (fun e he => decide_eq_true (hl e he)), hnone,
    List.append_nil]

end MultiMap
