/-
  Sums over the values of an ordered map.

  `total f m` adds `f` over the values. A new key adds its value (`total_emplace`), an insertion
  takes back the value it replaces (`total_insert`), an erasure the one erased (`total_erase`).
-/
import LiquidLayer.Lib.OrdMap

variable {K V : Type}

namespace Assoc

def total (f : V → Nat) (l : List (K × V)) : Nat := (l.map fun e => f e.2).sum

theorem total_cons (f : V → Nat) (e : K × V) (l : List (K × V)) :
    total f (e :: l) = f e.2 + total f l := by
  unfold total
  rw [List.map_cons, List.sum_cons]

variable [LinearOrder K]

/-- What `f` is of the value under the key. -/
def share (f : V → Nat) (k : K) (l : List (K × V)) : Nat := ((find? k l).map f).getD 0

theorem total_insert (f : V → Nat) (k : K) (v : V) {l : List (K × V)} (hs : Sorted l) :
    total f (insert k v l) + share f k l = total f l + f v := by
  induction l with
  | nil => simp [insert, share, total]
  | cons e l ih =>
      obtain ⟨k', v'⟩ := e
      obtain ⟨hlt, hs⟩ := List.pairwise_cons.mp hs
      unfold share at ih ⊢
      rw [find?_cons]
      unfold insert
      rcases lt_trichotomy k k' with h | h | h
      · have hnone : find? k l = none := find?_eq_none_of_lt fun e he => h.trans (hlt e he)
        rw [if_pos h, if_neg h.ne, hnone, total_cons]
        dsimp only [Option.map_none, Option.getD_none]
        omega
      · subst h
        rw [if_neg (lt_irrefl _), if_pos rfl, if_pos rfl, total_cons, total_cons]
        dsimp only [Option.map_some, Option.getD_some]
        omega
      · rw [if_neg h.not_gt, if_neg h.ne', if_neg h.ne', total_cons, total_cons]
        have := ih hs
        dsimp only
        omega

theorem total_erase (f : V → Nat) (k : K) {l : List (K × V)} (hs : Sorted l) :
    total f (erase k l) + share f k l = total f l := by
  induction l with
  | nil => rfl
  | cons e l ih =>
      obtain ⟨k', v'⟩ := e
      obtain ⟨hlt, hs⟩ := List.pairwise_cons.mp hs
      have hrest := ih hs
      unfold share erase at hrest ⊢
      rw [find?_cons, List.filter_cons]
      by_cases h : k = k'
      · subst h
        have hnone : find? k l = none := find?_eq_none_of_lt hlt
        rw [hnone] at hrest
        rw [if_pos rfl, if_neg (by simp), total_cons]
        dsimp only [Option.map_none, Option.map_some, Option.getD_none, Option.getD_some] at *
        omega
      · rw [if_neg h, if_pos (decide_eq_true (Ne.symm h)), total_cons, total_cons]
        omega

end Assoc

namespace OrdMap

variable [LinearOrder K]

def total (f : V → Nat) (m : OrdMap K V) : Nat := Assoc.total f m.entries

theorem emplace_fresh {m : OrdMap K V} {k : K} (h : m.find? k = none) (v : V) :
    m.emplace k v = m.insert k v := by
  refine ext_find? fun j => ?_
  rw [find?_emplace, find?_insert]
  by_cases hj : j = k
  · rw [hj, h, if_pos rfl, Option.none_or]
  · rw [if_neg hj, if_neg hj, Option.or_none]

/-- A new key. -/
theorem total_emplace (f : V → Nat) {m : OrdMap K V} {k : K} (h : m.find? k = none) (v : V) :
    total f (m.emplace k v) = total f m + f v := by
  have hsum := Assoc.total_insert f k v m.sorted
  unfold Assoc.share at hsum
  rw [show Assoc.find? k m.entries = none from h] at hsum
  rw [emplace_fresh h]
  exact hsum

/-- A key whose value is replaced. -/
theorem total_insert (f : V → Nat) {m : OrdMap K V} {k : K} {v : V} (h : m.find? k = some v)
    (v' : V) : total f (m.insert k v') + f v = total f m + f v' := by
  have hsum := Assoc.total_insert f k v' m.sorted
  unfold Assoc.share at hsum
  rw [show Assoc.find? k m.entries = some v from h] at hsum
  exact hsum

theorem total_erase (f : V → Nat) {m : OrdMap K V} {k : K} {v : V} (h : m.find? k = some v) :
    total f (m.erase k) + f v = total f m := by
  have hsum := Assoc.total_erase f k m.sorted
  unfold Assoc.share at hsum
  rw [show Assoc.find? k m.entries = some v from h] at hsum
  exact hsum

end OrdMap
