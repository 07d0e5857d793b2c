/-
  Numbering names in the order in which they are first seen.

  The names seen so far are a list without repetitions; a name's number is its place in it. An
  injective renaming keeps the numbers (`idxOf_map`), and the numbers are themselves an injective
  renaming of what was seen (`exists_perm`).
-/
import Mathlib

namespace FirstSeen

variable {α β : Type} [DecidableEq α] [DecidableEq β]

/-- The list after a name was seen. -/
def see (l : List α) (a : α) : List α := if a ∈ l then l else l ++ [a]

theorem mem_see (l : List α) (a : α) : a ∈ see l a := by
  unfold see
  split
  · assumption
  · exact List.mem_append_right _ (List.mem_singleton_self a)

theorem prefix_see (l : List α) (a : α) : l <+: see l a := by
  unfold see
  split
  · exact List.prefix_rfl
  · exact List.prefix_append _ _

theorem nodup_see {l : List α} (h : l.Nodup) (a : α) : (see l a).Nodup := by
  unfold see
  split
  · exact h
  · next hnew => exact List.nodup_append.mpr ⟨h, List.nodup_singleton a, by
      rintro x hx y hy rfl
      exact hnew (List.mem_singleton.mp hy ▸ hx)⟩

/-- What was seen before keeps its number. -/
theorem idxOf_of_prefix {l l' : List α} (h : l <+: l') {a : α} (ha : a ∈ l) :
    l'.idxOf a = l.idxOf a := by
  obtain ⟨more, rfl⟩ := h
  exact List.idxOf_append_of_mem ha

theorem idxOf_see {l : List α} {a : α} : (see l a).idxOf a = l.idxOf a := by
  unfold see
  split
  · rfl
  · next hnew =>
      rw [List.idxOf_append_of_notMem hnew, List.idxOf_cons_self, Nat.add_zero,
        List.idxOf_of_notMem hnew]

theorem see_map {f : α → β} (hf : Function.Injective f) (l : List α) (a : α) :
    see (l.map f) (f a) = (see l a).map f := by
  unfold see
  by_cases h : a ∈ l
  · rw [if_pos h, if_pos (List.mem_map_of_mem h)]
  · rw [if_neg h, if_neg (fun hmem => h ((List.mem_map_of_injective hf).mp hmem)), List.map_append]
    rfl

theorem idxOf_map {f : α → β} (hf : Function.Injective f) (l : List α) (a : α) :
    (l.map f).idxOf (f a) = l.idxOf a := by
  induction l with
  | nil => rfl
  | cons b l ih =>
      by_cases h : b = a
      · subst h
        simp
      · rw [List.map_cons, List.idxOf_cons_ne _ (fun heq => h (hf heq)), List.idxOf_cons_ne _ h, ih]

/-- An injective function on what was seen extends to a permutation. -/
theorem exists_perm {γ : Type} [Fintype γ] [DecidableEq γ] (l : List γ) (f : γ → γ)
    (hf : ∀ a ∈ l, ∀ b ∈ l, f a = f b → a = b) :
    ∃ π : Equiv.Perm γ, ∀ a ∈ l, π a = f a := by
  have hinj : Set.InjOn f (l.toFinset : Set γ) := fun a ha b hb =>
    hf a (by simpa using ha) b (by simpa using hb)
  obtain ⟨g, hg⟩ := Finset.exists_equiv_extend_of_card_eq (α := γ) (t := Finset.univ)
    Finset.card_univ.symm (Finset.subset_univ _) hinj
  refine ⟨g.trans (Equiv.subtypeUnivEquiv Finset.mem_univ), fun a ha => ?_⟩
  exact hg a (by simpa using ha)

end FirstSeen
