/-
  Maps of maps, looked up by both keys at once (`at?`), and what loops over them do.

  * `foldlM_induct`: the invariant rule of a loop that may fail, for the runs that do not.
  * `foldlM_nested`: a loop in a loop, as one loop.
  * `insertAll`, `mergeAll`: another map's entries are written over this one's.
  * `emplaceAt`: one entry, unless the two keys are taken.
-/
import LiquidLayer.Lib.OrdMap

/-- What holds before a loop and is kept by each turn that succeeds holds after the loop. `done`
    are the elements the loop has dealt with. -/
theorem foldlM_induct {ε α β : Type} {f : β → α → Except ε β} {P : List α → β → Prop}
    {b b' : β} {l : List α} (h : l.foldlM f b = .ok b') (h₀ : P [] b)
    (hstep : ∀ done a b b', done ++ [a] <+: l → P done b → f b a = .ok b' → P (done ++ [a]) b') :
    P l b' := by
  suffices key : ∀ (rest done : List α) (b : β), done ++ rest = l → P done b →
      rest.foldlM f b = .ok b' → P l b' from key l [] b rfl h₀ h
  intro rest
  induction rest with
  | nil =>
      intro done b hl hb h
      cases h
      rw [List.append_nil] at hl
      rwa [hl] at hb
  | cons a rest ih =>
      intro done b hl hb h
      rw [List.foldlM_cons] at h
      cases hf : f b a with
      | error e => rw [hf] at h; cases h
      | ok b₁ =>
          rw [hf] at h
          have hl' : done ++ [a] ++ rest = l := by rw [List.append_assoc]; exact hl
          exact ih (done ++ [a]) b₁ hl' (hstep done a b b₁ ⟨rest, hl'⟩ hb hf) h

/-- A loop in a loop is one loop over the pairs. -/
theorem foldlM_nested {m : Type → Type} [Monad m] [LawfulMonad m] {α β γ : Type}
    (f : α → β → γ → m β) (inner : α → List γ) (l : List α) (b : β) :
    l.foldlM (fun b a => (inner a).foldlM (f a) b) b =
      (l.flatMap fun a => (inner a).map (Prod.mk a)).foldlM (fun b p => f p.1 b p.2) b := by
  induction l generalizing b with
  | nil => rfl
  | cons a l ih =>
      rw [List.foldlM_cons, List.flatMap_cons, List.foldlM_append, List.foldlM_map]
      exact bind_congr fun b => ih b

namespace OrdMap

variable {K J V : Type} [LinearOrder K] [LinearOrder J]

/-! ## Writing one map over another -/

def insertAll (m news : OrdMap K V) : OrdMap K V :=
  news.entries.foldl (fun m entry => m.insert entry.1 entry.2) m

theorem find?_insertAll (m news : OrdMap K V) (k : K) :
    (m.insertAll news).find? k = (news.find? k).or (m.find? k) := by
  obtain ⟨l, hl⟩ := news
  show (l.foldl (fun m entry => m.insert entry.1 entry.2) m).find? k = (Assoc.find? k l).or _
  induction l generalizing m with
  | nil => rfl
  | cons entry l ih =>
      obtain ⟨j, v⟩ := entry
      obtain ⟨hlt, hsorted⟩ := List.pairwise_cons.mp hl
      rw [List.foldl_cons, ih (m.insert j v) hsorted, find?_insert, Assoc.find?_cons]
      by_cases hk : k = j
      · subst hk
        rw [if_pos rfl, if_pos rfl, Assoc.find?_eq_none_of_lt hlt]
        rfl
      · rw [if_neg hk, if_neg hk]

/-! ## Two keys -/

/-- The value under the two keys. -/
def at? (m : OrdMap K (OrdMap J V)) (k : K) (j : J) : Option V :=
  (m.find? k).bind fun inner => inner.find? j

/-- The inner map under `k`; one that is not there is empty. -/
def inner (m : OrdMap K (OrdMap J V)) (k : K) : OrdMap J V := (m.find? k).getD .empty

theorem find?_inner (m : OrdMap K (OrdMap J V)) (k : K) (j : J) :
    (m.inner k).find? j = m.at? k j := by
  unfold inner at?
  cases m.find? k <;> rfl

theorem at?_insert (m : OrdMap K (OrdMap J V)) (k k' : K) (j : J) (new : OrdMap J V) :
    (m.insert k new).at? k' j = if k' = k then new.find? j else m.at? k' j := by
  unfold at?
  rw [find?_insert]
  split <;> rfl

/-- `m[k].emplace(j, v)`. -/
def emplaceAt (m : OrdMap K (OrdMap J V)) (k : K) (j : J) (v : V) : OrdMap K (OrdMap J V) :=
  m.insert k ((m.inner k).emplace j v)

theorem at?_emplaceAt (m : OrdMap K (OrdMap J V)) (k k' : K) (j j' : J) (v : V) :
    (m.emplaceAt k j v).at? k' j' =
      (m.at? k' j').or (if k' = k ∧ j' = j then some v else none) := by
  unfold emplaceAt
  rw [at?_insert]
  by_cases hk : k' = k
  · subst hk
    rw [if_pos rfl, find?_emplace, find?_inner]
    simp only [true_and]
  · rw [if_neg hk, if_neg fun h => hk h.1, Option.or_none]

/-- For each key of `news`, its inner map is written over the one there is. -/
def mergeAll (m news : OrdMap K (OrdMap J V)) : OrdMap K (OrdMap J V) :=
  news.entries.foldl (fun m entry => m.insert entry.1 ((m.inner entry.1).insertAll entry.2)) m

theorem at?_mergeAll (m news : OrdMap K (OrdMap J V)) (k : K) (j : J) :
    (m.mergeAll news).at? k j = (news.at? k j).or (m.at? k j) := by
  obtain ⟨l, hl⟩ := news
  show (l.foldl (fun m entry => m.insert entry.1 ((m.inner entry.1).insertAll entry.2)) m).at? k j
    = ((Assoc.find? k l).bind fun inner => inner.find? j).or _
  induction l generalizing m with
  | nil => rfl
  | cons entry l ih =>
      obtain ⟨k', new⟩ := entry
      obtain ⟨hlt, hsorted⟩ := List.pairwise_cons.mp hl
      rw [List.foldl_cons, ih _ hsorted, at?_insert, Assoc.find?_cons]
      by_cases hk : k = k'
      · subst hk
        rw [if_pos rfl, if_pos rfl, Assoc.find?_eq_none_of_lt hlt, find?_insertAll, find?_inner]
        rfl
      · rw [if_neg hk, if_neg hk]

end OrdMap
