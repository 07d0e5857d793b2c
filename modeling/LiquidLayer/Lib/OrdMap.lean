/-
  Ordered maps as strictly key-sorted association lists (the behaviour of a `std::map`:
  unique keys, iteration in key order, equality of maps is equality of the sorted entries).

  `Assoc` holds the operations on bare entry lists. Lookup after insertion and after erasure
  needs no sortedness, so these lemmas also serve entry lists that sit inside another
  inductive type. `OrdMap` packs a list with the proof that it is sorted; two such maps with
  the same lookups are equal (`OrdMap.ext_find?`).
-/
import Mathlib

namespace Assoc

variable {K V : Type} [LinearOrder K]

/-- The value stored under `k`. -/
def find? (k : K) : List (K × V) → Option V
  | [] => none
  | (k', v) :: rest => if k = k' then some v else find? k rest

/-- Insertion at the key's place, replacing the entry with the same key. -/
def insert (k : K) (v : V) : List (K × V) → List (K × V)
  | [] => [(k, v)]
  | (k', v') :: rest =>
      if k < k' then (k, v) :: (k', v') :: rest
      else if k = k' then (k, v) :: rest
      else (k', v') :: insert k v rest

/-- Insertion that keeps an entry already stored under the key. -/
def emplace (k : K) (v : V) (l : List (K × V)) : List (K × V) :=
  match find? k l with
  | some _ => l
  | none => insert k v l

def erase (k : K) (l : List (K × V)) : List (K × V) := l.filter fun e => decide (e.1 ≠ k)

/-- Strictly increasing keys. -/
def Sorted (l : List (K × V)) : Prop := l.Pairwise fun a b => a.1 < b.1

instance (l : List (K × V)) : Decidable (Sorted l) :=
  inferInstanceAs (Decidable (l.Pairwise fun a b => a.1 < b.1))

@[simp] theorem find?_nil (k : K) : find? k ([] : List (K × V)) = none := rfl

theorem find?_cons (k k' : K) (v : V) (l : List (K × V)) :
    find? k ((k', v) :: l) = if k = k' then some v else find? k l := rfl

theorem find?_insert (j k : K) (v : V) (l : List (K × V)) :
    find? j (insert k v l) = if j = k then some v else find? j l := by
  induction l with
  | nil => simp [insert, find?]
  | cons e l ih =>
      obtain ⟨k', v'⟩ := e
      simp only [insert]
      split
      · simp [find?]
      · split
        · next h => subst h; simp only [find?]; split <;> rfl
        · next h =>
            simp only [find?, ih]
            split
            · next hj => subst hj; rw [if_neg (Ne.symm h)]
            · rfl

@[simp] theorem find?_insert_self (k : K) (v : V) (l : List (K × V)) :
    find? k (insert k v l) = some v := by rw [find?_insert, if_pos rfl]

theorem find?_insert_ne {j k : K} (h : j ≠ k) (v : V) (l : List (K × V)) :
    find? j (insert k v l) = find? j l := by rw [find?_insert, if_neg h]

theorem find?_erase (j k : K) (l : List (K × V)) :
    find? j (erase k l) = if j = k then none else find? j l := by
  induction l with
  | nil => simp [erase, find?]
  | cons e l ih =>
      obtain ⟨k', v'⟩ := e
      unfold erase at ih ⊢
      by_cases hk : k' = k
      · subst hk
        simp only [List.filter_cons, ne_eq, not_true_eq_false, decide_false, Bool.false_eq_true,
          if_false, ih, find?]
        split <;> rfl
      · simp only [List.filter_cons, ne_eq, hk, not_false_eq_true, decide_true, if_true, find?, ih]
        split
        · next hj => subst hj; rw [if_neg hk]
        · rfl

theorem find?_emplace (j k : K) (v : V) (l : List (K × V)) :
    find? j (emplace k v l) = (find? j l).or (if j = k then some v else none) := by
  unfold emplace
  by_cases hj : j = k
  · subst hj
    cases h : find? j l <;> simp [h]
  · cases h : find? k l
    · simp only [find?_insert_ne hj, if_neg hj, Option.or_none]
    · simp only [if_neg hj, Option.or_none]

theorem mem_insert {k : K} {v : V} {l : List (K × V)} {e : K × V} (h : e ∈ insert k v l) :
    e = (k, v) ∨ e ∈ l := by
  induction l with
  | nil => simpa [insert] using h
  | cons e' l ih =>
      simp only [insert] at h
      split at h
      · simpa using h
      · split at h
        · rcases List.mem_cons.mp h with h | h
          · exact Or.inl h
          · exact Or.inr (List.mem_cons_of_mem _ h)
        · rcases List.mem_cons.mp h with h | h
          · exact Or.inr (h ▸ List.mem_cons_self)
          · exact (ih h).imp id (List.mem_cons_of_mem _)

theorem sorted_insert {l : List (K × V)} (h : Sorted l) (k : K) (v : V) :
    Sorted (insert k v l) := by
  induction l with
  | nil => exact List.pairwise_singleton _ _
  | cons e l ih =>
      obtain ⟨k', v'⟩ := e
      obtain ⟨hhd, htl⟩ := List.pairwise_cons.mp h
      simp only [insert]
      split
      · next hlt =>
          refine List.pairwise_cons.mpr ⟨fun a ha => ?_, h⟩
          rcases List.mem_cons.mp ha with rfl | ha
          · exact hlt
          · exact lt_trans hlt (hhd a ha)
      · next hnlt =>
          split
          · next heq => subst heq; exact List.pairwise_cons.mpr ⟨hhd, htl⟩
          · next hne =>
              refine List.pairwise_cons.mpr ⟨fun a ha => ?_, ih htl⟩
              rcases mem_insert ha with rfl | ha
              · exact lt_of_le_of_ne (not_lt.mp hnlt) (Ne.symm hne)
              · exact hhd a ha

theorem sorted_emplace {l : List (K × V)} (h : Sorted l) (k : K) (v : V) :
    Sorted (emplace k v l) := by
  unfold emplace
  split
  · exact h
  · exact sorted_insert h k v

theorem sorted_erase {l : List (K × V)} (h : Sorted l) (k : K) : Sorted (erase k l) :=
  List.Pairwise.filter _ h

/-- The entries whose value `f` keeps, with the value `f` gives them. -/
def filterMap {W : Type} (f : V → Option W) (l : List (K × V)) : List (K × W) :=
  l.filterMap fun e => (f e.2).map fun w => (e.1, w)

theorem sorted_filterMap {W : Type} {l : List (K × V)} (h : Sorted l) (f : V → Option W) :
    Sorted (filterMap f l) := by
  refine List.Pairwise.filterMap _ (fun a b hab c hc d hd => ?_) h
  obtain ⟨w, _, rfl⟩ := Option.map_eq_some_iff.mp hc
  obtain ⟨w', _, rfl⟩ := Option.map_eq_some_iff.mp hd
  exact hab

theorem mem_of_find? {k : K} {v : V} {l : List (K × V)} (h : find? k l = some v) :
    (k, v) ∈ l := by
  induction l with
  | nil => simp [find?] at h
  | cons e l ih =>
      obtain ⟨k', v'⟩ := e
      simp only [find?] at h
      split at h
      · next hk => subst hk; cases h; exact List.mem_cons_self
      · exact List.mem_cons_of_mem _ (ih h)

theorem find?_of_mem {k : K} {v : V} {l : List (K × V)} (hs : Sorted l) (h : (k, v) ∈ l) :
    find? k l = some v := by
  induction l with
  | nil => cases h
  | cons e l ih =>
      obtain ⟨k', v'⟩ := e
      obtain ⟨hhd, htl⟩ := List.pairwise_cons.mp hs
      rcases List.mem_cons.mp h with h | h
      · cases h; simp [find?]
      · have hlt : k' < k := hhd _ h
        simp only [find?]
        rw [if_neg (ne_of_gt hlt)]
        exact ih htl h

theorem find?_filterMap {W : Type} {l : List (K × V)} (h : Sorted l) (f : V → Option W) (k : K) :
    find? k (filterMap f l) = (find? k l).bind f := by
  induction l with
  | nil => rfl
  | cons e l ih =>
      obtain ⟨k', v⟩ := e
      obtain ⟨hhd, htl⟩ := List.pairwise_cons.mp h
      unfold filterMap at ih ⊢
      by_cases hk : k = k'
      · subst hk
        rw [find?_cons, if_pos rfl, Option.bind_some]
        cases hf : f v with
        | some w => rw [List.filterMap_cons_some (b := (k, w)) (by rw [hf]; rfl), find?_cons,
            if_pos rfl]
        | none =>
            rw [List.filterMap_cons_none (by rw [hf]; rfl), ih htl]
            -- the key does not come again
            cases hl : find? k l with
            | none => rfl
            | some v' => exact absurd (hhd _ (mem_of_find? hl)) (lt_irrefl k)
      · rw [find?_cons, if_neg hk, ← ih htl]
        cases hf : f v with
        | some w => rw [List.filterMap_cons_some (b := (k', w)) (by rw [hf]; rfl), find?_cons,
            if_neg hk]
        | none => rw [List.filterMap_cons_none (by rw [hf]; rfl)]

theorem find?_eq_none_of_lt {k : K} {l : List (K × V)} (h : ∀ e ∈ l, k < e.1) :
    find? k l = none := by
  cases hf : find? k l with
  | none => rfl
  | some v => exact absurd (h _ (mem_of_find? hf)) (lt_irrefl k)

theorem find?_eq_none_of_gt {k : K} {l : List (K × V)} (h : ∀ e ∈ l, e.1 < k) :
    find? k l = none := by
  cases hf : find? k l with
  | none => rfl
  | some v => exact absurd (h _ (mem_of_find? hf)) (lt_irrefl k)

/-- A key above all others goes to the end. -/
theorem insert_of_gt {k : K} {v : V} {l : List (K × V)} (h : ∀ e ∈ l, e.1 < k) :
    insert k v l = l ++ [(k, v)] := by
  induction l with
  | nil => rfl
  | cons e l ih =>
      have hk : e.1 < k := h e List.mem_cons_self
      rw [insert, if_neg (not_lt.mpr hk.le), if_neg (ne_of_gt hk),
        ih fun e he => h e (List.mem_cons_of_mem _ he), List.cons_append]

/-- Sorted entry lists with the same lookups are the same list. -/
theorem ext_of_sorted {l₁ l₂ : List (K × V)} (h₁ : Sorted l₁) (h₂ : Sorted l₂)
    (h : ∀ k, find? k l₁ = find? k l₂) : l₁ = l₂ := by
  induction l₁ generalizing l₂ with
  | nil =>
      cases l₂ with
      | nil => rfl
      | cons e l₂ => exact absurd (h e.1) (by simp [find?])
  | cons e₁ l₁ ih =>
      cases l₂ with
      | nil => exact absurd (h e₁.1) (by simp [find?])
      | cons e₂ l₂ =>
          obtain ⟨k₁, v₁⟩ := e₁
          obtain ⟨k₂, v₂⟩ := e₂
          obtain ⟨hd₁, tl₁⟩ := List.pairwise_cons.mp h₁
          obtain ⟨hd₂, tl₂⟩ := List.pairwise_cons.mp h₂
          -- the two heads carry the least key of each list
          have hk : k₁ = k₂ := by
            rcases lt_trichotomy k₁ k₂ with hlt | heq | hgt
            · have := h k₁
              rw [find?_cons, if_pos rfl, find?_cons, if_neg (ne_of_lt hlt),
                find?_eq_none_of_lt fun e he => lt_trans hlt (hd₂ e he)] at this
              cases this
            · exact heq
            · have := h k₂
              rw [find?_cons, if_neg (ne_of_lt hgt), find?_cons, if_pos rfl,
                find?_eq_none_of_lt fun e he => lt_trans hgt (hd₁ e he)] at this
              cases this
          subst hk
          have hv : v₁ = v₂ := by simpa [find?_cons] using h k₁
          subst hv
          rw [ih tl₁ tl₂ fun k => ?_]
          by_cases hk : k = k₁
          · subst hk
            rw [find?_eq_none_of_lt hd₁, find?_eq_none_of_lt hd₂]
          · have := h k
            rwa [find?_cons, if_neg hk, find?_cons, if_neg hk] at this

theorem length_insert (k : K) (v : V) {l : List (K × V)} (hs : Sorted l) :
    (insert k v l).length = if (find? k l).isSome then l.length else l.length + 1 := by
  induction l with
  | nil => rfl
  | cons e l ih =>
      obtain ⟨k', v'⟩ := e
      obtain ⟨hhd, htl⟩ := List.pairwise_cons.mp hs
      simp only [insert]
      split
      · next hlt =>
          rw [find?_cons, if_neg (ne_of_lt hlt),
            find?_eq_none_of_lt fun e he => lt_trans hlt (hhd e he)]
          rfl
      · split
        · next heq => subst heq; simp [find?_cons]
        · next hne =>
            rw [List.length_cons, ih htl, find?_cons, if_neg hne]
            split <;> rfl

theorem length_erase_of_find? {k : K} {v : V} {l : List (K × V)} (hs : Sorted l)
    (h : find? k l = some v) : (erase k l).length + 1 = l.length := by
  induction l with
  | nil => cases h
  | cons e l ih =>
      obtain ⟨k', v'⟩ := e
      obtain ⟨hhd, htl⟩ := List.pairwise_cons.mp hs
      unfold erase at ih ⊢
      by_cases hk : k' = k
      · subst hk
        have hall : l.filter (fun e => decide (e.1 ≠ k')) = l :=
          List.filter_eq_self.mpr fun e he => decide_eq_true (ne_of_gt (hhd e he))
        rw [List.filter_cons, if_neg (by simp), hall, List.length_cons]
      · rw [find?_cons, if_neg (Ne.symm hk)] at h
        simpa [List.filter_cons, hk] using ih htl h

end Assoc

/-- A map with ordered keys. -/
structure OrdMap (K V : Type) [LinearOrder K] where
  entries : List (K × V)
  sorted : Assoc.Sorted entries

namespace OrdMap

variable {K V : Type} [LinearOrder K]

def empty : OrdMap K V := ⟨[], List.Pairwise.nil⟩

def find? (m : OrdMap K V) (k : K) : Option V := Assoc.find? k m.entries

def contains (m : OrdMap K V) (k : K) : Bool := (m.find? k).isSome

/-- `insert_or_assign`. -/
def insert (m : OrdMap K V) (k : K) (v : V) : OrdMap K V :=
  ⟨Assoc.insert k v m.entries, Assoc.sorted_insert m.sorted k v⟩

/-- Insertion that keeps an entry already stored under the key. -/
def emplace (m : OrdMap K V) (k : K) (v : V) : OrdMap K V :=
  ⟨Assoc.emplace k v m.entries, Assoc.sorted_emplace m.sorted k v⟩

def erase (m : OrdMap K V) (k : K) : OrdMap K V :=
  ⟨Assoc.erase k m.entries, Assoc.sorted_erase m.sorted k⟩

/-- In-place change of the value under `k`, if there is one. -/
def modify (m : OrdMap K V) (k : K) (f : V → V) : OrdMap K V :=
  match m.find? k with
  | some v => m.insert k (f v)
  | none => m

/-- The entries whose value `f` keeps, with the value `f` gives them. -/
def filterMap {W : Type} (m : OrdMap K V) (f : V → Option W) : OrdMap K W :=
  ⟨Assoc.filterMap f m.entries, Assoc.sorted_filterMap m.sorted f⟩

def keys (m : OrdMap K V) : List K := m.entries.map Prod.fst

def size (m : OrdMap K V) : Nat := m.entries.length

theorem ext_find? {m₁ m₂ : OrdMap K V} (h : ∀ k, m₁.find? k = m₂.find? k) : m₁ = m₂ := by
  obtain ⟨l₁, s₁⟩ := m₁
  obtain ⟨l₂, s₂⟩ := m₂
  congr
  exact Assoc.ext_of_sorted s₁ s₂ h

theorem contains_iff {m : OrdMap K V} {k : K} : m.contains k = true ↔ ∃ v, m.find? k = some v :=
  Option.isSome_iff_exists

theorem not_contains_iff {m : OrdMap K V} {k : K} : m.contains k = false ↔ m.find? k = none :=
  Option.isSome_eq_false_iff.trans Option.isNone_iff_eq_none

@[simp] theorem find?_empty (k : K) : (empty : OrdMap K V).find? k = none := rfl

theorem find?_insert (m : OrdMap K V) (j k : K) (v : V) :
    (m.insert k v).find? j = if j = k then some v else m.find? j :=
  Assoc.find?_insert j k v m.entries

@[simp] theorem find?_insert_self (m : OrdMap K V) (k : K) (v : V) :
    (m.insert k v).find? k = some v := Assoc.find?_insert_self k v m.entries

theorem find?_insert_ne (m : OrdMap K V) {j k : K} (h : j ≠ k) (v : V) :
    (m.insert k v).find? j = m.find? j := Assoc.find?_insert_ne h v m.entries

theorem find?_emplace (m : OrdMap K V) (j k : K) (v : V) :
    (m.emplace k v).find? j = (m.find? j).or (if j = k then some v else none) :=
  Assoc.find?_emplace j k v m.entries

/-- Different keys may be stored in any order. -/
theorem emplace_comm (m : OrdMap K V) {j k : K} (h : j ≠ k) (v w : V) :
    (m.emplace j v).emplace k w = (m.emplace k w).emplace j v := by
  refine ext_find? fun i => ?_
  simp only [find?_emplace]
  by_cases hi : i = j
  · subst hi
    simp [h]
  · simp [hi]

theorem find?_erase (m : OrdMap K V) (j k : K) :
    (m.erase k).find? j = if j = k then none else m.find? j :=
  Assoc.find?_erase j k m.entries

theorem find?_erase_none {m : OrdMap K V} {j k : K} (h : m.find? j = none) :
    (m.erase k).find? j = none := by
  rw [find?_erase, h, ite_self]

@[simp] theorem find?_filterMap {W : Type} (m : OrdMap K V) (f : V → Option W) (k : K) :
    (m.filterMap f).find? k = (m.find? k).bind f := Assoc.find?_filterMap m.sorted f k

theorem find?_modify (m : OrdMap K V) (j k : K) (f : V → V) :
    (m.modify k f).find? j = if j = k then (m.find? k).map f else m.find? j := by
  unfold modify
  split
  · next v h =>
      rw [find?_insert, h]
      split <;> rfl
  · next h =>
      split
      · next hj => subst hj; rw [h]; rfl
      · rfl

theorem insert_of_find? {m : OrdMap K V} {k : K} {v : V} (h : m.find? k = some v) :
    m.insert k v = m := by
  refine ext_find? fun j => ?_
  rw [find?_insert]
  split
  · next hj => rw [hj, h]
  · rfl

theorem erase_of_find? {m : OrdMap K V} {k : K} (h : m.find? k = none) : m.erase k = m := by
  refine ext_find? fun j => ?_
  rw [find?_erase]
  split
  · next hj => rw [hj, h]
  · rfl

theorem insert_insert (m : OrdMap K V) (k : K) (v w : V) :
    (m.insert k v).insert k w = m.insert k w := by
  refine ext_find? fun j => ?_
  rw [find?_insert, find?_insert, find?_insert]
  split <;> rfl

theorem mem_entries {m : OrdMap K V} {k : K} {v : V} :
    (k, v) ∈ m.entries ↔ m.find? k = some v :=
  ⟨Assoc.find?_of_mem m.sorted, Assoc.mem_of_find?⟩

theorem mem_keys {m : OrdMap K V} {k : K} : k ∈ m.keys ↔ ∃ v, m.find? k = some v := by
  unfold keys
  rw [List.mem_map]
  constructor
  · rintro ⟨⟨k', v⟩, hm, rfl⟩
    exact ⟨v, mem_entries.mp hm⟩
  · rintro ⟨v, hv⟩
    exact ⟨(k, v), mem_entries.mpr hv, rfl⟩

theorem nodup_keys (m : OrdMap K V) : m.keys.Nodup := by
  unfold keys
  exact List.pairwise_map.mpr (m.sorted.imp ne_of_lt)

/-- Maps with the same keys have the same size. -/
theorem size_eq_of_keys {m : OrdMap K V} {W : Type} {m' : OrdMap K W}
    (h : ∀ k, m'.find? k = none ↔ m.find? k = none) : m'.size = m.size := by
  have hmem : ∀ k, k ∈ m'.keys ↔ k ∈ m.keys := by
    intro k
    rw [mem_keys, mem_keys, ← Option.ne_none_iff_exists', ← Option.ne_none_iff_exists']
    exact not_congr (h k)
  have hperm := (List.perm_ext_iff_of_nodup m'.nodup_keys m.nodup_keys).mpr hmem
  simpa [keys, size] using hperm.length_eq

/-- A map with no other keys is no larger. -/
theorem size_le_of_keys {m : OrdMap K V} {W : Type} {m' : OrdMap K W}
    (h : ∀ k, m.find? k = none → m'.find? k = none) : m'.size ≤ m.size := by
  have hsub : m'.keys ⊆ m.keys := by
    intro k hk
    rw [mem_keys, ← Option.ne_none_iff_exists'] at hk ⊢
    exact fun hn => hk (h k hn)
  simpa [keys, size] using (m'.nodup_keys.subperm hsub).length_le

theorem size_insert (m : OrdMap K V) (k : K) (v : V) :
    (m.insert k v).size = if m.contains k then m.size else m.size + 1 :=
  Assoc.length_insert k v m.sorted

theorem size_modify (m : OrdMap K V) (k : K) (f : V → V) : (m.modify k f).size = m.size := by
  unfold modify
  split
  · next v h => rw [size_insert, contains, h]; rfl
  · rfl

theorem size_erase_of_find? {m : OrdMap K V} {k : K} {v : V} (h : m.find? k = some v) :
    (m.erase k).size + 1 = m.size := Assoc.length_erase_of_find? m.sorted h

end OrdMap
