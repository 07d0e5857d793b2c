/-
  Registers in which the newest value wins.

  A register holds a value and its revision for each key. Deliveries arrive one after the other;
  one that is newer than what its key holds is taken, any other is left. `Settled` says what has
  been delivered without the order: `Settled.take` and `Settled.leave` are its steps, and
  `settled_filter_iff` is about deliveries of which only some can be taken at all.
-/
import Mathlib

namespace LiquidLayer

namespace Newest

structure Register (K R V : Type) where
  revisions : K → Option R
  values : K → Option V

section Newest

variable {D K R V : Type} [LinearOrder R] (key : D → K) (revision : D → R) (value : D → V)

/-- The delivery is newer than what its key holds. -/
def Newer (held : Register K R V) (d : D) : Prop :=
  ∀ prior, held.revisions (key d) = some prior → prior < revision d

/-- The greatest of the deliveries for its key. -/
def Greatest (ds : List D) (d : D) : Prop :=
  ∀ d' ∈ ds, key d' = key d → revision d' ≤ revision d

/-- No two deliveries for one key have the same revision. -/
def Distinct (ds : List D) : Prop :=
  ds.Pairwise fun d d' => key d = key d' → revision d ≠ revision d'

omit [LinearOrder R] in
theorem Distinct.forall_ne {key : D → K} {revision : D → R} {ds : List D}
    (h : Distinct key revision ds) {a b : D} (ha : a ∈ ds) (hb : b ∈ ds) (hne : a ≠ b)
    (hkey : key a = key b) : revision a ≠ revision b := by
  have : Std.Symm fun d d' => key d = key d' → revision d ≠ revision d' :=
    ⟨fun _ _ h hkey hrev => h hkey.symm hrev.symm⟩
  exact List.Pairwise.forall h ha hb hne hkey

omit [LinearOrder R] in
theorem Distinct.perm {key : D → K} {revision : D → R} {ds ds' : List D}
    (h : Distinct key revision ds) (hperm : ds.Perm ds') : Distinct key revision ds' :=
  List.Pairwise.perm h hperm fun hab hkey hrev => hab hkey.symm hrev.symm

/-- Each key holds the greatest delivery for it that is newer than what it held. -/
structure Settled (held : Register K R V) (ds : List D) (held' : Register K R V) : Prop where
  kept : ∀ k, (∀ d ∈ ds, key d = k → ¬Newer key revision held d) →
    held'.revisions k = held.revisions k ∧ held'.values k = held.values k
  greatest : ∀ d ∈ ds, Newer key revision held d → Greatest key revision ds d →
    held'.revisions (key d) = some (revision d) ∧ held'.values (key d) = some (value d)

variable {key revision value} {held held' : Register K R V} {ds : List D} {d : D}

/-- Of some newer deliveries for a key, one is the greatest. -/
theorem exists_greatest {k : K} (h : ∃ d ∈ ds, key d = k ∧ Newer key revision held d) :
    ∃ d ∈ ds, key d = k ∧ Newer key revision held d ∧ Greatest key revision ds d := by
  induction ds with
  | nil =>
      obtain ⟨d, hd, _⟩ := h
      cases hd
  | cons first rest ih =>
      by_cases hrest : ∃ d ∈ rest, key d = k ∧ Newer key revision held d
      · obtain ⟨best, hbest, hkey, hnewer, hgreatest⟩ := ih hrest
        by_cases hfirst : key first = k ∧ revision best < revision first
        · obtain ⟨hfirstKey, hlt⟩ := hfirst
          refine ⟨first, List.mem_cons_self, hfirstKey, fun prior hprior => ?_, ?_⟩
          · rw [hfirstKey, ← hkey] at hprior
            exact lt_trans (hnewer prior hprior) hlt
          · intro d hd hsame
            rcases List.mem_cons.mp hd with rfl | hd
            · exact le_rfl
            · have := hgreatest d hd (hsame.trans (hfirstKey.trans hkey.symm))
              exact le_trans this (le_of_lt hlt)
        · refine ⟨best, List.mem_cons_of_mem _ hbest, hkey, hnewer, fun d hd hsame => ?_⟩
          rcases List.mem_cons.mp hd with rfl | hd
          · exact not_lt.mp fun hlt => hfirst ⟨hsame.trans hkey, hlt⟩
          · exact hgreatest d hd hsame
      · obtain ⟨d, hd, hkey, hnewer⟩ := h
        rcases List.mem_cons.mp hd with rfl | hd
        · refine ⟨d, List.mem_cons_self, hkey, hnewer, fun d' hd' hsame => ?_⟩
          rcases List.mem_cons.mp hd' with rfl | hd'
          · exact le_rfl
          · -- a greater one would be newer as well
            by_contra hgt
            refine hrest ⟨d', hd', hsame.trans hkey, fun prior hprior => ?_⟩
            rw [hsame] at hprior
            exact lt_trans (hnewer prior hprior) (not_le.mp hgt)
        · exact absurd ⟨d, hd, hkey, hnewer⟩ hrest

/-- What a key holds, either way. -/
theorem Settled.cases (h : Settled key revision value held ds held') (k : K) :
    (held'.revisions k = held.revisions k ∧ held'.values k = held.values k ∧
      ∀ d ∈ ds, key d = k → ¬Newer key revision held d) ∨
    ∃ d ∈ ds, key d = k ∧ Newer key revision held d ∧ Greatest key revision ds d ∧
      held'.revisions k = some (revision d) ∧ held'.values k = some (value d) := by
  by_cases hnewer : ∃ d ∈ ds, key d = k ∧ Newer key revision held d
  · obtain ⟨d, hd, hkey, hn, hg⟩ := exists_greatest hnewer
    obtain ⟨hr, hv⟩ := h.greatest d hd hn hg
    rw [hkey] at hr hv
    exact .inr ⟨d, hd, hkey, hn, hg, hr, hv⟩
  · have hnone : ∀ d ∈ ds, key d = k → ¬Newer key revision held d :=
      fun d hd hkey hn => hnewer ⟨d, hd, hkey, hn⟩
    obtain ⟨hr, hv⟩ := h.kept k hnone
    exact .inl ⟨hr, hv, hnone⟩

theorem settled_nil : Settled key revision value held [] held :=
  ⟨fun _ _ => ⟨rfl, rfl⟩, fun _ hd => nomatch hd⟩

theorem Greatest.of_append {d' : D} (h : Greatest key revision (ds ++ [d']) d) :
    Greatest key revision ds d :=
  fun other hother => h other (List.mem_append_left _ hother)

/-- A delivery that is newer than what is held has been taken. -/
theorem Settled.take {held'' : Register K R V} (h : Settled key revision value held ds held')
    (hnewer : Newer key revision held' d)
    (hself : held''.revisions (key d) = some (revision d) ∧ held''.values (key d) = some (value d))
    (hother : ∀ k, k ≠ key d → held''.revisions k = held'.revisions k ∧
      held''.values k = held'.values k) :
    Settled key revision value held (ds ++ [d]) held'' := by
  constructor
  · intro k hnone
    have hbefore := h.kept k fun d' hd' => hnone d' (List.mem_append_left _ hd')
    have hne : k ≠ key d := by
      rintro rfl
      refine hnone d (List.mem_append_right _ List.mem_cons_self) rfl fun prior hprior => ?_
      rw [← hbefore.1] at hprior
      exact hnewer prior hprior
    obtain ⟨hr, hv⟩ := hother k hne
    exact ⟨hr.trans hbefore.1, hv.trans hbefore.2⟩
  · intro d' hd' hn hg
    rcases List.mem_append.mp hd' with hd' | hd'
    · obtain ⟨hr, hv⟩ := h.greatest d' hd' hn hg.of_append
      by_cases hsame : key d' = key d
      · -- then the new one would not have been newer
        have hle := hg d (List.mem_append_right _ List.mem_cons_self) hsame.symm
        rw [hsame] at hr
        exact absurd (hnewer _ hr) (not_lt.mpr hle)
      · obtain ⟨hr', hv'⟩ := hother (key d') hsame
        exact ⟨hr'.trans hr, hv'.trans hv⟩
    · obtain rfl := List.mem_singleton.mp hd'
      exact hself

/-- A delivery that is not newer than what is held has been left. -/
theorem Settled.leave {held'' : Register K R V} (h : Settled key revision value held ds held')
    (hdistinct : Distinct key revision (ds ++ [d])) (hold : ¬Newer key revision held' d)
    (hsame : ∀ k, held''.revisions k = held'.revisions k ∧ held''.values k = held'.values k) :
    Settled key revision value held (ds ++ [d]) held'' := by
  constructor
  · intro k hnone
    have hbefore := h.kept k fun d' hd' => hnone d' (List.mem_append_left _ hd')
    exact ⟨(hsame k).1.trans hbefore.1, (hsame k).2.trans hbefore.2⟩
  · intro d' hd' hn hg
    rcases List.mem_append.mp hd' with hd' | hd'
    · obtain ⟨hr, hv⟩ := h.greatest d' hd' hn hg.of_append
      exact ⟨(hsame _).1.trans hr, (hsame _).2.trans hv⟩
    · obtain rfl := List.mem_singleton.mp hd'
      refine absurd (fun prior hprior => ?_) hold
      rcases h.cases (key d') with ⟨hr, _⟩ | ⟨best, hbest, hkey, _, _, hr, _⟩
      · rw [hr] at hprior
        exact hn prior hprior
      · rw [hr] at hprior
        obtain rfl := Option.some.inj hprior
        have hle := hg best (List.mem_append_left _ hbest) hkey
        have hne := (List.pairwise_append.mp hdistinct).2.2 best hbest d' List.mem_cons_self hkey
        exact lt_of_le_of_ne hle hne

/-- Where only some deliveries can be taken, all of them have settled if and only if every one that
    should be held could be. -/
theorem settled_filter_iff {takes : D → Prop} [DecidablePred takes]
    (hdistinct : Distinct key revision ds)
    (h : Settled key revision value held (ds.filter fun d => takes d) held') :
    Settled key revision value held ds held' ↔
      ∀ d ∈ ds, Newer key revision held d → Greatest key revision ds d → takes d := by
  constructor
  · intro hall d hd hn hg
    obtain ⟨hr, _⟩ := hall.greatest d hd hn hg
    rcases h.cases (key d) with ⟨hsame, _⟩ | ⟨best, hbest, hkey, _, _, hr', _⟩
    · rw [hsame] at hr
      exact absurd (hn _ hr) (lt_irrefl _)
    · obtain ⟨hmem, htakes⟩ := List.mem_filter.mp hbest
      have hrev : revision best = revision d := Option.some.inj (hr'.symm.trans hr)
      have heq : best = d := by
        by_contra hne
        exact hdistinct.forall_ne hmem hd hne hkey hrev
      rw [← heq]
      exact of_decide_eq_true htakes
  · intro hfits
    constructor
    · intro k hnone
      exact h.kept k fun d hd => hnone d (List.mem_filter.mp hd).1
    · intro d hd hn hg
      have htakes := hfits d hd hn hg
      refine h.greatest d (List.mem_filter.mpr ⟨hd, decide_eq_true htakes⟩) hn fun d' hd' => ?_
      exact hg d' (List.mem_filter.mp hd').1

/-- Deliveries in another order settle in the same way. -/
theorem Settled.perm {ds' : List D} (h : Settled key revision value held ds held')
    (hperm : ds.Perm ds') : Settled key revision value held ds' held' := by
  constructor
  · intro k hnone
    exact h.kept k fun d hd => hnone d (hperm.mem_iff.mp hd)
  · intro d hd hn hg
    exact h.greatest d (hperm.mem_iff.mpr hd) hn fun d' hd' => hg d' (hperm.mem_iff.mp hd')

/-- What has been delivered decides what is held. -/
theorem Settled.unique {held'' : Register K R V} (h : Settled key revision value held ds held')
    (h' : Settled key revision value held ds held'') (k : K) :
    held'.revisions k = held''.revisions k ∧ held'.values k = held''.values k := by
  rcases h.cases k with ⟨hr, hv, hnone⟩ | ⟨d, hd, rfl, hn, hg, hr, hv⟩
  · obtain ⟨hr', hv'⟩ := h'.kept k hnone
    exact ⟨hr.trans hr'.symm, hv.trans hv'.symm⟩
  · obtain ⟨hr', hv'⟩ := h'.greatest d hd hn hg
    exact ⟨hr.trans hr'.symm, hv.trans hv'.symm⟩

end Newest

end Newest

end LiquidLayer
