/-
  Two runs of programs side by side.

  `Alike V R m m' s t`: from `s` and `t`, the programs end in the same way, with values related
  by `V` or with one and the same exception, in states related by `R`. The rules follow the
  constructors of a program, so a two-run property of a program is proved along its text. What
  a program does not look at can be left out of `R`; what it must not tell, out of `V`.
-/
import LiquidLayer.Lib.Prog

namespace Prog

variable {ε σ τ α β γ δ : Type}

def Alike (V : α → β → Prop) (R : σ → τ → Prop) (m : EStateM ε σ α) (m' : EStateM ε τ β)
    (s : σ) (t : τ) : Prop :=
  match m s, m' t with
  | .ok a s', .ok b t' => V a b ∧ R s' t'
  | .error e s', .error e' t' => e = e' ∧ R s' t'
  | _, _ => False

section Rules

variable {V : α → β → Prop} {R : σ → τ → Prop} {s : σ} {t : τ}

theorem alike_pure {a : α} {b : β} (hV : V a b) (hR : R s t) :
    Alike V R (pure a : EStateM ε σ α) (pure b) s t := ⟨hV, hR⟩

theorem alike_throw (e : ε) (hR : R s t) :
    Alike V R (throw e : EStateM ε σ α) (throw e) s t := ⟨rfl, hR⟩

theorem alike_bind {V' : γ → δ → Prop} {m : EStateM ε σ γ} {m' : EStateM ε τ δ}
    {f : γ → EStateM ε σ α} {f' : δ → EStateM ε τ β} (hm : Alike V' R m m' s t)
    (hf : ∀ a b s' t', V' a b → R s' t' → Alike V R (f a) (f' b) s' t') :
    Alike V R (m >>= f) (m' >>= f') s t := by
  show match EStateM.bind m f s, EStateM.bind m' f' t with
    | .ok a s', .ok b t' => V a b ∧ R s' t'
    | .error e s', .error e' t' => e = e' ∧ R s' t'
    | _, _ => False
  unfold Alike at hm
  unfold EStateM.bind
  cases h : m s <;> cases h' : m' t <;> rw [h, h'] at hm
  · exact hf _ _ _ _ hm.1 hm.2
  · exact hm.elim
  · exact hm.elim
  · exact hm

/-- The states are looked at. -/
theorem alike_get {f : σ → EStateM ε σ α} {f' : τ → EStateM ε τ β}
    (hf : Alike V R (f s) (f' t) s t) : Alike V R (get >>= f) (get >>= f') s t := hf

theorem alike_set {V : PUnit → PUnit → Prop} {s' : σ} {t' : τ} (hV : V ⟨⟩ ⟨⟩) (hR : R s' t') :
    Alike V R (set s' : EStateM ε σ PUnit) (set t') s t := ⟨hV, hR⟩

theorem alike_modify {V : PUnit → PUnit → Prop} {f : σ → σ} {f' : τ → τ} (hV : V ⟨⟩ ⟨⟩)
    (hR : R (f s) (f' t)) : Alike V R (modify f : EStateM ε σ PUnit) (modify f') s t := ⟨hV, hR⟩

theorem alike_ite {c c' : Prop} [Decidable c] [Decidable c'] {m n : EStateM ε σ α}
    {m' n' : EStateM ε τ β} (hc : c ↔ c') (hm : c → Alike V R m m' s t)
    (hn : ¬c → Alike V R n n' s t) :
    Alike V R (if c then m else n) (if c' then m' else n') s t := by
  by_cases h : c
  · rw [if_pos h, if_pos (hc.mp h)]
    exact hm h
  · rw [if_neg h, if_neg fun h' => h (hc.mpr h')]
    exact hn h

/-- Over lists whose elements are related one by one. -/
theorem alike_forM {V' : γ → δ → Prop} {f : γ → EStateM ε σ PUnit} {f' : δ → EStateM ε τ PUnit}
    {l : List γ} {l' : List δ} (hl : List.Forall₂ V' l l')
    (hf : ∀ a b s t, V' a b → R s t → Alike (fun _ _ => True) R (f a) (f' b) s t) {s : σ} {t : τ}
    (hR : R s t) : Alike (fun _ _ => True) R (forM l f) (forM l' f') s t := by
  induction hl generalizing s t with
  | nil =>
      rw [List.forM_nil, List.forM_nil]
      exact alike_pure trivial hR
  | cons hab _ ih =>
      rw [List.forM_cons, List.forM_cons]
      exact alike_bind (hf _ _ _ _ hab hR) fun _ _ _ _ _ hR' => ih hR'

theorem alike_mono {V' : α → β → Prop} {R' : σ → τ → Prop} {m : EStateM ε σ α}
    {m' : EStateM ε τ β} (h : Alike V R m m' s t) (hV : ∀ a b, V a b → V' a b)
    (hR : ∀ s t, R s t → R' s t) : Alike V' R' m m' s t := by
  unfold Alike at h ⊢
  cases hs : m s <;> cases ht : m' t <;> rw [hs, ht] at h
  · exact ⟨hV _ _ h.1, hR _ _ h.2⟩
  · exact h.elim
  · exact h.elim
  · exact ⟨h.1, hR _ _ h.2⟩

end Rules

end Prog
