/-
  Programs over a state that survives a thrown exception (`EStateM`), and the rules to reason
  about them. A call that throws half-way keeps the writes it made, so an invariant has to
  hold in the state left behind by a throw as well.

  `wp m Q E s`: run from `s`, `m` returns with `Q` or throws with `E`.
  `after m s`: the state left by `m`, however it ended.
  `zoom part put m`: `m` run on a part of the state.
  `Keeps P m`: `m` preserves `P`, however it ends; `Within R m`: every call of `m` is related
  by `R`, and so is a sequence of calls and an iteration over a list.
  `Reaches step`: the states of runs; `Reaches.induct` is the invariant rule, `Obeys` a list of
  operations that makes a run.
-/
import Mathlib

namespace Prog

variable {ε σ α β : Type}

/-- The state a call leaves behind, returned or thrown. -/
def after (m : EStateM ε σ α) (s : σ) : σ :=
  match m s with
  | .ok _ s' => s'
  | .error _ s' => s'

/-- A call on a part of the state. -/
def zoom {τ : Type} (part : σ → τ) (put : τ → σ → σ) (m : EStateM ε τ α) : EStateM ε σ α :=
  fun s =>
    match m (part s) with
    | .ok a t => .ok a (put t s)
    | .error e t => .error e (put t s)

/-- From `s`, the call returns with `Q` or throws with `E`. -/
def wp (m : EStateM ε σ α) (Q : α → σ → Prop) (E : ε → σ → Prop) (s : σ) : Prop :=
  match m s with
  | .ok a s' => Q a s'
  | .error e s' => E e s'

section Rules

variable {Q : α → σ → Prop} {E : ε → σ → Prop} {s : σ}

@[simp] theorem wp_pure (a : α) : wp (pure a : EStateM ε σ α) Q E s ↔ Q a s := Iff.rfl

@[simp] theorem wp_throw (e : ε) : wp (throw e : EStateM ε σ α) Q E s ↔ E e s := Iff.rfl

@[simp] theorem wp_get {Q : σ → σ → Prop} : wp (get : EStateM ε σ σ) Q E s ↔ Q s s := Iff.rfl

@[simp] theorem wp_set {Q : PUnit → σ → Prop} (s' : σ) :
    wp (set s' : EStateM ε σ PUnit) Q E s ↔ Q ⟨⟩ s' := Iff.rfl

@[simp] theorem wp_modify {Q : PUnit → σ → Prop} (f : σ → σ) :
    wp (modify f : EStateM ε σ PUnit) Q E s ↔ Q ⟨⟩ (f s) := Iff.rfl

@[simp] theorem wp_bind {Q : β → σ → Prop} (m : EStateM ε σ α) (f : α → EStateM ε σ β) :
    wp (m >>= f) Q E s ↔ wp m (fun a => wp (f a) Q E) E s := by
  show (match EStateM.bind m f s with | .ok a s' => Q a s' | .error e s' => E e s') ↔ _
  unfold EStateM.bind wp
  cases m s <;> rfl

@[simp] theorem wp_map {Q : β → σ → Prop} (f : α → β) (m : EStateM ε σ α) :
    wp (f <$> m) Q E s ↔ wp m (fun a => Q (f a)) E s := by
  show (match EStateM.map f m s with | .ok a s' => Q a s' | .error e s' => E e s') ↔ _
  unfold EStateM.map wp
  cases m s <;> rfl

@[simp] theorem wp_tryCatch (m : EStateM ε σ α) (h : ε → EStateM ε σ α) :
    wp (tryCatch m h) Q E s ↔ wp m Q (fun e => wp (h e) Q E) s := by
  show (match EStateM.tryCatch m h s with | .ok a s' => Q a s' | .error e s' => E e s') ↔ _
  unfold EStateM.tryCatch wp
  cases m s <;> rfl

@[simp] theorem wp_zoom {τ : Type} (part : σ → τ) (put : τ → σ → σ) (m : EStateM ε τ α) :
    wp (zoom part put m) Q E s ↔
      wp m (fun a t => Q a (put t s)) (fun e t => E e (put t s)) (part s) := by
  unfold wp zoom
  cases m (part s) <;> rfl

theorem wp_ite {c : Prop} [Decidable c] {m₁ m₂ : EStateM ε σ α} :
    wp (if c then m₁ else m₂) Q E s ↔ (c → wp m₁ Q E s) ∧ (¬c → wp m₂ Q E s) := by
  by_cases h : c <;> simp [h]

theorem wp_mono {Q' : α → σ → Prop} {E' : ε → σ → Prop} {m : EStateM ε σ α}
    (h : wp m Q E s) (hQ : ∀ a s', Q a s' → Q' a s') (hE : ∀ e s', E e s' → E' e s') :
    wp m Q' E' s := by
  unfold wp at h ⊢
  cases hm : m s with
  | ok a s' => rw [hm] at h; exact hQ a s' h
  | error e s' => rw [hm] at h; exact hE e s' h

theorem wp_and {Q' : α → σ → Prop} {E' : ε → σ → Prop} {m : EStateM ε σ α}
    (h : wp m Q E s) (h' : wp m Q' E' s) :
    wp m (fun a s' => Q a s' ∧ Q' a s') (fun e s' => E e s' ∧ E' e s') s := by
  unfold wp at h h' ⊢
  cases hm : m s <;> rw [hm] at h h' <;> exact ⟨h, h'⟩

theorem wp_after {P : σ → Prop} {m : EStateM ε σ α} :
    wp m (fun _ => P) (fun _ => P) s ↔ P (after m s) := by
  unfold wp after
  cases m s <;> rfl

/-- What is known of the outcome is known of the state left behind. -/
theorem wp_self {m : EStateM ε σ α} (h : wp m Q E s) :
    wp m (fun a s' => Q a s' ∧ s' = after m s) (fun e s' => E e s' ∧ s' = after m s) s := by
  unfold wp after at *
  cases hm : m s <;> rw [hm] at h <;> exact ⟨h, rfl⟩

/-- The outcome itself is known of the outcome. -/
theorem wp_outcome (m : EStateM ε σ α) (s : σ) :
    wp m (fun a s' => m s = .ok a s') (fun e s' => m s = .error e s') s := by
  unfold wp
  cases m s <;> rfl

/-- The form of the reply does not matter to the state left behind. -/
theorem after_map (f : α → β) (m : EStateM ε σ α) (s : σ) : after (f <$> m) s = after m s := by
  show after (EStateM.map f m) s = after m s
  unfold after EStateM.map
  cases m s <;> rfl

theorem after_discard (m : EStateM ε σ α) (s : σ) :
    after (do let _ ← m : EStateM ε σ PUnit) s = after m s := by
  show after (EStateM.bind m fun _ => pure PUnit.unit) s = after m s
  unfold after EStateM.bind
  cases m s <;> rfl

theorem after_zoom {τ : Type} (part : σ → τ) (put : τ → σ → σ) (m : EStateM ε τ α) (s : σ) :
    after (zoom part put m) s = put (after m (part s)) s := by
  unfold after zoom
  cases m (part s) <;> rfl

theorem wp_of_forall {m : EStateM ε σ α} (hQ : ∀ a s', Q a s') (hE : ∀ e s', E e s') :
    wp m Q E s := by
  unfold wp
  cases m s with
  | ok a s' => exact hQ a s'
  | error e s' => exact hE e s'

theorem wp_ok {m : EStateM ε σ α} {a : α} {s' : σ} (h : wp m Q E s) (hm : m s = .ok a s') :
    Q a s' := by
  unfold wp at h
  rwa [hm] at h

theorem wp_error {m : EStateM ε σ α} {e : ε} {s' : σ} (h : wp m Q E s)
    (hm : m s = .error e s') : E e s' := by
  unfold wp at h
  rwa [hm] at h

end Rules

-- from here on programs are taken apart by the rules, never by computing `wp`
attribute [irreducible] wp

/-! ## Invariants and step relations -/

/-- `m` preserves `P`, whether it returns or throws. -/
def Keeps (P : σ → Prop) (m : EStateM ε σ α) : Prop := ∀ s, P s → P (after m s)

/-- Every call of `m` moves along `R`. -/
def Within (R : σ → σ → Prop) (m : EStateM ε σ α) : Prop := ∀ s, R s (after m s)

/-- An iterated call keeps what each call keeps. `I` may depend on what is still to be done. -/
theorem wp_forM {E : ε → σ → Prop} (f : α → EStateM ε σ PUnit) (I : List α → σ → Prop)
    (hE : ∀ a l s, I (a :: l) s → wp (f a) (fun _ => I l) E s) :
    ∀ (l : List α) (s : σ), I l s → wp (forM l f) (fun _ => I []) E s := by
  intro l
  induction l with
  | nil =>
      intro s h
      rwa [List.forM_nil, wp_pure]
  | cons a l ih =>
      intro s h
      rw [List.forM_cons, wp_bind]
      exact wp_mono (hE a l s h) (fun _ s' h' => ih s' h') (fun _ _ h' => h')

/-- A program that starts with a call that keeps `P`. -/
theorem Keeps.bind_wp {P : σ → Prop} {m : EStateM ε σ α} {f : α → EStateM ε σ β}
    {Q : β → σ → Prop} {E : ε → σ → Prop} {s : σ} (hm : Keeps P m) (hs : P s)
    (hf : ∀ a s', P s' → wp (f a) Q E s') (hE : ∀ e s', P s' → E e s') : wp (m >>= f) Q E s := by
  rw [wp_bind]
  have h : wp m (fun _ => P) (fun _ => P) s := wp_after.mpr (hm s hs)
  exact wp_mono h hf hE

theorem within_bind {R : σ → σ → Prop} (htrans : ∀ a b c, R a b → R b c → R a c)
    {m : EStateM ε σ α} {f : α → EStateM ε σ β}
    (hm : Within R m) (hf : ∀ a, Within R (f a)) : Within R (m >>= f) := by
  intro s
  rw [← wp_after (P := R s), wp_bind]
  exact wp_mono (wp_after.mpr (hm s))
    (fun a s' h' => wp_after.mpr (htrans _ _ _ h' (hf a s'))) (fun _ _ h' => h')

section Within

variable {R : σ → σ → Prop}

theorem Within.wp {m : EStateM ε σ α} (h : Within R m) (s : σ) :
    wp m (fun _ => R s) (fun _ => R s) s := wp_after.mpr (h s)

theorem within_pure (hrefl : ∀ s, R s s) (a : α) : Within R (pure a : EStateM ε σ α) := hrefl

theorem within_throw (hrefl : ∀ s, R s s) (e : ε) : Within R (throw e : EStateM ε σ α) := hrefl

/-- A program that starts from a look at the state. -/
theorem within_get {f : σ → EStateM ε σ α} (hf : ∀ s, Within R (f s)) :
    Within R (get >>= f) := fun s => hf s s

theorem within_modify {f : σ → σ} (hf : ∀ s, R s (f s)) :
    Within R (modify f : EStateM ε σ PUnit) := hf

theorem within_ite {c : Prop} [Decidable c] {m m' : EStateM ε σ α} (hm : Within R m)
    (hm' : Within R m') : Within R (if c then m else m') := by
  split
  · exact hm
  · exact hm'

theorem within_tryCatch (htrans : ∀ a b c, R a b → R b c → R a c) {m : EStateM ε σ α}
    {h : ε → EStateM ε σ α} (hm : Within R m) (hh : ∀ e, Within R (h e)) :
    Within R (tryCatch m h) := by
  intro s
  rw [← wp_after (P := R s), wp_tryCatch]
  exact wp_mono (hm.wp s) (fun _ _ h' => h')
    (fun e s' h' => wp_after.mpr (htrans _ _ _ h' (hh e s')))

theorem within_forM (hrefl : ∀ s, R s s) (htrans : ∀ a b c, R a b → R b c → R a c)
    {f : α → EStateM ε σ PUnit} (l : List α) (hf : ∀ a ∈ l, Within R (f a)) :
    Within R (forM l f) := by
  induction l with
  | nil => exact within_pure hrefl _
  | cons a l ih =>
      rw [List.forM_cons]
      exact within_bind htrans (hf a List.mem_cons_self) fun _ =>
        ih fun b hb => hf b (List.mem_cons_of_mem _ hb)

end Within

/-! ## Runs -/

variable {Op : Type}

/-- The states reached by performing operations one after the other, from `s₀`, each of them
    in a state in which it is `ok`. -/
inductive Reaches (step : Op → σ → σ) (ok : Op → σ → Prop) (s₀ : σ) : σ → Prop where
  | start : Reaches step ok s₀ s₀
  | next (op : Op) {s : σ} : Reaches step ok s₀ s → ok op s → Reaches step ok s₀ (step op s)

/-- The invariant rule: what holds at the start and is preserved by every operation holds in
    every state reached. -/
theorem Reaches.induct {step : Op → σ → σ} {ok : Op → σ → Prop} {s₀ s : σ} {P : σ → Prop}
    (h : Reaches step ok s₀ s) (h₀ : P s₀) (hstep : ∀ op s, P s → ok op s → P (step op s)) :
    P s := by
  induction h with
  | start => exact h₀
  | next op _ hok ih => exact hstep op _ ih hok

/-- The run along a list of operations. -/
theorem Reaches.along {step : Op → σ → σ} {ok : Op → σ → Prop} {s₀ s : σ}
    (h : Reaches step ok s₀ s) (ops : List Op) (hok : ∀ op ∈ ops, ∀ s, ok op s) :
    Reaches step ok s₀ (ops.foldl (fun s op => step op s) s) := by
  induction ops generalizing s with
  | nil => exact h
  | cons op ops ih =>
      exact ih (.next op h (hok op List.mem_cons_self s)) fun op' hop' =>
        hok op' (List.mem_cons_of_mem _ hop')

/-- Each operation of the list is `ok` in the state it comes to. -/
def Obeys (step : Op → σ → σ) (ok : Op → σ → Prop) : List Op → σ → Prop
  | [], _ => True
  | op :: ops, s => ok op s ∧ Obeys step ok ops (step op s)

/-- The run along a list of operations, each of them `ok` where it comes. -/
theorem Reaches.obeys {step : Op → σ → σ} {ok : Op → σ → Prop} {s₀ s : σ}
    (h : Reaches step ok s₀ s) {ops : List Op} (hok : Obeys step ok ops s) :
    Reaches step ok s₀ (ops.foldl (fun s op => step op s) s) := by
  induction ops generalizing s with
  | nil => exact h
  | cons op ops ih => exact ih (.next op h hok.1) hok.2

/-- Runs of fewer operations are runs. -/
theorem Reaches.mono {step : Op → σ → σ} {ok ok' : Op → σ → Prop} {s₀ s : σ}
    (h : Reaches step ok s₀ s) (himp : ∀ op s, ok op s → ok' op s) : Reaches step ok' s₀ s := by
  induction h with
  | start => exact .start
  | next op _ hok ih => exact .next op ih (himp _ _ hok)

end Prog
