/-
  Results with a price.

  `Metered M α` is a result that may be missing and has a price in a commutative monoid. The
  price of a computation does not depend on the order of its parts, so neither does the outcome
  of a fold whose steps commute (`foldlM_perm`).

  A `Meter` is a budget of which prices are taken: what is left after a sum of prices is what is
  left after one and then the other. `run_bind` says that paying at the end is paying as one
  goes.
-/
import Mathlib

/-- A result and its price, or nothing. -/
inductive Metered (M α : Type) where
  | fail
  | costs (result : α) (price : M)

namespace Metered

variable {M α β γ : Type}

/-- The result with a price added. -/
def plus [Add M] (m : M) : Metered M α → Metered M α
  | fail => fail
  | costs a n => costs a (m + n)

variable [AddCommMonoid M]

instance : Monad (Metered M) where
  pure a := costs a 0
  bind x f :=
    match x with
    | fail => fail
    | costs a m => (f a).plus m

def price (m : M) : Metered M Unit := costs () m

theorem pure_def (a : α) : (pure a : Metered M α) = costs a 0 := rfl

@[simp] theorem fail_bind (f : α → Metered M β) : (fail : Metered M α) >>= f = fail := rfl

@[simp] theorem costs_bind (a : α) (m : M) (f : α → Metered M β) :
    costs a m >>= f = (f a).plus m := rfl

@[simp] theorem plus_fail (m : M) : (fail : Metered M α).plus m = fail := rfl

@[simp] theorem plus_costs (a : α) (m n : M) : (costs a n).plus m = costs a (m + n) := rfl

theorem bind_assoc (x : Metered M α) (f : α → Metered M β) (g : β → Metered M γ) :
    (x >>= f) >>= g = x >>= fun a => f a >>= g := by
  cases x with
  | fail => rfl
  | costs a m =>
      rw [costs_bind, costs_bind]
      cases hf : f a with
      | fail => rfl
      | costs b n =>
          rw [plus_costs, costs_bind, costs_bind]
          cases g b with
          | fail => rfl
          | costs c k => rw [plus_costs, plus_costs, plus_costs, add_assoc]

/-- Independent parts may change places. -/
theorem bind_comm (x : Metered M α) (y : Metered M β) (f : α → β → Metered M γ) :
    (x >>= fun a => y >>= fun b => f a b) = y >>= fun b => x >>= fun a => f a b := by
  cases x with
  | fail =>
      cases y with
      | fail => rfl
      | costs b n => rfl
  | costs a m =>
      cases y with
      | fail => rfl
      | costs b n =>
          rw [costs_bind, costs_bind, costs_bind, costs_bind]
          cases f a b with
          | fail => rfl
          | costs c k =>
              rw [plus_costs, plus_costs, plus_costs, plus_costs, add_left_comm]

/-- A fold whose steps commute goes through the list in any order. -/
theorem foldlM_perm {f : β → α → Metered M β} {l l' : List α} (hp : l.Perm l')
    (hcomm : ∀ x ∈ l, ∀ y ∈ l, x ≠ y → ∀ b, (f b x >>= fun b' => f b' y) =
      f b y >>= fun b' => f b' x) (b : β) : l.foldlM f b = l'.foldlM f b := by
  classical
  induction hp generalizing b with
  | nil => rfl
  | cons x _ ih =>
      rw [List.foldlM_cons, List.foldlM_cons]
      refine congrArg (f b x >>= ·) (funext fun b' => ?_)
      exact ih (fun x hx y hy => hcomm x (List.mem_cons_of_mem _ hx) y (List.mem_cons_of_mem _ hy)) b'
  | swap x y l =>
      have hswap : (f b y >>= fun b' => f b' x) = f b x >>= fun b' => f b' y := by
        by_cases hxy : y = x
        · rw [hxy]
        · exact hcomm y List.mem_cons_self x (List.mem_cons_of_mem _ List.mem_cons_self) hxy b
      simp only [List.foldlM_cons]
      rw [← bind_assoc, ← bind_assoc, hswap]
  | trans hp _ ih ih' =>
      rw [ih hcomm, ih' fun x hx y hy => hcomm x (hp.mem_iff.mpr hx) y (hp.mem_iff.mpr hy)]

end Metered

/-! ## Paying -/

/-- A budget, and what is left of it after a price. -/
structure Meter (M σ : Type) [AddCommMonoid M] where
  spend : M → σ → Option σ
  spend_zero : ∀ s, spend 0 s = some s
  spend_add : ∀ m n s, spend (m + n) s = (spend m s).bind (spend n)

namespace Meter

variable {M σ α β : Type} [AddCommMonoid M] (meter : Meter M σ)

/-- The result, if the budget is enough for its price. -/
def run : Metered M α → σ → Option (α × σ)
  | .fail, _ => none
  | .costs a m, s => (meter.spend m s).map fun s' => (a, s')

@[simp] theorem run_fail (s : σ) : meter.run (.fail : Metered M α) s = none := rfl

theorem run_costs (a : α) (m : M) (s : σ) :
    meter.run (.costs a m) s = (meter.spend m s).map fun s' => (a, s') := rfl

theorem run_pure (a : α) (s : σ) : meter.run (pure a) s = some (a, s) := by
  rw [Metered.pure_def, run_costs, meter.spend_zero, Option.map_some]

theorem run_bind (x : Metered M α) (f : α → Metered M β) (s : σ) :
    meter.run (x >>= f) s = (meter.run x s).bind fun r => meter.run (f r.1) r.2 := by
  cases x with
  | fail => rfl
  | costs a m =>
      rw [Metered.costs_bind, run_costs]
      cases hf : f a with
      | fail => cases meter.spend m s <;> simp [hf]
      | costs b n =>
          rw [Metered.plus_costs, run_costs, meter.spend_add]
          cases meter.spend m s with
          | none => rfl
          | some s' => simp [hf, run_costs]

end Meter

/-! ## Programs that pay as they go -/

/-- What a program returns and leaves behind, if it does not throw. -/
def outcome {ε τ α : Type} (m : EStateM ε τ α) (t : τ) : Option (α × τ) :=
  match m t with
  | .ok a t' => some (a, t')
  | .error _ _ => none

section Pays

variable {ε τ M σ α β : Type} [AddCommMonoid M]

theorem outcome_bind (m : EStateM ε τ α) (f : α → EStateM ε τ β) (t : τ) :
    outcome (m >>= f) t = (outcome m t).bind fun r => outcome (f r.1) r.2 := by
  unfold outcome
  show (match EStateM.bind m f t with
    | .ok b t' => some (b, t')
    | .error _ _ => none) = _
  unfold EStateM.bind
  cases m t with
  | ok a t' => rfl
  | error e t' => rfl

/-- The states between two payments, kept by every payment. -/
structure Meter.Admits (meter : Meter M σ) (P : σ → Prop) : Prop where
  kept : ∀ m s s', P s → meter.spend m s = some s' → P s'

/-- From the states `P` the program does what the metered result says, and pays its price. -/
def Pays (meter : Meter M σ) (P : σ → Prop) (embed : σ → τ) (m : EStateM ε τ α)
    (x : Metered M α) : Prop :=
  ∀ s, P s → outcome m (embed s) = (meter.run x s).map fun r => (r.1, embed r.2)

variable {meter : Meter M σ} {P : σ → Prop} {embed : σ → τ}

theorem pays_pure (a : α) : Pays meter P embed (pure a : EStateM ε τ α) (pure a) := by
  intro s _
  rw [meter.run_pure]
  rfl

theorem pays_throw (e : ε) : Pays meter P embed (throw e : EStateM ε τ α) .fail := fun _ _ => rfl

theorem pays_bind (hP : meter.Admits P) {m : EStateM ε τ α} {x : Metered M α}
    {f : α → EStateM ε τ β} {g : α → Metered M β} (hm : Pays meter P embed m x)
    (hf : ∀ a, Pays meter P embed (f a) (g a)) : Pays meter P embed (m >>= f) (x >>= g) := by
  intro s hs
  rw [outcome_bind, hm s hs, meter.run_bind]
  cases x with
  | fail => rfl
  | costs a price =>
      rw [meter.run_costs]
      cases hspent : meter.spend price s with
      | none => rfl
      | some s' => exact hf a s' (hP.kept _ _ _ hs hspent)

theorem pays_ite {c : Prop} [Decidable c] {m m' : EStateM ε τ α} {x x' : Metered M α}
    (hm : Pays meter P embed m x) (hm' : Pays meter P embed m' x') :
    Pays meter P embed (if c then m else m') (if c then x else x') := by
  split
  · exact hm
  · exact hm'

theorem pays_foldlM (hP : meter.Admits P) {f : β → α → EStateM ε τ β} {g : β → α → Metered M β}
    (hf : ∀ b a, Pays meter P embed (f b a) (g b a)) (l : List α) (b : β) :
    Pays meter P embed (l.foldlM f b) (l.foldlM g b) := by
  induction l generalizing b with
  | nil => exact pays_pure b
  | cons a l ih =>
      rw [List.foldlM_cons, List.foldlM_cons]
      exact pays_bind hP (hf b a) ih

end Pays
