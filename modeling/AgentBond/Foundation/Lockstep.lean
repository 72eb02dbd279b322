import AgentBond.Foundation.Checked

/-! # Computations in lockstep

Two runs of fallible code are compared step by step: both go on with related
results, or both stop. The rules follow the code, a relation for every bind.
-/

namespace Foundation

variable {ε ε' α β γ δ : Type}

/-- Two computations succeed together, with related results, or fail together. -/
inductive Lockstep (R : α → β → Prop) : Except ε α → Except ε' β → Prop
  | ok {a : α} {b : β} (related : R a b) : Lockstep R (.ok a) (.ok b)
  | error (e : ε) (e' : ε') : Lockstep R (.error e) (.error e')

namespace Lockstep

variable {R : α → β → Prop} {S : γ → δ → Prop} {x : Except ε α} {y : Except ε' β}

theorem symm (h : Lockstep R x y) : Lockstep (fun b a => R a b) y x := by
  cases h with
  | ok related => exact .ok related
  | error e e' => exact .error e' e

theorem imp {R' : α → β → Prop} (h : Lockstep R x y)
    (hR : ∀ a b, x = .ok a → y = .ok b → R a b → R' a b) : Lockstep R' x y := by
  cases h with
  | ok related => exact .ok (hR _ _ rfl rfl related)
  | error e e' => exact .error e e'

theorem bind {f : α → Except ε γ} {g : β → Except ε' δ} (h : Lockstep R x y)
    (hfg : ∀ a b, x = .ok a → y = .ok b → R a b → Lockstep S (f a) (g b)) :
    Lockstep S (x >>= f) (y >>= g) := by
  cases h with
  | ok related => exact hfg _ _ rfl rfl related
  | error e e' => exact .error e e'

theorem bind_same {S : γ → γ → Prop} {z : Except ε α} {f g : α → Except ε γ}
    (hfg : ∀ a, z = .ok a → Lockstep S (f a) (g a)) : Lockstep S (z >>= f) (z >>= g) := by
  cases z with
  | ok a => exact hfg a rfl
  | error e => exact .error e e

end Lockstep

theorem ensure_congr {p q : Prop} [Decidable p] [Decidable q] {e : ε} (h : p ↔ q) :
    ensure p e = ensure q e := by
  simp only [ensure, h]

end Foundation
