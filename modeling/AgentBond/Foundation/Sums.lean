import Mathlib.Algebra.BigOperators.Group.Finset.Basic
import Mathlib.Algebra.Order.BigOperators.Group.Finset
import Mathlib.Algebra.BigOperators.Ring.Finset
import Mathlib.Tactic.Ring

/-! # Sums over a map

How a sum over the keys of a map changes when the map is updated at one key.
-/

namespace Foundation

variable {κ ν : Type} {s : Finset κ} {k : κ}

theorem sum_update [DecidableEq κ] (hk : k ∈ s) (f : ν → ℤ) (g : κ → ν) (v : ν) :
    ∑ a ∈ s, f (Function.update g k v a) = ∑ a ∈ s, f (g a) - f (g k) + f v := by
  have hrest : ∑ a ∈ s.erase k, f (Function.update g k v a) = ∑ a ∈ s.erase k, f (g a) :=
    Finset.sum_congr rfl fun a ha => by
      rw [Function.update_of_ne (Finset.ne_of_mem_erase ha)]
  rw [← Finset.add_sum_erase _ _ hk, hrest, Function.update_self,
    ← Finset.add_sum_erase s (fun a => f (g a)) hk]
  ring

theorem sum_eq_of_unique (hk : k ∈ s) (f : κ → ℤ) (h : ∀ a, a ≠ k → f a = 0) :
    ∑ a ∈ s, f a = f k :=
  Finset.sum_eq_single k (fun a _ ha => h a ha) (fun hn => absurd hk hn)

end Foundation
