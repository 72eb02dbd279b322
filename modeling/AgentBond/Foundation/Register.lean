import Mathlib.Order.Lattice
import Mathlib.Data.List.Basic

/-! # Registers that forget erasures

A register keeps a value with the stamp it was written at. A write gives way to
a later stamp only; erasing leaves no stamp behind, so an earlier value written
after an erasure comes back.
-/

namespace Foundation

variable {σ ν : Type} [LinearOrder σ]

/-- A value with its stamp, or nothing. -/
abbrev Register (σ ν : Type) := Option (σ × ν)

namespace Register

/-- What a register is left with by a value, or an erasure, at a stamp. -/
def hold (s : σ) (v : Option ν) : Register σ ν := v.map fun x => (s, x)

/-- Write a value, or erase, unless the register holds a later stamp. -/
def write (r : Register σ ν) (s : σ) (v : Option ν) : Register σ ν :=
  match r with
  | some (s₀, x) => if s₀ ≤ s then hold s v else some (s₀, x)
  | none => hold s v

/-- What a register holds with a stamp above the floor. -/
def above (floor : σ) (r : Register σ ν) : Register σ ν := r.filter fun e => floor < e.1

variable {r : Register σ ν} {s s₀ floor : σ} {v v₀ w : Option ν}

@[simp] theorem write_none : write (none : Register σ ν) s v = hold s v := rfl

theorem write_hold (h : s₀ ≤ s) : write (hold s₀ v₀) s v = hold s v := by
  cases v₀ with
  | none => rfl
  | some x => exact if_pos h

theorem write_write : write (write r s v) s w = write r s w := by
  rcases r with _ | ⟨s₁, x⟩
  · exact write_hold le_rfl
  · by_cases h : s₁ ≤ s
    · simp only [write, if_pos h]
      exact write_hold le_rfl
    · simp only [write, if_neg h]

theorem foldl_write (r : Register σ ν) (s : σ) (vs : List (Option ν)) (v : Option ν) :
    (vs ++ [v]).foldl (fun r v => write r s v) r = write r s v := by
  induction vs generalizing r with
  | nil => rfl
  | cons w vs ih => rw [List.cons_append, List.foldl_cons, ih, write_write]

/-- An earlier write leaves a register as it is exactly when there is a later value in it, or it
writes what is there. -/
theorem write_hold_iff (h : s ≤ s₀) :
    write (hold s₀ v₀) s v = hold s₀ v₀ ↔ (v₀.isSome = true ∧ s < s₀) ∨ v = v₀ := by
  cases v₀ with
  | none => simp [hold]
  | some x =>
    by_cases hs : s₀ ≤ s
    · obtain rfl := le_antisymm h hs
      rw [write_hold hs]
      constructor
      · intro he
        refine .inr ?_
        cases v with
        | none => cases he
        | some y =>
          cases he
          rfl
      · rintro (⟨-, hlt⟩ | rfl)
        · exact absurd hlt (lt_irrefl _)
        · rfl
    · have hlt : s < s₀ := not_le.mp hs
      exact iff_of_true (if_neg hs) (.inl ⟨rfl, hlt⟩)

theorem above_eq_some {e : σ × ν} : above floor r = some e ↔ r = some e ∧ floor < e.1 := by
  rw [above, Option.filter_eq_some_iff, decide_eq_true_eq]

theorem above_hold_of_lt (h : floor < s) : above floor (hold s v) = hold s v := by
  cases v with
  | none => rfl
  | some x => exact Option.filter_some_pos (decide_eq_true h)

theorem above_hold_of_le (h : s ≤ floor) : above floor (hold s v) = none := by
  cases v with
  | none => rfl
  | some x => exact Option.filter_some_neg (by simpa using h)

theorem write_hold_of_lt (h : s < s₀) (v : Option ν) (x : ν) :
    write (hold s₀ (some x)) s v = hold s₀ (some x) := if_neg (not_le.mpr h)

theorem above_write_of_lt (h : floor < s) :
    above floor (write r s v) = write (above floor r) s v := by
  rcases r with _ | ⟨s₁, x⟩
  · exact above_hold_of_lt h
  · change above floor (write (hold s₁ (some x)) s v) = write (above floor (hold s₁ (some x))) s v
    rcases le_or_gt s₁ s with hs | hs
    · rw [write_hold hs, above_hold_of_lt h]
      rcases le_or_gt s₁ floor with hfloor | hfloor
      · rw [above_hold_of_le hfloor, write_none]
      · rw [above_hold_of_lt hfloor, write_hold hs]
    · have hfloor : floor < s₁ := h.trans hs
      rw [write_hold_of_lt hs, above_hold_of_lt hfloor, write_hold_of_lt hs]

theorem above_write_of_le (h : s ≤ floor) : above floor (write r s v) = above floor r := by
  rcases r with _ | ⟨s₁, x⟩
  · exact above_hold_of_le h
  · change above floor (write (hold s₁ (some x)) s v) = above floor (hold s₁ (some x))
    rcases le_or_gt s₁ s with hs | hs
    · rw [write_hold hs, above_hold_of_le h, above_hold_of_le (hs.trans h)]
    · rw [write_hold_of_lt hs]

end Register

end Foundation
