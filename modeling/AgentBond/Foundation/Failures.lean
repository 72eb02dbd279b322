import AgentBond.Foundation.Checked

/-! # How a computation can fail

Which errors a computation can end with, whatever it computes. The rules follow
the code: a check that is known to pass is stepped over, and the error of any
other check must be one of those named.
-/

namespace Foundation

variable {ε α β : Type} {S : ε → Prop} {r z : Except ε α} {f : α → Except ε β} {e : ε}

/-- The computation fails with the named errors only. -/
def FailsOnly (S : ε → Prop) (r : Except ε α) : Prop := ∀ e, r = .error e → S e

namespace FailsOnly

theorem ok (a : α) : FailsOnly S (.ok a) := by
  rintro e ⟨⟩

theorem error (h : S e) : FailsOnly S (.error e : Except ε α) := by
  rintro _ ⟨⟩
  exact h

theorem mono {T : ε → Prop} (h : FailsOnly S r) (hst : ∀ e, S e → T e) : FailsOnly T r :=
  fun e he => hst e (h e he)

theorem bind (h : FailsOnly S z) (hf : ∀ a, z = .ok a → FailsOnly S (f a)) :
    FailsOnly S (z >>= f) := by
  cases z with
  | error e => exact error (h e rfl)
  | ok a => exact hf a rfl

theorem pass {a : α} (h : z = .ok a) (hf : FailsOnly S (f a)) : FailsOnly S (z >>= f) := by
  subst h
  exact hf

/-- A check either fails with a named error or holds from there on. -/
theorem check {p : Prop} [Decidable p] {f : Unit → Except ε β} (he : ¬ p → S e)
    (hf : p → FailsOnly S (f ())) : FailsOnly S (Foundation.ensure p e >>= f) := by
  by_cases hp : p
  · exact pass (ensure_eq_ok.mpr hp) (hf hp)
  · refine bind ?_ fun _ h => absurd (ensure_eq_ok.mp h) hp
    rintro e' h
    simp only [Foundation.ensure, if_neg hp, Except.error.injEq] at h
    exact h ▸ he hp

theorem ensure {p : Prop} [Decidable p] (he : ¬ p → S e) :
    FailsOnly S (Foundation.ensure p e) := by
  rintro e' h
  by_cases hp : p
  · rw [show Foundation.ensure p e = .ok () from ensure_eq_ok.mpr hp] at h
    cases h
  · simp only [Foundation.ensure, if_neg hp, Except.error.injEq] at h
    exact h ▸ he hp

theorem okOr {o : Option α} (he : o = none → S e) : FailsOnly S (Foundation.okOr o e) := by
  cases o with
  | none => exact error (he rfl)
  | some a => exact ok a

end FailsOnly

end Foundation
