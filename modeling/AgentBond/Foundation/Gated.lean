import AgentBond.Foundation.Checked

/-! # Computations behind a gate

A computation that reads a parameter, such as a clock, is gated by a condition
when the parameter decides its success by that condition only. The rules follow
the code: what ignores the parameter is stepped over, a guard on it is collected.
-/

namespace Foundation

variable {ε τ : Type} {α β γ : Type}

/-- Wherever it goes through at all, it goes through exactly where the gate is open. -/
def Gated (run : τ → Except ε α) (gate : τ → Prop) : Prop :=
  ∀ t, (∃ a, run t = .ok a) ↔ gate t ∧ ∃ t' a, run t' = .ok a

namespace Gated

variable {run : τ → Except ε α} {gate gate' : τ → Prop}

theorem error {e : τ → ε} : Gated (fun t => (.error (e t) : Except ε α)) gate := by
  intro t
  constructor
  · rintro ⟨a, ⟨⟩⟩
  · rintro ⟨-, t', a, ⟨⟩⟩

/-- A computation whose success does not depend on the parameter. -/
theorem of_steady (h : ∀ t t' a, run t = .ok a → ∃ a', run t' = .ok a') :
    Gated run fun _ => True := by
  intro t
  constructor
  · rintro ⟨a, ha⟩
    exact ⟨trivial, t, a, ha⟩
  · rintro ⟨-, t', a, ha⟩
    exact h t' t a ha

theorem ok {f : τ → α} : Gated (fun t => (.ok (f t) : Except ε α)) fun _ => True :=
  of_steady fun _ t' _ _ => ⟨f t', rfl⟩

theorem congr (h : Gated run gate) (hg : ∀ t t' a, run t' = .ok a → (gate t ↔ gate' t)) :
    Gated run gate' := by
  intro t
  rw [h t]
  constructor
  · rintro ⟨ht, t', a, ha⟩
    exact ⟨(hg t t' a ha).mp ht, t', a, ha⟩
  · rintro ⟨ht, t', a, ha⟩
    exact ⟨(hg t t' a ha).mpr ht, t', a, ha⟩

theorem bind {z : Except ε α} {f : τ → α → Except ε β}
    (h : ∀ a, z = .ok a → Gated (fun t => f t a) gate) : Gated (fun t => z >>= f t) gate := by
  cases z with
  | error e => exact error (e := fun _ => e)
  | ok a => exact h a rfl

theorem ensure {p : τ → Prop} [∀ t, Decidable (p t)] {e : ε} :
    Gated (fun t => Foundation.ensure (p t) e) p := by
  intro t
  simp only [ensure_eq_ok, exists_const]
  exact ⟨fun h => ⟨h, t, h⟩, And.left⟩

theorem ensure_bind {p : τ → Prop} [∀ t, Decidable (p t)] {e : ε} {f : τ → Unit → Except ε β}
    (h : Gated (fun t => f t ()) gate) :
    Gated (fun t => Foundation.ensure (p t) e >>= f t) fun t => p t ∧ gate t := by
  intro t
  simp only [ensure_bind_eq_ok, exists_and_left]
  rw [h t]
  constructor
  · rintro ⟨hp, hg, t', b, hb⟩
    exact ⟨⟨hp, hg⟩, t, hp, (h t).mpr ⟨hg, t', b, hb⟩⟩
  · rintro ⟨⟨hp, hg⟩, t', -, b, hb⟩
    exact ⟨hp, hg, t', b, hb⟩

theorem bind_gated {g : τ → Except ε α} {f : τ → α → Except ε β} (hg : Gated g gate)
    (hf : ∀ t t' a a', g t = .ok a → g t' = .ok a' → ∀ b, f t a = .ok b →
      ∃ b', f t' a' = .ok b') : Gated (fun t => g t >>= f t) gate := by
  intro t
  simp only [bind_eq_ok]
  constructor
  · rintro ⟨b, a, ha, hb⟩
    exact ⟨((hg t).mp ⟨a, ha⟩).1, t, b, a, ha, hb⟩
  · rintro ⟨ht, t', b, a, ha, hb⟩
    obtain ⟨a', ha'⟩ := (hg t).mpr ⟨ht, t', a, ha⟩
    obtain ⟨b', hb'⟩ := hf t' t a a' ha ha' b hb
    exact ⟨b', a', ha', hb'⟩

theorem okOr {o : τ → Option α} {e : ε} :
    Gated (fun t => Foundation.okOr (o t) e) fun t => ∃ a, o t = some a := by
  intro t
  simp only [okOr_eq_ok]
  exact ⟨fun h => ⟨h, t, h⟩, And.left⟩

end Gated

end Foundation
