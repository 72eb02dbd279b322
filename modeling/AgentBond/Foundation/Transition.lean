import Mathlib.Data.List.Induction

/-! # Runs of a transition system

A run is a list of labelled transitions, each starting where the one before
ended. An invariant of the steps holds along every run, a run splits wherever
its trace does, and an event that needs a state an earlier one has left can
only recur after the state was entered again.
-/

namespace Foundation

variable {σ α : Type}

/-- A labelled transition of a run. -/
structure Transition (σ α : Type) where
  source : σ
  label : α
  target : σ

variable (step : σ → α → σ → Prop)

/-- The trace leads from the first state to the last. -/
def Run : σ → List (Transition σ α) → σ → Prop
  | s, [], t => s = t
  | s, x :: tr, t => x.source = s ∧ step s x.label x.target ∧ Run x.target tr t

/-- Some run from an initial state ends here. -/
def Reachable (init : σ → Prop) (t : σ) : Prop := ∃ s tr, init s ∧ Run step s tr t

variable {step} {init I : σ → Prop} {s t u : σ} {tr tr' : List (Transition σ α)}
  {x : Transition σ α}

theorem Run.append_iff : Run step s (tr ++ tr') u ↔ ∃ t, Run step s tr t ∧ Run step t tr' u := by
  induction tr generalizing s with
  | nil => exact ⟨fun h => ⟨s, rfl, h⟩, fun ⟨_, h, h'⟩ => h ▸ h'⟩
  | cons x tr ih =>
    simp only [List.cons_append, Run, ih]
    exact ⟨fun ⟨h, hs, t, h₁, h₂⟩ => ⟨t, ⟨h, hs, h₁⟩, h₂⟩,
      fun ⟨t, ⟨h, hs, h₁⟩, h₂⟩ => ⟨h, hs, t, h₁, h₂⟩⟩

theorem Run.mono {step' : σ → α → σ → Prop} (hstep : ∀ s a t, step s a t → step' s a t)
    (h : Run step s tr t) : Run step' s tr t := by
  induction tr generalizing s with
  | nil => exact h
  | cons x tr ih =>
    obtain ⟨hsource, hx, h⟩ := h
    exact ⟨hsource, hstep _ _ _ hx, ih h⟩

/-- What every step preserves holds at the end of every run. -/
theorem Run.invariant (hstep : ∀ t a u, I t → step t a u → I u) (h : Run step s tr t) (hs : I s) :
    I t := by
  induction tr generalizing s with
  | nil => exact h ▸ hs
  | cons x tr ih =>
    obtain ⟨-, hx, h⟩ := h
    exact ih h (hstep _ _ _ hs hx)

theorem Run.split (h : Run step s (tr ++ x :: tr') u) :
    Run step s tr x.source ∧ step x.source x.label x.target ∧ Run step x.target tr' u := by
  obtain ⟨t, h₁, rfl, hx, h₂⟩ := Run.append_iff.mp h
  exact ⟨h₁, hx, h₂⟩

theorem Run.step_of_mem (hstep : ∀ t a u, I t → step t a u → I u) (h : Run step s tr t) (hs : I s)
    (hx : x ∈ tr) : I x.source ∧ step x.source x.label x.target := by
  obtain ⟨tr₁, tr₂, rfl⟩ := List.append_of_mem hx
  obtain ⟨h₁, hstepx, -⟩ := h.split
  exact ⟨h₁.invariant hstep hs, hstepx⟩

theorem Reachable.of_run (hs : init s) (h : Run step s tr t) : Reachable step init t :=
  ⟨s, tr, hs, h⟩

theorem Reachable.tail {a : α} (h : Reachable step init s) (hs : step s a t) :
    Reachable step init t := by
  obtain ⟨s₀, tr, hs₀, hr⟩ := h
  have hlast : Run step s [⟨s, a, t⟩] t := ⟨rfl, hs, rfl⟩
  exact ⟨s₀, tr ++ [⟨s, a, t⟩], hs₀, Run.append_iff.mpr ⟨s, hr, hlast⟩⟩

theorem Reachable.invariant (hinit : ∀ s, init s → I s)
    (hstep : ∀ t a u, I t → step t a u → I u) (h : Reachable step init t) : I t := by
  obtain ⟨s, tr, hs, hr⟩ := h
  exact hr.invariant hstep (hinit s hs)

/-- If `A` holds at the end of a run but not at its start, some transition enters `A`. -/
theorem Run.exists_enter {A : σ → Prop} (h : Run step s tr t) (hs : ¬ A s) (ht : A t) :
    ∃ x ∈ tr, ¬ A x.source ∧ A x.target := by
  induction tr generalizing s with
  | nil => exact absurd (h ▸ ht) hs
  | cons x tr ih =>
    obtain ⟨rfl, -, h⟩ := h
    by_cases hx : A x.target
    · exact ⟨x, List.mem_cons_self, hs, hx⟩
    · obtain ⟨y, hy, hA⟩ := ih h hx
      exact ⟨y, List.mem_cons_of_mem _ hy, hA⟩

/-- Something holds of every transition and the trace before it. -/
def AlongTrace (Q : List (Transition σ α) → Transition σ α → Prop) (tr : List (Transition σ α)) :
    Prop :=
  ∀ tr₁ x tr₂, tr = tr₁ ++ x :: tr₂ → Q tr₁ x

theorem alongTrace_nil {Q : List (Transition σ α) → Transition σ α → Prop} : AlongTrace Q [] :=
  fun tr₁ x tr₂ h => by cases tr₁ <;> cases h

theorem alongTrace_cons {Q : List (Transition σ α) → Transition σ α → Prop} :
    AlongTrace Q (x :: tr) ↔ Q [] x ∧ AlongTrace (fun tr₁ y => Q (x :: tr₁) y) tr := by
  constructor
  · intro h
    constructor
    · exact h [] x tr rfl
    · rintro tr₁ y tr₂ rfl
      exact h (x :: tr₁) y tr₂ rfl
  · rintro ⟨hx, h⟩ tr₁ y tr₂ he
    cases tr₁ with
    | nil =>
      cases he
      exact hx
    | cons z tr₁ =>
      cases he
      exact h tr₁ y tr₂ rfl

theorem alongTrace_snoc {Q : List (Transition σ α) → Transition σ α → Prop} :
    AlongTrace Q (tr ++ [x]) ↔ AlongTrace Q tr ∧ Q tr x := by
  constructor
  · intro h
    constructor
    · rintro tr₁ y tr₂ rfl
      exact h tr₁ y (tr₂ ++ [x]) (by simp)
    · exact h tr x [] rfl
  · rintro ⟨h, hx⟩ tr₁ y tr₂ he
    rcases List.eq_nil_or_concat tr₂ with rfl | ⟨tr₃, z, rfl⟩
    · obtain ⟨rfl, hy⟩ := List.append_inj' he rfl
      cases hy
      exact hx
    · have he' : tr ++ [x] = (tr₁ ++ y :: tr₃) ++ [z] := by simpa using he
      obtain ⟨rfl, -⟩ := List.append_inj' he' rfl
      exact h tr₁ y tr₃ rfl

/-- Something happened along the trace, and nothing revoked it since. -/
def Since (A B : Transition σ α → Prop) (tr : List (Transition σ α)) : Prop :=
  ∃ tr₁ x tr₂, tr = tr₁ ++ x :: tr₂ ∧ A x ∧ ∀ y ∈ tr₂, ¬ B y

theorem Since.imp {A A' B : Transition σ α → Prop} (h : Since A B tr) (hA : ∀ x, A x → A' x) :
    Since A' B tr := by
  obtain ⟨tr₁, x, tr₂, rfl, hx, hB⟩ := h
  exact ⟨tr₁, x, tr₂, rfl, hA x hx, hB⟩

theorem not_since_nil {A B : Transition σ α → Prop} : ¬ Since A B [] := by
  rintro ⟨tr₁, x, tr₂, he, -⟩
  cases tr₁ <;> cases he

theorem since_snoc {A B : Transition σ α → Prop} :
    Since A B (tr ++ [x]) ↔ A x ∨ Since A B tr ∧ ¬ B x := by
  constructor
  · rintro ⟨tr₁, y, tr₂, he, hy, hB⟩
    rcases List.eq_nil_or_concat tr₂ with rfl | ⟨tr₃, z, rfl⟩
    · obtain ⟨-, hxy⟩ := List.append_inj' he rfl
      cases hxy
      exact Or.inl hy
    · have he' : tr ++ [x] = (tr₁ ++ y :: tr₃) ++ [z] := by simpa using he
      obtain ⟨rfl, hxz⟩ := List.append_inj' he' rfl
      cases hxz
      exact Or.inr ⟨⟨tr₁, y, tr₃, rfl, hy, fun w hw => hB w (by simp [hw])⟩, hB x (by simp)⟩
  · rintro (hx | ⟨⟨tr₁, y, tr₂, rfl, hy, hB⟩, hx⟩)
    · exact ⟨tr, x, [], rfl, hx, fun y hy => absurd hy List.not_mem_nil⟩
    · refine ⟨tr₁, y, tr₂ ++ [x], by simp, hy, fun z hz => ?_⟩
      rcases List.mem_append.mp hz with hz | hz
      · exact hB z hz
      · exact List.mem_singleton.mp hz ▸ hx

/-- What one kind of step brings about, another undoes and all others keep, holds at the end of a
run exactly when it was brought about and not undone since. -/
theorem Run.since {A B : Transition σ α → Prop} {Q : σ → Prop}
    (hstep : ∀ t a u, I t → step t a u → I u)
    (hQ : ∀ x, I x.source → step x.source x.label x.target →
      (Q x.target ↔ A x ∨ Q x.source ∧ ¬ B x))
    (h : Run step s tr t) (hs : I s) (h0 : ¬ Q s) : Q t ↔ Since A B tr := by
  induction tr using List.reverseRecOn generalizing t with
  | nil =>
    obtain rfl : s = t := h
    exact iff_of_false h0 not_since_nil
  | append_singleton tr x ih =>
    obtain ⟨u, h₁, rfl, hx, rfl⟩ := Run.append_iff.mp h
    rw [since_snoc, hQ x (h₁.invariant hstep hs) hx, ih h₁]

end Foundation
