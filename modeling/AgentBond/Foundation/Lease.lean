import Mathlib.Data.Nat.Notation

/-! # Leased cells

A cell that one holder at a time may fill. A holder has the cell for a limited
time, after which the next one may take it over; after a failure the next one
has to wait. A filled cell stays filled, and every holder comes with the binding
of the first.
-/

namespace Foundation

/-- How long a holder keeps the cell, and how long a failure keeps others out. -/
structure LeaseTerms where
  leaseTtl : ℕ
  failRetry : ℕ

/-- A cell somebody has begun to fill. -/
inductive Cell (β τ ρ : Type)
  | settling (binding : β) (lease : τ) (started : ℕ)
  | settled (binding : β) (result : ρ)
  | failed (binding : β) (failedAt : ℕ)
  deriving DecidableEq

/-- What somebody who wants to fill the cell is told. -/
inductive Answer (τ ρ : Type)
  | cached (result : ρ)
  | acquired (lease : τ)
  | recovered (lease : τ)
  | busy
  | mismatch
  deriving DecidableEq

/-- The lease the answer gives. -/
def Answer.granted {τ ρ : Type} : Answer τ ρ → Option τ
  | acquired lease | recovered lease => some lease
  | _ => none

namespace Cell

variable {β τ ρ : Type}

def binding : Cell β τ ρ → β
  | settling b _ _ | settled b _ | failed b _ => b

/-- The token of the holder. -/
def holder : Cell β τ ρ → Option τ
  | settling _ l _ => some l
  | _ => none

/-- The cell may be given to another holder. -/
def Takeable (T : LeaseTerms) (now : ℕ) : Cell β τ ρ → Prop
  | settling _ _ started => started + T.leaseTtl < now
  | settled _ _ => False
  | failed _ failedAt => failedAt + T.failRetry ≤ now

instance (T : LeaseTerms) (now : ℕ) (c : Cell β τ ρ) : Decidable (c.Takeable T now) := by
  cases c <;> unfold Takeable <;> infer_instance

theorem takeable_settling {T : LeaseTerms} {now started : ℕ} {b : β} {l : τ} :
    (settling b l started : Cell β τ ρ).Takeable T now ↔ started + T.leaseTtl < now := Iff.rfl

theorem takeable_failed {T : LeaseTerms} {now failedAt : ℕ} {b : β} :
    (failed b failedAt : Cell β τ ρ).Takeable T now ↔ failedAt + T.failRetry ≤ now := Iff.rfl

variable [DecidableEq β]

/-- Ask for the cell. -/
def begin (T : LeaseTerms) (now : ℕ) (lease : τ) (b : β) :
    Option (Cell β τ ρ) → Option (Cell β τ ρ) × Answer τ ρ
  | none => (some (settling b lease now), .acquired lease)
  | some c =>
    if c.binding ≠ b then (some c, .mismatch)
    else if c.Takeable T now then
      (some (settling b lease now),
        if c.holder.isSome then .recovered lease else .acquired lease)
    else match c with
      | settled _ result => (some c, .cached result)
      | _ => (some c, .busy)

/-- What asking for the cell can do. -/
inductive Begun (T : LeaseTerms) (now : ℕ) (lease : τ) (b : β) :
    Option (Cell β τ ρ) → Option (Cell β τ ρ) → Answer τ ρ → Prop
  | acquired {c : Option (Cell β τ ρ)} (takeable : ∀ x ∈ c, x.binding = b ∧ x.Takeable T now ∧
      x.holder = none) : Begun T now lease b c (some (settling b lease now)) (.acquired lease)
  | recovered {l : τ} {started : ℕ} (expired : started + T.leaseTtl < now) :
      Begun T now lease b (some (settling b l started)) (some (settling b lease now))
        (.recovered lease)
  | cached {result : ρ} : Begun T now lease b (some (settled b result)) (some (settled b result))
      (.cached result)
  | busy {c : Cell β τ ρ} (same : c.binding = b) (kept : ¬ c.Takeable T now)
      (unfilled : ∀ b' r, c ≠ settled b' r) : Begun T now lease b (some c) (some c) .busy
  | mismatch {c : Cell β τ ρ} (other : c.binding ≠ b) :
      Begun T now lease b (some c) (some c) .mismatch

variable {T : LeaseTerms} {now : ℕ} {lease : τ} {b : β} {result : ρ} {c c' : Option (Cell β τ ρ)}
  {a : Answer τ ρ}

theorem begun (h : begin T now lease b c = (c', a)) : Begun T now lease b c c' a := by
  cases c with
  | none =>
    cases h
    exact .acquired fun x hx => by cases hx
  | some c =>
    simp only [begin] at h
    split at h
    · rename_i hne
      cases h
      exact .mismatch hne
    · rename_i heq
      have heq : c.binding = b := Decidable.of_not_not heq
      split at h
      · rename_i htake
        cases h
        cases c with
        | settling b' l started =>
          obtain rfl : b' = b := heq
          exact .recovered htake
        | settled b' r => exact absurd htake id
        | failed b' t =>
          refine .acquired fun x hx => ?_
          cases hx
          exact ⟨heq, htake, rfl⟩
      · rename_i htake
        cases c with
        | settling b' l started =>
          cases h
          exact .busy heq htake fun _ _ h => by cases h
        | settled b' r =>
          cases h
          obtain rfl : b' = b := heq
          exact .cached
        | failed b' t =>
          cases h
          exact .busy heq htake fun _ _ h => by cases h

omit [DecidableEq β] in
theorem Begun.of_granted {l : τ} (h : Begun T now lease b c c' a) (ha : a.granted = some l) :
    c' = some (settling b lease now) := by
  cases h with
  | acquired | recovered => rfl
  | cached | busy | mismatch => cases ha

omit [DecidableEq β] in
theorem Begun.of_settled {b' : β} (h : Begun T now lease b (some (settled b' result)) c' a) :
    (b = b' → a = .cached result) ∧ (b ≠ b' → a = .mismatch) := by
  cases h with
  | acquired takeable => exact absurd (takeable _ rfl).2.1 id
  | cached => exact ⟨fun _ => rfl, fun hne => absurd rfl hne⟩
  | busy _ _ unfilled => exact absurd rfl (unfilled _ _)
  | mismatch other => exact ⟨fun heq => absurd heq.symm other, fun _ => rfl⟩

variable [DecidableEq τ]

/-- The holder fills the cell. -/
def complete (b : β) (lease : τ) (result : ρ) (c : Option (Cell β τ ρ)) :
    Option (Cell β τ ρ) × Bool :=
  match c with
  | some (settling b' l _) =>
    if b' = b ∧ l = lease then (some (settled b result), true) else (c, false)
  | _ => (c, false)

/-- The holder gives up. -/
def fail (now : ℕ) (b : β) (lease : τ) (c : Option (Cell β τ ρ)) : Option (Cell β τ ρ) × Bool :=
  match c with
  | some (settling b' l _) =>
    if b' = b ∧ l = lease then (some (failed b now), true) else (c, false)
  | _ => (c, false)

theorem complete_of_not_held (h : ∀ started, c ≠ some (settling b lease started)) :
    complete b lease result c = (c, false) := by
  unfold complete
  split
  · rename_i b' l started
    refine if_neg ?_
    rintro ⟨rfl, rfl⟩
    exact h started rfl
  · rfl

theorem fail_of_not_held (h : ∀ started, c ≠ some (settling b lease started)) :
    fail now b lease c = (c, false) := by
  unfold fail
  split
  · rename_i b' l started
    refine if_neg ?_
    rintro ⟨rfl, rfl⟩
    exact h started rfl
  · rfl

theorem complete_true (h : complete b lease result c = (c', true)) :
    (∃ started, c = some (settling b lease started)) ∧ c' = some (settled b result) := by
  unfold complete at h
  split at h
  · split at h
    · rename_i started heq
      obtain ⟨rfl, rfl⟩ := heq
      cases h
      exact ⟨⟨started, rfl⟩, rfl⟩
    · cases h
  · cases h

theorem complete_false (h : complete b lease result c = (c', false)) :
    (∀ started, c ≠ some (settling b lease started)) ∧ c' = c := by
  unfold complete at h
  split at h
  · split at h
    · cases h
    · rename_i heq
      cases h
      refine ⟨fun started hc => heq ?_, rfl⟩
      cases hc
      exact ⟨rfl, rfl⟩
  · rename_i hne
    cases h
    exact ⟨fun started hc => hne _ _ _ hc, rfl⟩

theorem fail_true (h : fail now b lease c = (c', true)) :
    (∃ started, c = some (settling b lease started)) ∧ c' = some (failed b now) := by
  unfold fail at h
  split at h
  · split at h
    · rename_i started heq
      obtain ⟨rfl, rfl⟩ := heq
      cases h
      exact ⟨⟨started, rfl⟩, rfl⟩
    · cases h
  · cases h

theorem fail_false (h : fail now b lease c = (c', false)) :
    (∀ started, c ≠ some (settling b lease started)) ∧ c' = c := by
  unfold fail at h
  split at h
  · split at h
    · cases h
    · rename_i heq
      cases h
      refine ⟨fun started hc => heq ?_, rfl⟩
      cases hc
      exact ⟨rfl, rfl⟩
  · rename_i hne
    cases h
    exact ⟨fun started hc => hne _ _ _ hc, rfl⟩

end Cell

end Foundation
