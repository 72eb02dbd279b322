import AgentBond.Foundation.Lease
import Mathlib.Data.List.Basic

/-! # The history of a leased cell

The leases given out, the leases given back and the fillings of a cell tell what
the cell is: it is filled at most once, by the latest holder and under the
binding of the first, and no two leases are open at a time.
-/

namespace Foundation

/-- A lease given out. -/
structure Grant (β τ : Type) where
  time : ℕ
  binding : β
  lease : τ

/-- A holder has filled the cell. -/
structure Filling (β τ ρ : Type) where
  binding : β
  lease : τ
  result : ρ

/-- What has happened to a cell, the latest last. -/
structure History (β τ ρ : Type) where
  grants : List (Grant β τ)
  fillings : List (Filling β τ ρ)
  closed : List τ

namespace History

variable {β τ ρ : Type} {T : LeaseTerms} {H : History β τ ρ} {c c' : Option (Cell β τ ρ)}
  {clock now : ℕ} {b : β} {lease : τ} {result : ρ} {a : Answer τ ρ}

/-- Two histories one after the other. -/
def append (H H' : History β τ ρ) : History β τ ρ where
  grants := H.grants ++ H'.grants
  fillings := H.fillings ++ H'.fillings
  closed := H.closed ++ H'.closed

def none : History β τ ρ := ⟨[], [], []⟩

/-- Somebody was given the lease. -/
def granted (now : ℕ) (b : β) (lease : τ) : History β τ ρ := ⟨[⟨now, b, lease⟩], [], []⟩

/-- Somebody asked, and was given a lease or not. -/
def asked (now : ℕ) (b : β) : Option τ → History β τ ρ
  | some lease => granted now b lease
  | .none => none

/-- A holder filled the cell and gave its lease back. -/
def filled (b : β) (lease : τ) (result : ρ) : History β τ ρ := ⟨[], [⟨b, lease, result⟩], [lease]⟩

/-- A holder gave its lease back. -/
def gaveUp (lease : τ) : History β τ ρ := ⟨[], [], [lease]⟩

@[simp] theorem append_none (H : History β τ ρ) : H.append none = H := by
  simp [append, none]

/-- The cell is what the history makes of it. -/
structure Explains (T : LeaseTerms) (clock : ℕ) (H : History β τ ρ) (c : Option (Cell β τ ρ)) :
    Prop where
  first : c.map Cell.binding = H.grants.head?.map Grant.binding
  latest :
    ∀ b l started, c = some (.settling b l started) → H.grants.getLast? = some ⟨started, b, l⟩
  filling : ∀ f ∈ H.fillings, c = some (.settled f.binding f.result)
  once : H.fillings.length ≤ 1
  holder : ∀ g ∈ H.grants, g.lease ∉ H.closed → clock ≤ g.time + T.leaseTtl →
    c = some (.settling g.binding g.lease g.time)

theorem explains_none : Explains T clock (none : History β τ ρ) .none where
  first := rfl
  latest := fun _ _ _ h => by cases h
  filling := fun _ h => by cases h
  once := Nat.zero_le 1
  holder := fun _ h => by cases h

theorem Explains.wait (h : Explains T clock H c) (hclock : clock ≤ now) : Explains T now H c where
  first := h.first
  latest := h.latest
  filling := h.filling
  once := h.once
  holder := fun g hg hopen hnow => h.holder g hg hopen (by omega)

/-- A cell that takes a new holder: no filling is there, and no lease is open. -/
theorem Explains.grant (h : Explains T clock H c) (hclock : clock ≤ now)
    (hbinding : ∀ x ∈ c, x.binding = b) (hunfilled : ∀ b r, c ≠ some (.settled b r))
    (hexpired : ∀ b l started, c = some (.settling b l started) → started + T.leaseTtl < now) :
    Explains T now (H.append (granted now b lease)) (some (.settling b lease now)) where
  first := by
    simp only [append, granted, List.head?_append]
    have hfirst := h.first
    cases c with
    | none =>
      cases hg : H.grants.head? with
      | none => rfl
      | some g =>
        rw [hg] at hfirst
        cases hfirst
    | some x =>
      cases hg : H.grants.head? with
      | none =>
        rw [hg] at hfirst
        cases hfirst
      | some g =>
        rw [hg, Option.map_some, Option.map_some, hbinding x rfl] at hfirst
        exact hfirst
  latest := fun b' l started hc => by
    cases hc
    simp [append, granted]
  filling := fun f hf => by
    simp only [append, granted, List.append_nil] at hf
    exact absurd (h.filling f hf) (hunfilled _ _)
  once := by
    simp only [append, granted, List.append_nil]
    exact h.once
  holder := fun g hg hopen hnow => by
    simp only [append, granted, List.mem_append, List.mem_singleton, List.append_nil] at hg hopen
    rcases hg with hg | rfl
    · have hc := h.holder g hg hopen (by omega)
      have hexp := hexpired _ _ _ hc
      omega
    · rfl

theorem Explains.begun (h : Explains T clock H c) (hclock : clock ≤ now)
    (hb : Cell.Begun T now lease b c c' a) :
    Explains T now (H.append (asked now b a.granted)) c' := by
  cases hb with
  | acquired takeable =>
    refine h.grant hclock (fun x hx => (takeable x hx).1) ?_ ?_
    · rintro b' r rfl
      exact (takeable _ rfl).2.1
    · rintro b' l started rfl
      cases (takeable _ rfl).2.2
  | recovered expired =>
    refine h.grant hclock ?_ ?_ ?_
    · rintro x hx
      cases hx
      rfl
    · intro b' r hc
      cases hc
    · intro b' l started hc
      cases hc
      exact expired
  | cached | busy | mismatch =>
    simp only [Answer.granted, asked, append_none]
    exact h.wait hclock

variable [DecidableEq β] [DecidableEq τ]

theorem Explains.complete (h : Explains T clock H c) (hclock : clock ≤ now)
    (hc : Cell.complete b lease result c = (c', true)) :
    Explains T now (H.append (filled b lease result)) c' ∧
      H.grants.head?.map Grant.binding = some b ∧
        H.grants.getLast?.map Grant.lease = some lease := by
  obtain ⟨⟨started, rfl⟩, rfl⟩ := Cell.complete_true hc
  have hnone : H.fillings = [] := by
    refine List.eq_nil_iff_forall_not_mem.mpr fun f hf => ?_
    cases h.filling f hf
  have hfirst : H.grants.head?.map Grant.binding = some b := h.first.symm
  have hlast := h.latest b lease started rfl
  constructor
  · constructor
    · simp only [append, filled, List.append_nil]
      exact h.first
    · intro b' l t hc'
      cases hc'
    · intro f hf
      simp only [append, filled, hnone, List.nil_append, List.mem_singleton] at hf
      rw [hf]
    · simp [append, filled, hnone]
    · intro g hg hopen hnow
      simp only [append, filled, List.append_nil, List.mem_append, List.mem_singleton,
        not_or] at hg hopen
      have hholder := h.holder g hg hopen.1 (by omega)
      cases hholder
      exact absurd rfl hopen.2
  · rw [hlast]
    exact ⟨hfirst, rfl⟩

theorem Explains.fail (h : Explains T clock H c) (hclock : clock ≤ now)
    (hc : Cell.fail now b lease c = (c', true)) :
    Explains T now (H.append (gaveUp lease)) c' := by
  obtain ⟨⟨started, rfl⟩, rfl⟩ := Cell.fail_true hc
  constructor
  · simp only [append, gaveUp, List.append_nil]
    exact h.first
  · intro b' l t hc'
    cases hc'
  · intro f hf
    simp only [append, gaveUp, List.append_nil] at hf
    cases h.filling f hf
  · simp only [append, gaveUp, List.append_nil]
    exact h.once
  · intro g hg hopen hnow
    simp only [append, gaveUp, List.append_nil, List.mem_append, List.mem_singleton,
      not_or] at hg hopen
    have hholder := h.holder g hg hopen.1 (by omega)
    cases hholder
    exact absurd rfl hopen.2

omit [DecidableEq β] [DecidableEq τ] in
/-- No two leases are open at a time. -/
theorem Explains.exclusive {g g' : Grant β τ} (h : Explains T clock H c) (hclock : clock ≤ now)
    (hg : g ∈ H.grants) (hg' : g' ∈ H.grants) (hopen : g.lease ∉ H.closed)
    (hopen' : g'.lease ∉ H.closed) (hnow : now ≤ g.time + T.leaseTtl)
    (hnow' : now ≤ g'.time + T.leaseTtl) : g = g' := by
  have hc := h.holder g hg hopen (by omega)
  have hc' := h.holder g' hg' hopen' (by omega)
  obtain ⟨t, b, l⟩ := g
  obtain ⟨t', b', l'⟩ := g'
  cases hc.symm.trans hc'
  rfl

end History

end Foundation
