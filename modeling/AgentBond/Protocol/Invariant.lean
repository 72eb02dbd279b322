import AgentBond.Protocol.Accounting
import AgentBond.Protocol.Solvency

/-! # The protocol invariant

The invariants of the records, the books and the token accounts together. Every
step keeps them, and so does whatever others do with their own accounts.
-/

namespace AgentBond.Protocol

structure Inv (P : Platform) (s : State) : Prop where
  found : Found P s
  valid : AllValid P s
  linked : Linked s
  minted : Minted s
  balanced : Balanced s
  solvent : Solvent P s ∅

/-- What others can do: the records stay, what the addresses of the program own is only added to,
and an initialized mint stays as it is. -/
structure Outside (P : Platform) (s s' : State) : Prop where
  records : s'.records = s.records
  tokens : ∀ {k t}, s.tokens k = some t → P.Pda t.owner → t.delegate = none → t.amount ≠ 0 →
    ∃ t', s'.tokens k = some t' ∧ t'.mint = t.mint ∧ t'.owner = t.owner ∧ t'.delegate = none ∧
      t.amount ≤ t'.amount
  mints : ∀ {k m}, s.mints k = some m → m.isInitialized = true → s'.mints k = some m

variable {P : Platform} {s s' : State} {now : Int64} {ix : Instruction}

theorem Inv.of_empty (h : ∀ a, s.records a = none) : Inv P s where
  found := fun a r hr => by rw [h] at hr; cases hr
  valid := fun a r hr => by rw [h] at hr; cases hr
  linked := ⟨fun hc => (by rw [h] at hc; cases hc), fun hj => (by rw [h] at hj; cases hj)⟩
  minted := fun a j hj => by rw [h] at hj; cases hj
  balanced := fun provider mint => Finset.sum_eq_zero fun a _ => by rw [h]; rfl
  solvent := fun a r hr => by rw [h] at hr; cases hr

theorem Inv.step (h : Inv P s) (hs : Step P now s ix s') : Inv P s' where
  found := h.found.step hs
  valid := h.valid.step hs
  linked := h.linked.step h.found hs
  minted := h.minted.step hs
  balanced := h.balanced.step h.valid hs
  solvent := h.solvent.step h.found hs

theorem Solvent.outside (h : Solvent P s ∅) (hf : Found P s) (ho : Outside P s s') :
    Solvent P s' ∅ := by
  intro a r hr ha hn
  rw [ho.records] at hr
  obtain ⟨k, hk, hsec⟩ := h a r hr ha hn
  refine ⟨k, hk, fun _ => ?_⟩
  obtain ⟨t, ht, hmint, howner, hdelegate, hle⟩ := hsec hn
  obtain ⟨t', ht', hmint', howner', hdelegate', hle'⟩ :=
    ho.tokens ht (howner ▸ hf.pda hr) hdelegate (by omega)
  exact ⟨t', ht', hmint'.trans hmint, howner'.trans howner, hdelegate', hle.trans hle'⟩

theorem Minted.outside (h : Minted s) (ho : Outside P s s') : Minted s' := by
  intro a j hj hs
  rw [ho.records] at hj
  obtain ⟨d, hd, hinit, hdec⟩ := h a j hj hs
  exact ⟨d, ho.mints hd hinit, hinit, hdec⟩

theorem Inv.outside (h : Inv P s) (ho : Outside P s s') : Inv P s' where
  found := fun a r hr => h.found a r (by rwa [ho.records] at hr)
  valid := fun a r hr => h.valid a r (by rwa [ho.records] at hr)
  linked := h.linked.congr ho.records
  minted := h.minted.outside ho
  balanced := fun provider mint => by
    simp only [netTotal, ho.records]
    exact h.balanced provider mint
  solvent := h.solvent.outside h.found ho

end AgentBond.Protocol
