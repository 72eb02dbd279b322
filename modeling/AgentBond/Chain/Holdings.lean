import AgentBond.Chain.Script

/-! # What the program holds

In every reached ledger the bonds count what their jobs have locked, the vaults
hold what is deposited and the escrows hold the principals.
-/

namespace AgentBond

open Foundation Protocol

variable {P : Platform} {L : Ledger} {a k : Pubkey} {j : JobAccount} {b : ProviderBondAccount}

theorem JobState.locksBond_iff {st : JobState} :
    st.locksBond = true ↔ st = .accepted ∨ st = .submitted ∨ st = .challenged := by
  cases st <;> decide

/-- The balance of the associated token account of an address, zero when there is none. -/
def ataBalance (P : Platform) (L : Ledger) (a mint : Pubkey) : ℕ :=
  match P.ata a mint with
  | some k => Tokens.balance L.tokenAt k
  | none => 0

theorem le_ataBalance {tok : Tokens} {mint : Pubkey} {n : ℕ} (h : Backed P tok a mint n)
    (htok : tok = L.tokenAt) : n ≤ ataBalance P L a mint := by
  subst htok
  rcases Nat.eq_zero_or_pos n with rfl | hn
  · exact Nat.zero_le _
  · obtain ⟨k, hk, hs⟩ := h hn.ne'
    rw [ataBalance, hk]
    exact hs.le_balance

/-- The books of a bond: it counts as locked what its jobs have locked, no more than it has
deposited, which its vault holds. -/
structure BondAccounted (P : Platform) (L : Ledger) (k : Pubkey) (b : ProviderBondAccount) :
    Prop where
  locked_eq : b.locked.toNat =
    ∑ a ∈ addresses, jobShare b.provider b.mint (L.recordAt P.programId a)
  locked_le : b.locked ≤ b.deposited
  deposited_le : b.deposited.toNat ≤ ataBalance P L k b.mint

theorem Sound.bondAccounted (h : Sound P L) (hb : L.recordAt P.programId k = some (.bond b)) :
    BondAccounted P L k b where
  locked_eq := h.inv.balanced.locked_eq h.inv.found hb
  locked_le := (h.inv.valid k _ hb).2
  deposited_le := le_ataBalance (h.inv.solvent k _ hb (Set.notMem_empty k)) rfl

theorem Sound.locksBond (h : Sound P L) (hj : L.recordAt P.programId a = some (.job j))
    (hl : j.lockedBond ≠ 0) : j.state = .accepted ∨ j.state = .submitted ∨ j.state = .challenged :=
  JobState.locksBond_iff.mp ((h.inv.valid.locked_iff hj).mp hl)

/-- In every reached ledger every bond is accounted for, and only a job between acceptance and
settlement has locked part of one. -/
theorem bonds_accounted (h : Reached P L) :
    (∀ k b, L.recordAt P.programId k = some (.bond b) → BondAccounted P L k b) ∧
      ∀ a j, L.recordAt P.programId a = some (.job j) → 0 < j.lockedBond →
        j.state = .accepted ∨ j.state = .submitted ∨ j.state = .challenged := by
  have hs := Sound.of_reached h
  refine ⟨fun k b hb => hs.bondAccounted hb, fun a j hj hl => hs.locksBond hj ?_⟩
  rintro h0
  rw [h0] at hl
  exact absurd hl (by decide)

/-- The bond of the sample deployment with a job that has locked 50 of the 120 deposited. -/
theorem bonds_accounted_sample : ∃ b,
    Sample.acceptedLedger.recordAt Sample.programId Sample.bondKey = some (.bond b) ∧
      b.locked = 50 ∧ b.deposited = 120 ∧
        BondAccounted Sample.platform Sample.acceptedLedger Sample.bondKey b := by
  have hb : ∃ b, Sample.acceptedLedger.recordAt Sample.programId Sample.bondKey =
      some (.bond b) ∧ b.locked = 50 ∧ b.deposited = 120 :=
    ⟨{ bump := 255, provider := Sample.provider, mint := Sample.mint,
       tokenProgram := tokenProgramId, deposited := 120, locked := 50 },
      Sample.views_acceptedLedger.2.1, rfl, rfl⟩
  obtain ⟨b, hb, hl, hd⟩ := hb
  exact ⟨b, hb, hl, hd, (bonds_accounted Sample.reached_acceptedLedger).1 _ b hb⟩

/-- The escrow of a job: the associated token account of its address, with the principal. -/
theorem Sound.escrow (h : Sound P L) (hj : L.recordAt P.programId a = some (.job j))
    (hs : j.state.holdsEscrow = true) :
    ∃ e t, P.ata a j.mint = some e ∧ L.tokenAt e = some t ∧ t.mint = j.mint ∧ t.owner = a ∧
      t.delegate = none ∧ j.amount.toNat ≤ t.amount := by
  have howed : (Record.job j).owed = j.amount.toNat := by simp [Record.owed, hs]
  have hne : j.amount.toNat ≠ 0 := fun h0 =>
    (h.inv.valid a _ hj).2.2.1 (UInt64.toNat_inj.mp h0)
  have hback := h.inv.solvent a _ hj (Set.notMem_empty a)
  rw [howed] at hback
  obtain ⟨e, he, hsec⟩ := hback hne
  obtain ⟨t, ht, hm, ho, hd, hle⟩ := hsec hne
  exact ⟨e, t, he, ht, hm, ho, hd, hle⟩

theorem eq_of_escrow {a' e : Pubkey} {j' : JobAccount} (hc : P.CollisionFree (DerivedIn P L))
    (hj : L.recordAt P.programId a = some (.job j))
    (hj' : L.recordAt P.programId a' = some (.job j')) (h : P.ata a j.mint = some e)
    (h' : P.ata a' j'.mint = some e) : a = a' := by
  obtain ⟨⟨_, bump⟩, hf, rfl⟩ := Option.map_eq_some_iff.mp h
  obtain ⟨⟨_, bump'⟩, hf', he⟩ := Option.map_eq_some_iff.mp h'
  simp only at he
  subst he
  have hflat := hc (.escrow hj hf) (.escrow hj' hf') (P.create_of_find hf) (P.create_of_find hf')
  simp only [List.cons_append, List.nil_append, List.flatten_cons] at hflat
  exact List.Vector.toList_injective (List.append_inj_left hflat (by simp))

/-- In every reached ledger every job between funding and payout has its principal in its escrow
and shares it with no other; no two live jobs at all share one unless the derivation collides. -/
theorem escrows_solvent (h : Reached P L) :
    (∀ a j, L.recordAt P.programId a = some (.job j) → j.state.holdsEscrow = true →
      ∃ e t, P.ata a j.mint = some e ∧ L.tokenAt e = some t ∧ t.mint = j.mint ∧ t.owner = a ∧
        j.amount.toNat ≤ t.amount) ∧
      (∀ a a' j j' e, L.recordAt P.programId a = some (.job j) → j.state.holdsEscrow = true →
        L.recordAt P.programId a' = some (.job j') → j'.state.holdsEscrow = true →
          P.ata a j.mint = some e → P.ata a' j'.mint = some e → a = a') ∧
      (P.CollisionFree (DerivedIn P L) → ∀ a a' j j' e, L.recordAt P.programId a = some (.job j) →
        L.recordAt P.programId a' = some (.job j') → P.ata a j.mint = some e →
          P.ata a' j'.mint = some e → a = a') := by
  have hs := Sound.of_reached h
  refine ⟨fun a j hj hstate => ?_, fun a a' j j' e hj hstate hj' hstate' he he' => ?_,
    fun hc a a' j j' e hj hj' he he' => eq_of_escrow hc hj hj' he he'⟩
  · obtain ⟨e, t, he, ht, hm, ho, -, hle⟩ := hs.escrow hj hstate
    exact ⟨e, t, he, ht, hm, ho, hle⟩
  · -- One token account has one owner.
    obtain ⟨e₁, t₁, he₁, ht₁, -, ho₁, -, -⟩ := hs.escrow hj hstate
    obtain ⟨e₂, t₂, he₂, ht₂, -, ho₂, -, -⟩ := hs.escrow hj' hstate'
    obtain rfl : e = e₁ := Option.some.inj (he.symm.trans he₁)
    obtain rfl : e = e₂ := Option.some.inj (he'.symm.trans he₂)
    obtain rfl : t₁ = t₂ := Option.some.inj (ht₁.symm.trans ht₂)
    exact ho₁.symm.trans ho₂

/-- The sample job holds its principal of 300. -/
theorem escrows_solvent_sample : ∃ j,
    Sample.acceptedLedger.recordAt Sample.programId Sample.jobKey = some (.job j) ∧
      j.amount = 300 ∧ ∃ e t, Sample.platform.ata Sample.jobKey j.mint = some e ∧
        Sample.acceptedLedger.tokenAt e = some t ∧ t.mint = j.mint ∧ t.owner = Sample.jobKey ∧
          j.amount.toNat ≤ t.amount := by
  have hj : ∃ j, Sample.acceptedLedger.recordAt Sample.programId Sample.jobKey =
      some (.job j) ∧ j.amount = 300 ∧ j.state = .accepted :=
    ⟨Sample.acceptedJob, Sample.views_acceptedLedger.1, rfl, rfl⟩
  obtain ⟨j, hj, ha, hs⟩ := hj
  exact ⟨j, hj, ha, (escrows_solvent Sample.reached_acceptedLedger).1 _ j hj (by rw [hs]; rfl)⟩

end AgentBond
