import AgentBond.Chain.Origins

/-! # The terms of the configuration

Whatever the buyer and the provider agree on, a job is in the mint of the
configuration and a bond is with its token program.
-/

namespace AgentBond

open Foundation Protocol

variable {P : Platform} {now : Int64} {ix : Instruction} {s s' : State} {a k : Pubkey}
  {j' : JobAccount} {b' : ProviderBondAccount} {c : ConfigAccount}

/-- A job keeps its mint; a new one has that of the configuration. -/
theorem Step.job_mint (hs : Step P now s ix s') (hj' : s'.records a = some (.job j')) :
    (∃ j, s.records a = some (.job j) ∧ j.mint = j'.mint) ∨
      ∃ k c, s.records k = some (.config c) ∧ j'.mint = c.allowedMint := by
  rcases hs.evolved a with he | he
  · exact Or.inl ⟨j', he.symm.trans hj', rfl⟩
  · rw [hj'] at he
    generalize hr : s.records a = r at he
    cases he with
    | jobCreated =>
      cases hs with
      | refund refunds => rcases refunds with h | h <;> cases h
      | refundWith refunds => rcases refunds with h | h <;> cases h
      | @createJob configKey _ i _ c _ _ _ config_at =>
        by_cases hi : a = i
        · subst hi
          rw [State.records_put_self, Option.some.injEq, Record.job.injEq] at hj'
          exact Or.inr ⟨configKey, c, config_at, (congrArg JobAccount.mint hj').symm⟩
        · rw [State.records_put_of_ne hi, hr] at hj'
          cases hj'
    | _ => exact Or.inl ⟨_, rfl, rfl⟩

theorem of_records_put {r r' : Record} (h : (s.put k r).records a = some r') :
    a = k ∧ r = r' ∨ s.records a = some r' := by
  by_cases ha : a = k
  · subst ha
    rw [State.records_put_self] at h
    exact Or.inl ⟨rfl, Option.some.inj h⟩
  · rw [State.records_put_of_ne ha] at h
    exact Or.inr h

theorem Step.bond_terms (hs : Step P now s ix s') (hb' : s'.records a = some (.bond b')) :
    (∃ b, s.records a = some (.bond b) ∧ b.mint = b'.mint ∧ b.tokenProgram = b'.tokenProgram) ∨
      ∃ k c, s.records k = some (.config c) ∧ b'.mint = c.allowedMint ∧
        b'.tokenProgram = c.tokenProgram := by
  rcases hs.evolved a with he | he
  · exact Or.inl ⟨b', he.symm.trans hb', rfl, rfl⟩
  · rw [hb'] at he
    generalize hr : s.records a = r at he
    cases he with
    | bondChanged => exact Or.inl ⟨_, rfl, rfl, rfl⟩
    | bondOpened =>
      have hcreates := Step.creates hs hr hb'
      cases hs with
      | depositBond config_at bond_at =>
        rcases of_records_put hb' with ⟨rfl, he⟩ | he
        · obtain rfl := Record.bond.inj he
          rcases bond_at with ⟨hb, -⟩ | ⟨-, bump, -, hb⟩
          · cases hr.symm.trans hb
          · refine Or.inr ⟨_, _, config_at, ?_, ?_⟩
            · show ProviderBondAccount.mint _ = _
              rw [hb]
              rfl
            · show ProviderBondAccount.tokenProgram _ = _
              rw [hb]
              rfl
        · cases hr.symm.trans he
      | initializeConfig | registerProvider | createJob =>
        rcases of_records_put hb' with ⟨-, he⟩ | he
        · cases he
        · cases hr.symm.trans he
      | challengeWork =>
        rcases of_records_put hb' with ⟨-, he⟩ | he
        · cases he
        · rcases of_records_put he with ⟨-, he⟩ | he
          · cases he
          · cases hr.symm.trans he
      | refund refunds | refundWith refunds => rcases refunds with rfl | rfl <;> cases hcreates
      | _ => cases hcreates

/-- Every job and every bond is in the mint of the configuration, and every bond is with its token
program. -/
structure Termed (P : Platform) (L : Ledger) : Prop where
  job : ∀ {a j}, L.recordAt P.programId a = some (.job j) →
    ∃ k c, L.recordAt P.programId k = some (.config c) ∧ j.mint = c.allowedMint
  bond : ∀ {a b}, L.recordAt P.programId a = some (.bond b) →
    ∃ k c, L.recordAt P.programId k = some (.config c) ∧ b.mint = c.allowedMint ∧
      b.tokenProgram = c.tokenProgram

theorem Termed.step {L L' : Ledger} (h : Termed P L)
    (hs : Step P now (abs P L) ix (abs P L')) : Termed P L' where
  job := fun {a j} hj => by
    have hbefore : ∃ k c, L.recordAt P.programId k = some (.config c) ∧ j.mint = c.allowedMint := by
      rcases Step.job_mint hs hj with ⟨j₀, hj₀, he⟩ | hnew
      · rw [← he]
        exact h.job hj₀
      · exact hnew
    obtain ⟨k, c, hc, he⟩ := hbefore
    obtain ⟨paused, hc'⟩ := hs.config_kept hc
    exact ⟨k, _, hc', he⟩
  bond := fun {a b} hb => by
    have hbefore : ∃ k c, L.recordAt P.programId k = some (.config c) ∧ b.mint = c.allowedMint ∧
        b.tokenProgram = c.tokenProgram := by
      rcases Step.bond_terms hs hb with ⟨b₀, hb₀, hm, ht⟩ | hnew
      · rw [← hm, ← ht]
        exact h.bond hb₀
      · exact hnew
    obtain ⟨k, c, hc, hm, ht⟩ := hbefore
    obtain ⟨paused, hc'⟩ := hs.config_kept hc
    exact ⟨k, _, hc', hm, ht⟩

theorem termed_of_reached {L : Ledger} (h : Reached P L) : Termed P L := by
  refine h.invariant (I := Termed P) ?_ ?_
  · intro L hL
    refine ⟨fun {a j} hj => ?_, fun {a b} hb => ?_⟩
    · cases (hL.recordAt_eq a).symm.trans hj
    · cases (hL.recordAt_eq a).symm.trans hb
  · intro L action L' htermed hs
    cases hs with
    | instruction signers ok =>
      obtain ⟨ix, -, hstep, -⟩ := refined_of_process signers ok
      exact htermed.step hstep
    | thirdParty others =>
      have hrecords := others.recordAt_eq
      refine ⟨fun {a j} hj => ?_, fun {a b} hb => ?_⟩
      · rw [hrecords] at hj ⊢
        exact htermed.job hj
      · rw [hrecords] at hb ⊢
        exact htermed.bond hb

theorem Termed.bond_set {L : Ledger} (h : Termed P L) (hs : Sound P L) {k : Pubkey}
    {b : ProviderBondAccount} (hb : L.recordAt P.programId k = some (.bond b)) :
    b.mint ≠ zeroKey ∧ b.tokenProgram = tokenProgramId := by
  obtain ⟨_, c, hc, hm, ht⟩ := h.bond hb
  obtain ⟨-, -, hset, htoken⟩ := hs.inv.valid _ _ hc
  exact ⟨hm ▸ hset, ht.trans htoken⟩

end AgentBond
