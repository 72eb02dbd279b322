import AgentBond.Chain.Holdings

/-! # Payouts along runs

A job is paid out at most once before its address is created again, with exactly
the effect of its payout, and nothing else takes from its escrow.
-/

namespace AgentBond

open Foundation Protocol

variable {P : Platform} {L L' : Ledger} {a : Pubkey} {j : JobAccount} {action : Action}
  {x : Transition Ledger Action} {tr : List (Transition Ledger Action)}

/-- The transition takes the job at the address from an escrow state to a paid one. -/
def PaysOut (P : Platform) (a : Pubkey) (x : Transition Ledger Action) : Prop :=
  ∃ j j', x.source.recordAt P.programId a = some (.job j) ∧ j.state.holdsEscrow = true ∧
    x.target.recordAt P.programId a = some (.job j') ∧ j'.state.isPaid = true

/-- The transition is a `CreateJob` that puts a new job at the address. -/
def CreatesJob (P : Platform) (a : Pubkey) (x : Transition Ledger Action) : Prop :=
  ∃ ctx data payload, x.label = .instruction ctx data ∧
    Instruction.parse data = .ok (.createJob payload) ∧
    x.source.recordAt P.programId a = none ∧
    ∃ j, x.target.recordAt P.programId a = some (.job j) ∧ j.state = .created ∧
      j.requestHash = payload.requestHash

/-- There is a job at the address that can still change its state. -/
def OpenJob (P : Platform) (a : Pubkey) (L : Ledger) : Prop :=
  ∃ j, L.recordAt P.programId a = some (.job j) ∧ j.state.isTerminal = false

theorem isTerminal_of_isPaid {st : JobState} (h : st.isPaid = true) : st.isTerminal = true := by
  cases st <;> first | rfl | cases h

theorem isTerminal_of_holdsEscrow {st : JobState} (h : st.holdsEscrow = true) :
    st.isTerminal = false := by
  cases st <;> first | rfl | cases h

theorem createsJob_of_enter (hs : ChainStep P x.source x.label x.target)
    (hsource : ¬ OpenJob P a x.source) (htarget : OpenJob P a x.target) : CreatesJob P a x := by
  obtain ⟨j', hj', hopen⟩ := htarget
  rcases hs.evolved a with he | ⟨ctx, data, ix, haction, hparse, he⟩
  · exact absurd ⟨j', he ▸ hj', hopen⟩ hsource
  · rw [hj'] at he
    generalize hr : x.source.recordAt P.programId a = r at he
    have hclosed : ∀ {j : JobAccount}, r = some (.job j) → j.state.isTerminal = true := by
      intro j hj
      by_contra hne
      exact hsource ⟨j, hr.trans hj, by simpa using hne⟩
    cases he with
    | jobCreated => exact ⟨ctx, data, _, haction, hparse, hr, _, hj', rfl, rfl⟩
    | jobFunded created => have := hclosed rfl; rw [created] at this; cases this
    | jobAccepted funded => have := hclosed rfl; rw [funded] at this; cases this
    | jobSubmitted accepted => have := hclosed rfl; rw [accepted] at this; cases this
    | jobChallenged submitted => have := hclosed rfl; rw [submitted] at this; cases this
    | @jobPaid _ _ target _ _ paid =>
      have hterminal : target.isTerminal = false := hopen
      rw [isTerminal_of_isPaid paid] at hterminal
      cases hterminal
    | jobExpired => cases hopen

theorem exists_createsJob (h : Run (ChainStep P) L tr L') (hL : ¬ OpenJob P a L)
    (hL' : OpenJob P a L') : ∃ x ∈ tr, CreatesJob P a x := by
  obtain ⟨x, hx, hsource, htarget⟩ := h.exists_enter hL hL'
  have hstep := (h.step_of_mem (I := fun _ => True) (fun _ _ _ _ _ => trivial) trivial hx).2
  exact ⟨x, hx, createsJob_of_enter hstep hsource htarget⟩

/-- Between two payouts of jobs at one address a job is created there. -/
theorem exists_createsJob_between {tr₁ tr₂ tr₃ : List (Transition Ledger Action)}
    {y : Transition Ledger Action} (h : Run (ChainStep P) L (tr₁ ++ x :: (tr₂ ++ y :: tr₃)) L')
    (hx : PaysOut P a x) (hy : PaysOut P a y) : ∃ z ∈ tr₂, CreatesJob P a z := by
  obtain ⟨-, -, hrest⟩ := h.split
  obtain ⟨hbetween, -, -⟩ := hrest.split
  obtain ⟨_, j, -, -, hj, hpaid⟩ := hx
  obtain ⟨j', _, hj', hheld, -, -⟩ := hy
  refine exists_createsJob hbetween ?_ ⟨j', hj', isTerminal_of_holdsEscrow hheld⟩
  rintro ⟨j₁, hj₁, hopen⟩
  obtain rfl : j = j₁ := by simpa using hj.symm.trans hj₁
  rw [isTerminal_of_isPaid hpaid] at hopen
  cases hopen

/-- A payout is made by an instruction, with exactly the effect of its payout. -/
theorem ChainStep.payout (h : Sound P L) (hs : ChainStep P L action L') {j' : JobAccount}
    (hj : L.recordAt P.programId a = some (.job j)) (hheld : j.state.holdsEscrow = true)
    (hj' : L'.recordAt P.programId a = some (.job j')) (hpaid : j'.state.isPaid = true) :
    ∃ ctx data ix, action = .instruction ctx data ∧ Instruction.parse data = .ok ix ∧
      PayoutEffect P (abs P L) (abs P L') a j ix j'.state := by
  cases hs with
  | @instruction ctx data _ _ _ signers ok =>
    obtain ⟨ix, hparse, hstep, -⟩ := refined_of_process signers ok
    exact ⟨ctx, data, ix, rfl, hparse, hstep.payout h.inv.found h.inv.valid hj hheld hj' hpaid⟩
  | thirdParty others =>
    rw [others.recordAt_eq, hj, Option.some.injEq, Record.job.injEq] at hj'
    rw [← hj', isPaid_of_holdsEscrow hheld] at hpaid
    cases hpaid

/-- A job that is not paid out keeps its terms and everything in its escrow. -/
structure EscrowKept (P : Platform) (L L' : Ledger) (a : Pubkey) (j : JobAccount) : Prop where
  held : ∃ j', L'.recordAt P.programId a = some (.job j') ∧ j'.state.holdsEscrow = true ∧
    j'.amount = j.amount ∧ j'.mint = j.mint
  kept : ∀ {e}, P.ata a j.mint = some e →
    Tokens.balance L.tokenAt e ≤ Tokens.balance L'.tokenAt e

theorem ChainStep.held (hs : ChainStep P L action L')
    (hj : L.recordAt P.programId a = some (.job j)) (hheld : j.state.holdsEscrow = true)
    (hpaid : ¬ PaysOut P a ⟨L, action, L'⟩) :
    ∃ j', L'.recordAt P.programId a = some (.job j') ∧ j'.state.holdsEscrow = true ∧
      j'.amount = j.amount ∧ j'.mint = j.mint := by
  rcases hs.evolved a with he | ⟨_, _, ix, -, -, he⟩
  · exact ⟨j, he.trans hj, hheld, rfl, rfl⟩
  · generalize hr : L'.recordAt P.programId a = r at he
    rw [hj] at he
    cases he with
    | jobFunded created => rw [created] at hheld; cases hheld
    | jobAccepted => exact ⟨_, rfl, rfl, rfl, rfl⟩
    | jobSubmitted => exact ⟨_, rfl, rfl, rfl, rfl⟩
    | jobChallenged => exact ⟨_, rfl, rfl, rfl, rfl⟩
    | jobPaid _ _ paid => exact absurd ⟨j, _, hj, hheld, hr, paid⟩ hpaid
    | jobExpired created => rw [created] at hheld; cases hheld
    | jobClosed terminal => rw [isTerminal_of_holdsEscrow hheld] at terminal; cases terminal

theorem ChainStep.escrowKept (h : Sound P L) (hs : ChainStep P L action L')
    (hj : L.recordAt P.programId a = some (.job j)) (hheld : j.state.holdsEscrow = true)
    (hpaid : ¬ PaysOut P a ⟨L, action, L'⟩) : EscrowKept P L L' a j where
  held := hs.held hj hheld hpaid
  kept := by
    intro e he
    obtain ⟨e', t, he', ht, hm, ho, hd, hle⟩ := h.escrow hj hheld
    obtain rfl : e = e' := Option.some.inj (he.symm.trans he')
    have hne : t.amount ≠ 0 := fun h0 =>
      (h.inv.valid a _ hj).2.2.1 (UInt64.toNat_inj.mp (Nat.le_zero.mp (h0 ▸ hle)))
    rw [Tokens.balance_of_some ht]
    cases hs with
    | instruction signers ok =>
      obtain ⟨ix, -, hstep, -⟩ := refined_of_process signers ok
      rcases hstep.secured (h.inv.found.pda hj) with hsec | ⟨b, hb⟩ | ⟨j', hj', hpaid'⟩
      · exact (hsec e j.mint t.amount fun _ => ⟨t, ht, hm, ho, hd, le_rfl⟩).le_balance
      · cases hj.symm.trans hb
      · exact absurd ⟨j, j', hj, hheld, hj', hpaid'⟩ hpaid
    | thirdParty others =>
      obtain ⟨t', ht', -, -, -, hle'⟩ := others.tokens ht (ho ▸ h.inv.found.pda hj) hd hne
      rwa [Tokens.balance_of_some ht']

/-- Along every run, a job in escrow is paid out by an instruction with exactly the effect of its
payout, is left with its terms and its escrow by everything else, and is not paid out again before
a job is created at its address. -/
theorem payouts_exact (hL : Genesis P L) (h : Run (ChainStep P) L tr L') :
    (∀ x ∈ tr, ∀ a j j', x.source.recordAt P.programId a = some (.job j) →
      j.state.holdsEscrow = true → x.target.recordAt P.programId a = some (.job j') →
        j'.state.isPaid = true →
          ∃ ctx data ix, x.label = .instruction ctx data ∧ Instruction.parse data = .ok ix ∧
            PayoutEffect P (abs P x.source) (abs P x.target) a j ix j'.state) ∧
      (∀ x ∈ tr, ∀ a j, x.source.recordAt P.programId a = some (.job j) →
        j.state.holdsEscrow = true → ¬ PaysOut P a x → EscrowKept P x.source x.target a j) ∧
      ∀ a tr₁ x tr₂ y tr₃, tr = tr₁ ++ x :: (tr₂ ++ y :: tr₃) → PaysOut P a x → PaysOut P a y →
        ∃ z ∈ tr₂, CreatesJob P a z := by
  refine ⟨fun x hx a j j' hj hheld hj' hpaid => ?_, fun x hx a j hj hheld hpaid => ?_,
    fun a tr₁ x tr₂ y tr₃ htr hpx hpy => ?_⟩
  · obtain ⟨hsound, hstep⟩ := Sound.of_mem hL h hx
    exact hstep.payout hsound hj hheld hj' hpaid
  · obtain ⟨hsound, hstep⟩ := Sound.of_mem hL h hx
    exact hstep.escrowKept hsound hj hheld hpaid
  · subst htr
    exact exists_createsJob_between h hpx hpy

/-- The buyer of the sample accepts the work: 300 go from the escrow to the provider. -/
theorem payouts_exact_sample : ∃ ctx data ix,
    Action.instruction Sample.settle.1 Sample.settle.2 = .instruction ctx data ∧
      Instruction.parse data = .ok ix ∧
        PayoutEffect Sample.platform (abs Sample.platform Sample.submittedLedger)
          (abs Sample.platform Sample.settledLedger) Sample.jobKey Sample.submittedJob ix
          .settled := by
  have hlast : ⟨Sample.submittedLedger, .instruction Sample.settle.1 Sample.settle.2,
      Sample.settledLedger⟩ ∈ transitions Sample.platform Sample.ledger
        (Sample.submission ++ [Sample.settle]) :=
    mem_transitions_last _ _
  have hpaid : Sample.settledLedger.recordAt Sample.platform.programId Sample.jobKey =
      some (.job (released Sample.submittedJob .settled)) := by decide +kernel
  have h := payouts_exact Sample.genesis (Sample.run_of_script Sample.playable_settlement)
  have hlast' := h.1 _ hlast
  dsimp only at hlast'
  exact hlast' _ _ _ Sample.job_at_submittedLedger rfl hpaid rfl

end AgentBond
