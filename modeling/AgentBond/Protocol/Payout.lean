import AgentBond.Protocol.Evolution
import AgentBond.Protocol.Invariant

/-! # Payouts

What the five instructions that empty an escrow do to the token accounts, and
that nothing else takes from the escrow of a job.
-/

namespace AgentBond.Protocol

open Foundation

variable {P : Platform} {s s' : State} {now : Int64} {ix : Instruction} {a : Pubkey}
  {j j' : JobAccount}

/-- The exact effect of a payout on the token accounts, by the state of the job after it. -/
inductive PayoutEffect (P : Platform) (s s' : State) (a : Pubkey) (j : JobAccount) :
    Instruction → JobState → Prop
  | settled {ix : Instruction} {escrow providerToken buyerToken : Pubkey}
      (by_instruction : ix = .acceptWork ∨ ix = .resolveTimeoutSettle)
      (escrow_ata : P.ata a j.mint = some escrow)
      (provider_ata : P.ata j.provider j.mint = some providerToken)
      (buyer_ata : P.ata j.buyer j.mint = some buyerToken)
      (covered : j.amount.toNat ≤ s.tokens.balance escrow)
      (rebalanced : s.tokens.Rebalanced (fun k n =>
        if k = escrow then 0
        else n + (if k = providerToken then j.amount.toNat else 0) +
          if k = buyerToken then s.tokens.balance escrow - j.amount.toNat else 0) s'.tokens) :
      PayoutEffect P s s' a j ix .settled
  | refunded {ix : Instruction} {escrow buyerToken : Pubkey}
      (by_instruction : ix = .resolveTimeoutRefund ∨ ix = .expireUnaccepted)
      (escrow_ata : P.ata a j.mint = some escrow)
      (buyer_ata : P.ata j.buyer j.mint = some buyerToken)
      (covered : j.amount.toNat ≤ s.tokens.balance escrow)
      (rebalanced : s.tokens.Rebalanced (fun k n =>
        if k = escrow then 0
        else n + if k = buyerToken then s.tokens.balance escrow else 0) s'.tokens) :
      PayoutEffect P s s' a j ix .refunded
  | slashed {bondKey escrow vault buyerToken : Pubkey} {b : ProviderBondAccount}
      (escrow_ata : P.ata a j.mint = some escrow)
      (buyer_ata : P.ata j.buyer j.mint = some buyerToken)
      (bond_at : s.records bondKey = some (.bond b))
      (bond_of : b.provider = j.provider ∧ b.mint = j.mint)
      (vault_ata : P.ata bondKey j.mint = some vault)
      (covered : j.amount.toNat ≤ s.tokens.balance escrow)
      (locked : j.lockedBond.toNat ≤ s.tokens.balance vault)
      (rebalanced : s.tokens.Rebalanced (fun k n =>
        if k = escrow then 0
        else if k = vault then n - j.lockedBond.toNat
        else n + if k = buyerToken then s.tokens.balance escrow + j.lockedBond.toNat else 0)
          s'.tokens) :
      PayoutEffect P s s' a j .slashBond .slashed

theorem State.Holds.balance {k mint owner : Pubkey} {n : ℕ} (h : s.Holds k mint owner n) :
    s.tokens.balance k = n := by
  obtain ⟨t, ht, -, rfl⟩ := h
  exact Tokens.balance_of_some ht

theorem State.Holds.ne {k k' mint mint' owner owner' : Pubkey} {n n' : ℕ}
    (h : s.Holds k mint owner n) (h' : s.Holds k' mint' owner' n') (ho : owner ≠ owner') :
    k ≠ k' := by
  rintro rfl
  obtain ⟨t, ht, hord, -⟩ := h
  obtain ⟨t', ht', hord', -⟩ := h'
  obtain rfl := Option.some.inj (ht.symm.trans ht')
  exact ho (hord.owner_eq.symm.trans hord'.owner_eq)

section Effects

variable (hf : Found P s) (hv : AllValid P s)
include hf hv

theorem Refund.escrow_ne_buyerToken (x : Refund P s) : x.escrow ≠ x.buyerToken := by
  obtain ⟨n, hn⟩ := x.buyer_holds
  refine x.escrow_holds.ne hn fun he => ?_
  exact (hv _ _ x.job_at).1 (he ▸ hf.pda x.job_at)

theorem Refund.rebalanced (x : Refund P s) :
    s.tokens.Rebalanced (fun k n => if k = x.escrow then 0
      else n + if k = x.buyerToken then x.balance else 0) x.tokens.tokens := by
  refine Tokens.rebalanced_move.congr fun k t ht => ?_
  have hne := x.escrow_ne_buyerToken hf hv
  have hbal := x.escrow_holds.balance
  by_cases hk : k = x.escrow
  · subst hk
    rw [Tokens.balance_of_some ht] at hbal
    simp [hne, hbal]
  · simp [hk]

theorem Refund.effect (x : Refund P s) (hix : ix = .resolveTimeoutRefund ∨ ix = .expireUnaccepted)
    (ht : s'.tokens = x.tokens.tokens) : PayoutEffect P s s' x.jobKey x.job ix .refunded := by
  refine .refunded hix x.escrow_ata x.buyer_ata ?_ ?_
  · rw [x.escrow_holds.balance]; exact x.principal_le
  · rw [ht, x.escrow_holds.balance]; exact x.rebalanced hf hv

theorem Settlement.effect (x : Settlement P s) {s₀ : State} (h₀ : s₀.tokens = s.tokens)
    (hix : ix = .acceptWork ∨ ix = .resolveTimeoutSettle) :
    PayoutEffect P s₀ x.result x.jobKey x.job ix .settled := by
  have hbal := x.escrow_holds.balance
  refine .settled hix x.escrow_ata x.provider_ata x.buyer_ata ?_ ?_
  · rw [h₀, hbal]; exact x.principal_le
  rw [h₀, hbal]
  have hmove : s.tokens.Rebalanced _ x.result.tokens :=
    Tokens.rebalanced_move.trans Tokens.rebalanced_move
  refine hmove.congr fun k t ht => ?_
  have hne := x.escrow_ne_buyerToken hf hv
  have hne' : x.escrow ≠ x.providerToken := by
    obtain ⟨n, hn⟩ := x.provider_holds
    refine x.escrow_holds.ne hn fun he => ?_
    exact (hv _ _ x.job_at).2.1 (he ▸ hf.pda x.job_at)
  have hle := x.principal_le
  by_cases hk : k = x.escrow
  · subst hk
    rw [Tokens.balance_of_some ht] at hbal
    simp only [hne, hne', if_true, if_false]
    omega
  · simp only [hk, if_false]
    omega

theorem Slashing.effect (x : Slashing P s) (ht : s'.tokens = x.tokens.tokens) :
    PayoutEffect P s s' x.jobKey x.job .slashBond .slashed := by
  have hbal := x.escrow_holds.balance
  have hjob := x.job_at
  have hkey : x.jobKey ≠ x.key := Refund.ne_key x.toJobBond
  -- The vault is neither the escrow nor the buyer's account, so the refund leaves it alone.
  obtain ⟨tv, htv, hordv, hnv⟩ := x.vault_holds
  have hvb : x.vault ≠ x.buyerToken := by
    rintro he
    obtain ⟨n, tb, htb, hordb, -⟩ := x.buyer_holds
    obtain ⟨m, hm⟩ := Tokens.move_some x.escrow x.buyerToken x.balance _ htb
    rw [State.tokens_pay, he, hm, Option.some.injEq] at htv
    subst htv
    have howner : x.job.buyer = x.key := hordb.owner_eq.symm.trans hordv.owner_eq
    exact (hv _ _ hjob).1 (howner ▸ hf.pda x.bond_at)
  have hve : x.vault ≠ x.escrow := by
    rintro he
    obtain ⟨te, hte, horde, -⟩ := x.escrow_holds
    obtain ⟨m, hm⟩ := Tokens.move_some x.escrow x.buyerToken x.balance _ hte
    rw [State.tokens_pay, he, hm, Option.some.injEq] at htv
    subst htv
    exact hkey (horde.owner_eq.symm.trans hordv.owner_eq)
  have hvault : s.tokens.balance x.vault = x.vaultBalance := by
    rw [State.tokens_pay, Tokens.move_of_ne hve hvb] at htv
    rw [Tokens.balance_of_some htv, hnv]
  refine .slashed x.escrow_ata x.buyer_ata x.bond_at ⟨x.provider_eq, x.mint_eq⟩ x.vault_ata ?_ ?_ ?_
  · rw [hbal]; exact x.principal_le
  · rw [hvault]; exact x.slashed_le_vault
  · rw [ht, hbal]
    have hmove : s.tokens.Rebalanced _ x.tokens.tokens :=
      (x.rebalanced hf hv).trans Tokens.rebalanced_move
    refine hmove.congr fun k t _ => ?_
    have hne := x.escrow_ne_buyerToken hf hv
    by_cases hk : k = x.escrow
    · subst hk
      simp [hve.symm, hne]
    · by_cases hkv : k = x.vault
      · subst hkv
        simp [hk, hvb]
      · simp only [hk, hkv, if_false]
        split_ifs <;> omega

end Effects

theorem isPaid_of_holdsEscrow {st : JobState} (h : st.holdsEscrow = true) : st.isPaid = false := by
  cases st <;> first | rfl | cases h

theorem job_at_put_bond {k : Pubkey} {b b' : ProviderBondAccount}
    (hb : s.records k = some (.bond b)) (hj : s.records a = some (.job j)) :
    (s.put k (.bond b')).records a = some (.job j) := by
  have hak : a ≠ k := fun he => by
    rw [he] at hj
    cases hb.symm.trans hj
  rw [State.records_put_of_ne hak, hj]

theorem eq_of_paid {k : Pubkey} {x x' : JobAccount} (hk : s.records k = some (.job x))
    (hj : s.records a = some (.job j)) (hheld : j.state.holdsEscrow = true)
    (hj' : (s.put k (.job x')).records a = some (.job j')) (hpaid : j'.state.isPaid = true) :
    a = k ∧ j = x ∧ j' = x' := by
  by_cases ha : a = k
  · subst ha
    rw [State.records_put_self, Option.some.injEq, Record.job.injEq] at hj'
    rw [hk, Option.some.injEq, Record.job.injEq] at hj
    exact ⟨rfl, hj.symm, hj'.symm⟩
  · rw [State.records_put_of_ne ha, hj, Option.some.injEq, Record.job.injEq] at hj'
    subst hj'
    rw [isPaid_of_holdsEscrow hheld] at hpaid
    cases hpaid

/-- How a step pays the job at an address out, and in which state it leaves it. -/
inductive Payout (P : Platform) (s : State) :
    Instruction → State → Pubkey → JobAccount → JobState → Prop
  | settled {ix : Instruction} (by_instruction : ix = .acceptWork ∨ ix = .resolveTimeoutSettle)
      (x : Settlement P s) (submitted : x.job.state = .submitted) :
      Payout P s ix x.result x.jobKey x.job .settled
  | settledChallenged {k : Pubkey} {c : ChallengeAccount}
      (challenge_at : s.records k = some (.challenge c)) (x : Settlement P (s.drop k))
      (challenge_job : c.job = x.jobKey) :
      Payout P s .resolveTimeoutSettle x.result x.jobKey x.job .settled
  | refunded {ix : Instruction}
      (by_instruction : ix = .resolveTimeoutRefund ∨ ix = .expireUnaccepted) (x : Refund P s)
      (state : x.job.state = .funded ∨ x.job.state = .accepted) (unlocked : x.job.lockedBond = 0) :
      Payout P s ix x.result x.jobKey x.job .refunded
  | refundedWith {ix : Instruction}
      (by_instruction : ix = .resolveTimeoutRefund ∨ ix = .expireUnaccepted) (x : Refund P s)
      (state : x.job.state = .funded ∨ x.job.state = .accepted) (y : JobBond P x) :
      Payout P s ix (x.resultWith y) x.jobKey x.job .refunded
  | slashed {k : Pubkey} {c : ChallengeAccount}
      (challenge_at : s.records k = some (.challenge c)) (x : Slashing P s)
      (challenge_job : c.job = x.jobKey) :
      Payout P s .slashBond (x.result.drop k) x.jobKey x.job .slashed

theorem Step.paid (hs : Step P now s ix s') (hj : s.records a = some (.job j))
    (hheld : j.state.holdsEscrow = true) (hj' : s'.records a = some (.job j'))
    (hpaid : j'.state.isPaid = true) : Payout P s ix s' a j j'.state := by
  have hpays : pays ix = true := by
    rcases hs.evolved a with he | he
    · rw [hj, hj', Option.some.injEq, Record.job.injEq] at he
      rw [he, isPaid_of_holdsEscrow hheld] at hpaid
      cases hpaid
    · rw [hj, hj'] at he
      cases he with
      | jobPaid pays => exact pays
      | _ => cases hpaid
  cases hs with
  | acceptWork x submitted =>
    obtain ⟨rfl, rfl, rfl⟩ := eq_of_paid (job_at_put_bond (s := x.tokens) x.bond_at x.job_at)
      (job_at_put_bond (s := x.tokens) x.bond_at hj) hheld hj' hpaid
    exact .settled (Or.inl rfl) x submitted
  | settleSubmitted x submitted =>
    obtain ⟨rfl, rfl, rfl⟩ := eq_of_paid (job_at_put_bond (s := x.tokens) x.bond_at x.job_at)
      (job_at_put_bond (s := x.tokens) x.bond_at hj) hheld hj' hpaid
    exact .settled (Or.inr rfl) x submitted
  | @settleChallenged k c challenge_at x _ challenge_job =>
    have hak : a ≠ k := fun he => by
      rw [he] at hj
      cases challenge_at.symm.trans hj
    have hj₁ : (s.drop k).records a = some (.job j) := by rw [State.records_drop_of_ne hak, hj]
    obtain ⟨rfl, rfl, rfl⟩ := eq_of_paid (job_at_put_bond (s := x.tokens) x.bond_at x.job_at)
      (job_at_put_bond (s := x.tokens) x.bond_at hj₁) hheld hj' hpaid
    exact .settledChallenged challenge_at x challenge_job
  | refund refunds x due unlocked =>
    obtain ⟨rfl, rfl, rfl⟩ := eq_of_paid (s := x.tokens) x.job_at hj hheld hj' hpaid
    exact .refunded refunds x (due.imp And.left And.left) unlocked
  | refundWith refunds x due y =>
    obtain ⟨rfl, rfl, rfl⟩ := eq_of_paid (job_at_put_bond (s := x.tokens) y.bond_at x.job_at)
      (job_at_put_bond (s := x.tokens) y.bond_at hj) hheld hj' hpaid
    exact .refundedWith refunds x (due.imp And.left And.left) y
  | slashBond challenge_at x _ challenge_job =>
    obtain ⟨-, hj'⟩ := State.of_records_drop hj'
    obtain ⟨rfl, rfl, rfl⟩ := eq_of_paid (job_at_put_bond (s := x.tokens) x.bond_at x.job_at)
      (job_at_put_bond (s := x.tokens) x.bond_at hj) hheld hj' hpaid
    exact .slashed challenge_at x challenge_job
  | _ => cases hpays

theorem Payout.effect {st : JobState} (h : Payout P s ix s' a j st) (hf : Found P s)
    (hv : AllValid P s) : PayoutEffect P s s' a j ix st := by
  cases h with
  | settled by_instruction x => exact x.effect hf hv rfl by_instruction
  | settledChallenged _ x => exact x.effect hf.drop hv.drop rfl (Or.inr rfl)
  | refunded by_instruction x => exact x.effect hf hv by_instruction rfl
  | refundedWith by_instruction x => exact x.effect hf hv by_instruction rfl
  | slashed _ x => exact x.effect hf hv rfl

/-- A step that pays a job out has exactly the effect of its payout. -/
theorem Step.payout (hf : Found P s) (hv : AllValid P s) (hs : Step P now s ix s')
    (hj : s.records a = some (.job j)) (hheld : j.state.holdsEscrow = true)
    (hj' : s'.records a = some (.job j')) (hpaid : j'.state.isPaid = true) :
    PayoutEffect P s s' a j ix j'.state :=
  (hs.paid hj hheld hj' hpaid).effect hf hv

/-- Whatever an address of the program secures stays secured, unless it is a bond or a job that
is paid out. -/
theorem Step.secured (hs : Step P now s ix s') (ha : P.Pda a) :
    (∀ k m n, s.tokens.Secured k m a n → s'.tokens.Secured k m a n) ∨
      (∃ b, s.records a = some (.bond b)) ∨
      ∃ j, s'.records a = some (.job j) ∧ j.state.isPaid = true := by
  have hwallet : ∀ {w : Pubkey}, ¬ P.Pda w → w ≠ a := fun hw he => hw (he ▸ ha)
  have hrefund : ∀ {s : State} (x : Refund P s), x.jobKey ≠ a → ∀ k m n,
      s.tokens.Secured k m a n → x.tokens.tokens.Secured k m a n := by
    intro s x hne k m n h
    obtain ⟨t, ht, ho, -⟩ := x.escrow_holds
    exact h.move_of_ne ht (by rwa [ho.owner_eq])
  have hsettle : ∀ {s : State} (x : Settlement P s), (∀ k m n, s.tokens.Secured k m a n →
      x.result.tokens.Secured k m a n) ∨ (∃ b, s.records a = some (.bond b)) ∨
      ∃ j, x.result.records a = some (.job j) ∧ j.state.isPaid = true := by
    intro s x
    by_cases he : x.jobKey = a
    · exact Or.inr (Or.inr ⟨_, by rw [← he]; exact State.records_put_self, rfl⟩)
    · refine Or.inl fun k m n h => ?_
      obtain ⟨t, ht, ho, -⟩ := x.escrow_holds
      obtain ⟨u, hu⟩ := Tokens.move_some x.escrow x.buyerToken
        (x.balance - x.job.amount.toNat) _ ht
      exact (h.move_of_ne ht (by rwa [ho.owner_eq])).move_of_ne hu (by rwa [ho.owner_eq])
  cases hs with
  | depositBond _ _ signer _ _ source_holds =>
    obtain ⟨t, ht, ho, -⟩ := source_holds
    exact Or.inl fun k m n h => h.move_of_ne ht (by rw [ho.owner_eq]; exact hwallet signer)
  | @withdrawBond k _ _ b _ _ _ _ bond_at _ _ vault_holds =>
    by_cases he : k = a
    · exact Or.inr (Or.inl ⟨b, he ▸ bond_at⟩)
    · obtain ⟨t, ht, ho, -⟩ := vault_holds
      exact Or.inl fun k m n h => h.move_of_ne ht (by rwa [ho.owner_eq])
  | fundJob _ _ _ signer _ _ _ source_holds =>
    obtain ⟨t, ht, ho, -⟩ := source_holds
    exact Or.inl fun k m n h => h.move_of_ne ht (by rw [ho.owner_eq]; exact hwallet signer)
  | acceptWork x => exact hsettle x
  | settleSubmitted x => exact hsettle x
  | settleChallenged _ x =>
    rcases hsettle x with h | ⟨b, hb⟩ | h
    · exact Or.inl h
    · exact Or.inr (Or.inl ⟨b, (State.of_records_drop hb).2⟩)
    · exact Or.inr (Or.inr h)
  | refund _ x =>
    by_cases he : x.jobKey = a
    · exact Or.inr (Or.inr ⟨_, by rw [← he]; exact State.records_put_self, rfl⟩)
    · exact Or.inl (hrefund x he)
  | refundWith _ x =>
    by_cases he : x.jobKey = a
    · exact Or.inr (Or.inr ⟨_, by rw [← he]; exact State.records_put_self, rfl⟩)
    · exact Or.inl (hrefund x he)
  | @slashBond c _ challenge_at x =>
    by_cases he : x.jobKey = a
    · have hac : a ≠ c := fun hc => by
        have hj := x.job_at
        rw [he, hc] at hj
        cases challenge_at.symm.trans hj
      refine Or.inr (Or.inr ⟨released x.job .slashed, ?_, rfl⟩)
      rw [State.records_drop_of_ne hac, ← he]
      exact State.records_put_self
    · by_cases hb : x.key = a
      · exact Or.inr (Or.inl ⟨_, hb ▸ x.bond_at⟩)
      · obtain ⟨t, ht, ho, -⟩ := x.vault_holds
        exact Or.inl fun k m n h =>
          (hrefund x.toRefund he k m n h).move_of_ne ht (by rwa [ho.owner_eq])
  | closeJobWith _ _ escrow_at empty =>
    exact Or.inl fun k m n h => h.remove_empty escrow_at empty
  | _ => exact Or.inl fun _ _ _ h => h

end AgentBond.Protocol
