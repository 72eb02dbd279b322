import AgentBond.Protocol.Payout

/-! # Resolutions

What a payout does to the records and to the balances is decided by its job
alone. Two payouts of different jobs therefore commute, whatever bond, vault and
token accounts they share.
-/

namespace AgentBond.Protocol

open Foundation

variable {P : Platform} {s s' s₁ s₂ s₁₂ s₂₁ : State} {now : Int64} {ix : Instruction}
  {a a₁ a₂ k : Pubkey} {j j' j₁ j₂ : JobAccount} {target t₁ t₂ : JobState}

/-- The bond of a resolved job. -/
def bondAfter (j : JobAccount) (target : JobState) (b : ProviderBondAccount) :
    ProviderBondAccount :=
  if target = .slashed then slashedBy j b else unlockedBy j b

/-- The record at an address once the job at `a` is resolved. -/
def resolveRecord (a : Pubkey) (j : JobAccount) (target : JobState) (k : Pubkey) :
    Option Record → Option Record
  | some (.job x) => some (.job (if k = a then released j target else x))
  | some (.bond b) => some (.bond
      (if b.provider = j.provider ∧ b.mint = j.mint then bondAfter j target b else b))
  | some (.challenge c) => if c.job = a then none else some (.challenge c)
  | r => r

/-- The vault of the bond of a job. -/
def vaultOf (P : Platform) (j : JobAccount) : Option Pubkey :=
  (P.tryFindProgramAddress (bondSeedParts j.provider j.mint) P.programId).bind fun (k, _) =>
    P.ata k j.mint

/-- What the resolution takes from an account besides the escrow. -/
def taken (P : Platform) (j : JobAccount) (target : JobState) (k : Pubkey) : ℕ :=
  if target = .slashed ∧ vaultOf P j = some k then j.lockedBond.toNat else 0

/-- What the resolution gives to an account when the escrow holds `n`. -/
def given (P : Platform) (j : JobAccount) (target : JobState) (n : ℕ) (k : Pubkey) : ℕ :=
  match target with
  | .settled => (if P.ata j.provider j.mint = some k then j.amount.toNat else 0) +
      if P.ata j.buyer j.mint = some k then n - j.amount.toNat else 0
  | .slashed => if P.ata j.buyer j.mint = some k then n + j.lockedBond.toNat else 0
  | _ => if P.ata j.buyer j.mint = some k then n else 0

/-- What the escrow of a job holds. -/
def escrowBalance (P : Platform) (a : Pubkey) (j : JobAccount) (tok : Tokens) : ℕ :=
  (P.ata a j.mint).elim 0 tok.balance

/-- The token accounts once the job at `a` is resolved. -/
def payout (P : Platform) (a : Pubkey) (j : JobAccount) (target : JobState) (tok : Tokens) :
    Tokens :=
  fun k => (tok k).map fun t => { t with
    amount := if P.ata a j.mint = some k then 0
      else t.amount - taken P j target k + given P j target (escrowBalance P a j tok) k }

/-- The resolution takes from the job's escrow and from a vault, and gives to wallets. -/
structure Owned (P : Platform) (s : State) (a : Pubkey) (j : JobAccount) (target : JobState) :
    Prop where
  job_at : s.records a = some (.job j)
  of_escrow : ∀ {k t}, s.tokens k = some t → P.ata a j.mint = some k → t.owner = a
  of_taken : ∀ {k t}, s.tokens k = some t → taken P j target k ≠ 0 →
    ∃ b, s.records t.owner = some (.bond b)
  of_given : ∀ {k t n}, s.tokens k = some t → given P j target n k ≠ 0 → ¬ P.Pda t.owner

/-- What a resolution of the job at `a` does. -/
structure Resolved (P : Platform) (s s' : State) (a : Pubkey) (j : JobAccount)
    (target : JobState) : Prop where
  records : ∀ k, s'.records k = resolveRecord a j target k (s.records k)
  tokens : s'.tokens = payout P a j target s.tokens
  mints : s'.mints = s.mints
  owned : Owned P s a j target

section Commutation

theorem payout_apply {tok : Tokens} : payout P a j target tok k = (tok k).map fun t => { t with
    amount := if P.ata a j.mint = some k then 0
      else t.amount - taken P j target k + given P j target (escrowBalance P a j tok) k } :=
  rfl

theorem bondAfter_comm (b : ProviderBondAccount) :
    bondAfter j₁ t₁ (bondAfter j₂ t₂ b) = bondAfter j₂ t₂ (bondAfter j₁ t₁ b) := by
  have hsub : ∀ x y z : UInt64, x - y - z = x - z - y := by
    intro x y z
    grind
  simp only [bondAfter, slashedBy, unlockedBy]
  split_ifs <;> simp only [hsub]

@[simp] theorem provider_bondAfter {b : ProviderBondAccount} :
    (bondAfter j target b).provider = b.provider := by
  unfold bondAfter
  split <;> rfl

@[simp] theorem mint_bondAfter {b : ProviderBondAccount} :
    (bondAfter j target b).mint = b.mint := by
  unfold bondAfter
  split <;> rfl

theorem resolveRecord_comm (hne : a₁ ≠ a₂) (k : Pubkey) (o : Option Record) :
    resolveRecord a₂ j₂ t₂ k (resolveRecord a₁ j₁ t₁ k o) =
      resolveRecord a₁ j₁ t₁ k (resolveRecord a₂ j₂ t₂ k o) := by
  cases o with
  | none => rfl
  | some r =>
    cases r with
    | config c => rfl
    | provider p => rfl
    | job x =>
      simp only [resolveRecord]
      split_ifs with h₂ h₁
      · exact absurd (h₁.symm.trans h₂) hne
      · rfl
      · rfl
      · rfl
    | bond b =>
      simp only [resolveRecord]
      split_ifs <;> simp_all [bondAfter_comm]
    | challenge c =>
      simp only [resolveRecord]
      by_cases h₁ : c.job = a₁
      · have h₂ : c.job ≠ a₂ := fun he => hne (h₁.symm.trans he)
        simp only [if_pos h₁, if_neg h₂]
      · by_cases h₂ : c.job = a₂
        · simp only [if_neg h₁, if_pos h₂]
        · simp only [if_neg h₁, if_neg h₂]

/-- Where one resolution empties the escrow, another neither takes nor gives. -/
theorem Owned.apart (h₁ : Owned P s a₁ j₁ t₁) (h₂ : Owned P s a₂ j₂ t₂) (hf : Found P s)
    (hne : a₁ ≠ a₂) {t : TokenAccount} (ht : s.tokens k = some t)
    (he : P.ata a₁ j₁.mint = some k) :
    P.ata a₂ j₂.mint ≠ some k ∧ taken P j₂ t₂ k = 0 ∧ ∀ n, given P j₂ t₂ n k = 0 := by
  have ho : t.owner = a₁ := h₁.of_escrow ht he
  refine ⟨fun he₂ => hne (ho.symm.trans (h₂.of_escrow ht he₂)), ?_, fun n => ?_⟩
  · by_contra hn
    obtain ⟨b, hb⟩ := h₂.of_taken ht hn
    rw [ho] at hb
    cases h₁.job_at.symm.trans hb
  · by_contra hn
    exact h₂.of_given ht hn (ho ▸ hf.pda h₁.job_at)

theorem Owned.given_of_taken (h₁ : Owned P s a₁ j₁ t₁) (h₂ : Owned P s a₂ j₂ t₂) (hf : Found P s)
    {t : TokenAccount} (ht : s.tokens k = some t) (hn : taken P j₁ t₁ k ≠ 0) (n : ℕ) :
    given P j₂ t₂ n k = 0 := by
  obtain ⟨b, hb⟩ := h₁.of_taken ht hn
  by_contra hg
  exact h₂.of_given ht hg (hf.pda hb)

theorem escrowBalance_payout (h₁ : Owned P s a₁ j₁ t₁) (h₂ : Owned P s a₂ j₂ t₂) (hf : Found P s)
    (hne : a₁ ≠ a₂) :
    escrowBalance P a₁ j₁ (payout P a₂ j₂ t₂ s.tokens) = escrowBalance P a₁ j₁ s.tokens := by
  unfold escrowBalance
  cases he : P.ata a₁ j₁.mint with
  | none => rfl
  | some k =>
    simp only [Option.elim_some, Tokens.balance, payout]
    cases ht : s.tokens k with
    | none => rfl
    | some t =>
      obtain ⟨hescrow, htaken, hgiven⟩ := h₁.apart h₂ hf hne ht he
      simp [hescrow, htaken, hgiven]

theorem payout_comm (h₁ : Owned P s a₁ j₁ t₁) (h₂ : Owned P s a₂ j₂ t₂) (hf : Found P s)
    (hne : a₁ ≠ a₂) : payout P a₂ j₂ t₂ (payout P a₁ j₁ t₁ s.tokens) =
      payout P a₁ j₁ t₁ (payout P a₂ j₂ t₂ s.tokens) := by
  funext k
  have hb₁ := escrowBalance_payout h₁ h₂ hf hne
  have hb₂ := escrowBalance_payout h₂ h₁ hf hne.symm
  simp only [payout_apply, hb₁, hb₂]
  cases ht : s.tokens k with
  | none => rfl
  | some t =>
    simp only [Option.map_some, Option.some.injEq, TokenAccount.mk.injEq, true_and, and_true]
    by_cases he₁ : P.ata a₁ j₁.mint = some k
    · obtain ⟨he₂, ht₂, hg₂⟩ := h₁.apart h₂ hf hne ht he₁
      simp [he₁, he₂, ht₂, hg₂]
    · by_cases he₂ : P.ata a₂ j₂.mint = some k
      · obtain ⟨-, ht₁, hg₁⟩ := h₂.apart h₁ hf hne.symm ht he₂
        simp [he₁, he₂, ht₁, hg₁]
      · -- Taking and giving do not meet at one account.
        have hzero : ∀ {a j st a' j' st'}, Owned P s a j st → Owned P s a' j' st' → ∀ n,
            taken P j st k = 0 ∨ given P j' st' n k = 0 := by
          intro a j st a' j' st' h h' n
          by_cases h0 : taken P j st k = 0
          · exact Or.inl h0
          · exact Or.inr (h.given_of_taken h' hf ht h0 n)
        have h12 := hzero h₁ h₂ (escrowBalance P a₂ j₂ s.tokens)
        have h21 := hzero h₂ h₁ (escrowBalance P a₁ j₁ s.tokens)
        simp only [he₁, he₂, if_false]
        omega

/-- Resolving two different jobs in either order ends in the same state. -/
theorem Resolved.comm (h₁ : Resolved P s s₁ a₁ j₁ t₁) (h₂ : Resolved P s s₂ a₂ j₂ t₂)
    (h₁₂ : Resolved P s₁ s₁₂ a₂ j₂ t₂) (h₂₁ : Resolved P s₂ s₂₁ a₁ j₁ t₁) (hf : Found P s)
    (hne : a₁ ≠ a₂) : s₁₂ = s₂₁ := by
  apply State.ext
  · funext k
    rw [h₁₂.records, h₁.records, h₂₁.records, h₂.records, resolveRecord_comm hne]
  · rw [h₁₂.tokens, h₁.tokens, h₂₁.tokens, h₂.tokens, payout_comm h₁.owned h₂.owned hf hne]
  · rw [h₁₂.mints, h₁.mints, h₂₁.mints, h₂.mints]

end Commutation

section Effects

theorem records_of_release (target : JobState) (hf : Found P s) {x : Refund P s} (y : JobBond P x)
    {s' : State} (hs' : s'.records = s.records)
    (hk : ∀ c, s.records k = some (.challenge c) → c.job ≠ x.jobKey) :
    ((s'.put y.key (.bond (bondAfter x.job target y.bond))).put x.jobKey
        (.job (released x.job target))).records k =
      resolveRecord x.jobKey x.job target k (s.records k) := by
  by_cases hj : k = x.jobKey
  · subst hj
    rw [State.records_put_self, x.job_at]
    simp [resolveRecord]
  · rw [State.records_put_of_ne hj]
    by_cases hb : k = y.key
    · subst hb
      rw [State.records_put_self, y.bond_at]
      simp only [resolveRecord, y.provider_eq, y.mint_eq, and_self, if_true]
    · rw [State.records_put_of_ne hb, hs']
      cases hr : s.records k with
      | none => rfl
      | some r =>
        cases r with
        | config c => rfl
        | provider p => rfl
        | job j => simp only [resolveRecord, if_neg hj]
        | challenge c => simp only [resolveRecord, if_neg (hk c hr)]
        | bond b =>
          -- Another bond of the provider in the mint would sit at the same address.
          have hne : ¬ (b.provider = x.job.provider ∧ b.mint = x.job.mint) := fun ⟨hp, hm⟩ =>
            hb (hf.eq_of_seeds hr y.bond_at
              (by rw [Record.seeds, Record.seeds, hp, hm, y.provider_eq, y.mint_eq]))
          simp only [resolveRecord, if_neg hne]

theorem bondAfter_of_unlocked {b : ProviderBondAccount} (h0 : j.lockedBond = 0) :
    bondAfter j target b = b := by
  simp [bondAfter, slashedBy, unlockedBy, h0]

theorem records_of_keep (target : JobState) (x : Refund P s) {s' : State}
    (hs' : s'.records = s.records) (h0 : x.job.lockedBond = 0)
    (hk : ∀ c, s.records k = some (.challenge c) → c.job ≠ x.jobKey) :
    (s'.put x.jobKey (.job (released x.job target))).records k =
      resolveRecord x.jobKey x.job target k (s.records k) := by
  by_cases hj : k = x.jobKey
  · subst hj
    rw [State.records_put_self, x.job_at]
    simp [resolveRecord]
  · rw [State.records_put_of_ne hj, hs']
    cases hr : s.records k with
    | none => rfl
    | some r =>
      cases r with
      | config c => rfl
      | provider p => rfl
      | job j => simp only [resolveRecord, if_neg hj]
      | challenge c => simp only [resolveRecord, if_neg (hk c hr)]
      | bond b => simp only [resolveRecord, bondAfter_of_unlocked h0, ite_self]

theorem Linked.no_challenge (h : Linked s) (hj : s.records a = some (.job j))
    (hstate : j.state ≠ .challenged) {c : ChallengeAccount}
    (hc : s.records k = some (.challenge c)) : c.job ≠ a := by
  rintro rfl
  obtain ⟨j', hj', hchallenged, -⟩ := h.challenge hc
  obtain rfl : j = j' := by simpa using hj.symm.trans hj'
  exact hstate hchallenged

theorem records_drop_challenge (hf : Found P s) {c : ChallengeAccount} {i : Pubkey}
    (hc : s.records i = some (.challenge c)) {c' : ChallengeAccount}
    (hc' : (s.drop i).records k = some (.challenge c')) : c'.job ≠ c.job := by
  intro he
  obtain ⟨hki, hk⟩ := State.of_records_drop hc'
  exact hki (hf.eq_of_seeds hk hc (by rw [Record.seeds, Record.seeds, he]))

theorem Payout.records (h : Payout P s ix s' a j target) (hf : Found P s) (hl : Linked s)
    (k : Pubkey) : s'.records k = resolveRecord a j target k (s.records k) := by
  cases h with
  | settled by_instruction x submitted =>
    exact records_of_release .settled hf x.toJobBond rfl
      fun c hc => hl.no_challenge x.job_at (by rw [submitted]; decide) hc
  | @settledChallenged i c challenge_at x challenge_job =>
    have hdropped := records_of_release (k := k) .settled hf.drop x.toJobBond rfl fun c' hc' =>
      challenge_job ▸ records_drop_challenge hf challenge_at hc'
    refine hdropped.trans ?_
    by_cases hk : k = i
    · subst hk
      rw [State.records_drop_self, challenge_at]
      simp only [resolveRecord, if_pos challenge_job]
    · rw [State.records_drop_of_ne hk]
  | refunded by_instruction x state unlocked =>
    exact records_of_keep .refunded x rfl unlocked
      fun c hc => hl.no_challenge x.job_at (by rcases state with h | h <;> rw [h] <;> decide) hc
  | refundedWith by_instruction x state y =>
    exact records_of_release .refunded hf y rfl
      fun c hc => hl.no_challenge x.job_at (by rcases state with h | h <;> rw [h] <;> decide) hc
  | @slashed i c challenge_at x challenge_job =>
    by_cases hk : k = i
    · subst hk
      rw [State.records_drop_self, challenge_at]
      simp only [resolveRecord, if_pos challenge_job]
    · rw [State.records_drop_of_ne hk]
      refine records_of_release .slashed hf x.toJobBond rfl
        fun c' hc' => ?_
      have hdropped : (s.drop i).records k = some (.challenge c') := by
        rw [State.records_drop_of_ne hk]
        exact hc'
      exact challenge_job ▸ records_drop_challenge hf challenge_at hdropped

theorem JobBond.vaultOf_eq (hf : Found P s) {x : Refund P s} (y : JobBond P x) :
    vaultOf P x.job = P.ata y.key x.job.mint := by
  have hfind := hf y.key _ y.bond_at
  rw [Record.seeds, y.provider_eq, y.mint_eq] at hfind
  simp only [vaultOf, hfind, Option.bind_some]

theorem Refund.owner_of_escrow (x : Refund P s) {t : TokenAccount} (ht : s.tokens k = some t)
    (he : P.ata x.jobKey x.job.mint = some k) : t.owner = x.jobKey := by
  obtain rfl := Option.some.inj (x.escrow_ata.symm.trans he)
  obtain ⟨t', ht', hord, -⟩ := x.escrow_holds
  obtain rfl := Option.some.inj (ht.symm.trans ht')
  exact hord.owner_eq

theorem Refund.owner_of_buyerToken (x : Refund P s) {t : TokenAccount} (ht : s.tokens k = some t)
    (hb : P.ata x.job.buyer x.job.mint = some k) : t.owner = x.job.buyer := by
  obtain rfl := Option.some.inj (x.buyer_ata.symm.trans hb)
  obtain ⟨n, t', ht', hord, -⟩ := x.buyer_holds
  obtain rfl := Option.some.inj (ht.symm.trans ht')
  exact hord.owner_eq

theorem taken_of_ne (h : target ≠ .slashed) : taken P j target k = 0 :=
  if_neg fun hs => h hs.1

theorem Refund.owned (x : Refund P s) (hv : AllValid P s) :
    Owned P s x.jobKey x.job .refunded where
  job_at := x.job_at
  of_escrow := x.owner_of_escrow
  of_taken := fun _ hn => absurd (taken_of_ne (by decide)) hn
  of_given := by
    intro k t n ht hn
    have hb : P.ata x.job.buyer x.job.mint = some k := by
      by_contra hb
      exact hn (if_neg hb)
    rw [x.owner_of_buyerToken ht hb]
    exact (hv _ _ x.job_at).1

theorem Settlement.owned (x : Settlement P s) (hv : AllValid P s) :
    Owned P s x.jobKey x.job .settled where
  job_at := x.job_at
  of_escrow := x.owner_of_escrow
  of_taken := fun _ hn => absurd (taken_of_ne (by decide)) hn
  of_given := by
    intro k t n ht hn
    by_cases hb : P.ata x.job.buyer x.job.mint = some k
    · rw [x.owner_of_buyerToken ht hb]
      exact (hv _ _ x.job_at).1
    · have hp : P.ata x.job.provider x.job.mint = some k := by
        by_contra hp
        exact hn (by simp only [given, if_neg hp, if_neg hb])
      obtain rfl := Option.some.inj (x.provider_ata.symm.trans hp)
      obtain ⟨m, t', ht', hord, -⟩ := x.provider_holds
      obtain rfl := Option.some.inj (ht.symm.trans ht')
      rw [hord.owner_eq]
      exact (hv _ _ x.job_at).2.1

theorem Slashing.owner_of_vault (x : Slashing P s) {t : TokenAccount}
    (ht : s.tokens x.vault = some t) : t.owner = x.key := by
  obtain ⟨t', ht', hord, -⟩ := x.vault_holds
  obtain ⟨n, hn⟩ := Tokens.move_some x.escrow x.buyerToken x.balance _ ht
  rw [State.tokens_pay, hn, Option.some.injEq] at ht'
  subst ht'
  exact hord.owner_eq

theorem Slashing.owned (x : Slashing P s) (hf : Found P s) (hv : AllValid P s) :
    Owned P s x.jobKey x.job .slashed where
  job_at := x.job_at
  of_escrow := x.owner_of_escrow
  of_taken := by
    intro k t ht hn
    have hvault : vaultOf P x.job = some k := by
      by_contra hvault
      exact hn (if_neg fun hs => hvault hs.2)
    rw [x.toJobBond.vaultOf_eq hf, x.vault_ata, Option.some.injEq] at hvault
    subst hvault
    exact ⟨x.bond, by rw [x.owner_of_vault ht]; exact x.bond_at⟩
  of_given := by
    intro k t n ht hn
    have hb : P.ata x.job.buyer x.job.mint = some k := by
      by_contra hb
      exact hn (if_neg hb)
    rw [x.owner_of_buyerToken ht hb]
    exact (hv _ _ x.job_at).1

theorem Payout.owned (h : Payout P s ix s' a j target) (hf : Found P s) (hv : AllValid P s) :
    Owned P s a j target := by
  cases h with
  | settled by_instruction x => exact x.owned hv
  | settledChallenged challenge_at x =>
    have howned := x.owned hv.drop
    exact ⟨(State.of_records_drop howned.job_at).2, howned.of_escrow,
      fun ht hn => absurd (taken_of_ne (by decide)) hn, howned.of_given⟩
  | refunded by_instruction x => exact x.owned hv
  | refundedWith by_instruction x => exact x.owned hv
  | slashed challenge_at x => exact x.owned hf hv

theorem PayoutEffect.tokens_eq (h : PayoutEffect P s s' a j ix target)
    (ho : Owned P s a j target) (hf : Found P s) (hl : target = .slashed → j.lockedBond ≠ 0) :
    s'.tokens = payout P a j target s.tokens := by
  funext k
  cases h with
  | settled _ escrow_ata provider_ata buyer_ata _ rebalanced =>
    rw [rebalanced k, payout_apply]
    simp only [escrowBalance, escrow_ata, provider_ata, buyer_ata, given,
      taken_of_ne (show JobState.settled ≠ .slashed by decide), Option.elim_some,
      Option.some.injEq, Nat.sub_zero, eq_comm (a := k), Nat.add_assoc]
  | refunded _ escrow_ata buyer_ata _ rebalanced =>
    rw [rebalanced k, payout_apply]
    simp only [escrowBalance, escrow_ata, buyer_ata, given,
      taken_of_ne (show JobState.refunded ≠ .slashed by decide), Option.elim_some,
      Option.some.injEq, Nat.sub_zero, eq_comm (a := k)]
  | @slashed bondKey escrow vault buyerToken b escrow_ata buyer_ata bond_at bond_of vault_ata _ _
      rebalanced =>
    have hvault : vaultOf P j = some vault := by
      have hfind := hf bondKey _ bond_at
      rw [Record.seeds, bond_of.1, bond_of.2] at hfind
      simp only [vaultOf, hfind, Option.bind_some, vault_ata]
    rw [rebalanced k, payout_apply]
    cases ht : s.tokens k with
    | none => rfl
    | some t =>
      rw [Option.map_some, Option.map_some, Option.some.injEq, TokenAccount.mk.injEq]
      refine ⟨rfl, rfl, ?_, rfl, rfl⟩
      beta_reduce
      by_cases he : k = escrow
      · simp only [he, escrow_ata, if_true]
      · have he' : P.ata a j.mint ≠ some k := fun h =>
          he (Option.some.inj (h.symm.trans escrow_ata))
        rw [if_neg he, if_neg he']
        by_cases hk : k = vault
        · -- Nothing is given to the vault.
          have htaken : taken P j .slashed k = j.lockedBond.toNat :=
            if_pos ⟨rfl, hk ▸ hvault⟩
          have hn : taken P j .slashed k ≠ 0 := by
            rw [htaken]
            exact fun h0 => hl rfl (UInt64.toNat_inj.mp h0)
          rw [if_pos hk, htaken, ho.given_of_taken ho hf ht hn, Nat.add_zero]
        · have htaken : taken P j .slashed k = 0 := by
            refine if_neg fun hs => hk ?_
            exact Option.some.inj (hs.2.symm.trans hvault)
          rw [if_neg hk, htaken, Nat.sub_zero]
          simp only [escrowBalance, escrow_ata, buyer_ata, given, Option.elim_some,
            Option.some.injEq, eq_comm (a := k)]

/-- A step that pays a job out resolves it. -/
theorem Step.resolved (h : Inv P s) (hs : Step P now s ix s') (hj : s.records a = some (.job j))
    (hheld : j.state.holdsEscrow = true) (hj' : s'.records a = some (.job j'))
    (hpaid : j'.state.isPaid = true) : Resolved P s s' a j j'.state := by
  have hpayout := hs.paid hj hheld hj' hpaid
  have howned := hpayout.owned h.found h.valid
  refine ⟨hpayout.records h.found h.linked, ?_, ?_, howned⟩
  · refine (hpayout.effect h.found h.valid).tokens_eq howned h.found fun hslashed => ?_
    rw [hslashed] at hpayout
    cases hpayout with
    | slashed _ x => exact x.slashed_ne
  · generalize j'.state = target at hpayout
    cases hpayout <;> rfl

end Effects

end AgentBond.Protocol
