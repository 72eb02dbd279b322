import AgentBond.Chain.Payouts
import AgentBond.Chain.Progress

/-! # Settlement by timeout

Once its deadline has passed, anybody can settle a submitted or challenged job
with the accounts derived from it. The settlement goes through exactly when the
buyer's token account is an ordinary one and the escrow is not frozen.
-/

namespace AgentBond

open Foundation Protocol

section Settlements

variable {P : Platform} {ctx : Ctx} {L L' : Ledger} {a bond escrow providerToken buyerToken
  challenge : Pubkey} {j : JobAccount} {b : ProviderBondAccount}

/-- The token account at an address is one the program accepts. -/
def OrdinaryAt (L : Ledger) (k mint owner : Pubkey) : Prop :=
  ∃ t, L.tokenAt k = some t ∧ t.Ordinary mint owner

def ThawedAt (L : Ledger) (k : Pubkey) : Prop := ∃ t, L.tokenAt k = some t ∧ t.frozen = false

/-- A settlement sent with the accounts derived from the job. -/
structure SettleCall (P : Platform) (ctx : Ctx) (a : Pubkey) (j : JobAccount)
    (bond escrow providerToken buyerToken challenge : Pubkey) : Prop where
  accounts : ∃ payer, ctx.accounts =
    [payer, .new a false, .new bond false, .new escrow false, .new providerToken false,
      .new buyerToken false, .new j.buyer false, .newReadonly j.mint false,
      .newReadonly j.tokenProgram false, .new challenge false]
  bond_find : ∃ bump,
    P.tryFindProgramAddress (bondSeedParts j.provider j.mint) P.programId = some (bond, bump)
  escrow_ata : P.ata a j.mint = some escrow
  provider_ata : P.ata j.provider j.mint = some providerToken
  buyer_ata : P.ata j.buyer j.mint = some buyerToken
  challenge_find : ∃ bump,
    P.tryFindProgramAddress (challengeSeedParts a) P.programId = some (challenge, bump)

/-- The deadline that settles the job has passed. -/
def SettlementDue (P : Platform) (L : Ledger) (now : Int64) (j : JobAccount)
    (challenge : Pubkey) : Prop :=
  j.state = .submitted ∧ j.autoSettleDeadline ≤ now ∨
    j.state = .challenged ∧
      ∃ c, L.recordAt P.programId challenge = some (.challenge c) ∧ c.deadline ≤ now

/-- What a settlement needs of the token accounts, the mint and the bond. -/
structure Settleable (P : Platform) (L : Ledger) (a : Pubkey) (j : JobAccount)
    (bond : Pubkey) (b : ProviderBondAccount) (escrow providerToken buyerToken : Pubkey) :
    Prop where
  job_at : L.recordAt P.programId a = some (.job j)
  job_address : P.addressOf (.job j) = some a
  bond_at : L.recordAt P.programId bond = some (.bond b)
  bond_address : P.addressOf (.bond b) = some bond
  bond_of : b.provider = j.provider ∧ b.mint = j.mint
  mint_set : j.mint ≠ zeroKey
  mint_at : ∃ m, L.mintAt j.mint = some m ∧ m.isInitialized = true ∧ m.decimals = j.mintDecimals
  escrow_at : ∃ t, L.tokenAt escrow = some t ∧ t.Ordinary j.mint a ∧ j.amount.toNat ≤ t.amount
  provider_at : OrdinaryAt L providerToken j.mint j.provider
  buyer_at : OrdinaryAt L buyerToken j.mint j.buyer
  escrow_ne : escrow ≠ providerToken ∧ escrow ≠ buyerToken
  transition : validateTransition j.state .settled = .ok ()
  locked_le : j.lockedBond ≤ b.locked
  covered : b.locked ≤ b.deposited

theorem Settleable.of_abs {s : State}
    (h : Settleable P L a j bond b escrow providerToken buyerToken)
    (habs : abs P L' = s) (hr : s.records a = L.recordAt P.programId a)
    (hb : s.records bond = L.recordAt P.programId bond) (ht : s.tokens = L.tokenAt)
    (hm : s.mints = L.mintAt) : Settleable P L' a j bond b escrow providerToken buyerToken := by
  subst habs
  simp only [records_abs, tokens_abs, mints_abs] at hr hb ht hm
  exact { h with
    job_at := hr.trans h.job_at
    bond_at := hb.trans h.bond_at
    mint_at := by rw [hm]; exact h.mint_at
    escrow_at := by rw [ht]; exact h.escrow_at
    provider_at := by rw [OrdinaryAt, ht]; exact h.provider_at
    buyer_at := by rw [OrdinaryAt, ht]; exact h.buyer_at }

theorem escrowTransfer_succeeds {n : ℕ} {t td : TokenAccount}
    {job escrow mint destination : AccountMeta} (hw : escrow.isWritable = true)
    (hwd : destination.isWritable = true) (hmint : mint.key = j.mint)
    (hj : L.recordAt P.programId job.key = some (.job j))
    (haddr : P.addressOf (.job j) = some job.key) (hset : j.mint ≠ zeroKey)
    (hm : ∃ m, L.mintAt j.mint = some m ∧ m.isInitialized = true ∧ m.decimals = j.mintDecimals)
    (ht : L.tokenAt escrow.key = some t) (ho : t.Ordinary j.mint job.key) (hle : n ≤ t.amount)
    (htd : L.tokenAt destination.key = some td) (hmd : td.mint = j.mint)
    (hfd : td.frozen = false) :
    ∃ L', transferChecked P L escrow mint destination job n j.mintDecimals
      (some (jobSignerSeeds j.buyer j.provider j.jobNonce j.bump)) = .ok L' := by
  refine transferChecked_succeeds hw hwd (Or.inl haddr) ?_
  rw [hmint]
  refine ⟨hset, hm, ⟨t, ht, ho.mint_eq, ho.owner_eq, ho.thawed, hle⟩, ⟨td, htd, hmd, hfd⟩, ?_⟩
  have howner := Ledger.owner_of_recordAt hj
  exact fun he => P.programId_ne_token (howner.symm.trans he)

/-- A settlement is given the job's mint and may write to the accounts it changes; to the buyer's
token account only when there is a surplus. -/
structure SettleAccess (L : Ledger) (j : JobAccount)
    (job bond escrow providerToken buyerToken mint : AccountMeta) : Prop where
  writes_job : job.isWritable = true
  writes_bond : bond.isWritable = true
  writes_escrow : escrow.isWritable = true
  pays_provider : providerToken.isWritable = true
  pays_buyer : ∀ t, L.tokenAt escrow.key = some t → j.amount.toNat < t.amount →
    buyerToken.isWritable = true
  mint_eq : mint.key = j.mint

theorem settle_succeeds {job bond escrow providerToken buyerToken mint : AccountMeta}
    (h : Settleable P L job.key j bond.key b escrow.key providerToken.key buyerToken.key)
    (hw : SettleAccess L j job bond escrow providerToken buyerToken mint) :
    ∃ L', settle P L j b job bond escrow providerToken buyerToken mint = .ok L' ∧
      L'.recordAt P.programId job.key = some (.job (released j .settled)) := by
  obtain ⟨te, hte, horde, hle⟩ := h.escrow_at
  obtain ⟨tp, htp, hordp⟩ := h.provider_at
  obtain ⟨tb, htb, hordb⟩ := h.buyer_at
  obtain ⟨hnp, hnb⟩ := h.escrow_ne
  -- The surplus goes to the buyer.
  have hsurplus : ∃ L₁, returnSurplusToBuyer P L escrow mint buyerToken job j.amount
      j.mintDecimals (jobSignerSeeds j.buyer j.provider j.jobNonce j.bump) = .ok L₁ := by
    simp only [returnSurplusToBuyer, bind_eq_ok, parseTokenAccount_eq_ok, ensure_eq_ok,
      exists_const]
    by_cases h0 : 0 < te.amount - j.amount.toNat
    · obtain ⟨L₁, h₁⟩ :=
        escrowTransfer_succeeds hw.writes_escrow (hw.pays_buyer te hte (by omega)) hw.mint_eq
        h.job_at h.job_address h.mint_set h.mint_at hte horde (Nat.sub_le ..) htb hordb.mint_eq
        hordb.thawed
      exact ⟨L₁, te, hte, hle, by rw [if_pos h0]; exact h₁⟩
    · exact ⟨L, te, hte, hle, by rw [if_neg h0]⟩
  obtain ⟨L₁, hsurplus⟩ := hsurplus
  have habs₁ := (abs_of_returnSurplusToBuyer (P := P) hsurplus hte horde.undelegated).1
  have hrec₁ : L₁.recordAt P.programId = L.recordAt P.programId := congrArg State.records habs₁
  have hmint₁ : L₁.mintAt = L.mintAt := congrArg State.mints habs₁
  have htok₁ : L₁.tokenAt =
      Tokens.move L.tokenAt escrow.key buyerToken.key (te.amount - j.amount.toNat) :=
    congrArg State.tokens habs₁
  have hte₁ : L₁.tokenAt escrow.key = some { te with amount := j.amount.toNat } := by
    rw [htok₁, Tokens.rebalanced_move, hte, Option.map_some]
    simp only [if_true, hnb, if_false]
    congr 2
    omega
  obtain ⟨n, htp₁⟩ := Tokens.move_some escrow.key buyerToken.key
    (te.amount - j.amount.toNat) _ htp
  rw [← htok₁] at htp₁
  -- The principal goes to the provider.
  obtain ⟨L₂, hprincipal⟩ := escrowTransfer_succeeds (P := P) (L := L₁) (n := j.amount.toNat)
    hw.writes_escrow hw.pays_provider hw.mint_eq
    (by rw [hrec₁]; exact h.job_at) h.job_address h.mint_set
    (by rw [hmint₁]; exact h.mint_at) hte₁
    ⟨horde.mint_eq, horde.owner_eq, horde.thawed, horde.undelegated⟩ le_rfl htp₁ hordp.mint_eq
    hordp.thawed
  have habs₂ := (abs_of_transferChecked (P := P) hprincipal hte₁ horde.undelegated).1
  have hrec₂ : L₂.recordAt P.programId = L.recordAt P.programId :=
    (congrArg State.records habs₂).trans hrec₁
  have htok₂ : L₂.tokenAt =
      Tokens.move L₁.tokenAt escrow.key providerToken.key j.amount.toNat :=
    congrArg State.tokens habs₂
  have hte₂ : L₂.tokenAt escrow.key = some { te with amount := 0 } := by
    rw [htok₂, Tokens.rebalanced_move, hte₁, Option.map_some]
    simp [hnp]
  -- The records are written back.
  have hb₂ : L₂.recordAt P.programId bond.key = some (.bond b) := by rw [hrec₂]; exact h.bond_at
  have hle' : b.locked - j.lockedBond ≤ b.deposited := sub_le_of_le h.covered h.locked_le
  obtain ⟨L₃, hsaveb⟩ := saveBond_succeeds (L := L₂)
    (b := { b with locked := b.locked - j.lockedBond }) hw.writes_bond (len_of_bond hb₂) hle'
  have hsaved : Saved P L₂ bond.key _ L₃ :=
    (saved_of_saveBond hsaveb (Ledger.owner_of_recordAt hb₂)).1
  have hab : job.key ≠ bond.key := fun he => by
    have := h.job_at
    rw [he] at this
    cases this.symm.trans h.bond_at
  have hj₃ : L₃.recordAt P.programId job.key = some (.job j) := by
    rw [← records_abs, hsaved.abs_eq, State.records_put_of_ne hab, records_abs, hrec₂]
    exact h.job_at
  obtain ⟨L₄, hsavej⟩ := saveJob_succeeds (L := L₃)
    (j := released j .settled) hw.writes_job (len_of_job hj₃)
  have hsaved₄ : Saved P L₃ job.key _ L₄ := saved_of_saveJob hsavej (Ledger.owner_of_recordAt hj₃)
  refine ⟨L₄, ?_, by rw [← records_abs, hsaved₄.abs_eq]; exact State.records_put_self⟩
  simp only [settle, bind_eq_ok, tokenAmount_eq_ok, ensure_eq_ok, exists_const, Prod.exists,
    unlockJobBond_eq_ok, transitionJob_eq_ok]
  exact ⟨L₁, hsurplus, L₂, hprincipal, 0, ⟨_, hte₂, rfl⟩, rfl, _, _, ⟨h.locked_le, rfl, rfl⟩, _,
    ⟨h.transition, rfl⟩, L₃, hsaveb, hsavej⟩

theorem Sound.bond_of_find (h : Sound P L) (hj : L.recordAt P.programId a = some (.job j))
    (hlocks : j.state.locksBond = true)
    (hfind : ∃ bump,
      P.tryFindProgramAddress (bondSeedParts j.provider j.mint) P.programId = some (bond, bump)) :
    ∃ b, L.recordAt P.programId bond = some (.bond b) ∧
      b.provider = j.provider ∧ b.mint = j.mint := by
  obtain ⟨k, b, hb, hp, hm, -⟩ :=
    h.inv.balanced.exists_bond h.inv.found hj ((h.inv.valid.locked_iff hj).mpr hlocks)
  obtain ⟨bump, hfind⟩ := hfind
  have hfound := h.inv.found k _ hb
  rw [Record.seeds, hp, hm, hfind, Option.some.injEq, Prod.mk.injEq] at hfound
  obtain ⟨rfl, -⟩ := hfound
  exact ⟨b, hb, hp, hm⟩

theorem Sound.locked_le (h : Sound P L) (hj : L.recordAt P.programId a = some (.job j))
    (hb : L.recordAt P.programId bond = some (.bond b))
    (hof : b.provider = j.provider ∧ b.mint = j.mint) : j.lockedBond ≤ b.locked := by
  by_cases h0 : j.lockedBond = 0
  · rw [h0]
    exact UInt64.le_iff_toNat_le.mpr (Nat.zero_le _)
  · obtain ⟨k, b', hb', hp, hm, hle⟩ := h.inv.balanced.exists_bond h.inv.found hj h0
    have hk : k = bond :=
      h.inv.found.eq_of_seeds hb' hb (by rw [Record.seeds, Record.seeds, hp, hm, hof.1, hof.2])
    subst hk
    obtain rfl : b' = b := by simpa using hb'.symm.trans hb
    exact hle

theorem Sound.escrow_covers (h : Sound P L) (hj : L.recordAt P.programId a = some (.job j))
    (hheld : j.state.holdsEscrow = true) (hescrow : P.ata a j.mint = some escrow)
    (hthawed : ThawedAt L escrow) :
    ∃ t, L.tokenAt escrow = some t ∧ t.Ordinary j.mint a ∧ j.amount.toNat ≤ t.amount := by
  obtain ⟨e, t, he, ht, hm, ho, hd, hamount⟩ := h.escrow hj hheld
  obtain rfl : escrow = e := Option.some.inj (hescrow.symm.trans he)
  obtain ⟨t', ht', hf⟩ := hthawed
  obtain rfl := Option.some.inj (ht.symm.trans ht')
  exact ⟨t, ht, ⟨hm, ho, hf, hd⟩, hamount⟩

/-- In a sound ledger the job's own accounts are in order. -/
theorem Sound.settleable (h : Sound P L) (hj : L.recordAt P.programId a = some (.job j))
    (hstate : j.state = .submitted ∨ j.state = .challenged)
    (hb : L.recordAt P.programId bond = some (.bond b))
    (hof : b.provider = j.provider ∧ b.mint = j.mint) (hescrow : P.ata a j.mint = some escrow)
    (hprovider : OrdinaryAt L providerToken j.mint j.provider)
    (hbuyer : OrdinaryAt L buyerToken j.mint j.buyer) (hthawed : ThawedAt L escrow) :
    Settleable P L a j bond b escrow providerToken buyerToken := by
  have hv := h.inv.valid a _ hj
  have hheld : j.state.holdsEscrow = true := by rcases hstate with hs | hs <;> rw [hs] <;> rfl
  obtain ⟨t, ht, hord, hamount⟩ := h.escrow_covers hj hheld hescrow hthawed
  -- The escrow belongs to an address of the program, the other two to wallets.
  have hne : ∀ {k w}, ¬ P.Pda w → OrdinaryAt L k j.mint w → escrow ≠ k := by
    rintro k w hw ⟨tk, htk, hordk⟩ rfl
    obtain rfl := Option.some.inj (ht.symm.trans htk)
    exact hw (hordk.owner_eq ▸ hord.owner_eq ▸ h.inv.found.pda hj)
  refine ⟨hj, h.inv.found.address hj, hb, h.inv.found.address hb, hof, hv.2.2.2.1,
    h.inv.minted a j hj hheld, ⟨t, ht, hord, hamount⟩, hprovider, hbuyer,
    ⟨hne hv.2.1 hprovider, hne hv.1 hbuyer⟩, ?_, h.locked_le hj hb hof, (h.inv.valid _ _ hb).2⟩
  rcases hstate with hs | hs <;> rw [hs] <;> rfl

/-- The deadline of a settlement has passed, with the challenge that is passed when the job is
challenged. -/
def DeadlineReached (P : Platform) (L : Ledger) (now : Int64) (a : Pubkey) (j : JobAccount)
    (buyer : AccountMeta) (challenge : Option AccountMeta) : Prop :=
  j.state = .submitted ∧ j.autoSettleDeadline ≤ now ∨
    j.state = .challenged ∧ ∃ m c, challenge = some m ∧
      L.recordAt P.programId m.key = some (.challenge c) ∧ c.job = a ∧ c.deadline ≤ now ∧
        m.isWritable = true ∧ buyer.isWritable = true

theorem settleDeadline_succeeds (job : AccountMeta) {buyer : AccountMeta}
    {challenge : Option AccountMeta} (h : Sound P L)
    (hj : L.recordAt P.programId job.key = some (.job j)) (hbuyer : buyer.key = j.buyer)
    (hdue : DeadlineReached P L ctx.now job.key j buyer challenge) :
    ∃ L', settleDeadline P ctx L j job buyer challenge = .ok L' := by
  rcases hdue with ⟨hs, hdue⟩ | ⟨hs, m, c, rfl, hc, hcj, hdue, hw, hwb⟩
  · refine ⟨L, ?_⟩
    simp only [settleDeadline, hs, bind_eq_ok, ensure_eq_ok, exists_const]
    exact ⟨hdue, trivial⟩
  · -- The buyer of the challenge is the job's.
    obtain ⟨j', hj', -, hcb⟩ := h.inv.linked.challenge hc
    rw [hcj, records_abs, hj, Option.some.injEq, Record.job.injEq] at hj'
    subst hj'
    have hne : m.key ≠ buyer.key := fun he =>
      (h.inv.valid _ _ hj).1 (hbuyer ▸ he ▸ h.inv.found.pda hc)
    obtain ⟨L', hclose⟩ := closePdaAccount_succeeds m buyer h.capitalized hw hwb hne
    refine ⟨L', ?_⟩
    simp only [settleDeadline, hs, bind_eq_ok, okOr_eq_ok, loadValidatedChallenge_eq_ok,
      requireWritable, ensure_eq_ok, exists_const]
    exact ⟨m, rfl, c, ⟨hc, h.inv.found.address hc, hcj⟩, h.inv.valid _ _ hc, hdue,
      hbuyer.trans hcb, hw, hclose⟩

/-- The accounts of a settlement are those of the job. -/
structure SettleAccounts (P : Platform) (L : Ledger) (j : JobAccount) (b : ProviderBondAccount)
    (job bond escrow providerToken buyerToken tokenProgram : AccountMeta) : Prop where
  job_at : L.recordAt P.programId job.key = some (.job j)
  bond_at : L.recordAt P.programId bond.key = some (.bond b)
  bond_of : b.provider = j.provider ∧ b.mint = j.mint
  escrow_ata : P.ata job.key j.mint = some escrow.key
  provider_ata : P.ata j.provider j.mint = some providerToken.key
  buyer_ata : P.ata j.buyer j.mint = some buyerToken.key
  escrow_at : ThawedAt L escrow.key
  provider_at : OrdinaryAt L providerToken.key j.mint j.provider
  buyer_at : OrdinaryAt L buyerToken.key j.mint j.buyer
  token_eq : tokenProgram.key = tokenProgramId

theorem SettleAccounts.settleable
    {job bond escrow providerToken buyerToken tokenProgram : AccountMeta}
    (hacc : SettleAccounts P L j b job bond escrow providerToken buyerToken tokenProgram)
    (h : Sound P L) (hstate : j.state = .submitted ∨ j.state = .challenged) :
    Settleable P L job.key j bond.key b escrow.key providerToken.key buyerToken.key :=
  h.settleable hacc.job_at hstate hacc.bond_at hacc.bond_of hacc.escrow_ata hacc.provider_at
    hacc.buyer_at hacc.escrow_at

theorem loadJobBond_eq_ok {m : AccountMeta} : loadJobBond P L m j = .ok b ↔
    L.recordAt P.programId m.key = some (.bond b) ∧ P.addressOf (.bond b) = some m.key ∧
      b.provider = j.provider ∧ b.mint = j.mint := by
  simp only [loadJobBond, bind_eq_ok, loadValidatedBond_eq_ok, ensure_eq_ok, exists_const,
    Except.ok.injEq]
  constructor
  · rintro ⟨_, ⟨hb, haddr⟩, hof, rfl⟩
    exact ⟨hb, haddr, hof⟩
  · rintro ⟨hb, haddr, hof⟩
    exact ⟨b, ⟨hb, haddr⟩, hof, rfl⟩

theorem resolveTimeoutSettle_succeeds_of_deadline {payer job bond escrow providerToken buyerToken
    buyer mint tokenProgram : AccountMeta} {rest : List AccountMeta} {L₁ : Ledger} (h : Sound P L)
    (hctx : ctx.accounts = payer :: job :: bond :: escrow :: providerToken :: buyerToken ::
      buyer :: mint :: tokenProgram :: rest)
    (hacc : SettleAccounts P L j b job bond escrow providerToken buyerToken tokenProgram)
    (hw : SettleAccess L j job bond escrow providerToken buyerToken mint)
    (hbuyer : buyer.key = j.buyer)
    (hdeadline : settleDeadline P ctx L j job buyer rest[0]? = .ok L₁) :
    ∃ L' ev, resolveTimeoutSettle P ctx L = .ok (L', ev) ∧
      L'.recordAt P.programId job.key = some (.job (released j .settled)) := by
  have hview := (abs_of_settleDeadline hdeadline).1
  have hready : Settleable P L job.key j bond.key b escrow.key providerToken.key buyerToken.key :=
    hacc.settleable h (hview.imp And.left And.left)
  have hready₁ : Settleable P L₁ job.key j bond.key b escrow.key providerToken.key
      buyerToken.key ∧ L₁.tokenAt = L.tokenAt := by
    rcases hview with ⟨-, -, rfl⟩ | ⟨-, k, c, hc, -, -, habs⟩
    · exact ⟨hready, rfl⟩
    · have hne : ∀ {i r}, L.recordAt P.programId i = some r → r ≠ .challenge c → i ≠ k := by
        rintro i r hi hr rfl
        exact hr (Option.some.inj (hi.symm.trans hc))
      refine ⟨hready.of_abs habs (State.records_drop_of_ne (hne hready.job_at ?_))
        (State.records_drop_of_ne (hne hready.bond_at ?_)) rfl rfl, congrArg State.tokens habs⟩
      · rintro ⟨⟩
      · rintro ⟨⟩
  obtain ⟨hready₁, htok₁⟩ := hready₁
  have hw₁ : SettleAccess L₁ j job bond escrow providerToken buyerToken mint :=
    { hw with pays_buyer := by rw [htok₁]; exact hw.pays_buyer }
  obtain ⟨te, hte, horde, -⟩ := hready₁.escrow_at
  obtain ⟨tp, htp, hordp⟩ := hready₁.provider_at
  obtain ⟨tb, htb, hordb⟩ := hready₁.buyer_at
  obtain ⟨L₂, hsettle, hj'⟩ := settle_succeeds hready₁ hw₁
  have htoken : j.tokenProgram = tokenProgramId := (h.inv.valid _ _ hacc.job_at).2.2.2.2.1
  refine ⟨L₂, emit ctx .jobSettled job.key j.provider j.amount, ?_, hj'⟩
  simp only [resolveTimeoutSettle, hctx, bind_eq_ok, requireWritable, requireLegacyTokenProgram,
    requireLegacyTokenProgramId_eq_ok, loadValidatedJob_eq_ok, loadJobBond_eq_ok,
    validateMint_eq_ok, validateAta_eq_ok, ensure_eq_ok, exists_const]
  exact ⟨hw.writes_job, hw.writes_bond, hacc.token_eq, j, ⟨hacc.job_at, hready.job_address⟩, L₁,
    hdeadline, hacc.token_eq.trans htoken.symm, ⟨hw.mint_eq, hready₁.mint_at⟩, _,
    ⟨hacc.escrow_ata, te, hte, horde, rfl⟩, _, ⟨hacc.provider_ata, tp, htp, hordp, rfl⟩, _,
    ⟨hacc.buyer_ata, tb, htb, hordb, rfl⟩, hbuyer, b,
    ⟨hready₁.bond_at, hready₁.bond_address, hready₁.bond_of⟩, L₂, hsettle, rfl⟩

/-- The work is accepted as soon as it is submitted. -/
theorem acceptWork_succeeds {buyer job bond escrow providerToken buyerToken mint
    tokenProgram : AccountMeta} {rest : List AccountMeta} (h : Sound P L)
    (hctx : ctx.accounts = buyer :: job :: bond :: escrow :: providerToken :: buyerToken ::
      mint :: tokenProgram :: rest)
    (hacc : SettleAccounts P L j b job bond escrow providerToken buyerToken tokenProgram)
    (hw : SettleAccess L j job bond escrow providerToken buyerToken mint)
    (hsigner : buyer.isSigner = true) (hbuyer : j.buyer = buyer.key)
    (hstate : j.state = .submitted) : ∃ L' ev, acceptWork P ctx L = .ok (L', ev) ∧
      L'.recordAt P.programId job.key = some (.job (released j .settled)) := by
  have hready := hacc.settleable h (Or.inl hstate)
  obtain ⟨te, hte, horde, -⟩ := hready.escrow_at
  obtain ⟨tp, htp, hordp⟩ := hready.provider_at
  obtain ⟨tb, htb, hordb⟩ := hready.buyer_at
  obtain ⟨L₁, hsettle, hj'⟩ := settle_succeeds hready hw
  have htoken : j.tokenProgram = tokenProgramId := (h.inv.valid _ _ hacc.job_at).2.2.2.2.1
  refine ⟨L₁, emit ctx .jobSettled job.key buyer.key j.amount, ?_, hj'⟩
  simp only [acceptWork, hctx, bind_eq_ok, requireSigner, requireWritable,
    requireLegacyTokenProgram, requireLegacyTokenProgramId_eq_ok, loadValidatedJob_eq_ok,
    loadJobBond_eq_ok, validateMint_eq_ok, validateAta_eq_ok, ensure_eq_ok, exists_const]
  rw [← hbuyer]
  exact ⟨hsigner, hw.writes_job, hw.writes_bond, hacc.token_eq, j,
    ⟨hacc.job_at, hready.job_address⟩, rfl, hstate, hacc.token_eq.trans htoken.symm,
    ⟨hw.mint_eq, hready.mint_at⟩, _,
    ⟨hacc.escrow_ata, te, hte, horde, rfl⟩, _, ⟨hacc.provider_ata, tp, htp, hordp, rfl⟩, _,
    ⟨hacc.buyer_ata, tb, htb, hordb, rfl⟩, b,
    ⟨hready.bond_at, hready.bond_address, hready.bond_of⟩, L₁, hsettle, rfl⟩

theorem SettleCall.accounts_of (h : Sound P L) (hj : L.recordAt P.programId a = some (.job j))
    (hcall : SettleCall P ctx a j bond escrow providerToken buyerToken challenge)
    (hstate : j.state = .submitted ∨ j.state = .challenged)
    (hprovider : OrdinaryAt L providerToken j.mint j.provider)
    (hbuyer : OrdinaryAt L buyerToken j.mint j.buyer) (hthawed : ThawedAt L escrow) :
    ∃ b, SettleAccounts P L j b (.new a false) (.new bond false) (.new escrow false)
      (.new providerToken false) (.new buyerToken false) (.newReadonly j.tokenProgram false) := by
  have hlocks : j.state.locksBond = true := by rcases hstate with hs | hs <;> rw [hs] <;> rfl
  obtain ⟨b, hb, hof⟩ := h.bond_of_find hj hlocks hcall.bond_find
  exact ⟨b, hj, hb, hof, hcall.escrow_ata, hcall.provider_ata, hcall.buyer_ata, hthawed, hprovider,
    hbuyer, (h.inv.valid _ _ hj).2.2.2.2.1⟩

theorem resolveTimeoutSettle_succeeds (h : Sound P L)
    (hj : L.recordAt P.programId a = some (.job j))
    (hcall : SettleCall P ctx a j bond escrow providerToken buyerToken challenge)
    (hdue : SettlementDue P L ctx.now j challenge)
    (hprovider : OrdinaryAt L providerToken j.mint j.provider)
    (hbuyer : OrdinaryAt L buyerToken j.mint j.buyer) (hthawed : ThawedAt L escrow) :
    ∃ L' ev, resolveTimeoutSettle P ctx L = .ok (L', ev) := by
  obtain ⟨b, hacc⟩ := hcall.accounts_of h hj (hdue.imp And.left And.left) hprovider hbuyer hthawed
  have hreached : DeadlineReached P L ctx.now a j (.new j.buyer false)
      (some (.new challenge false)) := by
    rcases hdue with ⟨hs, hdue⟩ | ⟨hs, c, hc, hdue⟩
    · exact Or.inl ⟨hs, hdue⟩
    · -- The challenge at the derived address is the one of this job.
      obtain ⟨k, c', hk, hck⟩ := h.inv.linked.challenged hj hs
      obtain ⟨bump, hfind⟩ := hcall.challenge_find
      have hfound := h.inv.found k _ hk
      rw [Record.seeds, hck, hfind, Option.some.injEq, Prod.mk.injEq] at hfound
      obtain ⟨rfl, -⟩ := hfound
      obtain rfl : c = c' := by simpa using hc.symm.trans hk
      exact Or.inr ⟨hs, _, c, rfl, hc, hck, hdue, rfl, rfl⟩
  obtain ⟨L₁, hdeadline⟩ := settleDeadline_succeeds (.new a false) h hj rfl hreached
  obtain ⟨payer, hctx⟩ := hcall.accounts
  obtain ⟨L', ev, hok, -⟩ := resolveTimeoutSettle_succeeds_of_deadline h hctx hacc
    ⟨rfl, rfl, rfl, rfl, fun _ _ _ => rfl, rfl⟩ rfl hdeadline
  exact ⟨L', ev, hok⟩

theorem ordinary_of_resolveTimeoutSettle {ev : ProtocolEvent}
    (hj : L.recordAt P.programId a = some (.job j))
    (hcall : SettleCall P ctx a j bond escrow providerToken buyerToken challenge)
    (hok : resolveTimeoutSettle P ctx L = .ok (L', ev)) :
    OrdinaryAt L buyerToken j.mint j.buyer ∧ ThawedAt L escrow := by
  obtain ⟨payer, hacc⟩ := hcall.accounts
  simp only [resolveTimeoutSettle, hacc, bind_eq_ok, requireWritable, requireLegacyTokenProgram,
    requireLegacyTokenProgramId_eq_ok, loadValidatedJob_eq_ok, validateMint_eq_ok,
    validateAta_eq_ok, ensure_eq_ok, exists_const] at hok
  obtain ⟨-, -, -, j', ⟨hj', -⟩, L₁, hdeadline, -, -, n, ⟨-, te, hte, horde, -⟩, -, -, nb,
    ⟨-, tb, htb, hordb, -⟩, -⟩ := hok
  obtain rfl : j = j' := by simpa using hj.symm.trans hj'
  have htok : L₁.tokenAt = L.tokenAt := by
    rcases (abs_of_settleDeadline hdeadline).1 with ⟨-, -, rfl⟩ | ⟨-, k, c, -, -, -, habs⟩
    · rfl
    · exact congrArg State.tokens habs
  rw [htok] at hte htb
  exact ⟨⟨tb, htb, hordb⟩, te, hte, horde.thawed⟩

/-- In every reached ledger a settlement that is due goes through, paying the provider, exactly
when the buyer's token account is an ordinary one and the escrow is not frozen. -/
theorem settlement_succeeds_iff {data : List UInt8} (h : Reached P L)
    (hj : L.recordAt P.programId a = some (.job j))
    (hcall : SettleCall P ctx a j bond escrow providerToken buyerToken challenge)
    (hdue : SettlementDue P L ctx.now j challenge)
    (hprovider : OrdinaryAt L providerToken j.mint j.provider)
    (hparse : Instruction.parse data = .ok .resolveTimeoutSettle) :
    (∃ L' ev, process P ctx L data = .ok (L', ev) ∧
        PayoutEffect P (abs P L) (abs P L') a j .resolveTimeoutSettle .settled) ↔
      OrdinaryAt L buyerToken j.mint j.buyer ∧ ThawedAt L escrow := by
  have hprocess : process P ctx L data = resolveTimeoutSettle P ctx L := process_of_parse hparse
  rw [hprocess]
  constructor
  · rintro ⟨L', ev, hok, -⟩
    exact ordinary_of_resolveTimeoutSettle hj hcall hok
  · rintro ⟨hbuyer, hthawed⟩
    have hs := Sound.of_reached h
    obtain ⟨L', ev, hok⟩ := resolveTimeoutSettle_succeeds hs hj hcall hdue hprovider hbuyer hthawed
    obtain ⟨hrefined, m, j', hm, hj', hsettled⟩ := refined_of_resolveTimeoutSettle hok
    obtain ⟨payer, hacc⟩ := hcall.accounts
    rw [hacc, List.getElem?_cons_succ, List.getElem?_cons_zero, Option.some.injEq] at hm
    subst hm
    have heffect := hrefined.step.payout hs.inv.found hs.inv.valid hj
      (by rcases hdue with ⟨hs, -⟩ | ⟨hs, -⟩ <;> rw [hs] <;> rfl) hj' (by rw [hsettled]; rfl)
    rw [hsettled] at heffect
    exact ⟨L', ev, hok, heffect⟩

end Settlements

namespace Sample

/-- The settlement of the sample job after its deadline. -/
def timeout : Ctx × List UInt8 :=
  call 400 .resolveTimeoutSettle
    [readonly admin, writable jobKey, writable bondKey, writable escrow, writable providerToken,
      writable buyerToken, writable buyer, readonly mint, readonly tokenProgramId,
      writable challengeKey]

theorem timeout_call : SettleCall platform timeout.1 jobKey submittedJob bondKey escrow
    providerToken buyerToken challengeKey where
  accounts := ⟨readonly admin, rfl⟩
  bond_find := ⟨255, by decide⟩
  escrow_ata := by decide
  provider_ata := by decide
  buyer_ata := by decide
  challenge_find := ⟨255, by decide⟩

/-- The buyer approves a delegate on its own token account. -/
def delegated : Ledger :=
  Reference.setToken submittedLedger buyerToken
    { mint, owner := buyer, amount := 700, delegate := some admin, frozen := false }

theorem views_delegated :
    delegated.Light ∧ delegated.recordAt platform.programId jobKey = some (.job submittedJob) ∧
      delegated.tokenAt providerToken = some (holding provider 380) ∧
      (process platform timeout.1 delegated timeout.2).isOk = false := by
  decide +kernel

theorem reached_delegated : Reached platform delegated := by
  obtain ⟨-, -, -, -, htoken⟩ := views_submittedLedger
  have hother : ThirdParty platform submittedLedger delegated :=
    .setToken htoken (not_pda_of_wallet buyer (by decide))
  exact reached_submittedLedger.tail (.thirdParty hother views_delegated.1.capitalized)

theorem due_timeout {L : Ledger} :
    SettlementDue platform L timeout.1.now submittedJob challengeKey :=
  Or.inl ⟨rfl, by decide⟩

end Sample

/-- The sample job is settled after its deadline. -/
theorem settlement_succeeds_iff_sample : ∃ L' ev,
    process Sample.platform Sample.timeout.1 Sample.submittedLedger Sample.timeout.2 =
        .ok (L', ev) ∧
      PayoutEffect Sample.platform (abs Sample.platform Sample.submittedLedger)
        (abs Sample.platform L') Sample.jobKey Sample.submittedJob .resolveTimeoutSettle .settled :=
  have ⟨_, _, hescrow, hprovider, hbuyer⟩ := Sample.views_submittedLedger
  (settlement_succeeds_iff Sample.reached_submittedLedger Sample.job_at_submittedLedger
      Sample.timeout_call Sample.due_timeout
      ⟨_, hprovider, Sample.ordinary_holding Sample.provider 380⟩ (by decide +kernel)).mpr
    ⟨⟨_, hbuyer, Sample.ordinary_holding Sample.buyer 700⟩, _, hescrow, rfl⟩

/-- The buyer of the sample blocks the settlement of its job by approving a delegate. -/
theorem settlement_blocked_by_buyer : Reached Sample.platform Sample.delegated ∧
    Sample.delegated.recordAt Sample.platform.programId Sample.jobKey =
      some (.job Sample.submittedJob) ∧
    SettleCall Sample.platform Sample.timeout.1 Sample.jobKey Sample.submittedJob Sample.bondKey
      Sample.escrow Sample.providerToken Sample.buyerToken Sample.challengeKey ∧
    SettlementDue Sample.platform Sample.delegated Sample.timeout.1.now Sample.submittedJob
      Sample.challengeKey ∧
    OrdinaryAt Sample.delegated Sample.providerToken Sample.mint Sample.provider ∧
    Instruction.parse Sample.timeout.2 = .ok .resolveTimeoutSettle ∧
    ¬ ∃ L' ev, process Sample.platform Sample.timeout.1 Sample.delegated Sample.timeout.2 =
      .ok (L', ev) := by
  obtain ⟨-, hjob, hprovider, hfail⟩ := Sample.views_delegated
  refine ⟨Sample.reached_delegated, hjob, Sample.timeout_call, Sample.due_timeout,
    ⟨_, hprovider, Sample.ordinary_holding Sample.provider 380⟩, by decide +kernel, ?_⟩
  rintro ⟨L', ev, hok⟩
  rw [hok] at hfail
  cases hfail

end AgentBond
