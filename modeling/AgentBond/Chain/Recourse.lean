import AgentBond.Chain.Creation
import AgentBond.Chain.Timeouts

/-! # The recourse of the buyer

Whatever a provider did with its bond, its keys and its token accounts, a job
that missed its deadline is refunded and a challenged job can be slashed. Both
go through as soon as the buyer's own token account is in order.
-/

namespace AgentBond

open Foundation Protocol

section Recourse

variable {P : Platform} {ctx : Ctx} {L L₁ : Ledger} {a bond vault escrow buyerToken challenge
  configKey : Pubkey} {j : JobAccount} {b : ProviderBondAccount} {c : ConfigAccount}

/-- A refund sent by any payer with the accounts derived from the job. -/
structure RefundCall (P : Platform) (ctx : Ctx) (a : Pubkey) (j : JobAccount)
    (bond escrow buyerToken : Pubkey) : Prop where
  accounts : ∃ payer, ctx.accounts =
    [payer, .new a false, .new bond false, .new escrow false, .new buyerToken false,
      .new j.buyer false, .newReadonly j.mint false, .newReadonly j.tokenProgram false]
  bond_find : ∃ bump,
    P.tryFindProgramAddress (bondSeedParts j.provider j.mint) P.programId = some (bond, bump)
  escrow_ata : P.ata a j.mint = some escrow
  buyer_ata : P.ata j.buyer j.mint = some buyerToken

/-- A slashing signed by the admin with the accounts derived from the job. -/
structure SlashCall (P : Platform) (ctx : Ctx) (a : Pubkey) (j : JobAccount) (admin : Pubkey)
    (configKey bond vault escrow buyerToken challenge : Pubkey) : Prop where
  accounts : ctx.accounts =
    [.newReadonly admin true, .newReadonly configKey false, .new a false, .new bond false,
      .new vault false, .new escrow false, .new buyerToken false, .new j.buyer false,
      .new challenge false, .newReadonly j.mint false, .newReadonly j.tokenProgram false]
  bond_find : ∃ bump,
    P.tryFindProgramAddress (bondSeedParts j.provider j.mint) P.programId = some (bond, bump)
  vault_ata : P.ata bond j.mint = some vault
  escrow_ata : P.ata a j.mint = some escrow
  buyer_ata : P.ata j.buyer j.mint = some buyerToken
  challenge_find : ∃ bump,
    P.tryFindProgramAddress (challengeSeedParts a) P.programId = some (challenge, bump)

/-- The deadline that refunds the job has passed. -/
def RefundDue (now : Int64) (j : JobAccount) : Prop :=
  j.state = .funded ∧ j.acceptDeadline ≤ now ∨ j.state = .accepted ∧ j.workDeadline < now

/-- The key is a wallet: associated token accounts are derived off the curve, so nobody signs for
one. -/
def Platform.Wallet (P : Platform) (k : Pubkey) : Prop := ∀ owner mint, P.ata owner mint ≠ some k

theorem Platform.Wallet.ne {k e owner mint : Pubkey} (h : P.Wallet k)
    (he : P.ata owner mint = some e) : k ≠ e := by
  rintro rfl
  exact h owner mint he

/-- What a refund of the principal needs of the job, the mint and the token accounts. -/
structure Refundable (P : Platform) (L : Ledger) (a : Pubkey) (j : JobAccount)
    (escrow buyerToken : Pubkey) : Prop where
  job_at : L.recordAt P.programId a = some (.job j)
  job_address : P.addressOf (.job j) = some a
  mint_set : j.mint ≠ zeroKey
  token_eq : j.tokenProgram = tokenProgramId
  mint_at : ∃ m, L.mintAt j.mint = some m ∧ m.isInitialized = true ∧ m.decimals = j.mintDecimals
  escrow_ata : P.ata a j.mint = some escrow
  buyer_ata : P.ata j.buyer j.mint = some buyerToken
  escrow_at : ∃ t, L.tokenAt escrow = some t ∧ t.Ordinary j.mint a ∧ j.amount.toNat ≤ t.amount
  buyer_at : OrdinaryAt L buyerToken j.mint j.buyer

theorem Sound.refundable (h : Sound P L) (hj : L.recordAt P.programId a = some (.job j))
    (hheld : j.state.holdsEscrow = true) (hescrow : P.ata a j.mint = some escrow)
    (hata : P.ata j.buyer j.mint = some buyerToken)
    (hbuyer : OrdinaryAt L buyerToken j.mint j.buyer) (hthawed : ThawedAt L escrow) :
    Refundable P L a j escrow buyerToken := by
  have hv := h.inv.valid a _ hj
  exact ⟨hj, h.inv.found.address hj, hv.2.2.2.1, hv.2.2.2.2.1, h.inv.minted a j hj hheld, hescrow,
    hata, h.escrow_covers hj hheld hescrow hthawed, hbuyer⟩

/-- A refund is given the job's mint and token program and may write to the accounts it changes. -/
structure RefundAccess (j : JobAccount) (job escrow buyerToken mint tokenProgram : AccountMeta) :
    Prop where
  writes_job : job.isWritable = true
  writes_escrow : escrow.isWritable = true
  pays_buyer : buyerToken.isWritable = true
  mint_eq : mint.key = j.mint
  token_eq : tokenProgram.key = tokenProgramId

theorem refundPrincipal_succeeds {job escrow mint buyerToken tokenProgram : AccountMeta}
    (h : Refundable P L job.key j escrow.key buyerToken.key)
    (hw : RefundAccess j job escrow buyerToken mint tokenProgram) :
    ∃ L₁ t, L.tokenAt escrow.key = some t ∧ t.delegate = none ∧
      refundPrincipalToBuyer P L j job escrow mint buyerToken tokenProgram j.mintDecimals =
        .ok L₁ ∧
      transferChecked P L escrow mint buyerToken job t.amount j.mintDecimals
        (some (jobSignerSeeds j.buyer j.provider j.jobNonce j.bump)) = .ok L₁ := by
  obtain ⟨te, hte, horde, hle⟩ := h.escrow_at
  obtain ⟨tb, htb, hordb⟩ := h.buyer_at
  obtain ⟨L₁, hL₁⟩ := escrowTransfer_succeeds hw.writes_escrow hw.pays_buyer hw.mint_eq h.job_at
    h.job_address h.mint_set h.mint_at hte horde le_rfl htb hordb.mint_eq hordb.thawed
  refine ⟨L₁, te, hte, horde.undelegated, ?_, hL₁⟩
  simp only [refundPrincipalToBuyer, bind_eq_ok, requireWritable, requireLegacyTokenProgramId_eq_ok,
    validateMint_eq_ok, validateAta_eq_ok, parseTokenAccount_eq_ok, ensure_eq_ok, exists_const]
  exact ⟨hw.writes_job, h.token_eq, hw.token_eq.trans h.token_eq.symm, ⟨hw.mint_eq, h.mint_at⟩, _,
    ⟨h.escrow_ata, te, hte, horde, rfl⟩, _, ⟨h.buyer_ata, tb, htb, hordb, rfl⟩, te, hte, hle, hL₁⟩

theorem holdsEscrow_of_refundDue {now : Int64} (h : RefundDue now j) :
    j.state.holdsEscrow = true := by
  rcases h with ⟨hs, -⟩ | ⟨hs, -⟩ <;> rw [hs] <;> rfl

theorem refundDeadline_succeeds (h : RefundDue ctx.now j) :
    refundDeadline ctx j false = .ok () := by
  rcases h with ⟨hs, hdue⟩ | ⟨hs, hdue⟩
  · simp only [refundDeadline, hs, ensure_eq_ok, hdue]
  · simp only [refundDeadline, hs, ensure_eq_ok, hdue]

/-- The account passed as the bond of a refund: the job's bond, another bond for a job that locked
nothing, or for such a job no bond at all. -/
inductive BondChoice (P : Platform) (L : Ledger) (j : JobAccount) (m : AccountMeta) : Prop
  | bond (b : ProviderBondAccount) (bond_at : L.recordAt P.programId m.key = some (.bond b))
      (writable : m.isWritable = true)
      (of : b.provider = j.provider ∧ b.mint = j.mint ∨ j.lockedBond = 0)
  | none (unlike : ¬ ((L.account m.key).data.len = providerBondAccountLen ∧
      (L.account m.key).owner = P.programId)) (unlocked : j.lockedBond = 0)

theorem Sound.bondChoice (hP : P.CollisionFree (DerivedIn P L)) (h : Sound P L)
    (hj : L.recordAt P.programId a = some (.job j))
    (hfind : ∃ bump, P.tryFindProgramAddress (bondSeedParts j.provider j.mint) P.programId =
      some (bond, bump)) : BondChoice P L j (.new bond false) := by
  obtain ⟨bump, hfind⟩ := hfind
  cases hr : L.recordAt P.programId bond with
  | some r =>
    obtain ⟨b, rfl, hp, hm⟩ := record_at_bondAddress hP h hj hfind hr
    exact .bond b hr rfl (Or.inl ⟨hp, hm⟩)
  | none =>
    refine .none ?_ ?_
    · rintro ⟨-, ho⟩
      exact P.programId_ne_system (ho.symm.trans (h.unused (Platform.pda_of_find hfind) hr).1)
    · by_contra hne
      obtain ⟨b, hb, -⟩ :=
        h.bond_of_find hj ((h.inv.valid.locked_iff hj).mp hne) ⟨bump, hfind⟩
      cases hr.symm.trans hb

theorem account_of_program {source mint destination authority : AccountMeta} {n : ℕ}
    {decimals : UInt8} {seeds : Option Seeds} {t : TokenAccount} {L' : Ledger} {k : Pubkey}
    (h : transferChecked P L source mint destination authority n decimals seeds = .ok L')
    (ht : L.tokenAt source.key = some t) (hd : t.delegate = none)
    (hk : (L'.account k).owner = P.programId) : L'.account k = L.account k := by
  simp only [transferChecked, bind_eq_ok, requireWritable, ensure_eq_ok, exists_const] at h
  obtain ⟨-, -, -, h⟩ := h
  have hx := P.transferChecked_ok h ht hd
  obtain ⟨td, htd, -⟩ := hx.credited
  have hne : ∀ {i u}, L.tokenAt i = some u → k ≠ i := by
    rintro i u hu rfl
    obtain ⟨n', hn'⟩ := Tokens.move_some source.key destination.key n _ hu
    rw [← hx.tokens] at hn'
    exact P.programId_ne_token (hk.symm.trans (Ledger.owner_of_tokenAt hn'))
  exact hx.frame k (hne ht) (hne htd)

theorem BondChoice.of_records {m : AccountMeta} (h : BondChoice P L j m)
    (hr : L₁.recordAt P.programId = L.recordAt P.programId)
    (hkept : (L₁.account m.key).owner = P.programId → L₁.account m.key = L.account m.key) :
    BondChoice P L₁ j m := by
  cases h with
  | bond b bond_at writable of => exact .bond b (by rw [hr]; exact bond_at) writable of
  | none unlike unlocked =>
    refine .none ?_ unlocked
    rintro ⟨hlen, howner⟩
    rw [hkept howner] at hlen howner
    exact unlike ⟨hlen, howner⟩

theorem refundBond_succeeds {m : AccountMeta} (hf : Found P (abs P L)) (h : BondChoice P L j m)
    (hle : ∀ b, L.recordAt P.programId m.key = some (.bond b) →
      b.provider = j.provider ∧ b.mint = j.mint → j.lockedBond ≤ b.locked)
    (hcovered : ∀ b, L.recordAt P.programId m.key = some (.bond b) → b.locked ≤ b.deposited) :
    ∃ o, refundBond P L j m = .ok ({ j with lockedBond := 0 }, o) ∧
      ∀ b', o = some b' → m.isWritable = true ∧
        ∃ b, L.recordAt P.programId m.key = some (.bond b) ∧ b'.locked ≤ b'.deposited := by
  have hunlocked : j.lockedBond = 0 → j = { j with lockedBond := 0 } := fun h0 => by rw [← h0]
  cases h with
  | none unlike unlocked =>
    refine ⟨none, ?_, fun b' hb' => by cases hb'⟩
    unfold refundBond
    refine (if_neg unlike).trans ?_
    simp only [bind_eq_ok, ensure_eq_ok, exists_const, Except.ok.injEq, Prod.mk.injEq, and_true]
    exact ⟨unlocked, hunlocked unlocked⟩
  | bond b bond_at writable of =>
    have hbond : (L.account m.key).data.len = providerBondAccountLen ∧
        (L.account m.key).owner = P.programId :=
      ⟨len_of_bond bond_at, Ledger.owner_of_recordAt bond_at⟩
    have hload : loadValidatedBond P L m = .ok b :=
      loadValidatedBond_eq_ok.mpr ⟨bond_at, hf.address bond_at⟩
    by_cases hof : b.provider = j.provider ∧ b.mint = j.mint
    · have hunlock := unlockJobBond_eq_ok.mpr ⟨hle b bond_at hof, rfl, rfl⟩
      refine ⟨some (unlockedBy j b), ?_, ?_⟩
      · unfold refundBond
        refine (if_pos hbond).trans ?_
        simp only [bind_eq_ok, requireWritable, ensure_eq_ok, exists_const]
        refine ⟨writable, b, hload, ?_⟩
        rw [if_pos hof]
        simp only [bind_eq_ok]
        exact ⟨_, hunlock, rfl⟩
      · rintro b' hb'
        obtain rfl := Option.some.inj hb'
        exact ⟨writable, b, bond_at, sub_le_of_le (hcovered b bond_at) (hle b bond_at hof)⟩
    · have h0 := of.resolve_left hof
      refine ⟨none, ?_, fun b' hb' => by cases hb'⟩
      unfold refundBond
      refine (if_pos hbond).trans ?_
      simp only [bind_eq_ok, requireWritable, ensure_eq_ok, exists_const]
      refine ⟨writable, b, hload, ?_⟩
      rw [if_neg hof]
      simp only [bind_eq_ok, ensure_eq_ok, exists_const, Except.ok.injEq, Prod.mk.injEq, and_true]
      exact ⟨h0, hunlocked h0⟩

theorem saveRefundBond_succeeds {m : AccountMeta} {o : Option ProviderBondAccount}
    (ho : ∀ b', o = some b' → m.isWritable = true ∧
      ∃ b, L.recordAt P.programId m.key = some (.bond b) ∧ b'.locked ≤ b'.deposited) :
    ∃ L', saveRefundBond L m o = .ok L' := by
  cases o with
  | none => exact ⟨L, rfl⟩
  | some b' =>
    obtain ⟨hw, b, hb, hle⟩ := ho b' rfl
    exact saveBond_succeeds hw (len_of_bond hb) hle

/-- The accounts of a refund are those of the job. -/
structure RefundAccounts (P : Platform) (L : Ledger) (j : JobAccount)
    (job escrow buyerToken : AccountMeta) : Prop where
  job_at : L.recordAt P.programId job.key = some (.job j)
  escrow_ata : P.ata job.key j.mint = some escrow.key
  buyer_ata : P.ata j.buyer j.mint = some buyerToken.key
  escrow_at : ThawedAt L escrow.key
  buyer_at : OrdinaryAt L buyerToken.key j.mint j.buyer

/-- Once its deadline has passed, a refund goes through. -/
theorem refundInternal_succeeds {payer job bond escrow buyerToken buyer mint
    tokenProgram : AccountMeta} {rest : List AccountMeta} {fundedOnly : Bool} (h : Sound P L)
    (hctx : ctx.accounts = payer :: job :: bond :: escrow :: buyerToken :: buyer :: mint ::
      tokenProgram :: rest)
    (hacc : RefundAccounts P L j job escrow buyerToken)
    (hw : RefundAccess j job escrow buyerToken mint tokenProgram)
    (hchoice : BondChoice P L j bond) (hbuyer : buyer.key = j.buyer)
    (hdue : refundDeadline ctx j fundedOnly = .ok ()) :
    ∃ L' ev, refundInternal P ctx L fundedOnly = .ok (L', ev) ∧
      L'.recordAt P.programId job.key = some (.job (released j .refunded)) := by
  have hstate : j.state = .funded ∨ j.state = .accepted :=
    (refundDeadline_eq_ok hdue).imp And.left And.left
  have hheld : j.state.holdsEscrow = true := by rcases hstate with hs | hs <;> rw [hs] <;> rfl
  have hj := hacc.job_at
  have hready := h.refundable hj hheld hacc.escrow_ata hacc.buyer_ata hacc.buyer_at hacc.escrow_at
  obtain ⟨L₁, te, hte, hd, hrefund, hxfer⟩ := refundPrincipal_succeeds hready hw
  have hrec₁ : L₁.recordAt P.programId = L.recordAt P.programId :=
    congrArg State.records (abs_of_transferChecked (P := P) hxfer hte hd).1
  -- The bond is what it was before the payment.
  have hf₁ : Found P (abs P L₁) := fun k r hr =>
    h.inv.found k r (by rw [records_abs, ← hrec₁]; exact hr)
  obtain ⟨o, hbond, ho⟩ := refundBond_succeeds hf₁
    (hchoice.of_records hrec₁ (account_of_program (P := P) hxfer hte hd))
    (fun b hb hof => h.locked_le hj (by rw [← hrec₁]; exact hb) hof)
    (fun b hb => (h.inv.valid bond.key (.bond b) (by rw [records_abs, ← hrec₁]; exact hb)).2)
  obtain ⟨L₂, hsaveb⟩ := saveRefundBond_succeeds ho
  have hj₂ : L₂.recordAt P.programId job.key = some (.job j) := by
    have hj₁ : L₁.recordAt P.programId job.key = some (.job j) := by rw [hrec₁]; exact hj
    cases o with
    | none =>
      cases hsaveb
      exact hj₁
    | some b' =>
      obtain ⟨-, b, hb, -⟩ := ho b' rfl
      have hsaved := (saved_of_saveBond (P := P) hsaveb (Ledger.owner_of_recordAt hb)).1
      have hab : job.key ≠ bond.key := by
        intro he
        rw [he] at hj₁
        cases hj₁.symm.trans hb
      rw [← records_abs, hsaved.abs_eq]
      exact (State.records_put_of_ne hab).trans hj₁
  obtain ⟨L₃, hsavej⟩ := saveJob_succeeds (L := L₂) (j := released j .refunded) hw.writes_job
    (len_of_job hj₂)
  have hsaved := saved_of_saveJob (P := P) hsavej (Ledger.owner_of_recordAt hj₂)
  have htransition : validateTransition j.state .refunded = .ok () := by
    rcases hstate with hs | hs <;> rw [hs] <;> rfl
  refine ⟨L₃, emit ctx .jobRefunded job.key buyer.key j.amount, ?_, ?_⟩
  · simp only [refundInternal, hctx, bind_eq_ok, requireWritable, requireLegacyTokenProgram,
      requireLegacyTokenProgramId_eq_ok, loadValidatedJob_eq_ok, transitionJob_eq_ok, ensure_eq_ok,
      exists_const, Prod.exists]
    exact ⟨hw.writes_job, hw.token_eq, j, ⟨hj, hready.job_address⟩, (), hdue, hbuyer, L₁, hrefund,
      _, o, hbond, _, ⟨htransition, rfl⟩, L₂, hsaveb, L₃, hsavej, rfl⟩
  · rw [← records_abs, hsaved.abs_eq]
    exact State.records_put_self

theorem refundInternal_succeeds_of_deadline {fundedOnly : Bool}
    (hP : P.CollisionFree (DerivedIn P L)) (h : Sound P L)
    (hj : L.recordAt P.programId a = some (.job j))
    (hcall : RefundCall P ctx a j bond escrow buyerToken)
    (hdue : refundDeadline ctx j fundedOnly = .ok ())
    (hbuyer : OrdinaryAt L buyerToken j.mint j.buyer) (hthawed : ThawedAt L escrow) :
    ∃ L' ev, refundInternal P ctx L fundedOnly = .ok (L', ev) ∧
      L'.recordAt P.programId a = some (.job (released j .refunded)) := by
  have hacc : RefundAccounts P L j (.new a false) (.new escrow false) (.new buyerToken false) :=
    ⟨hj, hcall.escrow_ata, hcall.buyer_ata, hthawed, hbuyer⟩
  obtain ⟨payer, hctx⟩ := hcall.accounts
  exact refundInternal_succeeds h hctx hacc ⟨rfl, rfl, rfl, rfl, (h.inv.valid a _ hj).2.2.2.2.1⟩
    (h.bondChoice hP hj hcall.bond_find) rfl hdue

theorem resolveTimeoutRefund_succeeds (hP : P.CollisionFree (DerivedIn P L)) (h : Sound P L)
    (hj : L.recordAt P.programId a = some (.job j))
    (hcall : RefundCall P ctx a j bond escrow buyerToken) (hdue : RefundDue ctx.now j)
    (hbuyer : OrdinaryAt L buyerToken j.mint j.buyer) (hthawed : ThawedAt L escrow) :
    ∃ L' ev, resolveTimeoutRefund P ctx L = .ok (L', ev) ∧
      L'.recordAt P.programId a = some (.job (released j .refunded)) :=
  refundInternal_succeeds_of_deadline hP h hj hcall (refundDeadline_succeeds hdue) hbuyer hthawed

/-- In every reached ledger a refund that is due goes through and gives the buyer the whole escrow,
whoever sends it. -/
theorem refund_succeeds {data : List UInt8} (hP : P.CollisionFree (DerivedIn P L))
    (h : Reached P L) (hj : L.recordAt P.programId a = some (.job j))
    (hcall : RefundCall P ctx a j bond escrow buyerToken) (hdue : RefundDue ctx.now j)
    (hbuyer : OrdinaryAt L buyerToken j.mint j.buyer) (hthawed : ThawedAt L escrow)
    (hparse : Instruction.parse data = .ok .resolveTimeoutRefund) :
    ∃ L' ev, process P ctx L data = .ok (L', ev) ∧
      PayoutEffect P (abs P L) (abs P L') a j .resolveTimeoutRefund .refunded := by
  have hprocess : process P ctx L data = resolveTimeoutRefund P ctx L := process_of_parse hparse
  have hs := Sound.of_reached h
  obtain ⟨L', ev, hok, hj'⟩ := resolveTimeoutRefund_succeeds hP hs hj hcall hdue hbuyer hthawed
  have hrefined := refined_of_refundInternal (Or.inl ⟨rfl, rfl⟩) hok
  have heffect := hrefined.step.payout hs.inv.found hs.inv.valid hj
    (holdsEscrow_of_refundDue hdue) hj' rfl
  exact ⟨L', ev, hprocess.trans hok, heffect⟩

/-- What a slashing needs besides the refund of the principal. -/
structure Slashable (P : Platform) (L : Ledger) (j : JobAccount) (bond : Pubkey)
    (b : ProviderBondAccount) (vault escrow buyerToken : Pubkey) : Prop where
  bond_at : L.recordAt P.programId bond = some (.bond b)
  bond_address : P.addressOf (.bond b) = some bond
  provider_eq : b.provider = j.provider
  mint_eq : b.mint = j.mint
  slashed_ne : j.lockedBond ≠ 0
  locked_le : j.lockedBond ≤ b.locked
  covered : b.locked ≤ b.deposited
  vault_ata : P.ata bond j.mint = some vault
  vault_at : ∃ t, L.tokenAt vault = some t ∧ t.Ordinary j.mint bond ∧ b.deposited.toNat ≤ t.amount
  vault_ne : vault ≠ escrow ∧ vault ≠ buyerToken

theorem Sound.slashable (h : Sound P L) (hj : L.recordAt P.programId a = some (.job j))
    (hstate : j.state = .challenged) (hb : L.recordAt P.programId bond = some (.bond b))
    (hof : b.provider = j.provider ∧ b.mint = j.mint) (hvault : P.ata bond j.mint = some vault)
    (hready : Refundable P L a j escrow buyerToken) (hthawed : ThawedAt L vault) :
    Slashable P L j bond b vault escrow buyerToken := by
  have hv := h.inv.valid a _ hj
  have hne : j.lockedBond ≠ 0 := (h.inv.valid.locked_iff hj).mpr (by rw [hstate]; rfl)
  have hle := h.locked_le hj hb hof
  have hcovered : b.locked ≤ b.deposited := (h.inv.valid _ _ hb).2
  have hdeposited : b.deposited.toNat ≠ 0 := by
    have hpos : j.lockedBond.toNat ≠ 0 := fun h0 => hne (UInt64.toNat_inj.mp h0)
    have hle₁ := UInt64.le_iff_toNat_le.mp hle
    have hle₂ := UInt64.le_iff_toNat_le.mp hcovered
    omega
  -- The deposit backs the lock in the vault.
  obtain ⟨e, he, hsecured⟩ := h.inv.solvent bond _ hb (Set.notMem_empty bond) hdeposited
  obtain ⟨t, ht, htm, hto, htd, hamount⟩ := hsecured hdeposited
  rw [Record.mint, hof.2, hvault, Option.some.injEq] at he
  subst he
  obtain ⟨t', ht', hf⟩ := hthawed
  obtain rfl := Option.some.inj (ht.symm.trans ht')
  have hord : t.Ordinary j.mint bond := ⟨htm.trans hof.2, hto, hf, htd⟩
  refine ⟨hb, h.inv.found.address hb, hof.1, hof.2, hne, hle, hcovered, hvault,
    ⟨t, ht, hord, hamount⟩, ?_, ?_⟩
  · rintro rfl
    obtain ⟨te, hte, horde, -⟩ := hready.escrow_at
    obtain rfl := Option.some.inj (ht.symm.trans hte)
    rw [← horde.owner_eq, hord.owner_eq] at hj
    cases hj.symm.trans hb
  · rintro rfl
    obtain ⟨tb, htb, hordb⟩ := hready.buyer_at
    obtain rfl := Option.some.inj (ht.symm.trans htb)
    exact hv.1 (hordb.owner_eq ▸ hord.owner_eq ▸ h.inv.found.pda hb)

theorem slashTransfer_succeeds {n : ℕ} {tb : TokenAccount}
    {bond vault escrow buyerToken mint : AccountMeta} (hw : vault.isWritable = true)
    (hwb : buyerToken.isWritable = true) (hmk : mint.key = j.mint)
    (hmint : j.mint ≠ zeroKey)
    (h : Slashable P L j bond.key b vault.key escrow.key buyerToken.key)
    (hm : ∃ m, L.mintAt j.mint = some m ∧ m.isInitialized = true ∧ m.decimals = j.mintDecimals)
    (htb : L.tokenAt buyerToken.key = some tb) (hmb : tb.mint = j.mint) (hfb : tb.frozen = false)
    (hn : n ≤ b.deposited.toNat) :
    ∃ L', transferChecked P L vault mint buyerToken bond n j.mintDecimals
      (some (bondSignerSeeds b.provider b.mint b.bump)) = .ok L' := by
  obtain ⟨tv, htv, hordv, hle⟩ := h.vault_at
  refine transferChecked_succeeds hw hwb (Or.inl h.bond_address) ?_
  rw [hmk]
  refine ⟨hmint, hm, ⟨tv, htv, hordv.mint_eq, hordv.owner_eq, hordv.thawed, hn.trans hle⟩,
    ⟨tb, htb, hmb, hfb⟩, ?_⟩
  have howner := Ledger.owner_of_recordAt h.bond_at
  exact fun he => P.programId_ne_token (howner.symm.trans he)

theorem Slashable.le_deposited (h : Slashable P L j bond b vault escrow buyerToken) :
    j.lockedBond ≤ b.deposited :=
  UInt64.le_trans h.locked_le h.covered

/-- The two payments of a slashing, which touch no account besides the three they name. -/
structure SlashPaid (P : Platform) (L : Ledger) (j : JobAccount) (b : ProviderBondAccount)
    (job bond vault escrow buyerToken mint tokenProgram : AccountMeta) (L₁ L₂ : Ledger) :
    Prop where
  refunded : refundPrincipalToBuyer P L j job escrow mint buyerToken tokenProgram
    j.mintDecimals = .ok L₁
  records : L₁.recordAt P.programId = L.recordAt P.programId
  mints : L₁.mintAt = L.mintAt
  vault_at : ∃ t, L₁.tokenAt vault.key = some t ∧ t.Ordinary j.mint bond.key
  slashed : transferChecked P L₁ vault mint buyerToken bond j.lockedBond.toNat j.mintDecimals
    (some (bondSignerSeeds b.provider b.mint b.bump)) = .ok L₂
  records_eq : L₂.recordAt P.programId = L.recordAt P.programId
  frame : ∀ k, k ≠ escrow.key → k ≠ vault.key → k ≠ buyerToken.key → L₂.account k = L.account k

theorem frame_of_transferChecked {source mint destination authority : AccountMeta} {n : ℕ}
    {decimals : UInt8} {seeds : Option Seeds} {t : TokenAccount} {L' : Ledger}
    (h : transferChecked P L source mint destination authority n decimals seeds = .ok L')
    (ht : L.tokenAt source.key = some t) (hd : t.delegate = none) :
    ∀ k, k ≠ source.key → k ≠ destination.key → L'.account k = L.account k := by
  simp only [transferChecked, bind_eq_ok, requireWritable, ensure_eq_ok, exists_const] at h
  obtain ⟨-, -, -, h⟩ := h
  exact (P.transferChecked_ok h ht hd).frame

theorem slashPayments_succeed
    {job bond vault escrow buyerToken mint tokenProgram : AccountMeta}
    (hready : Refundable P L job.key j escrow.key buyerToken.key)
    (hw : RefundAccess j job escrow buyerToken mint tokenProgram)
    (hwv : vault.isWritable = true)
    (hslash : Slashable P L j bond.key b vault.key escrow.key buyerToken.key) :
    ∃ L₁ L₂, SlashPaid P L j b job bond vault escrow buyerToken mint tokenProgram L₁ L₂ := by
  obtain ⟨L₁, te, hte, hd, hrefund, hxfer⟩ := refundPrincipal_succeeds hready hw
  have habs₁ := (abs_of_transferChecked (P := P) hxfer hte hd).1
  have hrec₁ : L₁.recordAt P.programId = L.recordAt P.programId := congrArg State.records habs₁
  have hmint₁ : L₁.mintAt = L.mintAt := congrArg State.mints habs₁
  have htok₁ : L₁.tokenAt = Tokens.move L.tokenAt escrow.key buyerToken.key te.amount :=
    congrArg State.tokens habs₁
  obtain ⟨tb, htb, hordb⟩ := hready.buyer_at
  obtain ⟨n, htb₁⟩ := Tokens.move_some escrow.key buyerToken.key te.amount _ htb
  rw [← htok₁] at htb₁
  have hslash₁ : Slashable P L₁ j bond.key b vault.key escrow.key buyerToken.key :=
    { hslash with
      bond_at := by rw [hrec₁]; exact hslash.bond_at
      vault_at := by
        rw [htok₁, Tokens.move_of_ne hslash.vault_ne.1 hslash.vault_ne.2]
        exact hslash.vault_at }
  obtain ⟨L₂, hpaid⟩ := slashTransfer_succeeds hwv hw.pays_buyer hw.mint_eq hready.mint_set hslash₁
    (by rw [hmint₁]; exact hready.mint_at) htb₁ hordb.mint_eq hordb.thawed
    (UInt64.le_iff_toNat_le.mp hslash.le_deposited)
  obtain ⟨tv, htv, hordv, -⟩ := hslash₁.vault_at
  have hrec₂ : L₂.recordAt P.programId = L₁.recordAt P.programId :=
    congrArg State.records (abs_of_transferChecked (P := P) hpaid htv hordv.undelegated).1
  refine ⟨L₁, L₂, hrefund, hrec₁, hmint₁, ⟨tv, htv, hordv⟩, hpaid, hrec₂.trans hrec₁, ?_⟩
  intro k he hv hb
  exact (frame_of_transferChecked hpaid htv hordv.undelegated k hv hb).trans
    (frame_of_transferChecked hxfer hte hd k he hb)

theorem slashRecords_succeed {job bond vault escrow buyerToken mint tokenProgram : AccountMeta}
    {L₂ : Ledger} (hj : L.recordAt P.programId job.key = some (.job j))
    (hwj : job.isWritable = true) (hwb : bond.isWritable = true)
    (hslash : Slashable P L j bond.key b vault.key escrow.key buyerToken.key)
    (hpaid : SlashPaid P L j b job bond vault escrow buyerToken mint tokenProgram L₁ L₂) :
    ∃ L₃ L₄, saveBond L₂ bond (slashedBy j b) = .ok L₃ ∧
      saveJob L₃ job (released j .slashed) = .ok L₄ ∧
      abs P L₄ = ((abs P L₂).put bond.key (.bond (slashedBy j b))).put job.key
        (.job (released j .slashed)) ∧
      ∀ k, (L₄.account k).lamports = (L₂.account k).lamports := by
  have hb₂ : L₂.recordAt P.programId bond.key = some (.bond b) := by
    rw [hpaid.records_eq]
    exact hslash.bond_at
  obtain ⟨L₃, hsaveb⟩ := saveBond_succeeds (L := L₂) (b := slashedBy j b) hwb (len_of_bond hb₂)
    (sub_le_sub_of_le hslash.covered hslash.locked_le)
  have hsaved₃ : Saved P L₂ bond.key _ L₃ :=
    (saved_of_saveBond hsaveb (Ledger.owner_of_recordAt hb₂)).1
  have hab : job.key ≠ bond.key := by
    intro he
    rw [he] at hj
    cases hj.symm.trans hslash.bond_at
  have hj₃ : L₃.recordAt P.programId job.key = some (.job j) := by
    rw [← records_abs, hsaved₃.abs_eq, State.records_put_of_ne hab, records_abs, hpaid.records_eq]
    exact hj
  obtain ⟨L₄, hsavej⟩ := saveJob_succeeds (L := L₃) (j := released j .slashed) hwj
    (len_of_job hj₃)
  have hsaved₄ : Saved P L₃ job.key _ L₄ := saved_of_saveJob hsavej (Ledger.owner_of_recordAt hj₃)
  refine ⟨L₃, L₄, hsaveb, hsavej, by rw [hsaved₄.abs_eq, hsaved₃.abs_eq], fun k => ?_⟩
  rw [lamports_of_writeAccountData hsavej, lamports_of_saveBond hsaveb]

theorem Sound.challenge_of_found {ch : ChallengeAccount} (h : Sound P L)
    (hj : L.recordAt P.programId a = some (.job j)) (hstate : j.state = .challenged)
    (hfind : ∃ bump,
      P.tryFindProgramAddress (challengeSeedParts a) P.programId = some (challenge, bump))
    (hch : L.recordAt P.programId challenge = some (.challenge ch)) :
    ch.status = ChallengeAccount.statusOpen ∧ ch.job = a := by
  obtain ⟨bump, hfind⟩ := hfind
  obtain ⟨k, ch', hk, rfl⟩ := h.inv.linked.challenged hj hstate
  have hfound := h.inv.found k _ hk
  rw [Record.seeds, hfind, Option.some.injEq, Prod.mk.injEq] at hfound
  obtain ⟨rfl, -⟩ := hfound
  obtain rfl : ch' = ch := by simpa using hk.symm.trans hch
  exact ⟨h.inv.valid _ _ hch, rfl⟩

/-- The accounts of a slashing, all in order in the ledger. -/
structure SlashAccounts (P : Platform) (L : Ledger) (c : ConfigAccount) (j : JobAccount)
    (b : ProviderBondAccount) (ch : ChallengeAccount)
    (config job bond vault escrow buyerToken challenge : AccountMeta) : Prop
    extends RefundAccounts P L j job escrow buyerToken where
  config_at : L.recordAt P.programId config.key = some (.config c)
  bond_at : L.recordAt P.programId bond.key = some (.bond b)
  bond_of : b.provider = j.provider ∧ b.mint = j.mint
  vault_ata : P.ata bond.key j.mint = some vault.key
  vault_at : ThawedAt L vault.key
  challenge_at : L.recordAt P.programId challenge.key = some (.challenge ch)
  challenge_job : ch.job = job.key

/-- A slashing may write to the accounts it changes and reads the configuration only. -/
structure SlashAccess (j : JobAccount)
    (config job bond vault escrow buyerToken buyer challenge mint tokenProgram : AccountMeta) :
    Prop extends RefundAccess j job escrow buyerToken mint tokenProgram where
  reads_config : config.isWritable = false
  writes_bond : bond.isWritable = true
  writes_vault : vault.isWritable = true
  writes_challenge : challenge.isWritable = true
  pays_rent : buyer.isWritable = true

/-- A slashing before the deadline goes through up to its last step, which gives the rent of the
challenge to the buyer. -/
theorem slashBond_eq_close {admin config job bond vault escrow buyerToken buyer challenge
    mint tokenProgram : AccountMeta} {rest : List AccountMeta} {ch : ChallengeAccount}
    (h : Sound P L)
    (hctx : ctx.accounts = admin :: config :: job :: bond :: vault :: escrow :: buyerToken ::
      buyer :: challenge :: mint :: tokenProgram :: rest)
    (hacc : SlashAccounts P L c j b ch config job bond vault escrow buyerToken challenge)
    (hw : SlashAccess j config job bond vault escrow buyerToken buyer challenge mint tokenProgram)
    (hsigner : admin.isSigner = true) (hadmin : admin.key = c.admin)
    (hstate : j.state = .challenged) (hbuyer : buyer.key = j.buyer)
    (hopen : ctx.now < ch.deadline) :
    ∃ L₁ L₂ L₄, SlashPaid P L j b job bond vault escrow buyerToken mint tokenProgram L₁ L₂ ∧
      abs P L₄ = ((abs P L₂).put bond.key (.bond (slashedBy j b))).put job.key
        (.job (released j .slashed)) ∧
      (∀ k, (L₄.account k).lamports = (L₂.account k).lamports) ∧
      slashBond P ctx L = (closePdaAccount L₄ challenge buyer >>= fun L₅ =>
        .ok (L₅, emit ctx .jobSlashed job.key admin.key j.lockedBond)) := by
  have hheld : j.state.holdsEscrow = true := by rw [hstate]; rfl
  have hj := hacc.job_at
  have hready := h.refundable hj hheld hacc.escrow_ata hacc.buyer_ata hacc.buyer_at hacc.escrow_at
  have hslash := h.slashable hj hstate hacc.bond_at hacc.bond_of hacc.vault_ata hready hacc.vault_at
  obtain ⟨L₁, L₂, hpaid⟩ := slashPayments_succeed hready hw.toRefundAccess hw.writes_vault hslash
  obtain ⟨L₃, L₄, hsaveb, hsavej, habs₄, hlamports⟩ :=
    slashRecords_succeed hj hw.writes_job hw.writes_bond hslash hpaid
  obtain ⟨tv, htv, hordv⟩ := hpaid.vault_at
  refine ⟨L₁, L₂, L₄, hpaid, habs₄, hlamports, ?_⟩
  -- The checks in their order.
  have hprogram : requireLegacyTokenProgram tokenProgram = .ok () :=
    requireLegacyTokenProgramId_eq_ok.mpr hw.token_eq
  have hconfig : loadValidatedConfigReadonly P L config = .ok c := by
    simp only [loadValidatedConfigReadonly, requireReadonly, bind_eq_ok, ensure_eq_ok,
      exists_const, loadValidatedConfig_eq_ok]
    exact ⟨hw.reads_config, hacc.config_at, h.inv.found.address hacc.config_at⟩
  have hjob : loadValidatedJob P L job = .ok j :=
    loadValidatedJob_eq_ok.mpr ⟨hj, hready.job_address⟩
  have hchallenge : loadValidatedChallenge P L challenge job.key = .ok ch :=
    loadValidatedChallenge_eq_ok.mpr
      ⟨hacc.challenge_at, h.inv.found.address hacc.challenge_at, hacc.challenge_job⟩
  have hstatus : ch.status = ChallengeAccount.statusOpen := h.inv.valid _ _ hacc.challenge_at
  have hbond : loadJobBond P L₁ bond j = .ok b :=
    loadJobBond_eq_ok.mpr
      ⟨by rw [hpaid.records]; exact hslash.bond_at, hslash.bond_address, hacc.bond_of⟩
  have hvault : validateAta P L₁ vault bond.key b.mint = .ok tv.amount := by
    rw [hslash.mint_eq]
    exact validateAta_eq_ok.mpr ⟨hslash.vault_ata, tv, htv, hordv, rfl⟩
  have hmint : validateMint L₁ mint j.mint j.mintDecimals = .ok () :=
    validateMint_eq_ok.mpr ⟨hw.mint_eq, by rw [hpaid.mints]; exact hready.mint_at⟩
  have hlocked : checkedSub b.locked j.lockedBond = some (b.locked - j.lockedBond) :=
    if_pos hslash.locked_le
  have hdeposited : checkedSub b.deposited j.lockedBond = some (b.deposited - j.lockedBond) :=
    if_pos hslash.le_deposited
  have htransition : transitionJob { j with lockedBond := 0 } .slashed =
      .ok (released j .slashed) :=
    transitionJob_eq_ok.mpr ⟨by rw [show JobAccount.state _ = j.state from rfl, hstate]; rfl, rfl⟩
  simp only [slashBond, hctx, requireSigner, requireWritable, hsigner, hw.writes_job,
    hw.writes_bond, hw.writes_challenge, hprogram, hconfig, eq_true hadmin, hjob, eq_true hstate,
    hchallenge, hstatus, hopen, eq_true hbuyer, hpaid.refunded, hbond, hslash.slashed_ne,
    hslash.locked_le, hslash.le_deposited, hvault, hmint, hpaid.slashed, hlocked, hdeposited,
    htransition, ensure_true, ok_bind, okOr, and_self, ne_eq, not_false_eq_true]
  rw [show ProviderBondAccount.mk b.bump b.provider b.mint b.tokenProgram
    (b.deposited - j.lockedBond) (b.locked - j.lockedBond) = slashedBy j b from rfl, hsaveb]
  simp only [ok_bind, hsavej]

theorem slashBond_succeeds {admin config job bond vault escrow buyerToken buyer challenge
    mint tokenProgram : AccountMeta} {rest : List AccountMeta} {ch : ChallengeAccount}
    (h : Sound P L)
    (hctx : ctx.accounts = admin :: config :: job :: bond :: vault :: escrow :: buyerToken ::
      buyer :: challenge :: mint :: tokenProgram :: rest)
    (hacc : SlashAccounts P L c j b ch config job bond vault escrow buyerToken challenge)
    (hw : SlashAccess j config job bond vault escrow buyerToken buyer challenge mint tokenProgram)
    (hsigner : admin.isSigner = true) (hadmin : admin.key = c.admin)
    (hstate : j.state = .challenged) (hbuyer : buyer.key = j.buyer) (hopen : ctx.now < ch.deadline)
    (hwallet : P.Wallet j.buyer) :
    ∃ L' ev, slashBond P ctx L = .ok (L', ev) ∧
      L'.recordAt P.programId job.key = some (.job (released j .slashed)) := by
  obtain ⟨L₁, L₂, L₄, hpaid, habs₄, hlamports, heq⟩ :=
    slashBond_eq_close h hctx hacc hw hsigner hadmin hstate hbuyer hopen
  have hch := hacc.challenge_at
  have htoken : ∀ k t, L.tokenAt k = some t → challenge.key ≠ k := by
    rintro k t ht rfl
    exact P.programId_ne_token
      ((Ledger.owner_of_recordAt hch).symm.trans (Ledger.owner_of_tokenAt ht))
  obtain ⟨te, hte, -⟩ := hacc.escrow_at
  obtain ⟨tv, htv, -⟩ := hacc.vault_at
  obtain ⟨tb, htb, -⟩ := hacc.buyer_at
  -- The lamports of the challenge and of the buyer are what they were.
  have hsum : (L₄.account buyer.key).lamports + (L₄.account challenge.key).lamports < 2 ^ 64 := by
    rw [hlamports, hlamports, hbuyer, hpaid.frame challenge.key (htoken _ _ hte) (htoken _ _ htv)
      (htoken _ _ htb), hpaid.frame j.buyer (hwallet.ne hacc.escrow_ata) (hwallet.ne hacc.vault_ata)
        (hwallet.ne hacc.buyer_ata)]
    refine h.capitalized _ _ fun he => ?_
    exact (h.inv.valid _ _ hacc.job_at).1 (he ▸ h.inv.found.pda hch)
  obtain ⟨L₅, hclose⟩ :=
    closePdaAccount_succeeds_of_sum challenge buyer hw.writes_challenge hw.pays_rent hsum
  refine ⟨L₅, _, by rw [heq, hclose, ok_bind], ?_⟩
  -- Closing the challenge leaves the job as it was written.
  have hcj : challenge.key ≠ job.key := by
    intro he
    rw [he] at hch
    cases hch.symm.trans hacc.job_at
  have hcb : challenge.key ≠ bond.key := by
    intro he
    rw [he] at hch
    cases hch.symm.trans hacc.bond_at
  have hch₄ : L₄.recordAt P.programId challenge.key = some (.challenge ch) := by
    rw [← records_abs, habs₄, State.records_put_of_ne hcj, State.records_put_of_ne hcb, records_abs,
      hpaid.records_eq]
    exact hch
  have hdropped : abs P L₅ = (abs P L₄).drop challenge.key := abs_of_closePdaAccount hclose hch₄
  rw [← records_abs, hdropped, State.records_drop_of_ne hcj.symm, habs₄]
  exact State.records_put_self

/-- In every reached ledger what a job has locked is the minimum bond of the configuration. -/
theorem charged_of_reached (h : Reached P L) : Charged (abs P L) := by
  refine h.invariant (I := fun L => Charged (abs P L)) ?_ ?_
  · intro L hL a j hj
    cases (hL.recordAt_eq a).symm.trans hj
  · intro L action L' hcharged hs
    cases hs with
    | instruction signers ok =>
      obtain ⟨ix, -, hstep, -⟩ := refined_of_process signers ok
      exact hcharged.step hstep
    | thirdParty others =>
      intro a j hj
      rw [others.outside.records] at hj ⊢
      exact hcharged a j hj

theorem slashBond_succeeds_of_call {ch : ChallengeAccount} (h : Sound P L)
    (hj : L.recordAt P.programId a = some (.job j)) (hstate : j.state = .challenged)
    (hc : L.recordAt P.programId configKey = some (.config c))
    (hcall : SlashCall P ctx a j c.admin configKey bond vault escrow buyerToken challenge)
    (hch : L.recordAt P.programId challenge = some (.challenge ch)) (hopen : ctx.now < ch.deadline)
    (hwallet : P.Wallet j.buyer) (hbuyer : OrdinaryAt L buyerToken j.mint j.buyer)
    (hescrow : ThawedAt L escrow) (hvault : ThawedAt L vault) :
    ∃ L' ev, slashBond P ctx L = .ok (L', ev) ∧
      L'.recordAt P.programId a = some (.job (released j .slashed)) := by
  obtain ⟨b, hb, hof⟩ := h.bond_of_find hj (by rw [hstate]; rfl) hcall.bond_find
  have hacc : SlashAccounts P L c j b ch (.newReadonly configKey false) (.new a false)
      (.new bond false) (.new vault false) (.new escrow false) (.new buyerToken false)
      (.new challenge false) :=
    ⟨⟨hj, hcall.escrow_ata, hcall.buyer_ata, hescrow, hbuyer⟩, hc, hb, hof, hcall.vault_ata, hvault,
      hch, (h.challenge_of_found hj hstate hcall.challenge_find hch).2⟩
  have htoken : j.tokenProgram = tokenProgramId := (h.inv.valid a _ hj).2.2.2.2.1
  exact slashBond_succeeds h hcall.accounts hacc ⟨⟨rfl, rfl, rfl, rfl, htoken⟩, rfl, rfl, rfl, rfl,
    rfl⟩ rfl rfl hstate rfl hopen hwallet

/-- In every reached ledger the admin can slash a challenged job before its challenge runs out:
the slashing goes through and moves the minimum bond from the vault to the buyer. -/
theorem slash_succeeds {data : List UInt8} {ch : ChallengeAccount} (h : Reached P L)
    (hj : L.recordAt P.programId a = some (.job j)) (hstate : j.state = .challenged)
    (hc : L.recordAt P.programId configKey = some (.config c))
    (hcall : SlashCall P ctx a j c.admin configKey bond vault escrow buyerToken challenge)
    (hch : L.recordAt P.programId challenge = some (.challenge ch)) (hopen : ctx.now < ch.deadline)
    (hwallet : P.Wallet j.buyer) (hbuyer : OrdinaryAt L buyerToken j.mint j.buyer)
    (hescrow : ThawedAt L escrow) (hvault : ThawedAt L vault)
    (hparse : Instruction.parse data = .ok .slashBond) :
    j.lockedBond = c.minProviderBond ∧ 0 < c.minProviderBond ∧
      ∃ L' ev, process P ctx L data = .ok (L', ev) ∧
        PayoutEffect P (abs P L) (abs P L') a j .slashBond .slashed := by
  have hs := Sound.of_reached h
  have hne : j.lockedBond ≠ 0 := (hs.inv.valid.locked_iff hj).mpr (by rw [hstate]; rfl)
  obtain ⟨k, c', hc', hcharged⟩ := charged_of_reached h a j hj hne
  have hkey : k = configKey := hs.inv.found.eq_of_seeds hc' hc rfl
  subst hkey
  obtain rfl : c' = c := by simpa using hc'.symm.trans hc
  have hprocess : process P ctx L data = slashBond P ctx L := process_of_parse hparse
  obtain ⟨L', ev, hok, hj'⟩ := slashBond_succeeds_of_call hs hj hstate hc hcall hch hopen hwallet
    hbuyer hescrow hvault
  have heffect := (refined_of_slashBond hok).step.payout hs.inv.found hs.inv.valid hj
    (by rw [hstate]; rfl) hj' rfl
  refine ⟨hcharged, ?_, L', ev, hprocess.trans hok, heffect⟩
  rw [← hcharged]
  exact UInt64.pos_iff_ne_zero.mpr hne

end Recourse

namespace Sample

theorem wallet_of_notMem {t : AddressTable} {k : Pubkey} (h : k ∉ t.map Prod.snd) :
    (referencePlatform programId (by decide) (by decide) t digest).Wallet k := by
  intro owner mint hata
  obtain ⟨⟨k', bump⟩, hfind, hk⟩ := Option.map_eq_some_iff.mp hata
  obtain ⟨k'', hcreate, hk'⟩ := Option.map_eq_some_iff.mp hfind
  obtain ⟨l₁, l₂, he, -⟩ := List.lookup_eq_some_iff.mp hcreate
  apply h
  rw [← hk, ← congrArg Prod.fst hk', he]
  simp

theorem wallet_buyer : platform.Wallet buyer :=
  wallet_of_notMem (by decide)

/-- The refund of the sample job after its work deadline. -/
def refund : Ctx × List UInt8 :=
  call 301 .resolveTimeoutRefund
    [readonly admin, writable jobKey, writable bondKey, writable escrow, writable buyerToken,
      writable buyer, readonly mint, readonly tokenProgramId]

theorem refund_call :
    RefundCall platform refund.1 jobKey acceptedJob bondKey escrow buyerToken where
  accounts := ⟨readonly admin, rfl⟩
  bond_find := ⟨255, by decide⟩
  escrow_ata := by decide
  buyer_ata := by decide

/-- The slashing of the challenged sample job. -/
def slash : Ctx × List UInt8 :=
  call 70 .slashBond
    [.newReadonly admin true, readonly configKey, writable jobKey, writable bondKey, writable vault,
      writable escrow, writable buyerToken, writable buyer, writable challengeKey, readonly mint,
      readonly tokenProgramId]

theorem playable_slashing :
    Playable platform wallets ledger (submission ++ [challenge] ++ [slash]) := by
  decide +kernel

/-- The ledger after the buyer challenged the sample job. -/
def challengedLedger : Ledger := play platform ledger (submission ++ [challenge])

theorem reached_challengedLedger : Reached platform challengedLedger :=
  .of_run genesis (run_of_script playable_slashing.of_append)

def challengedJob : JobAccount := { submittedJob with state := .challenged }

theorem slash_call : SlashCall platform slash.1 jobKey challengedJob config.admin configKey bondKey
    vault escrow buyerToken challengeKey where
  accounts := rfl
  bond_find := ⟨255, by decide⟩
  vault_ata := by decide
  escrow_ata := by decide
  buyer_ata := by decide
  challenge_find := ⟨255, by decide⟩

theorem views_challengedLedger :
    challengedLedger.recordAt platform.programId jobKey = some (.job challengedJob) ∧
      challengedLedger.recordAt platform.programId configKey = some (.config config) ∧
      challengedLedger.recordAt platform.programId challengeKey =
        some (.challenge (challengedJob.challenge 255 jobKey (key 71) 1060)) ∧
      challengedLedger.tokenAt buyerToken = some (holding buyer 700) ∧
      challengedLedger.tokenAt escrow = some (holding jobKey 300) ∧
      challengedLedger.tokenAt vault = some (holding bondKey 120) := by
  decide +kernel

end Sample

/-- The accepted sample job is refunded after its work deadline. -/
theorem refund_succeeds_sample : ∃ L' ev,
    process Sample.platform Sample.refund.1 Sample.acceptedLedger Sample.refund.2 = .ok (L', ev) ∧
      PayoutEffect Sample.platform (abs Sample.platform Sample.acceptedLedger)
        (abs Sample.platform L') Sample.jobKey Sample.acceptedJob .resolveTimeoutRefund .refunded :=
  have ⟨hjob, _, hescrow, hbuyer⟩ := Sample.views_acceptedLedger
  refund_succeeds Sample.collisionFree Sample.reached_acceptedLedger hjob
    Sample.refund_call (Or.inr ⟨rfl, by decide +kernel⟩)
    ⟨_, hbuyer, Sample.ordinary_holding Sample.buyer 700⟩ ⟨_, hescrow, rfl⟩ (by decide +kernel)

/-- The bond of the challenged sample job is slashed. -/
theorem slash_succeeds_sample : Sample.challengedJob.lockedBond = Sample.config.minProviderBond ∧
    0 < Sample.config.minProviderBond ∧ ∃ L' ev,
      process Sample.platform Sample.slash.1 Sample.challengedLedger Sample.slash.2 =
          .ok (L', ev) ∧
        PayoutEffect Sample.platform (abs Sample.platform Sample.challengedLedger)
          (abs Sample.platform L') Sample.jobKey Sample.challengedJob .slashBond .slashed := by
  obtain ⟨hjob, hconfig, hch, hbuyer, hescrow, hvault⟩ := Sample.views_challengedLedger
  exact slash_succeeds Sample.reached_challengedLedger hjob rfl hconfig
    Sample.slash_call hch (by decide +kernel) Sample.wallet_buyer
    ⟨_, hbuyer, Sample.ordinary_holding Sample.buyer 700⟩ ⟨_, hescrow, rfl⟩ ⟨_, hvault, rfl⟩
    (by decide +kernel)

end AgentBond
