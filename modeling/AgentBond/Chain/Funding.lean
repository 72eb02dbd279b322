import AgentBond.Chain.Timeouts

/-! # Funding a job

A job that waits for its funds is funded by its buyer exactly when its escrow
holds nothing yet and the mint is the one the job was created for. Tokens that
anybody has sent to the escrow before keep the job from being funded.
-/

namespace AgentBond

open Foundation Protocol

section Funding

variable {P : Platform} {ctx : Ctx} {L L' : Ledger} {a config buyerToken escrow : Pubkey}
  {j : JobAccount} {te : TokenAccount}

/-- The job is funded by its buyer, from its token account into the escrow. -/
structure FundCall (P : Platform) (ctx : Ctx) (a config : Pubkey) (j : JobAccount)
    (buyerToken escrow : Pubkey) : Prop where
  accounts : ∃ buyer : AccountMeta, buyer.key = j.buyer ∧ buyer.isSigner = true ∧ ctx.accounts =
    [buyer, .newReadonly config false, .new a false, .new buyerToken false, .new escrow false,
      .newReadonly j.mint false, .newReadonly j.tokenProgram false]
  escrow_ata : P.ata a j.mint = some escrow

/-- The job waits for its funds under the configuration it was created under, its buyer is a
wallet that can pay, and its escrow is there. -/
structure Fundable (P : Platform) (L : Ledger) (now : Int64) (a config : Pubkey) (j : JobAccount)
    (buyerToken escrow : Pubkey) (te : TokenAccount) : Prop where
  job_at : L.recordAt P.programId a = some (.job j)
  created : j.state = .created
  in_time : now < j.fundDeadline
  configured : ∃ c, L.recordAt P.programId config = some (.config c) ∧ c.paused = false ∧
    j.mint = c.allowedMint ∧ j.tokenProgram = c.tokenProgram
  payable : ∃ t, L.tokenAt buyerToken = some t ∧ t.Ordinary j.mint j.buyer ∧
    j.amount.toNat ≤ t.amount
  wallet : (L.account j.buyer).owner ≠ tokenProgramId
  escrow_at : L.tokenAt escrow = some te ∧ te.Ordinary j.mint a

/-- The mint of the job is initialized, with the decimals the job was created with. -/
def MintReady (L : Ledger) (j : JobAccount) : Prop :=
  ∃ m, L.mintAt j.mint = some m ∧ m.isInitialized = true ∧ m.decimals = j.mintDecimals

/-- The principal is in the escrow, and the job is funded. -/
def FundEffect (P : Platform) (L L' : Ledger) (a : Pubkey) (j : JobAccount)
    (buyerToken escrow : Pubkey) : Prop :=
  abs P L' = ((abs P L).pay buyerToken escrow j.amount.toNat).put a
    (.job { j with state := .funded })

theorem Fundable.escrow_ne (h : Fundable P L ctx.now a config j buyerToken escrow te)
    (hs : Sound P L) : escrow ≠ buyerToken := by
  obtain ⟨hescrow, hord⟩ := h.escrow_at
  obtain ⟨t, ht, hordb, -⟩ := h.payable
  rintro rfl
  obtain rfl := Option.some.inj (ht.symm.trans hescrow)
  exact (hs.inv.valid a _ h.job_at).1 (hordb.owner_eq ▸ hord.owner_eq ▸ hs.inv.found.pda h.job_at)

theorem AccountMeta.key_new (k : Pubkey) (signs : Bool) : (AccountMeta.new k signs).key = k := rfl

theorem AccountMeta.key_newReadonly (k : Pubkey) (signs : Bool) :
    (AccountMeta.newReadonly k signs).key = k := rfl

theorem fundJob_eq {buyer : AccountMeta} (hs : Sound P L)
    (h : Fundable P L ctx.now a config j buyerToken escrow te) (hm : MintReady L j)
    (hata : P.ata a j.mint = some escrow) (hkey : buyer.key = j.buyer)
    (hsigner : buyer.isSigner = true) (hctx : ctx.accounts =
      [buyer, .newReadonly config false, .new a false, .new buyerToken false, .new escrow false,
        .newReadonly j.mint false, .newReadonly j.tokenProgram false]) :
    fundJob P ctx L = (do
      ensure (te.amount = 0) (fail .escrowNotEmpty)
      let L₁ ← transferChecked P L (.new buyerToken false) (.newReadonly j.mint false)
        (.new escrow false) buyer j.amount.toNat j.mintDecimals none
      let funded ← tokenAmount L₁ (.new escrow false)
      ensure (funded = j.amount.toNat) (fail .escrowUnexpectedBalance)
      let job' ← transitionJob j .funded
      let L₂ ← saveJob L₁ (.new a false) job'
      .ok (L₂, emit ctx .jobFunded a buyer.key j.amount)) := by
  obtain ⟨c, hc, hpaused, hmint, htoken⟩ := h.configured
  obtain ⟨t, ht, hord, -⟩ := h.payable
  have hprogram : j.tokenProgram = tokenProgramId := (hs.inv.valid _ _ h.job_at).2.2.2.2.1
  have hlegacy : requireLegacyTokenProgram (.newReadonly j.tokenProgram false) = .ok () :=
    requireLegacyTokenProgramId_eq_ok.mpr hprogram
  have hconfig : loadValidatedConfig P L (.newReadonly config false) = .ok c :=
    loadValidatedConfig_eq_ok.mpr ⟨hc, hs.inv.found.address hc⟩
  have hjob : loadValidatedJob P L (.new a false) = .ok j :=
    loadValidatedJob_eq_ok.mpr ⟨h.job_at, hs.inv.found.address h.job_at⟩
  have hmints : validateMint L (.newReadonly j.mint false) j.mint j.mintDecimals = .ok () :=
    validateMint_eq_ok.mpr ⟨rfl, hm⟩
  have hpayer : validateTokenAccount L (.new buyerToken false) j.mint j.buyer = .ok t.amount :=
    validateTokenAccount_eq_ok.mpr ⟨t, ht, hord, rfl⟩
  have hescrow : validateAta P L (.new escrow false) a j.mint = .ok te.amount :=
    validateAta_eq_ok.mpr ⟨hata, te, h.escrow_at.1, h.escrow_at.2, rfl⟩
  have hreadonly : loadValidatedConfigReadonly P L (.newReadonly config false) = .ok c := hconfig
  have hwritable : requireWritable (.new a false) = .ok () := rfl
  simp only [fundJob, hctx, requireSigner, hsigner, hwritable, hlegacy, hreadonly, requireNotPaused,
    hpaused, hjob, hkey, h.created, h.in_time, ← hmint, ← htoken, and_self, hmints, hpayer,
    AccountMeta.key_new, AccountMeta.key_newReadonly, hescrow, ensure_true, ok_bind]

theorem fundTransfer_succeeds {buyer : AccountMeta} (hs : Sound P L)
    (h : Fundable P L ctx.now a config j buyerToken escrow te) (hm : MintReady L j)
    (hkey : buyer.key = j.buyer) (hsigner : buyer.isSigner = true) (hzero : te.amount = 0) :
    ∃ L₁, transferChecked P L (.new buyerToken false) (.newReadonly j.mint false)
        (.new escrow false) buyer j.amount.toNat j.mintDecimals none = .ok L₁ ∧
      abs P L₁ = (abs P L).pay buyerToken escrow j.amount.toNat ∧
      (L₁.account a = L.account a) ∧
      L₁.tokenAt escrow = some { te with amount := j.amount.toNat } := by
  obtain ⟨t, ht, hord, hle⟩ := h.payable
  obtain ⟨hescrow, horde⟩ := h.escrow_at
  have hset : j.mint ≠ zeroKey := (hs.inv.valid _ _ h.job_at).2.2.2.1
  have howner : (L.account buyer.key).owner ≠ tokenProgramId := hkey ▸ h.wallet
  have htransfer : ∃ L₁, transferChecked P L (.new buyerToken false) (.newReadonly j.mint false)
      (.new escrow false) buyer j.amount.toNat j.mintDecimals none = .ok L₁ :=
    transferChecked_succeeds rfl rfl hsigner
      ⟨hset, hm, ⟨t, ht, hord.mint_eq, hord.owner_eq.trans hkey.symm, hord.thawed, hle⟩,
        ⟨te, hescrow, horde.mint_eq, horde.thawed⟩, howner⟩
  obtain ⟨L₁, hpay⟩ := htransfer
  have habs := (abs_of_transferChecked hpay ht hord.undelegated).1
  have hsame := account_of_transferChecked hpay ht hord.undelegated
    (Ledger.owner_of_recordAt h.job_at)
  have htok : L₁.tokenAt = Tokens.move L.tokenAt buyerToken escrow j.amount.toNat :=
    congrArg State.tokens habs
  refine ⟨L₁, hpay, habs, hsame, ?_⟩
  rw [htok, Tokens.rebalanced_move, hescrow, Option.map_some]
  simp only [h.escrow_ne hs, if_false, if_true, hzero, Nat.zero_add]

theorem fundJob_succeeds (hs : Sound P L)
    (h : Fundable P L ctx.now a config j buyerToken escrow te) (hm : MintReady L j)
    (hcall : FundCall P ctx a config j buyerToken escrow) (hzero : te.amount = 0) :
    ∃ L' ev, fundJob P ctx L = .ok (L', ev) ∧ FundEffect P L L' a j buyerToken escrow := by
  obtain ⟨buyer, hkey, hsigner, hctx⟩ := hcall.accounts
  obtain ⟨L₁, hpay, habs, hsame, hfilled⟩ := fundTransfer_succeeds hs h hm hkey hsigner hzero
  have hlen : (L₁.account a).data.len = jobAccountLen := hsame ▸ len_of_job h.job_at
  obtain ⟨L₂, hsave⟩ := saveJob_succeeds (m := .new a false) (j := { j with state := .funded })
    rfl hlen
  have hsaved := saved_of_saveJob hsave
    ((congrArg Account.owner hsame).trans (Ledger.owner_of_recordAt h.job_at))
  refine ⟨L₂, emit ctx .jobFunded a buyer.key j.amount, ?_, hsaved.abs_eq.trans (by rw [habs]; rfl)⟩
  rw [fundJob_eq hs h hm hcall.escrow_ata hkey hsigner hctx]
  simp only [bind_eq_ok, ensure_eq_ok, exists_const, tokenAmount_eq_ok, transitionJob_eq_ok]
  exact ⟨hzero, L₁, hpay, _, ⟨_, hfilled, rfl⟩, rfl, _, ⟨by rw [h.created]; rfl, rfl⟩, L₂, hsave,
    rfl⟩

/-- Tokens in the escrow keep the job from being funded. -/
theorem fundJob_occupied (hs : Sound P L)
    (h : Fundable P L ctx.now a config j buyerToken escrow te) (hm : MintReady L j)
    (hcall : FundCall P ctx a config j buyerToken escrow) (hsome : te.amount ≠ 0) :
    fundJob P ctx L = .error (fail .escrowNotEmpty) := by
  obtain ⟨buyer, hkey, hsigner, hctx⟩ := hcall.accounts
  rw [fundJob_eq hs h hm hcall.escrow_ata hkey hsigner hctx, ensure, if_neg hsome]
  rfl

theorem empty_of_fundJob {ev : ProtocolEvent}
    (h : Fundable P L ctx.now a config j buyerToken escrow te)
    (hcall : FundCall P ctx a config j buyerToken escrow)
    (hok : fundJob P ctx L = .ok (L', ev)) : te.amount = 0 ∧ MintReady L j := by
  obtain ⟨buyer, hkey, -, hctx⟩ := hcall.accounts
  simp only [fundJob, hctx, bind_eq_ok, requireSigner, requireWritable, requireLegacyTokenProgram,
    requireLegacyTokenProgramId_eq_ok, loadValidatedConfigReadonly, requireReadonly,
    requireNotPaused, loadValidatedConfig_eq_ok, loadValidatedJob_eq_ok, validateMint_eq_ok,
    validateTokenAccount_eq_ok, validateAta_eq_ok, ensure_eq_ok, exists_const] at hok
  obtain ⟨-, -, -, c, -, -, j', ⟨hj', -⟩, -, -, -, -, -, ⟨-, hmint⟩, n, -, n',
    ⟨-, te', hte', -, hn'⟩, hzero, -⟩ := hok
  obtain rfl : j = j' := by simpa using h.job_at.symm.trans hj'
  obtain rfl := Option.some.inj (h.escrow_at.1.symm.trans hte')
  exact ⟨hn'.trans hzero, hmint⟩

/-- In every reached ledger a job that waits for its funds is funded by its buyer exactly when
its escrow holds nothing and its mint is in order; if the escrow holds anything, whoever sent it,
the call fails for it. -/
theorem funding_succeeds_iff {data : List UInt8} (h : Reached P L)
    (hready : Fundable P L ctx.now a config j buyerToken escrow te)
    (hcall : FundCall P ctx a config j buyerToken escrow)
    (hparse : Instruction.parse data = .ok .fundJob) :
    ((∃ L' ev, process P ctx L data = .ok (L', ev) ∧ FundEffect P L L' a j buyerToken escrow) ↔
        te.amount = 0 ∧ MintReady L j) ∧
      (MintReady L j → te.amount ≠ 0 → process P ctx L data = .error (fail .escrowNotEmpty)) := by
  have hprocess : process P ctx L data = fundJob P ctx L := process_of_parse hparse
  have hs := Sound.of_reached h
  rw [hprocess]
  refine ⟨⟨?_, ?_⟩, fun hm hsome => fundJob_occupied hs hready hm hcall hsome⟩
  · rintro ⟨L', ev, hok, -⟩
    exact empty_of_fundJob hready hcall hok
  · rintro ⟨hzero, hm⟩
    exact fundJob_succeeds hs hready hm hcall hzero

end Funding

namespace Sample

/-- The buyer funds the sample job. -/
def funding : Ctx × List UInt8 :=
  call 20 .fundJob
    [signer buyer, readonly configKey, writable jobKey, writable buyerToken, writable escrow,
      readonly mint, readonly tokenProgramId]

/-- The ledger after the sample job was created. -/
def unfundedLedger : Ledger := play platform ledger (setup ++ (engage 10 terms).take 1)

theorem reached_unfundedLedger : Reached platform unfundedLedger := reached_engaged 1

/-- Somebody sends one token to the escrow before it is funded. -/
def prefundedLedger : Ledger := Reference.setToken unfundedLedger escrow (holding jobKey 1)

/-- The sample job waits for its funds, with so many tokens in its escrow. -/
def Unfunded (L : Ledger) (n : ℕ) : Prop :=
  L.recordAt platform.programId jobKey = some (.job job) ∧
    L.recordAt platform.programId configKey = some (.config config) ∧
    L.mintAt mint = some { decimals := 6, isInitialized := true } ∧
    L.tokenAt buyerToken = some (holding buyer 1000) ∧
    (L.account buyer).owner ≠ tokenProgramId ∧ L.tokenAt escrow = some (holding jobKey n)

instance (L : Ledger) (n : ℕ) : Decidable (Unfunded L n) := inferInstanceAs (Decidable (_ ∧ _))

theorem views_unfundedLedger : Unfunded unfundedLedger 0 := by decide +kernel

theorem views_prefundedLedger : Unfunded prefundedLedger 1 ∧ prefundedLedger.Light ∧
    (process platform funding.1 prefundedLedger funding.2).isOk = false := by
  decide +kernel

theorem reached_prefundedLedger : Reached platform prefundedLedger := by
  obtain ⟨-, -, -, -, -, hescrow⟩ := views_unfundedLedger
  exact reached_unfundedLedger.tail
    (.thirdParty (.sendToken hescrow 1) views_prefundedLedger.2.1.capitalized)

theorem funding_call : FundCall platform funding.1 jobKey configKey job buyerToken escrow where
  accounts := ⟨signer buyer, rfl, rfl, rfl⟩
  escrow_ata := by decide

theorem Unfunded.fundable {L : Ledger} {n : ℕ} (h : Unfunded L n) :
    Fundable platform L funding.1.now jobKey configKey job buyerToken escrow
      (holding jobKey n) := by
  obtain ⟨hjob, hconfig, -, hbuyer, hwallet, hescrow⟩ := h
  exact
    { job_at := hjob
      created := rfl
      in_time := by decide
      configured := ⟨config, hconfig, rfl, rfl, rfl⟩
      payable := ⟨_, hbuyer, ordinary_holding buyer 1000, by decide⟩
      wallet := hwallet
      escrow_at := ⟨hescrow, ordinary_holding jobKey n⟩ }

theorem Unfunded.mintReady {L : Ledger} {n : ℕ} (h : Unfunded L n) : MintReady L job :=
  ⟨_, h.2.2.1, rfl, rfl⟩

end Sample

/-- The sample job is funded while its escrow is empty. -/
theorem funding_succeeds_iff_sample : ∃ L' ev,
    process Sample.platform Sample.funding.1 Sample.unfundedLedger Sample.funding.2 =
        .ok (L', ev) ∧
      FundEffect Sample.platform Sample.unfundedLedger L' Sample.jobKey Sample.job
        Sample.buyerToken Sample.escrow :=
  (funding_succeeds_iff Sample.reached_unfundedLedger Sample.views_unfundedLedger.fundable
      Sample.funding_call (by decide +kernel)).1.mpr ⟨rfl, Sample.views_unfundedLedger.mintReady⟩

/-- One token that anybody sends to the escrow keeps the sample job from being funded. -/
theorem funding_blocked_by_donation : Reached Sample.platform Sample.prefundedLedger ∧
    Fundable Sample.platform Sample.prefundedLedger Sample.funding.1.now Sample.jobKey
      Sample.configKey Sample.job Sample.buyerToken Sample.escrow
      (Sample.holding Sample.jobKey 1) ∧
    MintReady Sample.prefundedLedger Sample.job ∧
    FundCall Sample.platform Sample.funding.1 Sample.jobKey Sample.configKey Sample.job
      Sample.buyerToken Sample.escrow ∧
    Instruction.parse Sample.funding.2 = .ok .fundJob ∧
    ¬ ∃ L' ev, process Sample.platform Sample.funding.1 Sample.prefundedLedger Sample.funding.2 =
      .ok (L', ev) := by
  obtain ⟨hviews, -, hfail⟩ := Sample.views_prefundedLedger
  refine ⟨Sample.reached_prefundedLedger, hviews.fundable, hviews.mintReady, Sample.funding_call,
    by decide +kernel, ?_⟩
  rintro ⟨L', ev, hok⟩
  rw [hok] at hfail
  cases hfail

end AgentBond
