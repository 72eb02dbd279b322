import AgentBond.Chain.Holdings
import AgentBond.Chain.Keys
import AgentBond.Chain.Terms
import AgentBond.Chain.Timeouts

/-! # What a bond is good for

A provider can take out of its bond, or pledge to one more job, exactly what its
live jobs have not locked. Nothing else stands in the way, and no run of the
program leaves any other part of the deposit out of reach.
-/

namespace AgentBond

open Foundation Protocol

section Bonds

variable {P : Platform} {ctx : Ctx} {L L' : Ledger} {a k config providerKey vault
  providerToken : Pubkey} {j : JobAccount} {b : ProviderBondAccount} {c : ConfigAccount}
  {p : ProviderAccount} {amount : UInt64} {ev : ProtocolEvent}

/-- What the live jobs of the provider have locked in the mint. -/
noncomputable def lockedByJobs (P : Platform) (L : Ledger) (provider mint : Pubkey) : ℕ :=
  ∑ a ∈ addresses, jobShare provider mint (L.recordAt P.programId a)

theorem Sound.locked_eq (h : Sound P L) (hb : L.recordAt P.programId k = some (.bond b)) :
    b.locked.toNat = lockedByJobs P L b.provider b.mint :=
  (h.bondAccounted hb).locked_eq

theorem Sound.unlocked_eq_ok (h : Sound P L) (hb : L.recordAt P.programId k = some (.bond b)) :
    b.unlocked = .ok (b.deposited - b.locked) := by
  rw [ProviderBondAccount.unlocked, checkedSub, if_pos (h.bondAccounted hb).locked_le]
  rfl

/-- What is left unlocked is what the deposit has over the locks of the jobs. -/
theorem Sound.le_unlocked_iff (h : Sound P L) (hb : L.recordAt P.programId k = some (.bond b)) :
    amount ≤ b.deposited - b.locked ↔
      amount.toNat + lockedByJobs P L b.provider b.mint ≤ b.deposited.toNat := by
  have hle := (h.bondAccounted hb).locked_le
  rw [← h.locked_eq hb, UInt64.le_iff_toNat_le, UInt64.toNat_sub_of_le _ _ hle]
  have := UInt64.le_iff_toNat_le.mp hle
  omega

section Withdrawals

/-- A withdrawal signed by the provider, with the accounts derived from its bond. -/
structure WithdrawCall (P : Platform) (ctx : Ctx) (k : Pubkey) (b : ProviderBondAccount)
    (vault providerToken : Pubkey) : Prop where
  accounts : ctx.accounts =
    [.newReadonly b.provider true, .new k false, .new vault false, .new providerToken false,
      .newReadonly b.mint false, .newReadonly b.tokenProgram false]
  vault_ata : P.ata k b.mint = some vault

/-- The vault and the mint of the bond and the token account of the provider are in order. -/
structure Withdrawable (P : Platform) (L : Ledger) (k : Pubkey) (b : ProviderBondAccount)
    (vault providerToken : Pubkey) : Prop where
  bond_at : L.recordAt P.programId k = some (.bond b)
  mint_at : ∃ m, L.mintAt b.mint = some m ∧ m.isInitialized = true
  vault_at : ThawedAt L vault
  provider_at : OrdinaryAt L providerToken b.mint b.provider

/-- The amount goes from the vault to the provider, and from the books. -/
def WithdrawEffect (P : Platform) (L L' : Ledger) (k : Pubkey) (b : ProviderBondAccount)
    (vault providerToken : Pubkey) (amount : UInt64) : Prop :=
  abs P L' = ((abs P L).pay vault providerToken amount.toNat).put k
    (.bond { b with deposited := b.deposited - amount })

theorem Sound.vault_at (h : Sound P L) (hb : L.recordAt P.programId k = some (.bond b))
    (hata : P.ata k b.mint = some vault) (hthawed : ThawedAt L vault) (hne : b.deposited ≠ 0) :
    ∃ t, L.tokenAt vault = some t ∧ t.Ordinary b.mint k ∧ b.deposited.toNat ≤ t.amount := by
  have howed : b.deposited.toNat ≠ 0 := fun h0 => hne (UInt64.toNat_inj.mp h0)
  have hbacked := h.inv.solvent k _ hb (Set.notMem_empty k)
  obtain ⟨t, ht, hmint, howner, hdelegate, hle⟩ := hbacked.secured hata howed
  obtain ⟨t', ht', hfrozen⟩ := hthawed
  obtain rfl := Option.some.inj (ht.symm.trans ht')
  exact ⟨t, ht, ⟨hmint, howner, hfrozen, hdelegate⟩, hle⟩

theorem withdrawTransfer_succeeds (h : Sound P L) (ht : Termed P L)
    (hready : Withdrawable P L k b vault providerToken) (hata : P.ata k b.mint = some vault)
    {m : MintAccount} (hm : L.mintAt b.mint = some m) (hinit : m.isInitialized = true)
    (hne : b.deposited ≠ 0) (hle : amount ≤ b.deposited) :
    ∃ L₁ t, L.tokenAt vault = some t ∧ t.Ordinary b.mint k ∧
      transferChecked P L (.new vault false) (.newReadonly b.mint false) (.new providerToken false)
        (.new k false) amount.toNat m.decimals
        (some (bondSignerSeeds b.provider b.mint b.bump)) = .ok L₁ ∧
      abs P L₁ = (abs P L).pay vault providerToken amount.toNat ∧
      L₁.account k = L.account k := by
  have hb := hready.bond_at
  obtain ⟨t, htok, hord, hcovers⟩ := h.vault_at hb hata hready.vault_at hne
  obtain ⟨tp, htp, hordp⟩ := hready.provider_at
  have howner := Ledger.owner_of_recordAt hb
  have hpays : L.Transferable vault b.mint providerToken k amount.toNat m.decimals :=
    { mint_set := (ht.bond_set h hb).1
      mint_at := ⟨m, hm, hinit, rfl⟩
      debited := ⟨t, htok, hord.mint_eq, hord.owner_eq, hord.thawed,
        (UInt64.le_iff_toNat_le.mp hle).trans hcovers⟩
      credited := ⟨tp, htp, hordp.mint_eq, hordp.thawed⟩
      single_owner := fun he => P.programId_ne_token (howner.symm.trans he) }
  have htransfer : ∃ L₁, transferChecked P L (.new vault false) (.newReadonly b.mint false)
      (.new providerToken false) (.new k false) amount.toNat m.decimals
      (some (bondSignerSeeds b.provider b.mint b.bump)) = .ok L₁ :=
    transferChecked_succeeds rfl rfl (Or.inl (h.inv.found.address hb)) hpays
  obtain ⟨L₁, hpay⟩ := htransfer
  exact ⟨L₁, t, htok, hord, hpay, (abs_of_transferChecked hpay htok hord.undelegated).1,
    account_of_transferChecked hpay htok hord.undelegated howner⟩

theorem withdrawBond_succeeds (h : Sound P L) (ht : Termed P L)
    (hready : Withdrawable P L k b vault providerToken)
    (hcall : WithdrawCall P ctx k b vault providerToken) (hne : amount ≠ 0)
    (hle : amount.toNat + lockedByJobs P L b.provider b.mint ≤ b.deposited.toNat) :
    ∃ L' ev, withdrawBond P ctx L amount = .ok (L', ev) ∧
      WithdrawEffect P L L' k b vault providerToken amount := by
  have hb := hready.bond_at
  obtain ⟨m, hm, hinit⟩ := hready.mint_at
  obtain ⟨tp, htp, hordp⟩ := hready.provider_at
  have hunlocked : amount ≤ b.deposited - b.locked := (h.le_unlocked_iff hb).mpr hle
  have hdeposited : amount ≤ b.deposited := UInt64.le_iff_toNat_le.mpr (by omega)
  have hsome : b.deposited ≠ 0 := by
    intro h0
    rw [h0] at hdeposited
    exact hne (UInt64.toNat_inj.mp (Nat.le_zero.mp (UInt64.le_iff_toNat_le.mp hdeposited)))
  obtain ⟨L₁, t, htok, hord, hpay, habs, hsame⟩ :=
    withdrawTransfer_succeeds h ht hready hcall.vault_ata hm hinit hsome hdeposited
  -- The jobs stay covered by what is left.
  have hcovered : b.locked ≤ b.deposited - amount := by
    rw [UInt64.le_iff_toNat_le, UInt64.toNat_sub_of_le _ _ hdeposited, h.locked_eq hb]
    omega
  have hlen : (L₁.account k).data.len = providerBondAccountLen := hsame ▸ len_of_bond hb
  obtain ⟨L₂, hsave⟩ := saveBond_succeeds (m := .new k false)
    (b := { b with deposited := b.deposited - amount }) rfl hlen hcovered
  have hsaved := (saved_of_saveBond hsave
    ((congrArg Account.owner hsame).trans (Ledger.owner_of_recordAt hb))).1
  refine ⟨L₂, emit ctx .bondWithdrawn k b.provider amount, ?_,
    hsaved.abs_eq.trans (by rw [habs]; rfl)⟩
  have htoken := (ht.bond_set h hb).2
  have hdiff : checkedSub b.deposited amount = some (b.deposited - amount) := if_pos hdeposited
  simp only [withdrawBond, hcall.accounts, bind_eq_ok, requireSigner, requireWritable,
    requireLegacyTokenProgram, requireLegacyTokenProgramId_eq_ok, loadValidatedBond_eq_ok,
    orFail_eq_ok, parseMint, validateMint_eq_ok, validateTokenAccount_eq_ok, validateAta_eq_ok,
    ensure_eq_ok, okOr_eq_ok, exists_const]
  exact ⟨rfl, rfl, htoken, hne, b, ⟨hb, h.inv.found.address hb⟩, rfl, rfl, _, h.unlocked_eq_ok hb,
    hunlocked, m, hm, ⟨rfl, m, hm, hinit, rfl⟩, _, ⟨hcall.vault_ata, t, htok, hord, rfl⟩, _,
    ⟨tp, htp, hordp, rfl⟩, L₁, hpay, _, hdiff, hcovered, L₂, hsave, rfl⟩

theorem unlocked_of_withdrawBond (h : Sound P L) (hb : L.recordAt P.programId k = some (.bond b))
    (hcall : WithdrawCall P ctx k b vault providerToken)
    (hok : withdrawBond P ctx L amount = .ok (L', ev)) :
    amount ≠ 0 ∧ amount.toNat + lockedByJobs P L b.provider b.mint ≤ b.deposited.toNat := by
  simp only [withdrawBond, hcall.accounts, bind_eq_ok, requireSigner, requireWritable,
    requireLegacyTokenProgram, requireLegacyTokenProgramId_eq_ok, loadValidatedBond_eq_ok,
    orFail_eq_ok, ensure_eq_ok, exists_const] at hok
  obtain ⟨-, -, -, hne, b', ⟨hb', -⟩, -, -, u, hu, hle, -⟩ := hok
  obtain rfl := Record.bond.inj (Option.some.inj (hb.symm.trans hb'))
  obtain rfl := Except.ok.inj ((h.unlocked_eq_ok hb).symm.trans hu)
  exact ⟨hne, (h.le_unlocked_iff hb).mp hle⟩

/-- In every reached ledger a provider withdraws an amount from its bond exactly when it asks for
something and the live jobs leave that much of the deposit unlocked. -/
theorem withdrawal_succeeds_iff {data : List UInt8} (h : Reached P L)
    (hready : Withdrawable P L k b vault providerToken)
    (hcall : WithdrawCall P ctx k b vault providerToken)
    (hparse : Instruction.parse data = .ok (.withdrawBond amount)) :
    (∃ L' ev, process P ctx L data = .ok (L', ev) ∧
        WithdrawEffect P L L' k b vault providerToken amount) ↔
      amount ≠ 0 ∧ amount.toNat + lockedByJobs P L b.provider b.mint ≤ b.deposited.toNat := by
  have hprocess : process P ctx L data = withdrawBond P ctx L amount := process_of_parse hparse
  have hs := Sound.of_reached h
  rw [hprocess]
  constructor
  · rintro ⟨L', ev, hok, -⟩
    exact unlocked_of_withdrawBond hs hready.bond_at hcall hok
  · rintro ⟨hne, hle⟩
    exact withdrawBond_succeeds hs (termed_of_reached h) hready hcall hne hle

end Withdrawals

section Acceptance

/-- The provider accepts the job, with its own accounts. -/
structure AcceptCall (ctx : Ctx) (a config providerKey k : Pubkey) (j : JobAccount) : Prop where
  accounts : ctx.accounts =
    [.newReadonly j.provider true, .newReadonly config false, .newReadonly providerKey false,
      .new k false, .new a false]

/-- The job is funded and waits for its provider, who is registered and has a bond in its mint. -/
structure Acceptable (P : Platform) (L : Ledger) (now : Int64) (a config providerKey k : Pubkey)
    (j : JobAccount) (c : ConfigAccount) (b : ProviderBondAccount) : Prop where
  job_at : L.recordAt P.programId a = some (.job j)
  funded : j.state = .funded
  in_time : now < j.acceptDeadline
  config_at : L.recordAt P.programId config = some (.config c)
  running : c.paused = false
  provider_at : ∃ p, L.recordAt P.programId providerKey = some (.provider p) ∧
    p.authority = j.provider
  bond_at : L.recordAt P.programId k = some (.bond b)
  bond_of : b.provider = j.provider ∧ b.mint = j.mint

/-- The job is accepted, with the part of the bond that the configuration asks for. -/
def acceptedWith (j : JobAccount) (c : ConfigAccount) : JobAccount :=
  { j with lockedBond := c.minProviderBond, state := .accepted }

def AcceptEffect (P : Platform) (L L' : Ledger) (a k : Pubkey) (j : JobAccount)
    (c : ConfigAccount) (b : ProviderBondAccount) : Prop :=
  abs P L' = ((abs P L).put k (.bond { b with locked := b.locked + c.minProviderBond })).put a
    (.job (acceptedWith j c))

theorem lock_fits (h : Sound P L) (hb : L.recordAt P.programId k = some (.bond b))
    (hle : c.minProviderBond.toNat + lockedByJobs P L b.provider b.mint ≤ b.deposited.toNat) :
    checkedAdd b.locked c.minProviderBond = some (b.locked + c.minProviderBond) ∧
      b.locked + c.minProviderBond ≤ b.deposited := by
  rw [← h.locked_eq hb] at hle
  have hlt := b.deposited.toNat_lt
  have hsum : checkedAdd b.locked c.minProviderBond = some (b.locked + c.minProviderBond) :=
    if_pos (by omega)
  refine ⟨hsum, UInt64.le_iff_toNat_le.mpr ?_⟩
  rw [toNat_of_checkedAdd hsum]
  omega

theorem acceptJob_succeeds (h : Sound P L) (ht : Termed P L) (hkeyed : Keyed P L)
    (hready : Acceptable P L ctx.now a config providerKey k j c b)
    (hcall : AcceptCall ctx a config providerKey k j)
    (hle : c.minProviderBond.toNat + lockedByJobs P L b.provider b.mint ≤ b.deposited.toNat) :
    ∃ L' ev, acceptJob P ctx L = .ok (L', ev) ∧ AcceptEffect P L L' a k j c b := by
  have hj := hready.job_at
  have hb := hready.bond_at
  obtain ⟨p, hp, hauthority⟩ := hready.provider_at
  obtain ⟨hsum, hfits⟩ := lock_fits h hb hle
  obtain ⟨L₁, hsaveb⟩ := saveBond_succeeds (m := .new k false)
    (b := { b with locked := b.locked + c.minProviderBond }) rfl (len_of_bond hb) hfits
  have hsavedb := (saved_of_saveBond (P := P) hsaveb (Ledger.owner_of_recordAt hb)).1
  have hak : a ≠ k := fun he => by
    rw [he] at hj
    cases hj.symm.trans hb
  have hj₁ : L₁.recordAt P.programId a = some (.job j) := by
    rw [← records_abs, hsavedb.abs_eq]
    exact (State.records_put_of_ne hak).trans hj
  obtain ⟨L₂, hsavej⟩ := saveJob_succeeds (L := L₁) (m := .new a false) (j := acceptedWith j c) rfl
    (len_of_job hj₁)
  have hsavedj := saved_of_saveJob (P := P) hsavej (Ledger.owner_of_recordAt hj₁)
  refine ⟨L₂, emit ctx .jobAccepted a j.provider c.minProviderBond, ?_,
    hsavedj.abs_eq.trans (by rw [hsavedb.abs_eq]; rfl)⟩
  have hfound := h.inv.found
  have hactive := (hkeyed _ _ hp p rfl).1
  have htoken : b.tokenProgram = j.tokenProgram :=
    (ht.bond_set h hb).2.trans (h.inv.valid _ _ hj).2.2.2.2.1.symm
  simp only [acceptJob, hcall.accounts, bind_eq_ok, requireSigner, requireWritable,
    loadValidatedConfigReadonly, requireReadonly, requireNotPaused, loadValidatedConfig_eq_ok,
    loadValidatedProvider_eq_ok, loadValidatedJob_eq_ok, loadValidatedBond_eq_ok, orFail_eq_ok,
    transitionJob_eq_ok, ensure_eq_ok, okOr_eq_ok, exists_const]
  exact ⟨rfl, rfl, rfl, c, ⟨rfl, hready.config_at, hfound.address hready.config_at⟩,
    hready.running, p, ⟨hp, hfound.address hp⟩, hauthority, hactive, j, ⟨hj, hfound.address hj⟩,
    hauthority.symm, hready.funded, hready.in_time, b, ⟨hb, hfound.address hb⟩,
    ⟨hready.bond_of.1.trans hauthority.symm, hready.bond_of.2⟩, htoken, _, h.unlocked_eq_ok hb,
    (h.le_unlocked_iff hb).mpr hle, _, hsum, hfits, _, ⟨by rw [hready.funded]; rfl, rfl⟩, L₁,
    hsaveb, L₂, hsavej, rfl⟩

theorem unlocked_of_acceptJob (h : Sound P L)
    (hready : Acceptable P L ctx.now a config providerKey k j c b)
    (hcall : AcceptCall ctx a config providerKey k j)
    (hok : acceptJob P ctx L = .ok (L', ev)) :
    c.minProviderBond.toNat + lockedByJobs P L b.provider b.mint ≤ b.deposited.toNat := by
  simp only [acceptJob, hcall.accounts, bind_eq_ok, requireSigner, requireWritable,
    loadValidatedConfigReadonly, requireReadonly, requireNotPaused, loadValidatedConfig_eq_ok,
    loadValidatedProvider_eq_ok, loadValidatedJob_eq_ok, loadValidatedBond_eq_ok, orFail_eq_ok,
    ensure_eq_ok, exists_const] at hok
  obtain ⟨-, -, -, c', ⟨-, hc', -⟩, -, _, -, -, -, _, -, -, -, -, b', ⟨hb', -⟩, -, -, u, hu, hle,
    -⟩ := hok
  obtain rfl := Record.config.inj (Option.some.inj (hready.config_at.symm.trans hc'))
  obtain rfl := Record.bond.inj (Option.some.inj (hready.bond_at.symm.trans hb'))
  obtain rfl := Except.ok.inj ((h.unlocked_eq_ok hready.bond_at).symm.trans hu)
  exact (h.le_unlocked_iff hready.bond_at).mp hle

/-- In every reached ledger a provider accepts a job that waits for it exactly when its live jobs
leave unlocked what the configuration asks for. -/
theorem acceptance_succeeds_iff {data : List UInt8} (h : Reached P L)
    (hready : Acceptable P L ctx.now a config providerKey k j c b)
    (hcall : AcceptCall ctx a config providerKey k j)
    (hparse : Instruction.parse data = .ok .acceptJob) :
    (∃ L' ev, process P ctx L data = .ok (L', ev) ∧ AcceptEffect P L L' a k j c b) ↔
      c.minProviderBond.toNat + lockedByJobs P L b.provider b.mint ≤ b.deposited.toNat := by
  have hprocess : process P ctx L data = acceptJob P ctx L := process_of_parse hparse
  have hs := Sound.of_reached h
  rw [hprocess]
  constructor
  · rintro ⟨L', ev, hok, -⟩
    exact unlocked_of_acceptJob hs hready hcall hok
  · exact acceptJob_succeeds hs (termed_of_reached h) (Keyed.of_reached h) hready hcall

end Acceptance

end Bonds

namespace Sample

/-- The provider takes out of its bond what the sample job leaves unlocked. -/
def withdrawal : Ctx × List UInt8 :=
  call 45 (.withdrawBond 70)
    [.newReadonly provider true, writable bondKey, writable vault, writable providerToken,
      readonly mint, readonly tokenProgramId]

/-- The bond of the sample provider, with so much of it locked. -/
def bond (locked : UInt64) : ProviderBondAccount :=
  { bump := 255, provider, mint, tokenProgram := tokenProgramId, deposited := 120, locked }

theorem withdraw_call :
    WithdrawCall platform withdrawal.1 bondKey (bond 50) vault providerToken where
  accounts := rfl
  vault_ata := by decide

theorem withdrawable_acceptedLedger :
    Withdrawable platform acceptedLedger bondKey (bond 50) vault providerToken := by
  have hviews : acceptedLedger.tokenAt vault = some (holding bondKey 120) ∧
      acceptedLedger.tokenAt providerToken = some (holding provider 380) ∧
      acceptedLedger.mintAt mint = some { decimals := 6, isInitialized := true } := by
    decide +kernel
  obtain ⟨hvault, hprovider, hmint⟩ := hviews
  exact ⟨views_acceptedLedger.2.1, ⟨_, hmint, rfl⟩, ⟨_, hvault, rfl⟩,
    ⟨_, hprovider, ordinary_holding provider 380⟩⟩

/-- The sample job is funded, and nobody has accepted it. -/
def fundedLedger : Ledger := play platform ledger (setup ++ (engage 10 terms).take 2)

theorem reached_fundedLedger : Reached platform fundedLedger := reached_engaged 2

def fundedJob : JobAccount := { job with state := .funded }

def acceptance : Ctx × List UInt8 :=
  call 15 .acceptJob
    [.newReadonly provider true, readonly configKey, readonly providerKey, writable bondKey,
      writable jobKey]

theorem acceptable_fundedLedger : Acceptable platform fundedLedger acceptance.1.now jobKey configKey
    providerKey bondKey fundedJob config (bond 0) := by
  have hviews : fundedLedger.recordAt platform.programId jobKey = some (.job fundedJob) ∧
      fundedLedger.recordAt platform.programId configKey = some (.config config) ∧
      fundedLedger.recordAt platform.programId providerKey =
        some (.provider registeredProvider) ∧
      fundedLedger.recordAt platform.programId bondKey = some (.bond (bond 0)) := by
    decide +kernel
  obtain ⟨hjob, hconfig, hprovider, hbond⟩ := hviews
  exact ⟨hjob, rfl, by decide, hconfig, rfl, ⟨_, hprovider, rfl⟩, hbond, rfl, rfl⟩

end Sample

/-- The sample provider takes out the 70 that its job leaves of the 120 deposited. -/
theorem withdrawal_succeeds_iff_sample : ∃ L' ev,
    process Sample.platform Sample.withdrawal.1 Sample.acceptedLedger Sample.withdrawal.2 =
        .ok (L', ev) ∧
      WithdrawEffect Sample.platform Sample.acceptedLedger L' Sample.bondKey (Sample.bond 50)
        Sample.vault Sample.providerToken 70 := by
  have hlocked :=
    (Sound.of_reached Sample.reached_acceptedLedger).locked_eq Sample.views_acceptedLedger.2.1
  refine (withdrawal_succeeds_iff Sample.reached_acceptedLedger Sample.withdrawable_acceptedLedger
    Sample.withdraw_call (by decide)).mpr ⟨by decide, ?_⟩
  exact (congrArg (_ + ·) hlocked).symm.le.trans (by decide)

/-- The sample provider accepts the sample job while its whole bond is unlocked. -/
theorem acceptance_succeeds_iff_sample : ∃ L' ev,
    process Sample.platform Sample.acceptance.1 Sample.fundedLedger Sample.acceptance.2 =
        .ok (L', ev) ∧
      AcceptEffect Sample.platform Sample.fundedLedger L' Sample.jobKey Sample.bondKey
        Sample.fundedJob Sample.config (Sample.bond 0) := by
  have hlocked := (Sound.of_reached Sample.reached_fundedLedger).locked_eq
    Sample.acceptable_fundedLedger.bond_at
  refine (acceptance_succeeds_iff Sample.reached_fundedLedger Sample.acceptable_fundedLedger ⟨rfl⟩
    (by decide)).mpr ?_
  exact (congrArg (_ + ·) hlocked).symm.le.trans (by decide)

end AgentBond
