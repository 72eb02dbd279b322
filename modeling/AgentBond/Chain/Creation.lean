import AgentBond.Chain.Progress
import AgentBond.Chain.Script

/-! # Creating accounts

Registering a provider, opening a bond, creating a job and challenging it put a
record at a derived address. Nothing but lamports can sit there before, and the
call goes through exactly when there are none.
-/

namespace AgentBond

open Foundation Protocol

section Creation

variable {P : Platform} {ctx : Ctx} {L L' : Ledger} {ix : Instruction} {a k payer : Pubkey}
  {c : ConfigAccount} {j : JobAccount} {amount : UInt64} {bump : UInt8} {seeds : Seeds} {space : ℕ}

/-- A wallet with the rent-exempt balance of an account. -/
def CanPay (P : Platform) (L : Ledger) (payer : Pubkey) (space : ℕ) : Prop :=
  (L.account payer).Unused ∧ P.minimumBalance space ≤ (L.account payer).lamports

/-- The bond account of a deposit: a new one the authority can pay for, or its own with room for
the amount. -/
def BondReady (P : Platform) (L : Ledger) (c : ConfigAccount) (authority k : Pubkey)
    (amount : UInt64) : Prop :=
  (L.recordAt P.programId k = none ∧ CanPay P L authority providerBondAccountLen) ∨
    ((L.account authority).owner ≠ tokenProgramId ∧
      ∃ b, L.recordAt P.programId k = some (.bond b) ∧ b.provider = authority ∧
        b.mint = c.allowedMint ∧ b.deposited.toNat + amount.toNat < 2 ^ 64)

/-- A call that puts a record at the address and meets the conditions of its instruction. -/
inductive CreationCall (P : Platform) (ctx : Ctx) (L : Ledger) : Instruction → Pubkey → Prop
  | registerProvider {authority config k : Pubkey} {c : ConfigAccount} {bump : UInt8}
      (accounts : ctx.accounts = [.new authority true, .newReadonly config false, .new k false,
        .newReadonly systemProgramId false])
      (config_at : L.recordAt P.programId config = some (.config c)) (running : c.paused = false)
      (find : P.tryFindProgramAddress (providerSeedParts authority) P.programId = some (k, bump))
      (free : L.recordAt P.programId k = none)
      (payer : CanPay P L authority providerAccountLen) :
      CreationCall P ctx L .registerProvider k
  | depositBond {authority config provider k vault authorityToken : Pubkey} {c : ConfigAccount}
      {p : ProviderAccount} {bump : UInt8} {amount : UInt64} {t v : TokenAccount}
      (accounts : ctx.accounts = [.new authority true, .newReadonly config false,
        .newReadonly provider false, .new k false, .new vault false, .new authorityToken false,
        .newReadonly c.allowedMint false, .newReadonly tokenProgramId false,
        .newReadonly systemProgramId false])
      (positive : amount ≠ 0)
      (config_at : L.recordAt P.programId config = some (.config c)) (running : c.paused = false)
      (provider_at : L.recordAt P.programId provider = some (.provider p))
      (authority_eq : p.authority = authority) (active : p.status = providerStatusActive)
      (mint_at : ∃ m, L.mintAt c.allowedMint = some m ∧ m.isInitialized = true ∧
        m.decimals = c.mintDecimals)
      (token_at : L.tokenAt authorityToken = some t) (token : t.Ordinary c.allowedMint authority)
      (funds : amount.toNat ≤ t.amount)
      (find : P.tryFindProgramAddress (bondSeedParts authority c.allowedMint) P.programId =
        some (k, bump))
      (bond : BondReady P L c authority k amount)
      (vault_ata : P.ata k c.allowedMint = some vault) (vault_at : L.tokenAt vault = some v)
      (vault_token : v.Ordinary c.allowedMint k) :
      CreationCall P ctx L (.depositBond amount) k
  | createJob {buyer config provider k : Pubkey} {c : ConfigAccount} {p : ProviderAccount}
      {bump : UInt8} {payload : CreateJobPayload}
      (accounts : ctx.accounts = [.new buyer true, .newReadonly config false,
        .newReadonly provider false, .new k false, .newReadonly systemProgramId false])
      (config_at : L.recordAt P.programId config = some (.config c)) (running : c.paused = false)
      (positive : payload.amount ≠ 0) (request_set : payload.requestHash ≠ zeroKey)
      (deadlines : ctx.now < payload.fundDeadline ∧ payload.fundDeadline < payload.acceptDeadline ∧
        payload.acceptDeadline < payload.workDeadline ∧
        payload.workDeadline < payload.autoSettleDeadline)
      (provider_at : L.recordAt P.programId provider = some (.provider p))
      (active : p.status = providerStatusActive)
      (find : P.tryFindProgramAddress (jobSeedParts buyer p.authority payload.jobNonce)
        P.programId = some (k, bump))
      (free : L.recordAt P.programId k = none) (payer : CanPay P L buyer jobAccountLen) :
      CreationCall P ctx L (.createJob payload) k
  | challengeWork {config a k : Pubkey} {c : ConfigAccount} {j : JobAccount} {bump : UInt8}
      {reasonHash : Pubkey} {deadline : Int64}
      (accounts : ctx.accounts = [.new j.buyer true, .newReadonly config false, .new a false,
        .new k false, .newReadonly systemProgramId false])
      (config_at : L.recordAt P.programId config = some (.config c))
      (job_at : L.recordAt P.programId a = some (.job j)) (submitted : j.state = .submitted)
      (early : ctx.now < j.autoSettleDeadline)
      (find : P.tryFindProgramAddress (challengeSeedParts a) P.programId = some (k, bump))
      (deadline_eq : checkedAddI64 ctx.now c.challengeDurationSeconds = some deadline)
      (payer : CanPay P L j.buyer challengeAccountLen) :
      CreationCall P ctx L (.challengeWork reasonHash) k

theorem vacant_of_unused {x : Account} (hu : x.Unused) (h0 : x.lamports = 0) :
    x = Account.vacant := by
  obtain ⟨lamports, owner, data⟩ := x
  obtain ⟨rfl, rfl⟩ := hu
  cases h0
  rfl

/-- An address of the program without a record holds nothing but lamports. -/
theorem Sound.unused (h : Sound P L) (hk : P.Pda k) (hr : L.recordAt P.programId k = none) :
    (L.account k).Unused := by
  rcases h.tidy k hk (Set.notMem_empty k) with hu | ⟨r, hr'⟩
  · exact hu
  · cases hr.symm.trans hr'

theorem isUninitialized_of_unused {m : AccountMeta} (h : (L.account m.key).Unused) :
    isUninitialized L m :=
  ⟨h.1, by rw [h.2]; rfl⟩

theorem created_of_createPdaAccount {m m' : AccountMeta}
    (h : createPdaAccount P L m m' space seeds = .ok L') :
    L.AccountCreated m.key m'.key (P.minimumBalance space) space P.programId L' := by
  simp only [createPdaAccount, invokeCreateAccount, bind_eq_ok, requireWritable,
    requireUninitialized, ensure_eq_ok, exists_const] at h
  exact P.createAccount_ok h.2.2.2.2

theorem lamports_of_createPdaAccount {m m' : AccountMeta}
    (h : createPdaAccount P L m m' space seeds = .ok L') : (L.account m'.key).lamports = 0 := by
  rw [(created_of_createPdaAccount h).empty]
  rfl

theorem createPdaAccount_succeeds (hpay : CanPay P L payer space) (hw : ¬ P.Pda payer)
    (hspace : space ≤ maxDataIncrease)
    (hfind : P.tryFindProgramAddress seeds P.programId = some (k, bump))
    (hu : (L.account k).Unused) (h0 : (L.account k).lamports = 0) :
    ∃ L', createPdaAccount P L (.new payer true) (.new k false) space (seeds ++ [[bump]]) =
        .ok L' ∧ abs P L' = abs P L ∧ (L'.account k).data.len = space ∧
      (L'.account payer).owner = systemProgramId := by
  have hne : payer ≠ k := fun he => hw (he ▸ Platform.pda_of_find hfind)
  obtain ⟨L', hcreate⟩ := (createPdaAccount_succeeds_iff (.new payer true)
    (.new k false) ⟨rfl, rfl⟩ hpay.1 hpay.2 hspace rfl (P.create_of_find hfind) hne).mpr
      (vacant_of_unused hu h0)
  have hcreated : L.AccountCreated payer k _ space P.programId L' :=
    created_of_createPdaAccount hcreate
  refine ⟨L', hcreate, (abs_of_createPdaAccount hcreate).1, ?_, ?_⟩
  · rw [hcreated.created]
    exact List.length_replicate
  · rw [hcreated.charged]
    exact hcreated.payer_owner

theorem registerProvider_succeeds (h : Sound P L) (hs : SignedByWallets P ctx)
    (hcall : CreationCall P ctx L .registerProvider k) (h0 : (L.account k).lamports = 0) :
    ∃ L' ev, registerProvider P ctx L = .ok (L', ev) := by
  cases hcall with
  | @registerProvider authority _ _ c bump accounts config_at running find free payer =>
    have hw : ¬ P.Pda authority := hs (.new authority true) (by simp [accounts]) rfl
    have hu := h.unused (Platform.pda_of_find find) free
    obtain ⟨L₁, hcreate, -, hlen, -⟩ :=
      createPdaAccount_succeeds payer hw (by decide) find hu h0
    obtain ⟨L₂, hsave⟩ := saveProvider_registered_succeeds (L := L₁) (m := .new k false)
      bump authority rfl hlen
    refine ⟨L₂, emit ctx .providerRegistered k authority 0, ?_⟩
    simp only [registerProvider, accounts, bind_eq_ok, requireSigner, requireSystemProgram,
      loadValidatedConfigReadonly, requireReadonly, loadValidatedConfig_eq_ok, requireNotPaused,
      okOr_eq_ok, requireUninitialized, ensure_eq_ok, exists_const, Prod.exists]
    exact ⟨rfl, rfl, c, ⟨rfl, config_at, h.inv.found.address config_at⟩, running, k, bump, find,
      rfl, isUninitialized_of_unused hu, L₁, hcreate, L₂, hsave, rfl⟩

theorem createJob_succeeds {payload : CreateJobPayload} (h : Sound P L)
    (hs : SignedByWallets P ctx) (hcall : CreationCall P ctx L (.createJob payload) k)
    (h0 : (L.account k).lamports = 0) : ∃ L' ev, createJob P ctx L payload = .ok (L', ev) := by
  cases hcall with
  | @createJob buyer _ _ _ c p bump _ accounts config_at running positive request_set deadlines
      provider_at active find free payer =>
    have hw : ¬ P.Pda buyer := hs (.new buyer true) (by simp [accounts]) rfl
    have hu := h.unused (Platform.pda_of_find find) free
    have hlegacy : c.tokenProgram = tokenProgramId := (h.inv.valid _ _ config_at).2.2.2
    obtain ⟨L₁, hcreate, -, hlen, -⟩ :=
      createPdaAccount_succeeds payer hw (by decide) find hu h0
    obtain ⟨L₂, hsave⟩ := saveJob_succeeds (L := L₁) (m := .new k false)
      (j := payload.job c bump buyer p.authority) rfl hlen
    refine ⟨L₂, emit ctx .jobCreated k buyer payload.amount, ?_⟩
    simp only [createJob, accounts, bind_eq_ok, requireSigner, requireSystemProgram,
      loadValidatedConfigReadonly, requireReadonly, loadValidatedConfig_eq_ok, requireNotPaused,
      requireLegacyTokenProgramId_eq_ok, loadValidatedProvider_eq_ok, okOr_eq_ok,
      requireUninitialized, ensure_eq_ok, exists_const, Prod.exists]
    exact ⟨rfl, rfl, c, ⟨rfl, config_at, h.inv.found.address config_at⟩, running, hlegacy, positive,
      request_set, deadlines, p, ⟨provider_at, h.inv.found.address provider_at⟩, active, k, bump,
      find, rfl, isUninitialized_of_unused hu, L₁, hcreate, L₂, hsave, rfl⟩

theorem length_seeds (r : Record) : (r.seeds ++ [[r.bump]]).flatten.length = match r with
    | .config _ => 7
    | .provider _ => 41
    | .bond _ => 69
    | .job _ => 76
    | .challenge _ => 42 := by
  cases r <;> simp [Record.seeds, configSeedParts, configSeed, providerSeedParts, providerSeed,
    bondSeedParts, bondSeed, jobSeedParts, jobSeed, challengeSeedParts, challengeSeed]

/-- Only a challenge of the job can be at the address derived for it. -/
theorem record_at_challengeAddress {r : Record} (hP : P.CollisionFree (DerivedIn P L))
    (h : Sound P L) (hj : L.recordAt P.programId a = some (.job j))
    (hfind : P.tryFindProgramAddress (challengeSeedParts a) P.programId = some (k, bump))
    (hr : L.recordAt P.programId k = some r) : ∃ c, r = .challenge c ∧ c.job = a := by
  have hflat := hP (.record hr) (.challenge hj hfind) (h.inv.found.address hr)
    (P.create_of_find hfind)
  have hlen := congrArg List.length hflat
  rw [length_seeds] at hlen
  cases r with
  | challenge c =>
    refine ⟨c, rfl, ?_⟩
    simp only [Record.seeds, challengeSeedParts, List.cons_append, List.nil_append,
      List.flatten_cons, List.append_cancel_left_eq] at hflat
    exact List.Vector.eq _ _ (List.append_inj_left hflat (by simp))
  | _ => simp [challengeSeedParts, challengeSeed] at hlen

theorem record_at_bondAddress {r : Record} (hP : P.CollisionFree (DerivedIn P L)) (h : Sound P L)
    (hj : L.recordAt P.programId a = some (.job j))
    (hfind : P.tryFindProgramAddress (bondSeedParts j.provider j.mint) P.programId =
      some (k, bump)) (hr : L.recordAt P.programId k = some r) :
    ∃ b, r = .bond b ∧ b.provider = j.provider ∧ b.mint = j.mint := by
  have hflat := hP (.record hr) (.bond hj hfind) (h.inv.found.address hr) (P.create_of_find hfind)
  have hlen := congrArg List.length hflat
  rw [length_seeds] at hlen
  cases r with
  | bond b =>
    simp only [Record.seeds, bondSeedParts, List.cons_append, List.nil_append,
      List.flatten_cons, List.append_cancel_left_eq] at hflat
    refine ⟨b, rfl, List.Vector.eq _ _ (List.append_inj_left hflat (by simp)), ?_⟩
    have hrest := List.append_inj_right hflat (by simp)
    exact List.Vector.eq _ _ (List.append_inj_left hrest (by simp))
  | _ => simp [bondSeedParts, bondSeed] at hlen

/-- A submitted job has no challenge yet. -/
theorem challenge_free (hP : P.CollisionFree (DerivedIn P L)) (h : Sound P L)
    (hj : L.recordAt P.programId a = some (.job j)) (hstate : j.state = .submitted)
    (hfind : P.tryFindProgramAddress (challengeSeedParts a) P.programId = some (k, bump)) :
    L.recordAt P.programId k = none := by
  rw [Option.eq_none_iff_forall_not_mem]
  intro r hr
  obtain ⟨c, rfl, hc⟩ := record_at_challengeAddress hP h hj hfind hr
  obtain ⟨j', hj', hchallenged, -⟩ := h.inv.linked.challenge hr
  rw [hc, records_abs, hj, Option.some.injEq, Record.job.injEq] at hj'
  rw [← hj', hstate] at hchallenged
  cases hchallenged

theorem challengeWork_succeeds {reasonHash : Pubkey} (hP : P.CollisionFree (DerivedIn P L))
    (h : Sound P L) (hcall : CreationCall P ctx L (.challengeWork reasonHash) k)
    (h0 : (L.account k).lamports = 0) :
    ∃ L' ev, challengeWork P ctx L reasonHash = .ok (L', ev) := by
  cases hcall with
  | @challengeWork _ a _ c j bump _ deadline accounts config_at job_at submitted early find
      deadline_eq payer =>
    have hw : ¬ P.Pda j.buyer := (h.inv.valid _ _ job_at).1
    have hfree := challenge_free hP h job_at submitted find
    have hu := h.unused (Platform.pda_of_find find) hfree
    obtain ⟨L₁, hcreate, habs, hlen, -⟩ :=
      createPdaAccount_succeeds payer hw (by decide) find hu h0
    obtain ⟨L₂, hsave⟩ := saveChallenge_open_succeeds (L := L₁) (m := .new k false) j
      bump a reasonHash deadline rfl hlen
    have hsaved : Saved P L₁ k _ L₂ :=
      saved_of_saveChallenge hsave (abs_of_createPdaAccount hcreate).2.1
    have hak : a ≠ k := fun he => by
      rw [he, hfree] at job_at
      cases job_at
    have hj₂ : L₂.recordAt P.programId a = some (.job j) := by
      rw [← records_abs, hsaved.abs_eq, State.records_put_of_ne hak, habs]
      exact job_at
    obtain ⟨L₃, hsavej⟩ := saveJob_succeeds (L := L₂) (m := .new a false)
      (j := { j with state := .challenged }) rfl (len_of_job hj₂)
    refine ⟨L₃, emit ctx .jobChallenged a j.buyer 0, ?_⟩
    simp only [challengeWork, accounts, bind_eq_ok, requireSigner, requireWritable,
      requireSystemProgram, loadValidatedConfigReadonly, requireReadonly,
      loadValidatedConfig_eq_ok, loadValidatedJob_eq_ok, okOr_eq_ok, requireUninitialized,
      transitionJob_eq_ok, ensure_eq_ok, exists_const, Prod.exists]
    exact ⟨rfl, rfl, rfl, c, ⟨rfl, config_at, h.inv.found.address config_at⟩, j,
      ⟨job_at, h.inv.found.address job_at⟩, rfl, submitted, early, k, bump, find, rfl,
      isUninitialized_of_unused hu, deadline, deadline_eq, L₁, hcreate, L₂, hsave, _,
      ⟨by rw [submitted]; rfl, rfl⟩, L₃, hsavej, rfl⟩

theorem openBond_succeeds {authority : Pubkey} (h : Sound P L) (hw : ¬ P.Pda authority)
    (hfind : P.tryFindProgramAddress (bondSeedParts authority c.allowedMint) P.programId =
      some (k, bump))
    (hbond : BondReady P L c authority k amount)
    (h0 : (L.account k).Unused → (L.account k).lamports = 0) :
    ∃ L' b, openBond P L (.new authority true) (.new k false) c bump = .ok (L', b) ∧
      abs P L' = abs P L ∧ (L'.account k).data.len = providerBondAccountLen ∧
        (L'.account k).owner = P.programId ∧ (L'.account authority).owner ≠ tokenProgramId ∧
          b.deposited.toNat + amount.toNat < 2 ^ 64 ∧ b.locked ≤ b.deposited := by
  rcases hbond with ⟨hfree, hpay⟩ | ⟨howner, b, hb, hprovider, hmint, hroom⟩
  · have hu := h.unused (Platform.pda_of_find hfind) hfree
    obtain ⟨L₁, hcreate, habs, hlen, hpayer⟩ :=
      createPdaAccount_succeeds hpay hw (by decide) hfind hu (h0 hu)
    refine ⟨L₁, c.emptyBond bump authority, ?_, habs, hlen, (abs_of_createPdaAccount hcreate).2.1,
      by rw [hpayer]; decide, ?_, UInt64.le_refl _⟩
    · have huninitialized : isUninitialized L (.new k false) := isUninitialized_of_unused hu
      simp only [openBond, huninitialized, if_true, bind_eq_ok, requireUninitialized, ensure_eq_ok,
        exists_const]
      exact ⟨trivial, L₁, hcreate, rfl⟩
    · simpa [ConfigAccount.emptyBond] using amount.toNat_lt
  · have hinitialized : ¬ isUninitialized L (.new k false) := fun hu =>
      P.programId_ne_system ((Ledger.owner_of_recordAt hb).symm.trans hu.1)
    refine ⟨L, b, ?_, rfl, len_of_bond hb, Ledger.owner_of_recordAt hb, howner, hroom,
      (h.inv.valid _ _ hb).2⟩
    simp only [openBond, hinitialized, if_false, bind_eq_ok, requireWritable,
      loadValidatedBond_eq_ok, ensure_eq_ok, exists_const, Except.ok.injEq, Prod.mk.injEq]
    exact ⟨rfl, b, ⟨hb, h.inv.found.address hb⟩, ⟨hprovider, hmint⟩, trivial, rfl⟩

theorem depositBond_succeeds (h : Sound P L) (hs : SignedByWallets P ctx)
    (hcall : CreationCall P ctx L (.depositBond amount) k)
    (h0 : (L.account k).Unused → (L.account k).lamports = 0) :
    ∃ L' ev, depositBond P ctx L amount = .ok (L', ev) := by
  cases hcall with
  | @depositBond authority _ _ _ vault authorityToken c p bump _ t v accounts positive config_at
      running provider_at authority_eq active mint_at token_at token funds find bond vault_ata
      vault_at vault_token =>
    have hw : ¬ P.Pda authority := hs (.new authority true) (by simp [accounts]) rfl
    obtain ⟨-, -, hmint, hlegacy⟩ := h.inv.valid _ _ config_at
    obtain ⟨L₁, b, hopen, habs, hlen, hprogram, howner, hroom, hcovered⟩ :=
      openBond_succeeds h hw find bond h0
    have htok₁ : L₁.tokenAt = L.tokenAt := congrArg State.tokens habs
    have hmint₁ : L₁.mintAt = L.mintAt := congrArg State.mints habs
    -- The authority's tokens go to the vault.
    have ht₁ : L₁.tokenAt authorityToken = some t := by rw [htok₁]; exact token_at
    have hv₁ : L₁.tokenAt vault = some v := by rw [htok₁]; exact vault_at
    obtain ⟨L₂, htransfer⟩ : ∃ L₂, transferChecked P L₁ (.new authorityToken false)
        (.newReadonly c.allowedMint false) (.new vault false) (.new authority true) amount.toNat
        c.mintDecimals none = .ok L₂ := transferChecked_succeeds rfl rfl rfl
      ⟨hmint, by rw [hmint₁]; exact mint_at,
        ⟨t, ht₁, token.mint_eq, token.owner_eq, token.thawed, funds⟩,
        ⟨v, hv₁, vault_token.mint_eq, vault_token.thawed⟩, howner⟩
    -- The bond is written back with the deposit.
    have hdeposited : checkedAdd b.deposited amount = some (b.deposited + amount) := if_pos hroom
    have hcovered' : b.locked ≤ b.deposited + amount := by
      rw [UInt64.le_iff_toNat_le] at hcovered ⊢
      rw [toNat_of_checkedAdd hdeposited]
      omega
    have hlen₂ : (L₂.account k).data.len = providerBondAccountLen := by
      rw [account_of_transferChecked htransfer ht₁ token.undelegated hprogram]
      exact hlen
    obtain ⟨L₃, hsave⟩ := saveBond_succeeds (L := L₂) (m := .new k false)
      (b := { b with deposited := b.deposited + amount }) rfl hlen₂ hcovered'
    refine ⟨L₃, emit ctx .bondDeposited k authority amount, ?_⟩
    simp only [depositBond, accounts, bind_eq_ok, requireSigner, requireSystemProgram,
      requireLegacyTokenProgram, requireLegacyTokenProgramId_eq_ok, loadValidatedConfigReadonly,
      requireReadonly, loadValidatedConfig_eq_ok, requireNotPaused, loadValidatedProvider_eq_ok,
      validateMint_eq_ok, validateTokenAccount_eq_ok, validateAta_eq_ok, associatedTokenAddress,
      okOr_eq_ok, ensure_eq_ok, exists_const, Prod.exists]
    exact ⟨rfl, rfl, rfl, positive, c, ⟨rfl, config_at, h.inv.found.address config_at⟩, running,
      hlegacy.symm, p, ⟨provider_at, h.inv.found.address provider_at⟩, authority_eq, active,
      ⟨rfl, mint_at⟩, _, ⟨t, token_at, token, rfl⟩, k, bump, find, rfl, L₁, b, hopen, _,
      ⟨vault_ata, v, hv₁, vault_token, rfl⟩, vault, vault_ata, rfl, L₂, htransfer, _, hdeposited,
      L₃, hsave, rfl⟩

theorem lamports_of_creation {data : List UInt8} {ev : ProtocolEvent}
    (hcall : CreationCall P ctx L ix k) (hparse : Instruction.parse data = .ok ix)
    (hok : process P ctx L data = .ok (L', ev)) (hu : (L.account k).Unused) :
    (L.account k).lamports = 0 := by
  rw [process_of_parse hparse] at hok
  cases hcall with
  | registerProvider accounts =>
    simp only [processInstruction, registerProvider, accounts, bind_eq_ok, requireSigner,
      requireSystemProgram, loadValidatedConfigReadonly, requireReadonly, requireNotPaused,
      requireUninitialized, ensure_eq_ok, exists_const, Prod.exists] at hok
    obtain ⟨-, -, -, -, -, _, _, -, -, -, L₁, hcreate, -⟩ := hok
    exact lamports_of_createPdaAccount hcreate
  | depositBond accounts =>
    have huninitialized : isUninitialized L (.new k false) := isUninitialized_of_unused hu
    simp only [processInstruction, depositBond, accounts, openBond, huninitialized, if_true,
      bind_eq_ok, requireSigner, requireSystemProgram, requireLegacyTokenProgram,
      requireLegacyTokenProgramId_eq_ok, loadValidatedConfigReadonly, requireReadonly,
      requireNotPaused, requireUninitialized, ensure_eq_ok, exists_const, Except.ok.injEq,
      Prod.mk.injEq, Prod.exists] at hok
    obtain ⟨-, -, -, -, c, -, -, -, -, -, -, -, -, -, -, -, _, _, -, -, L₁, -, ⟨-, L₂, hcreate, -⟩,
      -⟩ := hok
    exact lamports_of_createPdaAccount hcreate
  | createJob accounts =>
    simp only [processInstruction, createJob, accounts, bind_eq_ok, requireSigner,
      requireSystemProgram, loadValidatedConfigReadonly, requireReadonly, requireNotPaused,
      requireLegacyTokenProgramId_eq_ok, requireUninitialized, ensure_eq_ok, exists_const,
      Prod.exists] at hok
    obtain ⟨-, -, -, -, -, -, -, -, -, p, -, -, _, _, -, -, -, L₁, hcreate, -⟩ := hok
    exact lamports_of_createPdaAccount hcreate
  | challengeWork accounts =>
    simp only [processInstruction, challengeWork, accounts, bind_eq_ok, requireSigner,
      requireWritable, requireSystemProgram, loadValidatedConfigReadonly, requireReadonly,
      requireUninitialized, ensure_eq_ok, exists_const, Prod.exists] at hok
    obtain ⟨-, -, -, -, -, -, -, -, -, -, _, _, -, -, -, -, -, L₁, hcreate, -⟩ := hok
    exact lamports_of_createPdaAccount hcreate

/-- In every reached ledger a call that creates an account and meets the other conditions of its
instruction goes through exactly when no lamports sit at the unused address. -/
theorem creation_succeeds_iff {data : List UInt8} (hP : P.CollisionFree (DerivedIn P L))
    (h : Reached P L) (hs : SignedByWallets P ctx) (hcall : CreationCall P ctx L ix k)
    (hparse : Instruction.parse data = .ok ix) :
    (∃ L' ev, process P ctx L data = .ok (L', ev)) ↔
      ((L.account k).Unused → (L.account k).lamports = 0) := by
  have hsound := Sound.of_reached h
  refine ⟨fun ⟨L', ev, hok⟩ => lamports_of_creation hcall hparse hok, fun h0 => ?_⟩
  rw [process_of_parse hparse]
  have hunused : ∀ {seeds : Seeds} {bump}, P.tryFindProgramAddress seeds P.programId =
      some (k, bump) → L.recordAt P.programId k = none → (L.account k).lamports = 0 :=
    fun hfind hfree => h0 (hsound.unused (Platform.pda_of_find hfind) hfree)
  cases hcall' : hcall with
  | registerProvider _ _ _ find free =>
    exact registerProvider_succeeds hsound hs hcall (hunused find free)
  | depositBond => exact depositBond_succeeds hsound hs hcall h0
  | createJob _ _ _ _ _ _ _ _ find free =>
    exact createJob_succeeds hsound hs hcall (hunused find free)
  | challengeWork _ _ job_at submitted _ find =>
    have hfree := challenge_free hP hsound job_at submitted find
    exact challengeWork_succeeds hP hsound hcall (hunused find hfree)

end Creation

namespace Sample

/-- The buyer challenges the work inside its window. -/
def challenge : Ctx × List UInt8 :=
  call 60 (.challengeWork (key 71))
    [signer buyer, readonly configKey, writable jobKey, writable challengeKey,
      readonly systemProgramId]

theorem signed_challenge : SignedByWallets platform challenge.1 := fun m hm hs =>
  not_pda_of_wallet _ ((by decide :
    ∀ m ∈ challenge.1.accounts, m.isSigner = true → m.key ∈ wallets) m hm hs)

theorem parse_challenge : Instruction.parse challenge.2 = .ok (.challengeWork (key 71)) := by
  decide

theorem challenge_call {L : Ledger}
    (hc : L.recordAt platform.programId configKey = some (.config config))
    (hj : L.recordAt platform.programId jobKey = some (.job submittedJob))
    (hpay : CanPay platform L buyer challengeAccountLen) :
    CreationCall platform challenge.1 L (.challengeWork (key 71)) challengeKey :=
  .challengeWork rfl hc hj rfl (by decide)
    (by decide : platform.tryFindProgramAddress (challengeSeedParts jobKey)
      platform.programId = some (challengeKey, 255))
    (by decide : checkedAddI64 60 1000 = some 1060) hpay

instance (L : Ledger) (payer : Pubkey) (space : ℕ) : Decidable (CanPay platform L payer space) :=
  inferInstanceAs (Decidable (_ ∧ _))

/-- Somebody sends a lamport to the address the challenge will have. -/
def dusted : Ledger := submittedLedger.put challengeKey { Account.vacant with lamports := 1 }

theorem views_challenge : submittedLedger.account challengeKey = Account.vacant ∧
    CanPay platform submittedLedger buyer challengeAccountLen := by
  decide +kernel

theorem views_dusted :
    dusted.Light ∧ dusted.recordAt platform.programId configKey = some (.config config) ∧
      dusted.recordAt platform.programId jobKey = some (.job submittedJob) ∧
      CanPay platform dusted buyer challengeAccountLen ∧
      (process platform challenge.1 dusted challenge.2).isOk = false := by
  decide +kernel

theorem reached_dusted : Reached platform dusted := by
  obtain ⟨hvacant, -⟩ := views_challenge
  refine reached_submittedLedger.tail
    (.thirdParty (.of_sameView fun k => ?_) views_dusted.1.capitalized)
  by_cases hk : k = challengeKey
  · subst hk
    rw [SameView, dusted, Ledger.account_put_self, hvacant]
    exact ⟨rfl, rfl⟩
  · exact sameView_of_eq (Ledger.account_put_of_ne _ _ hk)

end Sample

/-- The buyer of the sample can challenge the work. -/
theorem creation_succeeds_iff_sample : ∃ L' ev, process Sample.platform Sample.challenge.1
    Sample.submittedLedger Sample.challenge.2 = .ok (L', ev) :=
  (creation_succeeds_iff Sample.collisionFree Sample.reached_submittedLedger
    Sample.signed_challenge (Sample.challenge_call Sample.views_submittedLedger.2.1
      Sample.job_at_submittedLedger Sample.views_challenge.2) Sample.parse_challenge).mpr
    fun _ => congrArg Account.lamports Sample.views_challenge.1

/-- One lamport at the address of the challenge keeps the buyer of the sample from it. -/
theorem challenge_blocked_by_lamports : Reached Sample.platform Sample.dusted ∧
    SignedByWallets Sample.platform Sample.challenge.1 ∧
    CreationCall Sample.platform Sample.challenge.1 Sample.dusted
      (.challengeWork (Sample.key 71)) Sample.challengeKey ∧
    Instruction.parse Sample.challenge.2 = .ok (.challengeWork (Sample.key 71)) ∧
    ¬ ∃ L' ev, process Sample.platform Sample.challenge.1 Sample.dusted Sample.challenge.2 =
      .ok (L', ev) := by
  obtain ⟨-, hconfig, hjob, hpay, hfail⟩ := Sample.views_dusted
  refine ⟨Sample.reached_dusted, Sample.signed_challenge,
    Sample.challenge_call hconfig hjob hpay, Sample.parse_challenge, ?_⟩
  rintro ⟨L', ev, hok⟩
  rw [hok] at hfail
  cases hfail

end AgentBond
