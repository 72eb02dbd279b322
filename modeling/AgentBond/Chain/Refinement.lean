import AgentBond.Chain.Abstraction

/-! # The processors refine the protocol

Every successful run of a processor is a protocol step between the meanings of
the ledgers before and after it, provided no address of the program signs, and
leaves no account of the program without a record.
-/

namespace AgentBond

open Foundation Protocol

/-- Nobody signs for an address that was derived for the program. -/
def SignedByWallets (P : Platform) (ctx : Ctx) : Prop :=
  ∀ m ∈ ctx.accounts, m.isSigner = true → ¬ P.Pda m.key

variable {P : Platform} {ctx : Ctx} {L L' : Ledger} {ev : ProtocolEvent}

/-- What a successful instruction does to the ledger. -/
structure Refined (P : Platform) (now : Int64) (L : Ledger) (ix : Instruction) (L' : Ledger) :
    Prop where
  step : Step P now (abs P L) ix (abs P L')
  tidy : Tidy P L ∅ → Tidy P L' ∅

theorem owner_of_records {k : Pubkey} {r : Record} (h : (abs P L).records k = some r) :
    (L.account k).owner = P.programId :=
  Ledger.owner_of_recordAt h

theorem refined_of_initializeConfig {payload : InitializeConfigPayload}
    (h : initializeConfig P ctx L payload = .ok (L', ev)) :
    Refined P ctx.now L (.initializeConfig payload) L' := by
  unfold initializeConfig at h
  split at h
  · simp only [bind_eq_ok, requireSigner, requireSystemProgram, requireLegacyTokenProgramId_eq_ok,
      requireUninitialized, ensure_eq_ok, exists_const, okOr_eq_ok, Prod.exists, Except.ok.injEq,
      Prod.mk.injEq] at h
    obtain ⟨-, -, htoken, hbond, hduration, hkeys, a, bump, hfind, rfl, -, L₁, hcreate, L₂, hsave,
      rfl, rfl⟩ := h
    obtain ⟨habs, hown, hfree⟩ := abs_of_createPdaAccount hcreate
    have hsaved := saved_of_saveConfig hsave hown
    refine ⟨?_, fun ht => ((ht.created hcreate).saved hsaved).mono (by simp)⟩
    rw [hsaved.abs_eq, habs]
    exact .initializeConfig hfind hfree htoken hbond hduration hkeys.1
  · cases h

theorem refined_of_setPaused {paused : Bool} (h : setPaused P ctx L paused = .ok (L', ev)) :
    Refined P ctx.now L (.setPaused paused) L' := by
  unfold setPaused at h
  split at h
  · simp only [bind_eq_ok, requireSigner, requireWritable, requireAdmin, requireKeysEq,
      loadValidatedConfig_eq_ok, ensure_eq_ok, exists_const, Except.ok.injEq, Prod.mk.injEq] at h
    obtain ⟨-, -, c, ⟨hc, -⟩, -, L₁, hsave, rfl, rfl⟩ := h
    have hsaved := saved_of_saveConfig hsave (owner_of_records hc)
    refine ⟨?_, fun ht => (ht.saved hsaved).mono (by simp)⟩
    rw [hsaved.abs_eq]
    exact .setPaused hc
  · cases h

theorem refined_of_registerProvider (hs : SignedByWallets P ctx)
    (h : registerProvider P ctx L = .ok (L', ev)) :
    Refined P ctx.now L .registerProvider L' := by
  unfold registerProvider at h
  split at h
  · rename_i hacc
    simp only [bind_eq_ok, requireSigner, requireSystemProgram, requireUninitialized,
      requireNotPaused, ensure_eq_ok, exists_const, okOr_eq_ok, Prod.exists, Except.ok.injEq,
      Prod.mk.injEq] at h
    obtain ⟨hsign, -, c, -, -, a, bump, hfind, rfl, -, L₁, hcreate, L₂, hsave, rfl, rfl⟩ := h
    obtain ⟨habs, hown, hfree⟩ := abs_of_createPdaAccount hcreate
    have hsaved := saved_of_saveProvider hsave hown
    refine ⟨?_, fun ht => ((ht.created hcreate).saved hsaved).mono (by simp)⟩
    rw [hsaved.abs_eq, habs]
    exact .registerProvider hfind hfree (hs _ (by simp [hacc]) hsign)
  · cases h

theorem refined_of_addExecutionKey {key : Pubkey}
    (h : addExecutionKey P ctx L key = .ok (L', ev)) :
    Refined P ctx.now L (.addExecutionKey key) L' := by
  unfold addExecutionKey at h
  split at h
  · simp only [bind_eq_ok, requireSigner, requireWritable, requireKeysEq,
      loadValidatedProvider_eq_ok, ensure_eq_ok, exists_const, Except.ok.injEq,
      Prod.mk.injEq] at h
    obtain ⟨-, -, -, p, ⟨hp, -⟩, -, p', hadd, L₁, hsave, rfl, rfl⟩ := h
    have hsaved := saved_of_saveProvider hsave (owner_of_records hp)
    refine ⟨?_, fun ht => (ht.saved hsaved).mono (by simp)⟩
    rw [hsaved.abs_eq]
    exact .addExecutionKey hp hadd
  · cases h

theorem refined_of_revokeExecutionKey {key : Pubkey}
    (h : revokeExecutionKey P ctx L key = .ok (L', ev)) :
    Refined P ctx.now L (.revokeExecutionKey key) L' := by
  unfold revokeExecutionKey at h
  split at h
  · simp only [bind_eq_ok, requireSigner, requireWritable, requireKeysEq,
      loadValidatedProvider_eq_ok, ensure_eq_ok, exists_const, Except.ok.injEq,
      Prod.mk.injEq] at h
    obtain ⟨-, -, p, ⟨hp, -⟩, -, p', hrevoke, L₁, hsave, rfl, rfl⟩ := h
    have hsaved := saved_of_saveProvider hsave (owner_of_records hp)
    refine ⟨?_, fun ht => (ht.saved hsaved).mono (by simp)⟩
    rw [hsaved.abs_eq]
    exact .revokeExecutionKey hp hrevoke
  · cases h

theorem abs_of_openBond {authority bondAccount : AccountMeta} {c : ConfigAccount} {bump : UInt8}
    {b : ProviderBondAccount} (h : openBond P L authority bondAccount c bump = .ok (L', b)) :
    abs P L' = abs P L ∧ (L'.account bondAccount.key).owner = P.programId ∧
      b.provider = authority.key ∧ b.mint = c.allowedMint ∧
      ((abs P L).records bondAccount.key = some (.bond b) ∨
        (abs P L).records bondAccount.key = none ∧ b = c.emptyBond bump authority.key) ∧
      (Tidy P L ∅ → Tidy P L' {bondAccount.key}) := by
  unfold openBond at h
  split at h
  · simp only [bind_eq_ok, requireUninitialized, ensure_eq_ok, exists_const, Except.ok.injEq,
      Prod.mk.injEq] at h
    obtain ⟨-, L₁, hcreate, rfl, rfl⟩ := h
    obtain ⟨habs, hown, hfree⟩ := abs_of_createPdaAccount hcreate
    exact ⟨habs, hown, rfl, rfl, Or.inr ⟨hfree, rfl⟩, fun ht => (ht.created hcreate).mono (by simp)⟩
  · simp only [bind_eq_ok, requireWritable, loadValidatedBond_eq_ok, ensure_eq_ok, exists_const,
      Except.ok.injEq, Prod.mk.injEq] at h
    obtain ⟨-, b, ⟨hb, -⟩, ⟨hp, hm⟩, rfl, rfl⟩ := h
    exact ⟨rfl, Ledger.owner_of_recordAt hb, hp, hm, Or.inl hb, fun ht => ht.mono (by simp)⟩

theorem refined_of_depositBond {amount : UInt64} (hs : SignedByWallets P ctx)
    (h : depositBond P ctx L amount = .ok (L', ev)) :
    Refined P ctx.now L (.depositBond amount) L' := by
  unfold depositBond at h
  split at h
  · rename_i hacc
    simp only [bind_eq_ok, requireSigner, requireSystemProgram, requireLegacyTokenProgram,
      requireLegacyTokenProgramId_eq_ok, loadValidatedConfigReadonly, requireReadonly,
      requireNotPaused, loadValidatedConfig_eq_ok,
      loadValidatedProvider_eq_ok, validateMint_eq_ok, validateTokenAccount_eq_ok,
      validateAta_eq_ok, ensure_eq_ok, exists_const, okOr_eq_ok, Prod.exists, Except.ok.injEq,
      Prod.mk.injEq] at h
    obtain ⟨hsign, -, -, -, c, ⟨-, hc, -⟩, -, -, p, -, -, -, -, m, ⟨ts, hts, hord, hm⟩, a, bump,
      hfind, rfl, L₁, b, hopen, n, ⟨hata, tv, htv, hvord, hn⟩, v, -, -, L₂, hxfer, deposited, hsum,
      L₃, hsave, rfl, rfl⟩ := h
    obtain ⟨habs, hown, hprov, hmint, hbond, htidy⟩ := abs_of_openBond hopen
    have htok : L₁.tokenAt = L.tokenAt := congrArg State.tokens habs
    obtain ⟨hpay, -, hle⟩ := abs_of_transferChecked hxfer (htok ▸ hts) hord.undelegated
    have hsame := account_of_transferChecked hxfer (htok ▸ hts) hord.undelegated hown
    obtain ⟨hsaved, hlocked⟩ := saved_of_saveBond hsave (by rw [hsame, hown])
    refine ⟨?_, fun ht => ?_⟩
    swap
    · exact (((htidy ht).transferred hxfer (htok ▸ hts) hord.undelegated).saved hsaved).mono
        (by simp)
    rw [hsaved.abs_eq, hpay, habs]
    rw [htok] at htv
    refine .depositBond hc ?_ (hprov ▸ hs _ (by simp [hacc]) hsign) (hmint ▸ hata)
      ⟨tv, htv, hmint ▸ hvord, hn⟩ ⟨ts, hts, by rwa [hmint, hprov], hm⟩ (hm ▸ hle) hsum
      hlocked
    rcases hbond with hb | ⟨hfree, rfl⟩
    · exact Or.inl ⟨hb, hmint⟩
    · exact Or.inr ⟨hfree, bump, hfind, rfl⟩
  · cases h

theorem refined_of_withdrawBond {amount : UInt64} (hs : SignedByWallets P ctx)
    (h : withdrawBond P ctx L amount = .ok (L', ev)) :
    Refined P ctx.now L (.withdrawBond amount) L' := by
  unfold withdrawBond at h
  split at h
  · rename_i hacc
    simp only [bind_eq_ok, requireSigner, requireWritable, requireLegacyTokenProgram,
      requireLegacyTokenProgramId_eq_ok, loadValidatedBond_eq_ok, orFail_eq_ok, validateMint_eq_ok,
      validateTokenAccount_eq_ok, validateAta_eq_ok, ensure_eq_ok, exists_const, okOr_eq_ok,
      Except.ok.injEq, Prod.mk.injEq] at h
    obtain ⟨hsign, -, -, -, b, ⟨hb, -⟩, hauth, -, u, -, -, d, -, -, n, ⟨hata, tv, htv, hvord, hn⟩,
      m, ⟨td, htd, hdord, hm⟩, L₁, hxfer, deposited, hdiff, hlocked, L₂, hsave, rfl, rfl⟩ := h
    obtain ⟨hpay, -, hle⟩ := abs_of_transferChecked hxfer htv hvord.undelegated
    have hown := Ledger.owner_of_recordAt hb
    have hsame := account_of_transferChecked hxfer htv hvord.undelegated hown
    obtain ⟨hsaved, -⟩ := saved_of_saveBond hsave (by rw [hsame, hown])
    refine
      ⟨?_, fun ht => ((ht.transferred hxfer htv hvord.undelegated).saved hsaved).mono (by simp)⟩
    rw [hsaved.abs_eq, hpay]
    exact .withdrawBond hb (hauth ▸ hs _ (by simp [hacc]) hsign) hata ⟨tv, htv, hvord, hn⟩
      ⟨td, htd, hauth ▸ hdord, hm⟩ (hn ▸ hle) hdiff hlocked
  · cases h

theorem refined_of_createJob {payload : CreateJobPayload} (hs : SignedByWallets P ctx)
    (h : createJob P ctx L payload = .ok (L', ev)) :
    Refined P ctx.now L (.createJob payload) L' ∧ ∃ m, ctx.accounts[3]? = some m ∧
      ∀ i, i ≠ m.key → L'.recordAt P.programId i = L.recordAt P.programId i := by
  unfold createJob at h
  split at h
  · rename_i hacc
    simp only [bind_eq_ok, requireSigner, requireSystemProgram, loadValidatedConfigReadonly,
      requireReadonly, requireNotPaused, requireLegacyTokenProgramId_eq_ok, requireUninitialized,
      loadValidatedConfig_eq_ok, loadValidatedProvider_eq_ok, ensure_eq_ok, exists_const,
      okOr_eq_ok, Prod.exists, Except.ok.injEq, Prod.mk.injEq] at h
    obtain ⟨hsign, -, c, ⟨-, hc, -⟩, -, htoken, hamount, -, horder, p, ⟨hp, -⟩, -, a, bump, hfind,
      rfl, -, L₁, hcreate, L₂, hsave, rfl, rfl⟩ := h
    obtain ⟨habs, hown, hfree⟩ := abs_of_createPdaAccount hcreate
    have hsaved := saved_of_saveJob hsave hown
    have hput := hsaved.abs_eq
    rw [habs] at hput
    refine
      ⟨⟨?_, fun ht => ((ht.created hcreate).saved hsaved).mono (by simp)⟩, _, by rw [hacc]; rfl,
      fun i hi => ?_⟩
    swap
    · rw [← records_abs, hput, State.records_put_of_ne hi, records_abs]
    rw [hput]
    exact .createJob hc htoken hp hfind hfree (hs _ (by simp [hacc]) hsign) hamount horder
  · cases h

theorem refined_of_fundJob (hs : SignedByWallets P ctx) (h : fundJob P ctx L = .ok (L', ev)) :
    Refined P ctx.now L .fundJob L' := by
  unfold fundJob at h
  split at h
  · rename_i hacc
    simp only [bind_eq_ok, requireSigner, requireWritable, requireLegacyTokenProgram,
      requireLegacyTokenProgramId_eq_ok, loadValidatedConfigReadonly, requireReadonly,
      requireNotPaused, loadValidatedConfig_eq_ok, loadValidatedJob_eq_ok, validateMint_eq_ok,
      validateTokenAccount_eq_ok, validateAta_eq_ok, transitionJob_eq_ok, ensure_eq_ok,
      exists_const, Except.ok.injEq, Prod.mk.injEq] at h
    obtain ⟨hsign, -, -, c, -, -, j, ⟨hj, -⟩, hbuyer, hstate, hopen, -, -, ⟨-, hmint⟩, m,
      ⟨ts, hts, hord, hm⟩, n, ⟨hata, te, hte, heord, hn⟩, rfl, L₁, hxfer, f, -, -, j', ⟨-, rfl⟩, L₂,
      hsave, rfl, rfl⟩ := h
    obtain ⟨hpay, -, hle⟩ := abs_of_transferChecked hxfer hts hord.undelegated
    have hown := Ledger.owner_of_recordAt hj
    have hsame := account_of_transferChecked hxfer hts hord.undelegated hown
    have hsaved := saved_of_saveJob hsave (by rw [hsame, hown])
    refine ⟨?_, fun ht => ((ht.transferred hxfer hts hord.undelegated).saved hsaved).mono (by simp)⟩
    rw [hsaved.abs_eq, hpay]
    exact .fundJob hj hstate hopen (hbuyer ▸ hs _ (by simp [hacc]) hsign) hmint hata
      ⟨te, hte, heord, hn⟩ ⟨ts, hts, hbuyer ▸ hord, hm⟩ (hm ▸ hle)
  · cases h

theorem owner_of_put {s : State} {k i : Pubkey} {r r' : Record} (h : abs P L' = s.put k r)
    (hi : s.records i = some r') : (L'.account i).owner = P.programId := by
  by_cases hk : i = k
  · subst hk
    exact owner_of_records (P := P) (r := r) (by rw [h, State.records_put_self])
  · exact owner_of_records (P := P) (r := r') (by rw [h, State.records_put_of_ne hk, hi])

theorem refined_of_acceptJob (h : acceptJob P ctx L = .ok (L', ev)) :
    Refined P ctx.now L .acceptJob L' := by
  unfold acceptJob at h
  split at h
  · simp only [bind_eq_ok, requireSigner, requireWritable, loadValidatedConfigReadonly,
      requireReadonly, requireNotPaused, loadValidatedConfig_eq_ok, loadValidatedProvider_eq_ok,
      loadValidatedJob_eq_ok, loadValidatedBond_eq_ok, transitionJob_eq_ok, orFail_eq_ok,
      ensure_eq_ok, exists_const, okOr_eq_ok, Except.ok.injEq, Prod.mk.injEq] at h
    obtain ⟨-, -, -, c, ⟨-, hc, -⟩, -, p, -, -, -, j, ⟨hj, -⟩, hprov, hstate, hopen, b, ⟨hb, -⟩,
      ⟨hbp, hbm⟩, -, u, -, -, locked, hsum, hlocked, j', ⟨-, rfl⟩, L₁, hsaveb, L₂, hsavej, rfl,
      rfl⟩ := h
    have h₁ := (saved_of_saveBond hsaveb (Ledger.owner_of_recordAt hb)).1
    have h₂ := saved_of_saveJob hsavej (owner_of_put h₁.abs_eq hj)
    refine ⟨?_, fun ht => ((ht.saved h₁).saved h₂).mono (by simp)⟩
    rw [h₂.abs_eq, h₁.abs_eq]
    exact .acceptJob hc hj hstate hopen hb (hbp.trans hprov.symm) hbm hsum hlocked
  · cases h

theorem refined_of_submitReceipt {r : AgentBondWorkReceiptV1}
    (h : submitReceipt P ctx L r = .ok (L', ev)) :
    Refined P ctx.now L (.submitReceipt r) L' := by
  unfold submitReceipt at h
  split at h
  · simp only [bind_eq_ok, requireWritable, loadValidatedConfigReadonly, requireReadonly,
      loadValidatedConfig_eq_ok, loadValidatedProvider_eq_ok, loadValidatedJob_eq_ok,
      checkReceiptFields, transitionJob_eq_ok, orFail_eq_ok, AgentBondWorkReceiptV1.digest,
      ensure_eq_ok, exists_const, Except.ok.injEq, Prod.mk.injEq] at h
    obtain ⟨-, c, ⟨-, hc, -⟩, p, -, -, j, ⟨hj, -⟩, hstate, -, htime, -, -,
      ⟨-, -, hjob, -, -, hrequest, -⟩, message, hencode, k, -, -, digest,
      ⟨message', hencode', rfl⟩, j', ⟨-, rfl⟩, L₁, hsave, rfl, rfl⟩ := h
    have hsaved := saved_of_saveJob hsave (Ledger.owner_of_recordAt hj)
    refine ⟨?_, fun ht => (ht.saved hsaved).mono (by simp)⟩
    rw [hsaved.abs_eq]
    exact .submitReceipt hc hj hstate htime hjob hrequest ⟨message', hencode', rfl⟩
  · cases h

theorem refined_of_challengeWork {reasonHash : Pubkey}
    (h : challengeWork P ctx L reasonHash = .ok (L', ev)) :
    Refined P ctx.now L (.challengeWork reasonHash) L' := by
  unfold challengeWork at h
  split at h
  · simp only [bind_eq_ok, requireSigner, requireWritable, requireSystemProgram,
      loadValidatedConfigReadonly, requireReadonly, loadValidatedConfig_eq_ok,
      loadValidatedJob_eq_ok, requireUninitialized, transitionJob_eq_ok, ensure_eq_ok,
      exists_const, okOr_eq_ok, Prod.exists, Except.ok.injEq, Prod.mk.injEq] at h
    obtain ⟨-, -, -, c, ⟨-, hc, -⟩, j, ⟨hj, -⟩, -, hstate, hopen, a, bump, hfind, rfl, -, deadline,
      hsum, L₁, hcreate, L₂, hsavec, j', ⟨-, rfl⟩, L₃, hsavej, rfl, rfl⟩ := h
    obtain ⟨habs, hown, hfree⟩ := abs_of_createPdaAccount hcreate
    have h₂ := saved_of_saveChallenge hsavec hown
    have habs₂ := h₂.abs_eq
    rw [habs] at habs₂
    have h₃ := saved_of_saveJob hsavej (owner_of_put habs₂ hj)
    refine ⟨?_, fun ht => (((ht.created hcreate).saved h₂).saved h₃).mono (by simp)⟩
    rw [h₃.abs_eq, habs₂]
    exact .challengeWork hc hj hstate hopen hfind hfree hsum
  · cases h

theorem refined_of_expireUnfunded (h : expireUnfunded P ctx L = .ok (L', ev)) :
    Refined P ctx.now L .expireUnfunded L' := by
  unfold expireUnfunded at h
  split at h
  · simp only [bind_eq_ok, requireWritable, loadValidatedJob_eq_ok, transitionJob_eq_ok,
      ensure_eq_ok, exists_const, Except.ok.injEq, Prod.mk.injEq] at h
    obtain ⟨-, j, ⟨hj, -⟩, hstate, hdue, j', ⟨-, rfl⟩, L₁, hsave, rfl, rfl⟩ := h
    have hsaved := saved_of_saveJob hsave (Ledger.owner_of_recordAt hj)
    refine ⟨?_, fun ht => (ht.saved hsaved).mono (by simp)⟩
    rw [hsaved.abs_eq]
    exact .expireUnfunded hj hstate hdue
  · cases h

theorem abs_of_closeEscrow {j : JobAccount} {jobAccount rentRecipient : AccountMeta}
    {escrow tokenProgram : Option AccountMeta}
    (h : closeEscrow P L j jobAccount rentRecipient escrow tokenProgram = .ok L') :
    (abs P L' = abs P L ∨
      ∃ k t, L.tokenAt k = some t ∧ t.amount = 0 ∧ abs P L' = (abs P L).removeToken k) ∧
      (Tidy P L ∅ → Tidy P L' ∅) := by
  unfold closeEscrow at h
  split at h
  · cases h; exact ⟨Or.inl rfl, id⟩
  · split at h
    · simp only [bind_eq_ok, okOr_eq_ok, requireLegacyTokenProgram,
        requireLegacyTokenProgramId_eq_ok, tokenAmount_eq_ok, ensure_eq_ok, exists_const] at h
      obtain ⟨-, -, -, n, ⟨t, ht, hn⟩, h0, h⟩ := h
      exact ⟨Or.inr ⟨_, t, ht, hn.trans h0, abs_of_closeTokenAccount h ht⟩,
        fun htidy => htidy.closedToken h⟩
    · cases h; exact ⟨Or.inl rfl, id⟩

theorem refined_of_closeJob (h : closeJob P ctx L = .ok (L', ev)) :
    Refined P ctx.now L .closeJob L' := by
  unfold closeJob at h
  split at h
  · simp only [bind_eq_ok, requireSigner, requireWritable, loadValidatedJob_eq_ok, ensure_eq_ok,
      exists_const, Except.ok.injEq, Prod.mk.injEq] at h
    obtain ⟨-, -, j, ⟨hj, -⟩, -, hterminal, -, L₁, hescrow, L₂, hclose, rfl, rfl⟩ := h
    obtain ⟨hview, htidy⟩ := abs_of_closeEscrow hescrow
    refine ⟨?_, fun ht => ((htidy ht).closedPda hclose).mono (by simp)⟩
    rcases hview with habs | ⟨k, t, ht, h0, habs⟩
    · have hrec : (abs P L₁).records = (abs P L).records := by rw [habs]
      rw [abs_of_closePdaAccount hclose ((congrFun hrec _).trans hj), habs]
      exact .closeJob hj hterminal
    · have hrec : (abs P L₁).records = (abs P L).records := by rw [habs]; rfl
      rw [abs_of_closePdaAccount hclose ((congrFun hrec _).trans hj), habs]
      exact .closeJobWith hj hterminal ht h0
  · cases h

section Payouts

variable {jobAccount bondAccount escrow providerToken buyerToken mint tokenProgram : AccountMeta}
  {j : JobAccount} {b : ProviderBondAccount} {s : State} {n : ℕ} {te : TokenAccount}

theorem abs_of_settle (habs : abs P L = s) (hj : s.records jobAccount.key = some (.job j))
    (haddr : P.addressOf (.job j) = some jobAccount.key)
    (hata : P.ata jobAccount.key j.mint = some escrow.key)
    (hescrow : L.tokenAt escrow.key = some te) (hord : te.Ordinary j.mint jobAccount.key)
    (hpata : P.ata j.provider j.mint = some providerToken.key)
    (hprovider : ∃ n, s.Holds providerToken.key j.mint j.provider n)
    (hbata : P.ata j.buyer j.mint = some buyerToken.key)
    (hbuyer : ∃ n, s.Holds buyerToken.key j.mint j.buyer n)
    (hbond : loadJobBond P L bondAccount j = .ok b)
    (h : settle P L j b jobAccount bondAccount escrow providerToken buyerToken mint = .ok L') :
    (∃ x : Settlement P s, x.jobKey = jobAccount.key ∧ x.job = j ∧ abs P L' = x.result) ∧
      (Tidy P L ∅ → Tidy P L' ∅) := by
  subst habs
  simp only [loadJobBond, bind_eq_ok, loadValidatedBond_eq_ok, ensure_eq_ok, exists_const,
    Except.ok.injEq] at hbond
  obtain ⟨b, ⟨hb, hbaddr⟩, ⟨hbp, hbm⟩, rfl⟩ := hbond
  simp only [settle, bind_eq_ok, tokenAmount_eq_ok, ensure_eq_ok, exists_const, Prod.exists,
    unlockJobBond_eq_ok, transitionJob_eq_ok] at h
  obtain ⟨L₁, hsurplus, L₂, hxfer, -, -, -, _, _, ⟨hle, rfl, rfl⟩, _, ⟨-, rfl⟩, L₃, hsaveb,
    hsavej⟩ := h
  obtain ⟨h₁, hprincipal⟩ := abs_of_returnSurplusToBuyer hsurplus hescrow hord.undelegated
  obtain ⟨m, hm⟩ := Tokens.move_some escrow.key buyerToken.key (te.amount - j.amount.toNat)
    _ hescrow
  have ht₁ : L₁.tokenAt escrow.key = some { te with amount := m } := by
    rw [← tokens_abs (P := P), h₁]; exact hm
  have h₂ := (abs_of_transferChecked (P := P) hxfer ht₁ hord.undelegated).1
  rw [h₁] at h₂
  have hrec : (abs P L₂).records = (abs P L).records := by rw [h₂]; rfl
  have h₃ := (saved_of_saveBond hsaveb (owner_of_records ((congrFun hrec _).trans hb))).1
  have h₄ := saved_of_saveJob hsavej (owner_of_put h₃.abs_eq ((congrFun hrec _).trans hj))
  refine ⟨?_, fun ht => ?_⟩
  swap
  · have hpaid := (ht.surplusReturned hsurplus hescrow hord.undelegated).transferred hxfer ht₁
      hord.undelegated
    exact ((hpaid.saved h₃).saved h₄).mono (by simp)
  refine ⟨{ jobKey := jobAccount.key, job := j, escrow := escrow.key, buyerToken := buyerToken.key,
            balance := te.amount, job_at := hj, job_address := haddr, escrow_ata := hata,
            escrow_holds := ⟨te, hescrow, hord, rfl⟩, buyer_ata := hbata, buyer_holds := hbuyer,
            principal_le := hprincipal, key := bondAccount.key, bond := b, bond_at := hb,
            bond_address := hbaddr, provider_eq := hbp, mint_eq := hbm, locked_le := hle,
            providerToken := providerToken.key, provider_ata := hpata,
            provider_holds := hprovider }, rfl, rfl, ?_⟩
  rw [h₄.abs_eq, h₃.abs_eq, h₂]
  rfl

theorem refined_of_acceptWork (h : acceptWork P ctx L = .ok (L', ev)) :
    Refined P ctx.now L .acceptWork L' := by
  unfold acceptWork at h
  split at h
  · simp only [bind_eq_ok, requireSigner, requireWritable, requireLegacyTokenProgram,
      requireLegacyTokenProgramId_eq_ok, loadValidatedJob_eq_ok, validateMint_eq_ok,
      validateAta_eq_ok, ensure_eq_ok, exists_const, Except.ok.injEq, Prod.mk.injEq] at h
    obtain ⟨-, -, -, -, j, ⟨hj, haddr⟩, hbuyer, hstate, -, -, n, ⟨hata, te, hte, heord, -⟩, np,
      ⟨hpata, tp, htp, hpord, -⟩, nb, ⟨hbata, tb, htb, hbord, -⟩, b, hbond, L₁, hsettle, rfl,
      rfl⟩ := h
    rw [← hbuyer] at hbata hbord
    obtain ⟨⟨x, -, hx, habs⟩, htidy⟩ := abs_of_settle rfl hj haddr hata hte heord hpata
      ⟨_, tp, htp, hpord, rfl⟩ hbata ⟨_, tb, htb, hbord, rfl⟩ hbond hsettle
    refine ⟨?_, htidy⟩
    rw [habs]
    exact .acceptWork x (by rw [hx, hstate])
  · cases h

/-- The deadline passes with the job submitted, or with its challenge open, which is closed. -/
theorem abs_of_settleDeadline {buyer : AccountMeta} {challengeAccount : Option AccountMeta}
    (h : settleDeadline P ctx L j jobAccount buyer challengeAccount = .ok L') :
    (j.state = .submitted ∧ j.autoSettleDeadline ≤ ctx.now ∧ L' = L ∨
      j.state = .challenged ∧ ∃ k c, L.recordAt P.programId k = some (.challenge c) ∧
        c.job = jobAccount.key ∧ c.deadline ≤ ctx.now ∧ abs P L' = (abs P L).drop k) ∧
      (Tidy P L ∅ → Tidy P L' ∅) := by
  unfold settleDeadline at h
  split at h
  · simp only [bind_eq_ok, ensure_eq_ok, exists_const, Except.ok.injEq] at h
    obtain ⟨hdue, rfl⟩ := h
    exact ⟨Or.inl ⟨‹_›, hdue, rfl⟩, id⟩
  · simp only [bind_eq_ok, okOr_eq_ok, loadValidatedChallenge_eq_ok, requireWritable, ensure_eq_ok,
      exists_const] at h
    obtain ⟨m, -, c, ⟨hc, -, hcjob⟩, -, hdue, -, -, hclose⟩ := h
    exact ⟨Or.inr ⟨‹_›, m.key, c, hc, hcjob, hdue, abs_of_closePdaAccount hclose hc⟩,
      fun ht => (ht.closedPda hclose).mono (by simp)⟩
  · cases h

theorem refined_of_resolveTimeoutSettle (h : resolveTimeoutSettle P ctx L = .ok (L', ev)) :
    Refined P ctx.now L .resolveTimeoutSettle L' ∧ ∃ m j, ctx.accounts[1]? = some m ∧
      (abs P L').records m.key = some (.job j) ∧ j.state = .settled := by
  unfold resolveTimeoutSettle at h
  split at h
  · rename_i hacc
    simp only [bind_eq_ok, requireWritable, requireLegacyTokenProgram,
      requireLegacyTokenProgramId_eq_ok, loadValidatedJob_eq_ok, validateMint_eq_ok,
      validateAta_eq_ok, ensure_eq_ok, exists_const, Except.ok.injEq, Prod.mk.injEq] at h
    obtain ⟨-, -, -, j, ⟨hj, haddr⟩, L₁, hdeadline, -, -, n, ⟨hata, te, hte, heord, -⟩, np,
      ⟨hpata, tp, htp, hpord, -⟩, nb, ⟨hbata, tb, htb, hbord, -⟩, -, b, hbond, L₂, hsettle, rfl,
      rfl⟩ := h
    obtain ⟨hview, htidy₁⟩ := abs_of_settleDeadline hdeadline
    rcases hview with
      ⟨hstate, hdue, rfl⟩ | ⟨hstate, k, c, hc, hcjob, hdue, habs₁⟩
    · obtain ⟨⟨x, hkey, hx, habs⟩, htidy⟩ := abs_of_settle rfl hj haddr hata hte heord hpata
        ⟨_, tp, htp, hpord, rfl⟩ hbata ⟨_, tb, htb, hbord, rfl⟩ hbond hsettle
      refine ⟨⟨?_, htidy⟩, _, released x.job .settled, by rw [hacc]; rfl, ?_, rfl⟩
      swap
      · rw [habs, ← hkey]; exact State.records_put_self
      rw [habs]
      exact .settleSubmitted x (by rw [hx, hstate]) (by rw [hx]; exact hdue)
    · have hne : ∀ {i}, L.recordAt P.programId i = some (.job j) → i ≠ k := by
        rintro i hi rfl
        rw [hi] at hc
        cases hc
      have hj₁ := (State.records_drop_of_ne (s := abs P L) (hne hj)).trans hj
      have htok : L₁.tokenAt = ((abs P L).drop k).tokens := congrArg State.tokens habs₁
      rw [htok] at htp htb
      obtain ⟨⟨x, hkey, hx, habs⟩, htidy⟩ := abs_of_settle habs₁ hj₁ haddr hata hte heord hpata
        ⟨_, tp, htp, hpord, rfl⟩ hbata ⟨_, tb, htb, hbord, rfl⟩ hbond hsettle
      refine ⟨⟨?_, fun ht => htidy (htidy₁ ht)⟩, _, released x.job .settled, by rw [hacc]; rfl, ?_,
        rfl⟩
      swap
      · rw [habs, ← hkey]; exact State.records_put_self
      rw [habs]
      exact .settleChallenged hc x (by rw [hx, hstate]) (by rw [hkey, hcjob]) hdue
  · cases h

theorem abs_of_refundPrincipalToBuyer {decimals : UInt8}
    (hj : (abs P L).records jobAccount.key = some (.job j))
    (haddr : P.addressOf (.job j) = some jobAccount.key)
    (h : refundPrincipalToBuyer P L j jobAccount escrow mint buyerToken tokenProgram decimals =
      .ok L') :
    (∃ x : Refund P (abs P L), x.jobKey = jobAccount.key ∧ x.job = j ∧
      x.buyerToken = buyerToken.key ∧ abs P L' = x.tokens) ∧ (Tidy P L ∅ → Tidy P L' ∅) := by
  simp only [refundPrincipalToBuyer, bind_eq_ok, requireWritable, requireLegacyTokenProgramId_eq_ok,
    validateMint_eq_ok, validateAta_eq_ok, parseTokenAccount_eq_ok, ensure_eq_ok,
    exists_const] at h
  obtain ⟨-, -, -, -, n, ⟨hata, te, hte, heord, -⟩, nb, ⟨hbata, tb, htb, hbord, -⟩, t, ht,
    hprincipal, hxfer⟩ := h
  obtain rfl := Option.some.inj (hte.symm.trans ht)
  refine ⟨?_, fun htidy => htidy.transferred hxfer hte heord.undelegated⟩
  exact ⟨{ jobKey := jobAccount.key, job := j, escrow := escrow.key, buyerToken := buyerToken.key,
           balance := te.amount, job_at := hj, job_address := haddr, escrow_ata := hata,
           escrow_holds := ⟨te, hte, heord, rfl⟩, buyer_ata := hbata,
           buyer_holds := ⟨_, tb, htb, hbord, rfl⟩, principal_le := hprincipal }, rfl, rfl, rfl,
    (abs_of_transferChecked hxfer hte heord.undelegated).1⟩

theorem refundDeadline_eq_ok {fundedOnly : Bool} {u : Unit}
    (h : refundDeadline ctx j fundedOnly = .ok u) :
    j.state = .funded ∧ j.acceptDeadline ≤ ctx.now ∨
      j.state = .accepted ∧ j.workDeadline < ctx.now ∧ fundedOnly = false := by
  unfold refundDeadline at h
  split at h
  · exact Or.inl ⟨‹_›, ensure_eq_ok.mp h⟩
  · exact Or.inr ⟨‹_›, ensure_eq_ok.mp h, rfl⟩
  · cases h

theorem refundBond_eq_ok {j' : JobAccount} {o : Option ProviderBondAccount}
    (h : refundBond P L j bondAccount = .ok (j', o)) :
    (j.lockedBond = 0 ∧ j' = j ∧ o = none) ∨
      ∃ b, L.recordAt P.programId bondAccount.key = some (.bond b) ∧
        P.addressOf (.bond b) = some bondAccount.key ∧ b.provider = j.provider ∧
        b.mint = j.mint ∧ j.lockedBond ≤ b.locked ∧ j' = { j with lockedBond := 0 } ∧
        o = some (unlockedBy j b) := by
  unfold refundBond at h
  split at h
  · simp only [bind_eq_ok, requireWritable, loadValidatedBond_eq_ok, ensure_eq_ok,
      exists_const] at h
    obtain ⟨-, b, ⟨hb, haddr⟩, h⟩ := h
    split at h
    · simp only [bind_eq_ok, Prod.exists, unlockJobBond_eq_ok, Except.ok.injEq,
        Prod.mk.injEq] at h
      obtain ⟨_, _, ⟨hle, rfl, rfl⟩, rfl, rfl⟩ := h
      rename_i hbj
      exact Or.inr ⟨b, hb, haddr, hbj.1, hbj.2, hle, rfl, rfl⟩
    · simp only [bind_eq_ok, ensure_eq_ok, exists_const, Except.ok.injEq, Prod.mk.injEq] at h
      obtain ⟨h0, rfl, rfl⟩ := h
      exact Or.inl ⟨h0, rfl, rfl⟩
  · simp only [bind_eq_ok, ensure_eq_ok, exists_const, Except.ok.injEq, Prod.mk.injEq] at h
    obtain ⟨h0, rfl, rfl⟩ := h
    exact Or.inl ⟨h0, rfl, rfl⟩

theorem refined_of_refundInternal {fundedOnly : Bool} {ix : Instruction}
    (hix : ix = .resolveTimeoutRefund ∧ fundedOnly = false ∨
      ix = .expireUnaccepted ∧ fundedOnly = true)
    (h : refundInternal P ctx L fundedOnly = .ok (L', ev)) :
    Refined P ctx.now L ix L' := by
  unfold refundInternal at h
  split at h
  · rename_i payer jobMeta bondMeta escrowMeta buyerTokenMeta buyerMeta mintMeta tokenProgramMeta
      rest hacc
    simp only [bind_eq_ok, requireWritable, requireLegacyTokenProgram,
      requireLegacyTokenProgramId_eq_ok, loadValidatedJob_eq_ok, transitionJob_eq_ok, ensure_eq_ok,
      exists_const, Prod.exists, Except.ok.injEq, Prod.mk.injEq] at h
    obtain ⟨-, -, j, ⟨hj, haddr⟩, _, hdeadline, -, L₁, hrefund, j₁, o, hbond, _, ⟨-, rfl⟩, L₂,
      hsaveb, L₃, hsavej, rfl, rfl⟩ := h
    obtain ⟨⟨x, hkey, rfl, -, h₁⟩, htidy⟩ := abs_of_refundPrincipalToBuyer hj haddr hrefund
    have hrec : (abs P L₁).records = (abs P L).records := by rw [h₁]; rfl
    have hdue : x.job.state = .funded ∧ x.job.acceptDeadline ≤ ctx.now ∨
        x.job.state = .accepted ∧ x.job.workDeadline < ctx.now ∧ ix = .resolveTimeoutRefund := by
      rcases refundDeadline_eq_ok hdeadline with hf | ⟨ha, hw, hfalse⟩
      · exact Or.inl hf
      · rcases hix with ⟨rfl, -⟩ | ⟨-, htrue⟩
        · exact Or.inr ⟨ha, hw, rfl⟩
        · rw [hfalse] at htrue; cases htrue
    have hkind : ix = .resolveTimeoutRefund ∨ ix = .expireUnaccepted := hix.imp And.left And.left
    rcases refundBond_eq_ok hbond with ⟨h0, rfl, rfl⟩ | ⟨b, hb, hbaddr, hbp, hbm, hle, rfl, rfl⟩
    · cases hsaveb
      have h₂ := saved_of_saveJob hsavej (owner_of_records ((congrFun hrec _).trans hj))
      refine ⟨?_, fun ht => ((htidy ht).saved h₂).mono (by simp)⟩
      have hstep := Step.refund hkind x hdue h0
      have hres : abs P L₃ = x.result := by
        rw [h₂.abs_eq, h₁, Refund.result, hkey, released, ← h0]
      rwa [hres]
    · have hb' := (congrFun hrec _).symm.trans hb
      have h₂ := (saved_of_saveBond (P := P) hsaveb (Ledger.owner_of_recordAt hb)).1
      have h₃ := saved_of_saveJob hsavej (owner_of_put h₂.abs_eq ((congrFun hrec _).trans hj))
      refine ⟨?_, fun ht => (((htidy ht).saved h₂).saved h₃).mono (by simp)⟩
      let y : JobBond P x :=
        { key := bondMeta.key, bond := b, bond_at := hb', bond_address := hbaddr,
          provider_eq := hbp, mint_eq := hbm, locked_le := hle }
      have hres : abs P L₃ = x.resultWith y := by
        rw [h₃.abs_eq, h₂.abs_eq, h₁, Refund.resultWith, hkey]; rfl
      rw [hres]
      exact .refundWith hkind x hdue y
  · cases h

theorem refined_of_slashBond (h : slashBond P ctx L = .ok (L', ev)) :
    Refined P ctx.now L .slashBond L' := by
  unfold slashBond at h
  split at h
  · rename_i admin configMeta jobMeta bondMeta vaultMeta escrowMeta buyerTokenMeta buyerMeta
      challengeMeta mintMeta tokenProgramMeta rest hacc
    simp only [bind_eq_ok, requireSigner, requireWritable, requireLegacyTokenProgram,
      requireLegacyTokenProgramId_eq_ok, loadValidatedConfigReadonly, requireReadonly,
      loadValidatedConfig_eq_ok, loadValidatedJob_eq_ok, loadValidatedChallenge_eq_ok,
      loadJobBond, loadValidatedBond_eq_ok, validateAta_eq_ok, validateMint_eq_ok,
      transitionJob_eq_ok, ensure_eq_ok, exists_const, okOr_eq_ok, Except.ok.injEq,
      Prod.mk.injEq] at h
    obtain ⟨-, -, -, -, -, c, -, -, j, ⟨hj, haddr⟩, hstate, ch, ⟨hch, -, hchjob⟩, -, hopen, -, L₁,
      hrefund, b, ⟨b, ⟨hb, hbaddr⟩, ⟨hbp, hbm⟩, rfl⟩, hne, ⟨hlocked, hdeposited⟩, n,
      ⟨hvata, tv, htv, hvord, -⟩, -, L₂, hxfer, locked, hlockedEq, deposited, hdepositedEq, j',
      ⟨-, rfl⟩, L₃, hsaveb, L₄, hsavej, L₅, hclose, rfl, rfl⟩ := h
    obtain ⟨⟨x, hkey, rfl, hbuyerToken, h₁⟩, htidy⟩ :=
      abs_of_refundPrincipalToBuyer hj haddr hrefund
    obtain ⟨h₂, -, hle⟩ := abs_of_transferChecked (P := P) hxfer htv hvord.undelegated
    have hrec₁ : (abs P L₁).records = (abs P L).records := by rw [h₁]; rfl
    have hrec₂ : (abs P L₂).records = (abs P L).records := by rw [h₂, h₁]; rfl
    have hb₀ := (congrFun hrec₁ _).symm.trans hb
    have h₃ := (saved_of_saveBond hsaveb (owner_of_records ((congrFun hrec₂ _).trans hb₀))).1
    have h₄ := saved_of_saveJob hsavej (owner_of_put h₃.abs_eq ((congrFun hrec₂ _).trans hj))
    refine ⟨?_, fun ht => ?_⟩
    swap
    · have hpaid := (htidy ht).transferred hxfer htv hvord.undelegated
      exact (((hpaid.saved h₃).saved h₄).closedPda hclose).mono (by simp)
    -- The challenge is neither of the two records that were saved.
    have hch₄ : (abs P L₄).records challengeMeta.key = some (.challenge ch) := by
      have hnj : challengeMeta.key ≠ jobMeta.key := by
        intro he; rw [he] at hch; cases hj.symm.trans hch
      have hnb : challengeMeta.key ≠ bondMeta.key := by
        intro he; rw [he] at hch; cases hb₀.symm.trans hch
      rw [h₄.abs_eq, State.records_put_of_ne hnj, h₃.abs_eq, State.records_put_of_ne hnb, hrec₂]
      exact hch
    have htok₁ : L₁.tokenAt = ((abs P L).pay x.escrow x.buyerToken x.balance).tokens :=
      congrArg State.tokens h₁
    let y : Slashing P (abs P L) :=
      { x with
        key := bondMeta.key, bond := b, bond_at := hb₀, bond_address := hbaddr, provider_eq := hbp,
        mint_eq := hbm, locked_le := hlocked, vault := vaultMeta.key, vaultBalance := tv.amount,
        vault_ata := hbm ▸ hvata, vault_holds := ⟨tv, by rw [← htok₁]; exact htv, hbm ▸ hvord, rfl⟩,
        slashed_ne := hne, slashed_le := hdeposited, slashed_le_vault := hle }
    have hsub : ∀ {u v w : UInt64}, checkedSub u v = some w → w = u - v := by
      intro u v w huv
      unfold checkedSub at huv
      split at huv
      · exact (Option.some.inj huv).symm
      · cases huv
    have hres : abs P L₄ = y.result := by
      rw [h₄.abs_eq, h₃.abs_eq, h₂, h₁, ← hkey, ← hbuyerToken, hsub hlockedEq, hsub hdepositedEq]
      rfl
    rw [abs_of_closePdaAccount hclose hch₄, hres]
    exact .slashBond hch y hstate (hchjob.trans hkey.symm) hopen
  · cases h

end Payouts

/-- Every successful instruction is a protocol step. -/
theorem refined_of_process {data : List UInt8} (hs : SignedByWallets P ctx)
    (h : process P ctx L data = .ok (L', ev)) :
    ∃ ix, Instruction.parse data = .ok ix ∧ Refined P ctx.now L ix L' := by
  simp only [process, bind_eq_ok, orFail_eq_ok] at h
  obtain ⟨ix, hparse, h⟩ := h
  refine ⟨ix, hparse, ?_⟩
  cases ix with
  | initializeConfig payload => exact refined_of_initializeConfig h
  | registerProvider => exact refined_of_registerProvider hs h
  | addExecutionKey key => exact refined_of_addExecutionKey h
  | revokeExecutionKey key => exact refined_of_revokeExecutionKey h
  | depositBond amount => exact refined_of_depositBond hs h
  | withdrawBond amount => exact refined_of_withdrawBond hs h
  | createJob payload => exact (refined_of_createJob hs h).1
  | fundJob => exact refined_of_fundJob hs h
  | acceptJob => exact refined_of_acceptJob h
  | submitReceipt receipt => exact refined_of_submitReceipt h
  | acceptWork => exact refined_of_acceptWork h
  | challengeWork reasonHash => exact refined_of_challengeWork h
  | resolveTimeoutSettle => exact (refined_of_resolveTimeoutSettle h).1
  | resolveTimeoutRefund => exact refined_of_refundInternal (Or.inl ⟨rfl, rfl⟩) h
  | expireUnfunded => exact refined_of_expireUnfunded h
  | expireUnaccepted => exact refined_of_refundInternal (Or.inr ⟨rfl, rfl⟩) h
  | slashBond => exact refined_of_slashBond h
  | closeJob => exact refined_of_closeJob h
  | setPaused paused => exact refined_of_setPaused h

end AgentBond
