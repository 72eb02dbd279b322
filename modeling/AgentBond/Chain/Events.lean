import AgentBond.Chain.Creation
import AgentBond.Protocol.Lifecycle

/-! # What the events say

The event of each instruction on jobs, except the closing, names the job account
that the instruction changes. The events of the other instructions name records
of other kinds, and the event of a closing names the buyer.
-/

namespace AgentBond

open Foundation Protocol

variable {P : Platform} {ctx : Ctx} {L L₁ L' : Ledger} {ev : ProtocolEvent} {m : AccountMeta}
  {j j' : JobAccount} {kind : ProtocolEventKind}

/-- The event is of the kind and names a job account that changes. -/
structure Announces (P : Platform) (L L' : Ledger) (kind : ProtocolEventKind)
    (ev : ProtocolEvent) : Prop where
  kind_eq : ev.kind = kind
  changed : (abs P L').jobAt ev.subject ≠ (abs P L).jobAt ev.subject

theorem jobAt_of_saveJob (h : saveJob L₁ m j' = .ok L') :
    ∀ i, (abs P L').jobAt m.key = some i → i = j' := by
  intro i hi
  simp only [saveJob, writeAccountData, bind_eq_ok, requireWritable, ensure_eq_ok, exists_const,
    Except.ok.injEq] at h
  obtain ⟨-, -, rfl⟩ := h
  have hr := (recordAt_eq_some.mp (State.jobAt_eq_some.mp hi)).2
  rw [Ledger.account_put_self] at hr
  have hsaved : Record.decode j'.encode = some (.job j') :=
    Record.decode_eq_job.mpr j'.decode_encode
  exact (Record.job.inj (Option.some.inj (hsaved.symm.trans hr))).symm

theorem jobAt_of_closePdaAccount {account recipient : AccountMeta} {k : Pubkey}
    (h : closePdaAccount L account recipient = .ok L') :
    ∀ i, (abs P L').jobAt k = some i → (abs P L).jobAt k = some i := by
  intro i hi
  simp only [closePdaAccount, bind_eq_ok, requireWritable, ensure_eq_ok, exists_const,
    Except.ok.injEq] at h
  obtain ⟨-, -, -, rfl⟩ := h
  rw [State.jobAt_eq_some, records_abs, recordAt_eq_some] at hi ⊢
  by_cases hk : k = account.key
  · subst hk
    rw [Ledger.account_put_self] at hi
    exact absurd hi.1.symm P.programId_ne_system
  · rw [Ledger.account_put_of_ne _ _ hk] at hi
    by_cases hr : k = recipient.key
    · subst hr
      rw [Ledger.account_put_self] at hi
      exact hi
    · rwa [Ledger.account_put_of_ne _ _ hr] at hi

theorem announces_of_saveJob {actor : Pubkey} {amount : UInt64} (hsave : saveJob L₁ m j' = .ok L')
    (hj : L.recordAt P.programId m.key = some (.job j))
    (ht : validateTransition j.state j'.state = .ok ()) :
    Announces P L L' kind (emit ctx kind m.key actor amount) where
  kind_eq := rfl
  changed := by
    intro he
    have hbefore : (abs P L).jobAt m.key = some j := State.jobAt_eq_some.mpr hj
    obtain rfl := jobAt_of_saveJob hsave j (he.trans hbefore)
    exact ne_of_validateTransition ht rfl

theorem Announces.closePdaAccount {account recipient : AccountMeta} {L₂ : Ledger}
    (h : Announces P L L₁ kind ev) (hj : L.recordAt P.programId ev.subject = some (.job j))
    (hclose : closePdaAccount L₁ account recipient = .ok L₂) : Announces P L L₂ kind ev where
  kind_eq := h.kind_eq
  changed := by
    intro he
    have hbefore : (abs P L).jobAt ev.subject = some j := State.jobAt_eq_some.mpr hj
    have hafter := jobAt_of_closePdaAccount hclose j (he.trans hbefore)
    exact h.changed (hafter.trans hbefore.symm)

section Jobs

theorem announces_of_createJob {payload : CreateJobPayload}
    (h : createJob P ctx L payload = .ok (L', ev)) : Announces P L L' .jobCreated ev := by
  unfold createJob at h
  split at h
  · simp only [bind_eq_ok, requireSigner, requireSystemProgram, loadValidatedConfigReadonly,
      requireReadonly, requireNotPaused, requireLegacyTokenProgramId_eq_ok, requireUninitialized,
      loadValidatedConfig_eq_ok, loadValidatedProvider_eq_ok, ensure_eq_ok, exists_const,
      okOr_eq_ok, Prod.exists, Except.ok.injEq, Prod.mk.injEq] at h
    obtain ⟨-, -, c, -, -, -, -, -, -, p, -, -, a, bump, -, rfl, -, L₁, hcreate, L₂, hsave, rfl,
      rfl⟩ := h
    obtain ⟨-, hown, hfree⟩ := abs_of_createPdaAccount hcreate
    have hsaved := saved_of_saveJob hsave hown
    constructor
    · rfl
    · intro he
      have hbefore := State.jobAt_of_records hfree
      simp only [emit, hsaved.abs_eq, State.jobAt_put_self, Record.asJob] at he
      cases he.trans hbefore
  · cases h

theorem announces_of_fundJob (h : fundJob P ctx L = .ok (L', ev)) :
    Announces P L L' .jobFunded ev := by
  unfold fundJob at h
  split at h
  · simp only [bind_eq_ok, requireSigner, requireWritable, requireLegacyTokenProgram,
      requireLegacyTokenProgramId_eq_ok, loadValidatedConfigReadonly, requireReadonly,
      requireNotPaused, loadValidatedConfig_eq_ok, loadValidatedJob_eq_ok, validateMint_eq_ok,
      validateTokenAccount_eq_ok, validateAta_eq_ok, transitionJob_eq_ok, ensure_eq_ok,
      exists_const, Except.ok.injEq, Prod.mk.injEq] at h
    obtain ⟨-, -, -, c, -, -, j, ⟨hj, -⟩, -, -, -, -, -, -, m, -, n, -, -, L₁, -, f, -, -, j',
      ⟨ht, rfl⟩, L₂, hsave, rfl, rfl⟩ := h
    exact announces_of_saveJob hsave hj ht
  · cases h

theorem announces_of_acceptJob (h : acceptJob P ctx L = .ok (L', ev)) :
    Announces P L L' .jobAccepted ev := by
  unfold acceptJob at h
  split at h
  · simp only [bind_eq_ok, requireSigner, requireWritable, loadValidatedConfigReadonly,
      requireReadonly, requireNotPaused, loadValidatedConfig_eq_ok, loadValidatedProvider_eq_ok,
      loadValidatedJob_eq_ok, loadValidatedBond_eq_ok, transitionJob_eq_ok, orFail_eq_ok,
      ensure_eq_ok, exists_const, okOr_eq_ok, Except.ok.injEq, Prod.mk.injEq] at h
    obtain ⟨-, -, -, c, -, -, p, -, -, -, j, ⟨hj, -⟩, -, -, -, b, -, -, -, u, -, -, locked, -, -,
      j', ⟨ht, rfl⟩, L₁, -, L₂, hsave, rfl, rfl⟩ := h
    exact announces_of_saveJob hsave hj ht
  · cases h

theorem announces_of_submitReceipt {r : AgentBondWorkReceiptV1}
    (h : submitReceipt P ctx L r = .ok (L', ev)) : Announces P L L' .receiptSubmitted ev := by
  unfold submitReceipt at h
  split at h
  · simp only [bind_eq_ok, requireWritable, loadValidatedConfigReadonly, requireReadonly,
      loadValidatedConfig_eq_ok, loadValidatedProvider_eq_ok, loadValidatedJob_eq_ok,
      checkReceiptFields, transitionJob_eq_ok, orFail_eq_ok, ensure_eq_ok, exists_const,
      Except.ok.injEq, Prod.mk.injEq] at h
    obtain ⟨-, c, -, p, -, -, j, ⟨hj, -⟩, -, -, -, -, -, -, message, -, k, -, -, digest, -, j',
      ⟨ht, rfl⟩, L₁, hsave, rfl, rfl⟩ := h
    exact announces_of_saveJob hsave hj ht
  · cases h

theorem announces_of_challengeWork {reasonHash : Pubkey}
    (h : challengeWork P ctx L reasonHash = .ok (L', ev)) :
    Announces P L L' .jobChallenged ev := by
  unfold challengeWork at h
  split at h
  · simp only [bind_eq_ok, requireSigner, requireWritable, requireSystemProgram,
      loadValidatedConfigReadonly, requireReadonly, loadValidatedConfig_eq_ok,
      loadValidatedJob_eq_ok, requireUninitialized, transitionJob_eq_ok, ensure_eq_ok,
      exists_const, okOr_eq_ok, Prod.exists, Except.ok.injEq, Prod.mk.injEq] at h
    obtain ⟨-, -, -, c, -, j, ⟨hj, -⟩, -, -, -, a, bump, -, rfl, -, deadline, -, L₁, -, L₂, -, j',
      ⟨ht, rfl⟩, L₃, hsave, rfl, rfl⟩ := h
    exact announces_of_saveJob hsave hj ht
  · cases h

theorem announces_of_expireUnfunded (h : expireUnfunded P ctx L = .ok (L', ev)) :
    Announces P L L' .jobExpired ev := by
  unfold expireUnfunded at h
  split at h
  · simp only [bind_eq_ok, requireWritable, loadValidatedJob_eq_ok, transitionJob_eq_ok,
      ensure_eq_ok, exists_const, Except.ok.injEq, Prod.mk.injEq] at h
    obtain ⟨-, j, ⟨hj, -⟩, -, -, j', ⟨ht, rfl⟩, L₁, hsave, rfl, rfl⟩ := h
    exact announces_of_saveJob hsave hj ht
  · cases h

theorem announces_of_settle {b : ProviderBondAccount} {actor : Pubkey} {amount : UInt64}
    {jobAccount bondAccount escrow providerToken buyerToken mint : AccountMeta}
    (h : settle P L₁ j b jobAccount bondAccount escrow providerToken buyerToken mint = .ok L')
    (hj : L.recordAt P.programId jobAccount.key = some (.job j)) :
    Announces P L L' .jobSettled (emit ctx .jobSettled jobAccount.key actor amount) := by
  simp only [settle, bind_eq_ok, ensure_eq_ok, exists_const, Prod.exists, unlockJobBond_eq_ok,
    transitionJob_eq_ok] at h
  obtain ⟨L₂, -, L₃, -, n, -, -, j₁, b₁, ⟨-, rfl, rfl⟩, j₂, ⟨ht, rfl⟩, L₄, -, hsave⟩ := h
  exact announces_of_saveJob hsave hj ht

theorem announces_of_acceptWork (h : acceptWork P ctx L = .ok (L', ev)) :
    Announces P L L' .jobSettled ev := by
  unfold acceptWork at h
  split at h
  · simp only [bind_eq_ok, requireSigner, requireWritable, requireLegacyTokenProgram,
      requireLegacyTokenProgramId_eq_ok, loadValidatedJob_eq_ok, validateMint_eq_ok, ensure_eq_ok,
      exists_const, Except.ok.injEq, Prod.mk.injEq] at h
    obtain ⟨-, -, -, -, j, ⟨hj, -⟩, -, -, -, -, n, -, n', -, n'', -, b, -, L₁, hsettle, rfl,
      rfl⟩ := h
    exact announces_of_settle hsettle hj
  · cases h

theorem announces_of_resolveTimeoutSettle (h : resolveTimeoutSettle P ctx L = .ok (L', ev)) :
    Announces P L L' .jobSettled ev := by
  unfold resolveTimeoutSettle at h
  split at h
  · simp only [bind_eq_ok, requireWritable, requireLegacyTokenProgram,
      requireLegacyTokenProgramId_eq_ok, loadValidatedJob_eq_ok, validateMint_eq_ok, ensure_eq_ok,
      exists_const, Except.ok.injEq, Prod.mk.injEq] at h
    obtain ⟨-, -, -, j, ⟨hj, -⟩, L₁, -, -, -, n, -, n', -, n'', -, -, b, -, L₂, hsettle, rfl,
      rfl⟩ := h
    exact announces_of_settle hsettle hj
  · cases h

theorem announces_of_refundInternal {fundedOnly : Bool}
    (h : refundInternal P ctx L fundedOnly = .ok (L', ev)) :
    Announces P L L' .jobRefunded ev := by
  unfold refundInternal at h
  split at h
  · simp only [bind_eq_ok, requireWritable, requireLegacyTokenProgram,
      requireLegacyTokenProgramId_eq_ok, loadValidatedJob_eq_ok, transitionJob_eq_ok, ensure_eq_ok,
      exists_const, Prod.exists, Except.ok.injEq, Prod.mk.injEq] at h
    obtain ⟨-, -, j, ⟨hj, -⟩, _, -, -, L₁, -, j₁, o, hbond, j₂, ⟨ht, rfl⟩, L₂, -, L₃, hsave, rfl,
      rfl⟩ := h
    -- Unlocking the bond leaves the state of the job alone.
    have hstate : j₁.state = j.state := by
      rcases refundBond_eq_ok hbond with ⟨-, rfl, -⟩ | ⟨b, -, -, -, -, -, rfl, -⟩
      · rfl
      · rfl
    rw [hstate] at ht
    exact announces_of_saveJob hsave hj ht
  · cases h

theorem announces_of_slashBond (h : slashBond P ctx L = .ok (L', ev)) :
    Announces P L L' .jobSlashed ev := by
  unfold slashBond at h
  split at h
  · simp only [bind_eq_ok, requireSigner, requireWritable, requireLegacyTokenProgram,
      requireLegacyTokenProgramId_eq_ok, loadValidatedConfigReadonly, requireReadonly,
      loadValidatedConfig_eq_ok, loadValidatedJob_eq_ok, loadValidatedChallenge_eq_ok,
      validateMint_eq_ok, transitionJob_eq_ok, ensure_eq_ok, exists_const, okOr_eq_ok,
      Except.ok.injEq, Prod.mk.injEq] at h
    obtain ⟨-, -, -, -, -, c, -, -, j, ⟨hj, -⟩, -, ch, -, -, -, -, L₁, -, b, -, -, -, n, -, -, L₂,
      -, locked, -, deposited, -, j', ⟨ht, rfl⟩, L₃, -, L₄, hsave, L₅, hclose, rfl, rfl⟩ := h
    exact (announces_of_saveJob hsave hj ht).closePdaAccount hj hclose
  · cases h

/-- Every instruction on jobs but the closing announces its change. -/
theorem announces_of_processInstruction {ix : Instruction}
    (h : processInstruction P ctx L ix = .ok (L', ev)) (hkind : ix.jobEvent = some kind)
    (hclose : ix ≠ .closeJob) : Announces P L L' kind ev := by
  cases ix with
  | createJob payload => cases hkind; exact announces_of_createJob h
  | fundJob => cases hkind; exact announces_of_fundJob h
  | acceptJob => cases hkind; exact announces_of_acceptJob h
  | submitReceipt receipt => cases hkind; exact announces_of_submitReceipt h
  | acceptWork => cases hkind; exact announces_of_acceptWork h
  | challengeWork reasonHash => cases hkind; exact announces_of_challengeWork h
  | resolveTimeoutSettle => cases hkind; exact announces_of_resolveTimeoutSettle h
  | resolveTimeoutRefund => cases hkind; exact announces_of_refundInternal h
  | expireUnfunded => cases hkind; exact announces_of_expireUnfunded h
  | expireUnaccepted => cases hkind; exact announces_of_refundInternal h
  | slashBond => cases hkind; exact announces_of_slashBond h
  | closeJob => exact absurd rfl hclose
  | _ => cases hkind

end Jobs

section Registry

/-- The event names a record that is no job. -/
def ConcernsOther (P : Platform) (L : Ledger) (ev : ProtocolEvent) : Prop :=
  ∃ r : Record, r.asJob = none ∧ L.recordAt P.programId ev.subject = some r

theorem recordAt_of_saved {k : Pubkey} {r : Record} (h : Saved P L₁ k r L') :
    L'.recordAt P.programId k = some r := by
  rw [← records_abs, h.abs_eq]
  exact State.records_put_self

theorem concernsOther_of_initializeConfig {payload : InitializeConfigPayload}
    (h : initializeConfig P ctx L payload = .ok (L', ev)) : ConcernsOther P L' ev := by
  unfold initializeConfig at h
  split at h
  · simp only [bind_eq_ok, requireSigner, requireSystemProgram, requireLegacyTokenProgramId_eq_ok,
      requireUninitialized, ensure_eq_ok, exists_const, okOr_eq_ok, Prod.exists, Except.ok.injEq,
      Prod.mk.injEq] at h
    obtain ⟨-, -, -, -, -, -, a, bump, -, rfl, -, L₁, hcreate, L₂, hsave, rfl, rfl⟩ := h
    obtain ⟨-, hown, -⟩ := abs_of_createPdaAccount hcreate
    exact ⟨_, rfl, recordAt_of_saved (saved_of_saveConfig hsave hown)⟩
  · cases h

theorem concernsOther_of_setPaused {paused : Bool}
    (h : setPaused P ctx L paused = .ok (L', ev)) : ConcernsOther P L' ev := by
  unfold setPaused at h
  split at h
  · simp only [bind_eq_ok, requireSigner, requireWritable, requireAdmin, requireKeysEq,
      loadValidatedConfig_eq_ok, ensure_eq_ok, exists_const, Except.ok.injEq, Prod.mk.injEq] at h
    obtain ⟨-, -, c, ⟨hc, -⟩, -, L₁, hsave, rfl, rfl⟩ := h
    have hown := Ledger.owner_of_recordAt hc
    exact ⟨_, rfl, recordAt_of_saved (saved_of_saveConfig hsave hown)⟩
  · cases h

theorem concernsOther_of_registerProvider (h : registerProvider P ctx L = .ok (L', ev)) :
    ConcernsOther P L' ev := by
  unfold registerProvider at h
  split at h
  · simp only [bind_eq_ok, requireSigner, requireSystemProgram, requireUninitialized,
      requireNotPaused, ensure_eq_ok, exists_const, okOr_eq_ok, Prod.exists, Except.ok.injEq,
      Prod.mk.injEq] at h
    obtain ⟨-, -, c, -, -, a, bump, -, rfl, -, L₁, hcreate, L₂, hsave, rfl, rfl⟩ := h
    obtain ⟨-, hown, -⟩ := abs_of_createPdaAccount hcreate
    exact ⟨_, rfl, recordAt_of_saved (saved_of_saveProvider hsave hown)⟩
  · cases h

theorem concernsOther_of_addExecutionKey {key : Pubkey}
    (h : addExecutionKey P ctx L key = .ok (L', ev)) : ConcernsOther P L' ev := by
  unfold addExecutionKey at h
  split at h
  · simp only [bind_eq_ok, requireSigner, requireWritable, requireKeysEq,
      loadValidatedProvider_eq_ok, ensure_eq_ok, exists_const, Except.ok.injEq,
      Prod.mk.injEq] at h
    obtain ⟨-, -, -, p, ⟨hp, -⟩, -, p', -, L₁, hsave, rfl, rfl⟩ := h
    have hown := Ledger.owner_of_recordAt hp
    exact ⟨_, rfl, recordAt_of_saved (saved_of_saveProvider hsave hown)⟩
  · cases h

theorem concernsOther_of_revokeExecutionKey {key : Pubkey}
    (h : revokeExecutionKey P ctx L key = .ok (L', ev)) : ConcernsOther P L' ev := by
  unfold revokeExecutionKey at h
  split at h
  · simp only [bind_eq_ok, requireSigner, requireWritable, requireKeysEq,
      loadValidatedProvider_eq_ok, ensure_eq_ok, exists_const, Except.ok.injEq,
      Prod.mk.injEq] at h
    obtain ⟨-, -, p, ⟨hp, -⟩, -, p', -, L₁, hsave, rfl, rfl⟩ := h
    have hown := Ledger.owner_of_recordAt hp
    exact ⟨_, rfl, recordAt_of_saved (saved_of_saveProvider hsave hown)⟩
  · cases h

theorem concernsOther_of_depositBond {amount : UInt64}
    (h : depositBond P ctx L amount = .ok (L', ev)) : ConcernsOther P L' ev := by
  unfold depositBond at h
  split at h
  · simp only [bind_eq_ok, requireSigner, requireSystemProgram, requireLegacyTokenProgram,
      requireLegacyTokenProgramId_eq_ok, loadValidatedConfigReadonly, requireReadonly,
      requireNotPaused, validateMint_eq_ok, validateTokenAccount_eq_ok, ensure_eq_ok, exists_const,
      okOr_eq_ok, Prod.exists, Except.ok.injEq, Prod.mk.injEq] at h
    obtain ⟨-, -, -, -, c, -, -, -, p, -, -, -, -, m, ⟨ts, hts, hord, -⟩, a, bump, -, rfl, L₁, b,
      hopen, n, -, v, -, -, L₂, hxfer, deposited, -, L₃, hsave, rfl, rfl⟩ := h
    obtain ⟨habs, hown, -⟩ := abs_of_openBond hopen
    have htok : L₁.tokenAt = L.tokenAt := congrArg State.tokens habs
    have hsame := account_of_transferChecked hxfer (htok ▸ hts) hord.undelegated hown
    exact ⟨_, rfl, recordAt_of_saved (saved_of_saveBond hsave (by rw [hsame, hown])).1⟩
  · cases h

theorem concernsOther_of_withdrawBond {amount : UInt64}
    (h : withdrawBond P ctx L amount = .ok (L', ev)) : ConcernsOther P L' ev := by
  unfold withdrawBond at h
  split at h
  · simp only [bind_eq_ok, requireSigner, requireWritable, requireLegacyTokenProgram,
      requireLegacyTokenProgramId_eq_ok, loadValidatedBond_eq_ok, orFail_eq_ok, validateMint_eq_ok,
      validateAta_eq_ok, ensure_eq_ok, exists_const, okOr_eq_ok, Except.ok.injEq,
      Prod.mk.injEq] at h
    obtain ⟨-, -, -, -, b, ⟨hb, -⟩, -, -, u, -, -, d, -, -, n, ⟨-, tv, htv, hvord, -⟩, n', -, L₁,
      hxfer, deposited, -, -, L₂, hsave, rfl, rfl⟩ := h
    have hown := Ledger.owner_of_recordAt hb
    have hsame := account_of_transferChecked hxfer htv hvord.undelegated hown
    exact ⟨_, rfl, recordAt_of_saved (saved_of_saveBond hsave (by rw [hsame, hown])).1⟩
  · cases h

/-- The instructions that change no job name other records. -/
theorem concernsOther_of_processInstruction {ix : Instruction}
    (h : processInstruction P ctx L ix = .ok (L', ev)) (hkind : ix.jobEvent = none) :
    ConcernsOther P L' ev := by
  cases ix with
  | initializeConfig payload => exact concernsOther_of_initializeConfig h
  | setPaused paused => exact concernsOther_of_setPaused h
  | registerProvider => exact concernsOther_of_registerProvider h
  | addExecutionKey key => exact concernsOther_of_addExecutionKey h
  | revokeExecutionKey key => exact concernsOther_of_revokeExecutionKey h
  | depositBond amount => exact concernsOther_of_depositBond h
  | withdrawBond amount => exact concernsOther_of_withdrawBond h
  | _ => cases hkind

end Registry

theorem subject_of_closeJob (h : closeJob P ctx L = .ok (L', ev)) :
    ∃ m j, ctx.accounts[1]? = some m ∧ L.recordAt P.programId m.key = some (.job j) ∧
      ev.subject = j.buyer := by
  unfold closeJob at h
  split at h
  · rename_i hacc
    simp only [bind_eq_ok, requireSigner, requireWritable, loadValidatedJob_eq_ok, ensure_eq_ok,
      exists_const, Except.ok.injEq, Prod.mk.injEq] at h
    obtain ⟨-, -, j, ⟨hj, -⟩, -, -, -, L₁, -, L₂, -, rfl, rfl⟩ := h
    exact ⟨_, j, by rw [hacc]; rfl, hj, rfl⟩
  · cases h

end AgentBond
