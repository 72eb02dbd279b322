import AgentBond.Chain.Pause
import AgentBond.Chain.Script

/-! # Exits under a pause

The instructions by which parties leave the protocol run in lockstep on ledgers
that are the same up to the pause flag, so no pause and no number of pauses in
between can change what they do.
-/

namespace AgentBond

open Foundation Protocol

namespace UpToPause

/-- The outcomes of a processor: ledgers that are the same up to the flag, and the same event. -/
def SameOutcome (P : Platform) (r r' : Ledger × ProtocolEvent) : Prop :=
  UpToPause P r.1 r'.1 ∧ r'.2 = r.2

variable {P : Platform} {ctx : Ctx} {L L' : Ledger}

theorem saveRefundBond (h : UpToPause P L L') (m : AccountMeta) (b : Option ProviderBondAccount) :
    Lockstep (UpToPause P) (saveRefundBond L m b) (AgentBond.saveRefundBond L' m b) := by
  cases b with
  | none => exact .ok h
  | some b => exact h.saveBond m b

theorem refundBond_eq (h : UpToPause P L L') : refundBond P L' = refundBond P L := by
  ext job m : 2
  simp only [refundBond, h.seenAlike.len, h.seenAlike.owner, h.loadValidatedBond_eq]

theorem report {x x' : Outcome Ledger} (hx : Lockstep (UpToPause P) x x') (ev : ProtocolEvent) :
    Lockstep (SameOutcome P) (do let M ← x; .ok (M, ev)) (do let M ← x'; .ok (M, ev)) :=
  hx.bind fun _ _ _ _ hM => .ok ⟨hM, rfl⟩

/-! ## Keys and deadlines -/

theorem addExecutionKey (h : UpToPause P L L') (key : Pubkey) :
    Lockstep (SameOutcome P) (addExecutionKey P ctx L key)
      (AgentBond.addExecutionKey P ctx L' key) := by
  unfold AgentBond.addExecutionKey
  split
  · rw [h.loadValidatedProvider_eq]
    iterate 6 refine .bind_same fun _ _ => ?_
    exact report (h.saveProvider _ _) _
  · exact .error _ _

theorem revokeExecutionKey (h : UpToPause P L L') (key : Pubkey) :
    Lockstep (SameOutcome P) (revokeExecutionKey P ctx L key)
      (AgentBond.revokeExecutionKey P ctx L' key) := by
  unfold AgentBond.revokeExecutionKey
  split
  · rw [h.loadValidatedProvider_eq]
    iterate 5 refine .bind_same fun _ _ => ?_
    exact report (h.saveProvider _ _) _
  · exact .error _ _

theorem expireUnfunded (h : UpToPause P L L') :
    Lockstep (SameOutcome P) (expireUnfunded P ctx L) (AgentBond.expireUnfunded P ctx L') := by
  unfold AgentBond.expireUnfunded
  split
  · rw [h.loadValidatedJob_eq]
    iterate 5 refine .bind_same fun _ _ => ?_
    exact report (h.saveJob _ _) _
  · exact .error _ _

theorem submitReceipt (h : UpToPause P L L') (receipt : AgentBondWorkReceiptV1) :
    Lockstep (SameOutcome P) (submitReceipt P ctx L receipt)
      (AgentBond.submitReceipt P ctx L' receipt) := by
  unfold AgentBond.submitReceipt
  split
  · rw [h.loadValidatedProvider_eq, h.loadValidatedJob_eq]
    refine .bind_same fun _ _ => ?_
    refine (h.loadValidatedConfigReadonly _).bind fun c c' _ _ hflags => ?_
    obtain ⟨b, rfl⟩ := ConfigAccount.exists_of_unpaused_eq hflags
    simp only [checkReceiptFields]
    iterate 14 refine .bind_same fun _ _ => ?_
    exact report (h.saveJob _ _) _
  · exact .error _ _

theorem challengeWork (hP : P.Discreet) (h : UpToPause P L L') (reasonHash : Pubkey) :
    Lockstep (SameOutcome P) (challengeWork P ctx L reasonHash)
      (AgentBond.challengeWork P ctx L' reasonHash) := by
  unfold AgentBond.challengeWork
  split
  · rw [h.loadValidatedJob_eq, h.requireUninitialized_eq]
    iterate 3 refine .bind_same fun _ _ => ?_
    refine (h.loadValidatedConfigReadonly _).bind fun c c' _ _ hflags => ?_
    obtain ⟨b, rfl⟩ := ConfigAccount.exists_of_unpaused_eq hflags
    iterate 8 refine .bind_same fun _ _ => ?_
    refine (h.createPdaAccount hP _ _ _ _).bind fun L₁ L₁' _ _ h₁ => ?_
    refine (h₁.saveChallenge _ _).bind fun L₂ L₂' _ _ h₂ => ?_
    refine .bind_same fun _ _ => ?_
    exact report (h₂.saveJob _ _) _
  · exact .error _ _

/-! ## Payments -/

section Payments

variable (hP : P.Discreet)
include hP

theorem withdrawBond (h : UpToPause P L L') (amount : UInt64) :
    Lockstep (SameOutcome P) (withdrawBond P ctx L amount)
      (AgentBond.withdrawBond P ctx L' amount) := by
  unfold AgentBond.withdrawBond
  split
  · rw [h.loadValidatedBond_eq, h.parseMint_eq, h.validateMint_eq, h.validateAta_eq,
      h.validateTokenAccount_eq]
    iterate 11 refine .bind_same fun _ _ => ?_
    refine .bind_same fun n hvault => ?_
    refine .bind_same fun _ _ => ?_
    obtain ⟨-, t, ht, hord, -⟩ := validateAta_eq_ok.mp hvault
    refine (h.transferChecked hP _ _ _ _ _ _ _ ⟨t, ht, hord.undelegated⟩).bind
      fun L₁ L₁' _ _ h₁ => ?_
    iterate 2 refine .bind_same fun _ _ => ?_
    exact report (h₁.saveBond _ _) _
  · exact .error _ _

theorem returnSurplusToBuyer (h : UpToPause P L L') (escrow mint buyerToken authority : AccountMeta)
    (principal : UInt64) (decimals : UInt8) (seeds : Seeds)
    (hescrow : ∃ t, L.tokenAt escrow.key = some t ∧ t.delegate = none) :
    Lockstep (UpToPause P)
      (returnSurplusToBuyer P L escrow mint buyerToken authority principal decimals seeds)
      (AgentBond.returnSurplusToBuyer P L' escrow mint buyerToken authority principal decimals
        seeds) := by
  unfold AgentBond.returnSurplusToBuyer
  rw [h.parseTokenAccount_eq]
  refine .bind_same fun t _ => ?_
  refine .bind_same fun _ _ => ?_
  split
  · exact h.transferChecked hP _ _ _ _ _ _ _ hescrow
  · exact .ok h

theorem refundPrincipalToBuyer (h : UpToPause P L L') (j : JobAccount)
    (jobAccount escrow mint buyerToken tokenProgram : AccountMeta) (decimals : UInt8) :
    Lockstep (UpToPause P)
      (refundPrincipalToBuyer P L j jobAccount escrow mint buyerToken tokenProgram decimals)
      (AgentBond.refundPrincipalToBuyer P L' j jobAccount escrow mint buyerToken tokenProgram
        decimals) := by
  unfold AgentBond.refundPrincipalToBuyer
  rw [h.validateMint_eq, h.validateAta_eq, h.parseTokenAccount_eq]
  iterate 4 refine .bind_same fun _ _ => ?_
  refine .bind_same fun n hescrow => ?_
  refine .bind_same fun _ _ => ?_
  refine .bind_same fun t ht => ?_
  refine .bind_same fun _ _ => ?_
  obtain ⟨-, t, ht, hord, -⟩ := validateAta_eq_ok.mp hescrow
  exact h.transferChecked hP _ _ _ _ _ _ _ ⟨t, ht, hord.undelegated⟩

theorem settle (h : UpToPause P L L') (job : JobAccount) (bond : ProviderBondAccount)
    (jobAccount bondAccount escrow providerToken buyerToken mint : AccountMeta)
    (hescrow : ∃ t, L.tokenAt escrow.key = some t ∧ t.delegate = none) :
    Lockstep (UpToPause P)
      (settle P L job bond jobAccount bondAccount escrow providerToken buyerToken mint)
      (AgentBond.settle P L' job bond jobAccount bondAccount escrow providerToken buyerToken
        mint) := by
  unfold AgentBond.settle
  refine (h.returnSurplusToBuyer hP _ _ _ _ _ _ _ hescrow).bind fun L₁ L₁' hL₁ _ h₁ => ?_
  have hescrow₁ : ∃ t, L₁.tokenAt escrow.key = some t ∧ t.delegate = none := by
    obtain ⟨t, ht, hd⟩ := hescrow
    obtain ⟨habs, -⟩ := abs_of_returnSurplusToBuyer hL₁ ht hd
    have htok : L₁.tokenAt = _ := congrArg State.tokens habs
    obtain ⟨n, hn⟩ := Tokens.move_some escrow.key buyerToken.key (t.amount - job.amount.toNat)
      escrow.key ht
    exact ⟨_, (congrFun htok escrow.key).trans hn, hd⟩
  refine (h₁.transferChecked hP _ _ _ _ _ _ _ hescrow₁).bind fun L₂ L₂' _ _ h₂ => ?_
  rw [h₂.tokenAmount_eq]
  iterate 4 refine .bind_same fun _ _ => ?_
  refine (h₂.saveBond _ _).bind fun L₃ L₃' _ _ h₃ => ?_
  exact h₃.saveJob _ _

theorem acceptWork (h : UpToPause P L L') :
    Lockstep (SameOutcome P) (acceptWork P ctx L) (AgentBond.acceptWork P ctx L') := by
  unfold AgentBond.acceptWork
  split
  · rw [h.loadValidatedJob_eq, h.validateMint_eq, h.validateAta_eq, h.loadJobBond_eq]
    iterate 9 refine .bind_same fun _ _ => ?_
    refine .bind_same fun n hescrow => ?_
    iterate 3 refine .bind_same fun _ _ => ?_
    obtain ⟨-, t, ht, hord, -⟩ := validateAta_eq_ok.mp hescrow
    exact report (h.settle hP _ _ _ _ _ _ _ _ ⟨t, ht, hord.undelegated⟩) _
  · exact .error _ _

omit hP in
theorem settleDeadline (h : UpToPause P L L') (job : JobAccount) (jobAccount buyer : AccountMeta)
    (challengeAccount : Option AccountMeta) :
    Lockstep (UpToPause P) (settleDeadline P ctx L job jobAccount buyer challengeAccount)
      (AgentBond.settleDeadline P ctx L' job jobAccount buyer challengeAccount) := by
  unfold AgentBond.settleDeadline
  split
  · exact .bind_same fun _ _ => .ok h
  · rw [h.loadValidatedChallenge_eq]
    iterate 6 refine .bind_same fun _ _ => ?_
    exact h.closePdaAccount _ _
  · exact .error _ _

theorem resolveTimeoutSettle (h : UpToPause P L L') :
    Lockstep (SameOutcome P) (resolveTimeoutSettle P ctx L)
      (AgentBond.resolveTimeoutSettle P ctx L') := by
  unfold AgentBond.resolveTimeoutSettle
  split
  · rw [h.loadValidatedJob_eq]
    iterate 4 refine .bind_same fun _ _ => ?_
    refine (h.settleDeadline _ _ _ _).bind fun L₁ L₁' _ _ h₁ => ?_
    rw [h₁.validateMint_eq, h₁.validateAta_eq, h₁.loadJobBond_eq]
    iterate 2 refine .bind_same fun _ _ => ?_
    refine .bind_same fun n hescrow => ?_
    iterate 4 refine .bind_same fun _ _ => ?_
    obtain ⟨-, t, ht, hord, -⟩ := validateAta_eq_ok.mp hescrow
    exact report (h₁.settle hP _ _ _ _ _ _ _ _ ⟨t, ht, hord.undelegated⟩) _
  · exact .error _ _

theorem refundInternal (h : UpToPause P L L') (fundedOnly : Bool) :
    Lockstep (SameOutcome P) (refundInternal P ctx L fundedOnly)
      (AgentBond.refundInternal P ctx L' fundedOnly) := by
  unfold AgentBond.refundInternal
  split
  · rw [h.loadValidatedJob_eq]
    iterate 5 refine .bind_same fun _ _ => ?_
    refine (h.refundPrincipalToBuyer hP _ _ _ _ _ _ _).bind fun L₁ L₁' _ _ h₁ => ?_
    rw [h₁.refundBond_eq]
    iterate 2 refine .bind_same fun _ _ => ?_
    refine (h₁.saveRefundBond _ _).bind fun L₂ L₂' _ _ h₂ => ?_
    exact report (h₂.saveJob _ _) _
  · exact .error _ _

theorem slashBond (h : UpToPause P L L') :
    Lockstep (SameOutcome P) (slashBond P ctx L) (AgentBond.slashBond P ctx L') := by
  unfold AgentBond.slashBond
  split
  · rw [h.loadValidatedJob_eq, h.loadValidatedChallenge_eq]
    iterate 5 refine .bind_same fun _ _ => ?_
    refine (h.loadValidatedConfigReadonly _).bind fun c c' _ _ hflags => ?_
    obtain ⟨b, rfl⟩ := ConfigAccount.exists_of_unpaused_eq hflags
    iterate 7 refine .bind_same fun _ _ => ?_
    refine (h.refundPrincipalToBuyer hP _ _ _ _ _ _ _).bind fun L₁ L₁' _ _ h₁ => ?_
    rw [h₁.loadJobBond_eq, h₁.validateAta_eq, h₁.validateMint_eq]
    iterate 3 refine .bind_same fun _ _ => ?_
    refine .bind_same fun n hvault => ?_
    refine .bind_same fun _ _ => ?_
    obtain ⟨-, t, ht, hord, -⟩ := validateAta_eq_ok.mp hvault
    refine (h₁.transferChecked hP _ _ _ _ _ _ _ ⟨t, ht, hord.undelegated⟩).bind
      fun L₂ L₂' _ _ h₂ => ?_
    iterate 3 refine .bind_same fun _ _ => ?_
    refine (h₂.saveBond _ _).bind fun L₃ L₃' _ _ h₃ => ?_
    refine (h₃.saveJob _ _).bind fun L₄ L₄' _ _ h₄ => ?_
    exact report (h₄.closePdaAccount _ _) _
  · exact .error _ _

theorem closeEscrow (h : UpToPause P L L') (job : JobAccount)
    (jobAccount rentRecipient : AccountMeta)
    (escrow tokenProgram : Option AccountMeta) :
    Lockstep (UpToPause P) (closeEscrow P L job jobAccount rentRecipient escrow tokenProgram)
      (AgentBond.closeEscrow P L' job jobAccount rentRecipient escrow tokenProgram) := by
  unfold AgentBond.closeEscrow
  cases escrow with
  | none => exact .ok h
  | some escrow =>
    simp only [h.seenAlike.owner, h.seenAlike.len, h.tokenAmount_eq]
    split
    · iterate 4 refine .bind_same fun _ _ => ?_
      exact h.closeTokenAccount hP _ _ _ _
    · exact .ok h

theorem closeJob (h : UpToPause P L L') :
    Lockstep (SameOutcome P) (closeJob P ctx L) (AgentBond.closeJob P ctx L') := by
  unfold AgentBond.closeJob
  split
  · rw [h.loadValidatedJob_eq]
    iterate 6 refine .bind_same fun _ _ => ?_
    refine (h.closeEscrow hP _ _ _ _ _).bind fun L₁ L₁' _ _ h₁ => ?_
    exact report (h₁.closePdaAccount _ _) _
  · exact .error _ _

end Payments

end UpToPause

/-- The instructions that let a party leave, or hold another to its word. -/
def Instruction.isExit : Instruction → Bool
  | .addExecutionKey _ | .revokeExecutionKey _ | .withdrawBond _ | .submitReceipt _ | .acceptWork
  | .challengeWork _ | .resolveTimeoutSettle | .resolveTimeoutRefund | .expireUnfunded
  | .expireUnaccepted | .slashBond | .closeJob => true
  | _ => false

def Instruction.isSetPaused : Instruction → Bool
  | .setPaused _ => true
  | _ => false

/-- The instruction data is of a kind. -/
def isCallOf (kind : Instruction → Bool) (x : Ctx × List UInt8) : Bool :=
  match Instruction.parse x.2 with
  | .ok ix => kind ix
  | .error _ => false

section Runs

variable {P : Platform} {L L' : Ledger} {x : Ctx × List UInt8}

/-- Every exit runs in lockstep on ledgers that are the same up to the flag. -/
theorem UpToPause.process (hP : P.Discreet) (h : UpToPause P L L')
    (hx : isCallOf Instruction.isExit x = true) :
    Lockstep (UpToPause.SameOutcome P) (process P x.1 L x.2) (AgentBond.process P x.1 L' x.2) := by
  refine .bind_same fun ix hix => ?_
  rw [orFail_eq_ok] at hix
  simp only [isCallOf, hix] at hx
  cases ix with
  | addExecutionKey key => exact h.addExecutionKey key
  | revokeExecutionKey key => exact h.revokeExecutionKey key
  | withdrawBond amount => exact h.withdrawBond hP amount
  | submitReceipt receipt => exact h.submitReceipt receipt
  | acceptWork => exact h.acceptWork hP
  | challengeWork reasonHash => exact h.challengeWork hP reasonHash
  | resolveTimeoutSettle => exact h.resolveTimeoutSettle hP
  | resolveTimeoutRefund => exact h.refundInternal hP false
  | expireUnfunded => exact h.expireUnfunded
  | expireUnaccepted => exact h.refundInternal hP true
  | slashBond => exact h.slashBond hP
  | closeJob => exact h.closeJob hP
  | _ => cases hx

theorem UpToPause.of_flip {k : Pubkey} {c : ConfigAccount}
    (hc : L.recordAt P.programId k = some (.config c)) (paused : Bool) :
    UpToPause P L
      (L.put k { L.account k with data := .raw { c with paused }.encode }) := by
  rw [recordAt_eq_some, Record.decode_eq_config] at hc
  refine of_apart fun i => ?_
  by_cases hi : i = k
  · subst hi
    rw [Ledger.account_put_self]
    exact .configs hc.1 hc.1 rfl hc.2 (ConfigAccount.decode_encode _) rfl
  · rw [Ledger.account_put_of_ne _ _ hi]
    exact .same _

theorem UpToPause.of_setPaused {paused : Bool} {ctx : Ctx} {ev : ProtocolEvent}
    (h : setPaused P ctx L paused = .ok (L', ev)) : UpToPause P L L' := by
  unfold setPaused at h
  split at h
  · simp only [bind_eq_ok, requireSigner, requireWritable, requireAdmin, requireKeysEq,
      loadValidatedConfig_eq_ok, saveConfig, AgentBond.writeAccountData, ensure_eq_ok, exists_const,
      Except.ok.injEq, Prod.mk.injEq] at h
    obtain ⟨-, -, c, ⟨hc, -⟩, -, L₁, ⟨-, -, rfl⟩, rfl, -⟩ := h
    exact of_flip hc paused
  · cases h

theorem UpToPause.next_of_setPaused (L : Ledger) (hx : isCallOf Instruction.isSetPaused x = true) :
    UpToPause P L (next P L x) := by
  rw [next]
  split
  · rename_i hok
    simp only [AgentBond.process, bind_eq_ok, orFail_eq_ok] at hok
    obtain ⟨ix, hix, hok⟩ := hok
    simp only [isCallOf, hix] at hx
    cases ix with
    | setPaused paused => exact of_setPaused hok
    | _ => cases hx
  · exact refl L

/-- An attempted exit returns the same and leaves the ledgers the same up to the flag. -/
theorem UpToPause.next (hP : P.Discreet) (h : UpToPause P L L')
    (hx : isCallOf Instruction.isExit x = true) :
    UpToPause P (next P L x) (AgentBond.next P L' x) ∧
      (AgentBond.process P x.1 L' x.2).toOption.map (·.2) =
        (AgentBond.process P x.1 L x.2).toOption.map (·.2) := by
  have hlock := h.process hP hx
  unfold AgentBond.next
  generalize AgentBond.process P x.1 L x.2 = r at hlock ⊢
  generalize AgentBond.process P x.1 L' x.2 = r' at hlock ⊢
  cases hlock with
  | ok related => exact ⟨related.1, congrArg some related.2⟩
  | error e e' => exact ⟨h, rfl⟩

/-- What the exits of a script return: the event of one that succeeds, nothing for a failure. -/
def exitResults (P : Platform) : Ledger → Script → List (Option ProtocolEvent)
  | _, [] => []
  | L, x :: script =>
    if isCallOf Instruction.isExit x then
      (process P x.1 L x.2).toOption.map (·.2) :: exitResults P (next P L x) script
    else exitResults P (next P L x) script

/-- A script of exits with pauses anywhere in between, started with any pause flag, goes as the
exits alone: they succeed and fail alike, and leave the same accounts but for the flag. -/
theorem exits_ignore_pause (hP : P.Discreet) (h : UpToPause P L L') {script : Script}
    (hscript : ∀ x ∈ script, isCallOf Instruction.isExit x = true ∨
      isCallOf Instruction.isSetPaused x = true) :
    exitResults P L' script = exitResults P L (script.filter (isCallOf Instruction.isExit)) ∧
      UpToPause P (play P L (script.filter (isCallOf Instruction.isExit))) (play P L' script) ∧
      (play P L' script).tokenAt =
        (play P L (script.filter (isCallOf Instruction.isExit))).tokenAt := by
  induction script generalizing L L' with
  | nil => exact ⟨rfl, h, h.tokenAt_eq⟩
  | cons x script ih =>
    have hrest := fun y hy => hscript y (List.mem_cons_of_mem x hy)
    by_cases hx : isCallOf Instruction.isExit x = true
    · obtain ⟨hnext, hsame⟩ := h.next hP hx
      obtain ⟨hresults, hleft⟩ := ih hnext hrest
      rw [List.filter_cons_of_pos hx]
      refine ⟨?_, hleft⟩
      rw [exitResults, exitResults, if_pos hx, if_pos hx, hsame, hresults]
    · have hpause := (hscript x List.mem_cons_self).resolve_left hx
      obtain ⟨hresults, hleft⟩ := ih (h.trans (.next_of_setPaused L' hpause)) hrest
      rw [List.filter_cons_of_neg hx]
      refine ⟨?_, hleft⟩
      rw [exitResults, if_neg hx, hresults]

end Runs

section Reference

variable {P : Platform} {L L' : Ledger}

theorem SeenAlike.vacant_iff (h : SeenAlike P L L') (k : Pubkey) :
    L'.account k = Account.vacant ↔ L.account k = Account.vacant := by
  have hstep {M M' : Ledger} (h : SeenAlike P M M') (hv : M.account k = Account.vacant) :
      M'.account k = Account.vacant := by
    rw [h.foreign k, hv]
    rw [hv]
    exact P.programId_ne_system.symm
  exact ⟨hstep h.symm, hstep h⟩

theorem SeenAlike.unused_iff (h : SeenAlike P L L') (k : Pubkey) :
    (L'.account k).Unused ↔ (L.account k).Unused := by
  have hstep {M M' : Ledger} (h : SeenAlike P M M') (hv : (M.account k).Unused) :
      (M'.account k).Unused := by
    rw [h.foreign k]
    · exact hv
    · rw [hv.1]
      exact P.programId_ne_system.symm
  exact ⟨hstep h.symm, hstep h⟩

theorem SeenAlike.setToken (h : SeenAlike P L L') {k : Pubkey} {u : TokenAccount}
    (hu : L.tokenAt k = some u) (t : TokenAccount) :
    SeenAlike P (Reference.setToken L k t) (Reference.setToken L' k t) := by
  unfold Reference.setToken
  rw [h.account_of_token (Ledger.owner_of_tokenAt hu)]
  exact h.put k rfl rfl rfl fun _ => rfl

theorem Reference.discreet {programId : Pubkey} {hs : programId ≠ systemProgramId}
    {ht : programId ≠ tokenProgramId} {table : AddressTable} {sha256 : List UInt8 → Pubkey} :
    (referencePlatform programId hs ht table sha256).Discreet where
  createAccount := by
    intro L L' payer account lamports space owner h
    show Lockstep _ (Reference.createAccount L _ _ _ _ _) (Reference.createAccount L' _ _ _ _ _)
    unfold Reference.createAccount
    simp only [h.vacant_iff, h.unused_iff, h.lamports]
    iterate 2 refine .bind_same fun _ _ => ?_
    apply Lockstep.ok
    apply SeenAlike.put
    · exact h.put payer rfl (h.owner payer) (h.len payer) fun hk => by rw [h.foreign payer hk]
    all_goals simp
  transferChecked := by
    intro L L' source mint destination authority amount decimals h
    show Lockstep _ (Reference.transferChecked L _ _ _ _ _ _)
      (Reference.transferChecked L' _ _ _ _ _ _)
    unfold Reference.transferChecked
    rw [h.tokenAt_eq, h.mintAt_eq]
    refine .bind_same fun ts hts => ?_
    iterate 7 refine .bind_same fun _ _ => ?_
    have h₁ := h.setToken (okOr_eq_ok.mp hts) { ts with amount := ts.amount - amount }
    dsimp only
    rw [h₁.tokenAt_eq]
    refine .bind_same fun td htd => ?_
    exact .ok (h₁.setToken (okOr_eq_ok.mp htd) _)
  closeAccount := by
    intro L L' account destination authority h
    show Lockstep _ (Reference.closeAccount L _ _ _) (Reference.closeAccount L' _ _ _)
    unfold Reference.closeAccount
    rw [h.tokenAt_eq]
    iterate 2 refine .bind_same fun _ _ => ?_
    apply Lockstep.ok
    apply SeenAlike.put
    · rw [h.lamports, h.lamports]
      exact h.put destination rfl (h.owner destination) (h.len destination)
        fun hk => by rw [h.foreign destination hk]
    all_goals simp

end Reference

namespace Sample

def pause (now : Int64) (paused : Bool) : Ctx × List UInt8 :=
  call now (.setPaused paused) [signer admin, writable configKey]

/-- The program is paused when the receipt has been submitted. -/
def pausedLedger : Ledger := next platform submittedLedger (pause 45 true)

/-- The provider adds a key, the buyer accepts the work and closes the job, with the flag changed
twice in between. -/
def pausedExits : Script :=
  [pause 46 false, call 47 (.addExecutionKey (key 15)) [signer provider, writable providerKey],
    pause 48 true, settle, close]

theorem exits_ignore_pause_sample :
    (exitResults platform pausedLedger pausedExits).all Option.isSome = true ∧
      exitResults platform pausedLedger pausedExits = exitResults platform submittedLedger
        (pausedExits.filter (isCallOf Instruction.isExit)) ∧
      UpToPause platform
        (play platform submittedLedger (pausedExits.filter (isCallOf Instruction.isExit)))
        (play platform pausedLedger pausedExits) ∧
      (play platform pausedLedger pausedExits).tokenAt =
        (play platform submittedLedger
          (pausedExits.filter (isCallOf Instruction.isExit))).tokenAt :=
  ⟨by decide +kernel, exits_ignore_pause Reference.discreet
    (.next_of_setPaused submittedLedger (by decide +kernel)) (by decide +kernel)⟩

end Sample

end AgentBond
