import AgentBond.Chain.Recourse
import AgentBond.Protocol.Resolution

/-! # Resolutions commute

Accepting the work, the two timeouts and the slashing resolve a job. A call that
can resolve its job still can after another job has been resolved, even one with
the same bond, vault and token accounts, and the order makes no difference.
-/

namespace AgentBond

open Foundation Protocol

/-- The four instructions that end a job which holds an escrow. -/
inductive Resolver
  | acceptWork | resolveTimeoutSettle | resolveTimeoutRefund | slashBond
  deriving DecidableEq

namespace Resolver

def instruction : Resolver → Instruction
  | acceptWork => .acceptWork
  | resolveTimeoutSettle => .resolveTimeoutSettle
  | resolveTimeoutRefund => .resolveTimeoutRefund
  | slashBond => .slashBond

/-- The state of a resolved job. -/
def target : Resolver → JobState
  | acceptWork => .settled
  | resolveTimeoutSettle => .settled
  | resolveTimeoutRefund => .refunded
  | slashBond => .slashed

/-- Where the job stands among the accounts. -/
def jobIndex : Resolver → ℕ
  | slashBond => 2
  | _ => 1

end Resolver

section Resolutions

variable {P : Platform} {ctx ctx₁ ctx₂ : Ctx} {L L' L₁ L₂ : Ledger} {r r₁ r₂ : Resolver}
  {a a₁ a₂ : Pubkey} {j j₁ j₂ : JobAccount} {b : ProviderBondAccount} {ev : ProtocolEvent}

/-- A call that meets every condition of its instruction. -/
inductive Ready (P : Platform) (ctx : Ctx) (L : Ledger) :
    Resolver → Pubkey → JobAccount → Prop
  | acceptWork {buyer job bond escrow providerToken buyerToken mint tokenProgram : AccountMeta}
      {rest : List AccountMeta} {j : JobAccount} {b : ProviderBondAccount}
      (accounts : ctx.accounts = buyer :: job :: bond :: escrow :: providerToken :: buyerToken ::
        mint :: tokenProgram :: rest)
      (settles : SettleAccounts P L j b job bond escrow providerToken buyerToken tokenProgram)
      (access : SettleAccess L j job bond escrow providerToken buyerToken mint)
      (signer : buyer.isSigner = true) (buyer_eq : j.buyer = buyer.key)
      (submitted : j.state = .submitted) : Ready P ctx L .acceptWork job.key j
  | resolveTimeoutSettle {payer job bond escrow providerToken buyerToken buyer mint
      tokenProgram : AccountMeta} {rest : List AccountMeta} {j : JobAccount}
      {b : ProviderBondAccount}
      (accounts : ctx.accounts = payer :: job :: bond :: escrow :: providerToken :: buyerToken ::
        buyer :: mint :: tokenProgram :: rest)
      (settles : SettleAccounts P L j b job bond escrow providerToken buyerToken tokenProgram)
      (access : SettleAccess L j job bond escrow providerToken buyerToken mint)
      (buyer_eq : buyer.key = j.buyer)
      (due : DeadlineReached P L ctx.now job.key j buyer rest[0]?) :
      Ready P ctx L .resolveTimeoutSettle job.key j
  | resolveTimeoutRefund {payer job bond escrow buyerToken buyer mint tokenProgram : AccountMeta}
      {rest : List AccountMeta} {j : JobAccount}
      (accounts : ctx.accounts = payer :: job :: bond :: escrow :: buyerToken :: buyer :: mint ::
        tokenProgram :: rest)
      (refunds : RefundAccounts P L j job escrow buyerToken)
      (access : RefundAccess j job escrow buyerToken mint tokenProgram)
      (choice : BondChoice P L j bond) (buyer_eq : buyer.key = j.buyer)
      (due : refundDeadline ctx j false = .ok ()) :
      Ready P ctx L .resolveTimeoutRefund job.key j
  | slashBond {admin config job bond vault escrow buyerToken buyer challenge mint
      tokenProgram : AccountMeta} {rest : List AccountMeta} {c : ConfigAccount} {j : JobAccount}
      {b : ProviderBondAccount} {ch : ChallengeAccount}
      (accounts : ctx.accounts = admin :: config :: job :: bond :: vault :: escrow ::
        buyerToken :: buyer :: challenge :: mint :: tokenProgram :: rest)
      (slashes : SlashAccounts P L c j b ch config job bond vault escrow buyerToken challenge)
      (access : SlashAccess j config job bond vault escrow buyerToken buyer challenge mint
        tokenProgram)
      (signer : admin.isSigner = true) (admin_eq : admin.key = c.admin)
      (challenged : j.state = .challenged) (buyer_eq : buyer.key = j.buyer)
      (opened : ctx.now < ch.deadline) : Ready P ctx L .slashBond job.key j

theorem Ready.job_at (h : Ready P ctx L r a j) : L.recordAt P.programId a = some (.job j) := by
  cases h with
  | acceptWork _ settles => exact settles.job_at
  | resolveTimeoutSettle _ settles => exact settles.job_at
  | resolveTimeoutRefund _ refunds => exact refunds.job_at
  | slashBond _ slashes => exact slashes.job_at

theorem Ready.holdsEscrow (h : Ready P ctx L r a j) : j.state.holdsEscrow = true := by
  cases h with
  | acceptWork _ _ _ _ _ submitted => rw [submitted]; rfl
  | resolveTimeoutSettle _ _ _ _ due => rcases due with ⟨hs, -⟩ | ⟨hs, -⟩ <;> rw [hs] <;> rfl
  | resolveTimeoutRefund _ _ _ _ _ due =>
    rcases refundDeadline_eq_ok due with ⟨hs, -⟩ | ⟨hs, -⟩ <;> rw [hs] <;> rfl
  | slashBond _ _ _ _ _ challenged => rw [challenged]; rfl

/-- A call that is ready resolves its job. Slashing gives rent to the buyer, who is a wallet. -/
theorem Ready.succeeds (h : Ready P ctx L r a j) (hs : Sound P L)
    (hwallet : r = .slashBond → P.Wallet j.buyer) :
    ∃ L' ev, processInstruction P ctx L r.instruction = .ok (L', ev) ∧
      L'.recordAt P.programId a = some (.job (released j r.target)) := by
  cases h with
  | acceptWork accounts settles access signer buyer_eq submitted =>
    exact acceptWork_succeeds hs accounts settles access signer buyer_eq submitted
  | resolveTimeoutSettle accounts settles access buyer_eq due =>
    obtain ⟨L₁, hdeadline⟩ := settleDeadline_succeeds _ hs settles.job_at buyer_eq due
    exact resolveTimeoutSettle_succeeds_of_deadline hs accounts settles access buyer_eq hdeadline
  | resolveTimeoutRefund accounts refunds access choice buyer_eq due =>
    exact refundInternal_succeeds hs accounts refunds access choice buyer_eq due
  | slashBond accounts slashes access signer admin_eq challenged buyer_eq opened =>
    exact slashBond_succeeds hs accounts slashes access signer admin_eq challenged buyer_eq opened
      (hwallet rfl)

section Inversion

variable {job bond escrow providerToken buyerToken mint tokenProgram : AccountMeta}

theorem writable_of_transferChecked {source mint destination authority : AccountMeta} {n : ℕ}
    {decimals : UInt8} {seeds : Option Seeds}
    (h : transferChecked P L source mint destination authority n decimals seeds = .ok L') :
    source.isWritable = true ∧ destination.isWritable = true := by
  simp only [transferChecked, bind_eq_ok, requireWritable, ensure_eq_ok, exists_const] at h
  exact ⟨h.1, h.2.1⟩

theorem access_of_settle (hj : job.isWritable = true) (hb : bond.isWritable = true)
    (hm : mint.key = j.mint)
    (h : settle P L j b job bond escrow providerToken buyerToken mint = .ok L') :
    SettleAccess L j job bond escrow providerToken buyerToken mint := by
  simp only [settle, bind_eq_ok] at h
  obtain ⟨L₁, hsurplus, L₂, hprincipal, -⟩ := h
  obtain ⟨hescrow, hprovider⟩ := writable_of_transferChecked hprincipal
  refine ⟨hj, hb, hescrow, hprovider, fun t ht hlt => ?_, hm⟩
  simp only [returnSurplusToBuyer, bind_eq_ok, parseTokenAccount_eq_ok, ensure_eq_ok,
    exists_const] at hsurplus
  obtain ⟨t', ht', -, hsurplus⟩ := hsurplus
  obtain rfl := Option.some.inj (ht.symm.trans ht')
  rw [if_pos (by omega)] at hsurplus
  exact (writable_of_transferChecked hsurplus).2

theorem ready_of_acceptWork (h : acceptWork P ctx L = .ok (L', ev))
    (ha : (ctx.accounts[1]?).map AccountMeta.key = some a) :
    ∃ j, Ready P ctx L .acceptWork a j := by
  unfold acceptWork at h
  split at h
  · rename_i buyer job bond escrow providerToken buyerToken mint tokenProgram rest hacc
    simp only [bind_eq_ok, requireSigner, requireWritable, requireLegacyTokenProgram,
      requireLegacyTokenProgramId_eq_ok, loadValidatedJob_eq_ok, loadJobBond_eq_ok,
      validateMint_eq_ok, validateAta_eq_ok, ensure_eq_ok, exists_const] at h
    obtain ⟨hsigner, hwj, hwb, htoken, j, ⟨hj, -⟩, hbuyer, hstate, -, ⟨hmint, -⟩, _,
      ⟨hata, te, hte, horde, -⟩, _, ⟨hpata, tp, htp, hordp, -⟩, _, ⟨hbata, tb, htb, hordb, -⟩, b,
      ⟨hb, -, hof⟩, L₁, hsettle, -⟩ := h
    rw [← hbuyer] at hbata hordb
    obtain rfl : job.key = a := by simpa [hacc] using ha
    exact ⟨j, .acceptWork hacc ⟨hj, hb, hof, hata, hpata, hbata, ⟨te, hte, horde.thawed⟩,
      ⟨tp, htp, hordp⟩, ⟨tb, htb, hordb⟩, htoken⟩ (access_of_settle hwj hwb hmint hsettle) hsigner
      hbuyer hstate⟩
  · cases h

theorem reached_of_settleDeadline {buyer : AccountMeta} {challenge : Option AccountMeta}
    (h : settleDeadline P ctx L j job buyer challenge = .ok L') :
    DeadlineReached P L ctx.now job.key j buyer challenge := by
  unfold settleDeadline at h
  split at h
  · simp only [bind_eq_ok, ensure_eq_ok, exists_const] at h
    exact Or.inl ⟨‹_›, h.1⟩
  · simp only [bind_eq_ok, okOr_eq_ok, loadValidatedChallenge_eq_ok, requireWritable, ensure_eq_ok,
      exists_const, closePdaAccount] at h
    obtain ⟨m, hm, c, ⟨hc, -, hcj⟩, -, hdue, -, hw, -, hwb, -⟩ := h
    exact Or.inr ⟨‹_›, m, c, hm, hc, hcj, hdue, hw, hwb⟩
  · cases h

theorem ready_of_resolveTimeoutSettle (h : resolveTimeoutSettle P ctx L = .ok (L', ev))
    (ha : (ctx.accounts[1]?).map AccountMeta.key = some a) :
    ∃ j, Ready P ctx L .resolveTimeoutSettle a j := by
  unfold resolveTimeoutSettle at h
  split at h
  · rename_i payer job bond escrow providerToken buyerToken buyer mint tokenProgram rest hacc
    simp only [bind_eq_ok, requireWritable, requireLegacyTokenProgram,
      requireLegacyTokenProgramId_eq_ok, loadValidatedJob_eq_ok, loadJobBond_eq_ok,
      validateMint_eq_ok, validateAta_eq_ok, ensure_eq_ok, exists_const] at h
    obtain ⟨hwj, hwb, htoken, j, ⟨hj, -⟩, L₁, hdeadline, -, ⟨hmint, -⟩, _,
      ⟨hata, te, hte, horde, -⟩, _, ⟨hpata, tp, htp, hordp, -⟩, _, ⟨hbata, tb, htb, hordb, -⟩,
      hbuyer, b, ⟨hb, -, hof⟩, L₂, hsettle, -⟩ := h
    -- Closing the challenge leaves the token accounts and the bond alone.
    have hsame : L₁.tokenAt = L.tokenAt ∧ L.recordAt P.programId bond.key = some (.bond b) := by
      rcases (abs_of_settleDeadline hdeadline).1 with ⟨-, -, rfl⟩ | ⟨-, k, c, -, -, -, habs⟩
      · exact ⟨rfl, hb⟩
      · rw [← records_abs, habs] at hb
        exact ⟨congrArg State.tokens habs, (State.of_records_drop hb).2⟩
    obtain ⟨htok, hb⟩ := hsame
    have haccess := access_of_settle hwj hwb hmint hsettle
    rw [htok] at hte htp htb
    obtain rfl : job.key = a := by simpa [hacc] using ha
    exact ⟨j, .resolveTimeoutSettle hacc ⟨hj, hb, hof, hata, hpata, hbata, ⟨te, hte, horde.thawed⟩,
      ⟨tp, htp, hordp⟩, ⟨tb, htb, hordb⟩, htoken⟩
      { haccess with pays_buyer := by rw [← htok]; exact haccess.pays_buyer } hbuyer
      (reached_of_settleDeadline hdeadline)⟩
  · cases h

theorem choice_of_refundBond {j' : JobAccount} {o : Option ProviderBondAccount}
    (h : refundBond P L j bond = .ok (j', o)) : BondChoice P L j bond := by
  unfold refundBond at h
  split at h
  · simp only [bind_eq_ok, requireWritable, loadValidatedBond_eq_ok, ensure_eq_ok,
      exists_const] at h
    obtain ⟨hw, b, ⟨hb, -⟩, h⟩ := h
    refine .bond b hb hw ?_
    split at h
    · exact Or.inl ‹_›
    · simp only [bind_eq_ok, ensure_eq_ok, exists_const] at h
      exact Or.inr h.1
  · simp only [bind_eq_ok, ensure_eq_ok, exists_const] at h
    exact .none ‹_› h.1

theorem refunds_of_refundPrincipal
    (hj : L.recordAt P.programId job.key = some (.job j))
    (htoken : tokenProgram.key = tokenProgramId)
    (h : refundPrincipalToBuyer P L j job escrow mint buyerToken tokenProgram j.mintDecimals =
      .ok L') :
    RefundAccounts P L j job escrow buyerToken ∧
      RefundAccess j job escrow buyerToken mint tokenProgram ∧
      ∃ t, L.tokenAt escrow.key = some t ∧ t.delegate = none ∧
        transferChecked P L escrow mint buyerToken job t.amount j.mintDecimals
          (some (jobSignerSeeds j.buyer j.provider j.jobNonce j.bump)) = .ok L' := by
  simp only [refundPrincipalToBuyer, bind_eq_ok, requireWritable, requireLegacyTokenProgramId_eq_ok,
    validateMint_eq_ok, validateAta_eq_ok, parseTokenAccount_eq_ok, ensure_eq_ok,
    exists_const] at h
  obtain ⟨hwj, -, -, ⟨hmint, -⟩, _, ⟨hata, te, hte, horde, -⟩, _, ⟨hbata, tb, htb, hordb, -⟩, t, ht,
    -, hxfer⟩ := h
  obtain rfl := Option.some.inj (hte.symm.trans ht)
  obtain ⟨hwe, hwb⟩ := writable_of_transferChecked hxfer
  exact ⟨⟨hj, hata, hbata, ⟨te, hte, horde.thawed⟩, tb, htb, hordb⟩, ⟨hwj, hwe, hwb, hmint, htoken⟩,
    te, hte, horde.undelegated, hxfer⟩

theorem ready_of_resolveTimeoutRefund (h : resolveTimeoutRefund P ctx L = .ok (L', ev))
    (ha : (ctx.accounts[1]?).map AccountMeta.key = some a) :
    ∃ j, Ready P ctx L .resolveTimeoutRefund a j := by
  unfold resolveTimeoutRefund refundInternal at h
  split at h
  · rename_i payer job bond escrow buyerToken buyer mint tokenProgram rest hacc
    simp only [bind_eq_ok, requireWritable, requireLegacyTokenProgram,
      requireLegacyTokenProgramId_eq_ok, loadValidatedJob_eq_ok, ensure_eq_ok, exists_const,
      Prod.exists] at h
    obtain ⟨-, htoken, j, ⟨hj, -⟩, _, hdue, hbuyer, L₁, hrefund, j₁, o, hbond, -⟩ := h
    obtain ⟨hrefunds, haccess, t, ht, hd, hxfer⟩ := refunds_of_refundPrincipal hj htoken hrefund
    have hrec : L₁.recordAt P.programId = L.recordAt P.programId :=
      congrArg State.records (abs_of_transferChecked (P := P) hxfer ht hd).1
    -- The payment leaves the account that is passed as the bond alone.
    have hchoice : BondChoice P L j bond :=
      (choice_of_refundBond hbond).of_records hrec.symm fun ho =>
        (account_of_transferChecked hxfer ht hd ho).symm
    obtain rfl : job.key = a := by simpa [hacc] using ha
    exact ⟨j, .resolveTimeoutRefund hacc hrefunds haccess hchoice hbuyer hdue⟩
  · cases h

theorem ready_of_slashBond (h : slashBond P ctx L = .ok (L', ev))
    (ha : (ctx.accounts[2]?).map AccountMeta.key = some a) :
    ∃ j, Ready P ctx L .slashBond a j := by
  unfold slashBond at h
  split at h
  · rename_i admin config job bond vault escrow buyerToken buyer challenge mint tokenProgram rest
      hacc
    simp only [bind_eq_ok, requireSigner, requireWritable, requireLegacyTokenProgram,
      requireLegacyTokenProgramId_eq_ok, loadValidatedConfigReadonly, requireReadonly,
      loadValidatedConfig_eq_ok, loadValidatedJob_eq_ok, loadValidatedChallenge_eq_ok,
      loadJobBond_eq_ok, validateAta_eq_ok, validateMint_eq_ok, ensure_eq_ok, exists_const,
      okOr_eq_ok] at h
    obtain ⟨hsigner, hwj, hwb, hwc, htoken, c, ⟨hro, hc, -⟩, hadmin, j, ⟨hj, -⟩, hstate, ch,
      ⟨hch, -, hchj⟩, -, hopen, hbuyer, L₁, hrefund, b, ⟨hb, -, hof⟩, -, -, _,
      ⟨hvata, tv, htv, hordv, -⟩, -, L₂, hxfer₂, _, -, _, -, j', -, L₃, -, L₄, -, L₅, hclose, -⟩ :=
      h
    obtain ⟨hrefunds, haccess, t, ht, hd, hxfer⟩ := refunds_of_refundPrincipal hj htoken hrefund
    have habs := (abs_of_transferChecked (P := P) hxfer ht hd).1
    have hrec : L₁.recordAt P.programId = L.recordAt P.programId := congrArg State.records habs
    have htok : L₁.tokenAt = Tokens.move L.tokenAt escrow.key buyerToken.key t.amount :=
      congrArg State.tokens habs
    rw [hrec] at hb
    rw [hof.2] at hvata
    have hthawed : ThawedAt L vault.key := by
      cases htv₀ : L.tokenAt vault.key with
      | none =>
        rw [htok, Tokens.move_none vault.key htv₀] at htv
        cases htv
      | some tv₀ =>
        obtain ⟨n, hn⟩ := Tokens.move_some escrow.key buyerToken.key t.amount _ htv₀
        rw [htok, hn, Option.some.injEq] at htv
        subst htv
        exact ⟨tv₀, htv₀, hordv.thawed⟩
    have hwbuyer : buyer.isWritable = true := by
      simp only [closePdaAccount, bind_eq_ok, requireWritable, ensure_eq_ok, exists_const] at hclose
      exact hclose.2.1
    obtain rfl : job.key = a := by simpa [hacc] using ha
    exact ⟨j, .slashBond hacc ⟨hrefunds, hc, hb, hof, hvata, hthawed, hch, hchj⟩
      ⟨haccess, hro, hwb, (writable_of_transferChecked hxfer₂).1, hwc, hwbuyer⟩ hsigner hadmin
      hstate hbuyer hopen⟩
  · cases h

/-- A call that resolves its job was ready to. -/
theorem ready_of_process (h : processInstruction P ctx L r.instruction = .ok (L', ev))
    (ha : (ctx.accounts[r.jobIndex]?).map AccountMeta.key = some a) :
    ∃ j, Ready P ctx L r a j := by
  cases r with
  | acceptWork => exact ready_of_acceptWork h ha
  | resolveTimeoutSettle => exact ready_of_resolveTimeoutSettle h ha
  | resolveTimeoutRefund => exact ready_of_resolveTimeoutRefund h ha
  | slashBond => exact ready_of_slashBond h ha

end Inversion

section Frame

variable {m : AccountMeta}

/-- What belongs to the program belonged to it before, with the same length. -/
def Shrinks (P : Platform) (L L' : Ledger) : Prop :=
  ∀ k, (L'.account k).owner = P.programId → (L.account k).owner = P.programId ∧
    (L'.account k).data.len = (L.account k).data.len

namespace Shrinks

theorem refl : Shrinks P L L :=
  fun _ ho => ⟨ho, rfl⟩

theorem trans (h₁ : Shrinks P L L₁) (h₂ : Shrinks P L₁ L₂) : Shrinks P L L₂ := by
  intro k ho
  obtain ⟨ho₁, hlen₁⟩ := h₂ k ho
  obtain ⟨ho₀, hlen₀⟩ := h₁ k ho₁
  exact ⟨ho₀, hlen₁.trans hlen₀⟩

theorem of_writeAccountData {data : List UInt8} (h : writeAccountData L m data = .ok L') :
    Shrinks P L L' := by
  simp only [writeAccountData, bind_eq_ok, requireWritable, ensure_eq_ok, exists_const,
    Except.ok.injEq] at h
  obtain ⟨-, hlen, rfl⟩ := h
  intro k ho
  by_cases hk : k = m.key
  · subst hk
    rw [Ledger.account_put_self] at ho ⊢
    exact ⟨ho, hlen.symm⟩
  · rw [Ledger.account_put_of_ne _ _ hk] at ho ⊢
    exact ⟨ho, rfl⟩

theorem of_saveBond {b : ProviderBondAccount} (h : saveBond L m b = .ok L') : Shrinks P L L' := by
  simp only [saveBond, bind_eq_ok, orFail_eq_ok] at h
  obtain ⟨data, -, h⟩ := h
  exact of_writeAccountData h

theorem of_transferChecked {source mint destination authority : AccountMeta} {n : ℕ}
    {decimals : UInt8} {seeds : Option Seeds} {t : TokenAccount}
    (h : transferChecked P L source mint destination authority n decimals seeds = .ok L')
    (ht : L.tokenAt source.key = some t) (hd : t.delegate = none) : Shrinks P L L' := by
  intro k ho
  have hsame := account_of_program h ht hd ho
  rw [hsame] at ho ⊢
  exact ⟨ho, rfl⟩

theorem of_closePdaAccount {account recipient : AccountMeta}
    (h : closePdaAccount L account recipient = .ok L') : Shrinks P L L' := by
  simp only [closePdaAccount, bind_eq_ok, requireWritable, ensure_eq_ok, exists_const,
    Except.ok.injEq] at h
  obtain ⟨-, -, -, rfl⟩ := h
  intro k ho
  by_cases hk : k = account.key
  · subst hk
    rw [Ledger.account_put_self] at ho
    exact absurd ho.symm P.programId_ne_system
  · rw [Ledger.account_put_of_ne _ _ hk] at ho ⊢
    by_cases hr : k = recipient.key
    · subst hr
      rw [Ledger.account_put_self] at ho ⊢
      exact ⟨ho, rfl⟩
    · rw [Ledger.account_put_of_ne _ _ hr] at ho ⊢
      exact ⟨ho, rfl⟩

theorem of_settle {job bond escrow providerToken buyerToken mint : AccountMeta} {t : TokenAccount}
    (ht : L.tokenAt escrow.key = some t) (hd : t.delegate = none)
    (h : settle P L j b job bond escrow providerToken buyerToken mint = .ok L') :
    Shrinks P L L' := by
  simp only [settle, bind_eq_ok, ensure_eq_ok, exists_const, Prod.exists] at h
  obtain ⟨L₁, hsurplus, L₂, hprincipal, _, -, -, _, _, -, _, -, L₃, hsaveb, hsavej⟩ := h
  have habs := (abs_of_returnSurplusToBuyer (P := P) hsurplus ht hd).1
  obtain ⟨n, hn⟩ := Tokens.move_some escrow.key buyerToken.key (t.amount - j.amount.toNat) _ ht
  have ht₁ : L₁.tokenAt escrow.key = some { t with amount := n } := by
    rw [← tokens_abs (P := P), habs]
    exact hn
  have h₁ : Shrinks P L L₁ := by
    simp only [returnSurplusToBuyer, bind_eq_ok, ensure_eq_ok, exists_const] at hsurplus
    obtain ⟨u, -, -, hsurplus⟩ := hsurplus
    split at hsurplus
    · exact of_transferChecked hsurplus ht hd
    · exact Except.ok.inj hsurplus ▸ refl
  exact ((h₁.trans (of_transferChecked hprincipal ht₁ hd)).trans (of_saveBond hsaveb)).trans
    (of_writeAccountData hsavej)

theorem of_process (h : processInstruction P ctx L r.instruction = .ok (L', ev)) :
    Shrinks P L L' := by
  cases r with
  | acceptWork =>
    change acceptWork P ctx L = _ at h
    unfold acceptWork at h
    split at h
    · simp only [bind_eq_ok, validateAta_eq_ok, Except.ok.injEq, Prod.mk.injEq] at h
      obtain ⟨_, -, _, -, _, -, _, -, j, -, _, -, _, -, _, -, _, -, _, ⟨-, te, hte, horde, -⟩, _, -,
        _, -, b, -, L₁, hsettle, rfl, -⟩ := h
      exact of_settle hte horde.undelegated hsettle
    · cases h
  | resolveTimeoutSettle =>
    change resolveTimeoutSettle P ctx L = _ at h
    unfold resolveTimeoutSettle at h
    split at h
    · simp only [bind_eq_ok, validateAta_eq_ok, Except.ok.injEq, Prod.mk.injEq] at h
      obtain ⟨_, -, _, -, _, -, j, -, L₁, hdeadline, _, -, _, -, _, ⟨-, te, hte, horde, -⟩, _, -, _,
        -, _, -, b, -, L₂, hsettle, rfl, -⟩ := h
      refine trans ?_ (of_settle hte horde.undelegated hsettle)
      unfold settleDeadline at hdeadline
      split at hdeadline
      · simp only [bind_eq_ok, Except.ok.injEq] at hdeadline
        obtain ⟨-, -, rfl⟩ := hdeadline
        exact refl
      · simp only [bind_eq_ok] at hdeadline
        obtain ⟨m, -, c, -, _, -, _, -, _, -, _, -, hclose⟩ := hdeadline
        exact of_closePdaAccount hclose
      · cases hdeadline
    · cases h
  | resolveTimeoutRefund =>
    change resolveTimeoutRefund P ctx L = _ at h
    unfold resolveTimeoutRefund refundInternal at h
    split at h
    · simp only [bind_eq_ok, requireWritable, requireLegacyTokenProgram,
        requireLegacyTokenProgramId_eq_ok, loadValidatedJob_eq_ok, ensure_eq_ok, exists_const,
        Prod.exists, Except.ok.injEq, Prod.mk.injEq] at h
      obtain ⟨-, htoken, j, ⟨hj, -⟩, _, -, -, L₁, hrefund, j₁, o, -, j₂, -, L₂, hsaveb, L₃, hsavej,
        rfl, -⟩ := h
      obtain ⟨-, -, t, ht, hd, hxfer⟩ := refunds_of_refundPrincipal hj htoken hrefund
      have h₂ : Shrinks P L₁ L₂ := by
        cases o with
        | none => exact Except.ok.inj hsaveb ▸ refl
        | some b => exact of_saveBond hsaveb
      exact ((of_transferChecked hxfer ht hd).trans h₂).trans (of_writeAccountData hsavej)
    · cases h
  | slashBond =>
    change slashBond P ctx L = _ at h
    unfold slashBond at h
    split at h
    · simp only [bind_eq_ok, requireWritable, requireLegacyTokenProgram,
        requireLegacyTokenProgramId_eq_ok, loadValidatedJob_eq_ok, validateAta_eq_ok, ensure_eq_ok,
        exists_const, Except.ok.injEq, Prod.mk.injEq] at h
      obtain ⟨_, -, -, -, -, htoken, c, -, -, j, ⟨hj, -⟩, -, ch, -, -, -, -, L₁, hrefund, b, -, -,
        -, _, ⟨-, tv, htv, hordv, -⟩, -, -, L₂, hxfer₂, _, -, _, -, j', -, L₃, hsaveb, L₄, hsavej,
        L₅, hclose,
        rfl, -⟩ := h
      obtain ⟨-, -, t, ht, hd, hxfer⟩ := refunds_of_refundPrincipal hj htoken hrefund
      exact ((((of_transferChecked hxfer ht hd).trans
        (of_transferChecked hxfer₂ htv hordv.undelegated)).trans (of_saveBond hsaveb)).trans
          (of_writeAccountData hsavej)).trans (of_closePdaAccount hclose)
    · cases h

end Shrinks

/-- Another job was resolved: the job, its challenge and its escrow are what they were, bonds and
token accounts are the same up to their amounts. -/
structure Undisturbed (P : Platform) (L L' : Ledger) (a : Pubkey) (j : JobAccount) : Prop where
  job : L'.recordAt P.programId a = some (.job j)
  bond : ∀ {k b}, L.recordAt P.programId k = some (.bond b) →
    ∃ b', L'.recordAt P.programId k = some (.bond b') ∧ b'.provider = b.provider ∧ b'.mint = b.mint
  challenge : ∀ {k c}, L.recordAt P.programId k = some (.challenge c) → c.job = a →
    L'.recordAt P.programId k = some (.challenge c)
  config : ∀ {k c}, L.recordAt P.programId k = some (.config c) →
    L'.recordAt P.programId k = some (.config c)
  token : ∀ {k t}, L.tokenAt k = some t → ∃ n, L'.tokenAt k = some { t with amount := n }
  escrow : ∀ {k t}, P.ata a j.mint = some k → L'.tokenAt k = some t → L.tokenAt k = some t
  shrinks : Shrinks P L L'

theorem undisturbed (h₁ : Resolved P (abs P L) (abs P L') a₁ j₁ r₁.target)
    (ho : Owned P (abs P L) a j r.target) (hf : Found P (abs P L)) (hne : a₁ ≠ a)
    (hshrinks : Shrinks P L L') : Undisturbed P L L' a j where
  job := by
    have h := h₁.records a
    rw [ho.job_at, records_abs] at h
    simpa only [resolveRecord, if_neg hne.symm] using h
  bond := by
    intro k b hb
    have h := h₁.records k
    rw [records_abs, records_abs, hb] at h
    refine ⟨_, h, ?_⟩
    split_ifs <;> simp
  challenge := by
    intro k c hc hcj
    have h := h₁.records k
    rw [records_abs, records_abs, hc] at h
    simpa only [resolveRecord, if_neg (fun he : c.job = a₁ => hne (he.symm.trans hcj))] using h
  config := by
    intro k c hc
    have h := h₁.records k
    rw [records_abs, records_abs, hc] at h
    exact h
  token := by
    intro k t ht
    have h := congrFun h₁.tokens k
    rw [tokens_abs, tokens_abs, payout_apply, ht] at h
    exact ⟨_, h⟩
  escrow := by
    intro k t he ht'
    have h := congrFun h₁.tokens k
    rw [tokens_abs, tokens_abs, payout_apply, ht'] at h
    cases ht : L.tokenAt k with
    | none =>
      rw [ht] at h
      cases h
    | some t₀ =>
      obtain ⟨hescrow, htaken, hgiven⟩ := ho.apart h₁.owned hf hne.symm ht he
      rw [ht] at h
      simpa [hescrow, htaken, hgiven] using h.symm
  shrinks := hshrinks

namespace Undisturbed

variable {job bond escrow providerToken buyerToken mint tokenProgram : AccountMeta}
    {k owner : Pubkey}

theorem ordinary (h : Undisturbed P L L' a j) {mint : Pubkey} (hk : OrdinaryAt L k mint owner) :
    OrdinaryAt L' k mint owner := by
  obtain ⟨t, ht, hord⟩ := hk
  obtain ⟨n, hn⟩ := h.token ht
  exact ⟨_, hn, hord.mint_eq, hord.owner_eq, hord.thawed, hord.undelegated⟩

theorem thawed (h : Undisturbed P L L' a j) (hk : ThawedAt L k) : ThawedAt L' k := by
  obtain ⟨t, ht, hf⟩ := hk
  obtain ⟨n, hn⟩ := h.token ht
  exact ⟨_, hn, hf⟩

theorem settles (h : Undisturbed P L L' job.key j)
    (hs : SettleAccounts P L j b job bond escrow providerToken buyerToken tokenProgram) :
    ∃ b', SettleAccounts P L' j b' job bond escrow providerToken buyerToken tokenProgram := by
  obtain ⟨b', hb', hp, hm⟩ := h.bond hs.bond_at
  exact ⟨b', { hs with
    job_at := h.job
    bond_at := hb'
    bond_of := ⟨hp.trans hs.bond_of.1, hm.trans hs.bond_of.2⟩
    escrow_at := h.thawed hs.escrow_at
    provider_at := h.ordinary hs.provider_at
    buyer_at := h.ordinary hs.buyer_at }⟩

theorem settleAccess (h : Undisturbed P L L' job.key j)
    (hs : SettleAccounts P L j b job bond escrow providerToken buyerToken tokenProgram)
    (hw : SettleAccess L j job bond escrow providerToken buyerToken mint) :
    SettleAccess L' j job bond escrow providerToken buyerToken mint :=
  { hw with pays_buyer := fun t ht hlt => hw.pays_buyer t (h.escrow hs.escrow_ata ht) hlt }

theorem refunds (h : Undisturbed P L L' job.key j)
    (hr : RefundAccounts P L j job escrow buyerToken) :
    RefundAccounts P L' j job escrow buyerToken :=
  { hr with
    job_at := h.job
    escrow_at := h.thawed hr.escrow_at
    buyer_at := h.ordinary hr.buyer_at }

theorem choice (h : Undisturbed P L L' a j) (hc : BondChoice P L j bond) :
    BondChoice P L' j bond := by
  cases hc with
  | bond b bond_at writable of =>
    obtain ⟨b', hb', hp, hm⟩ := h.bond bond_at
    exact .bond b' hb' writable (by rw [hp, hm]; exact of)
  | none unlike unlocked =>
    refine .none ?_ unlocked
    rintro ⟨hlen, ho⟩
    obtain ⟨ho₀, hlen₀⟩ := h.shrinks _ ho
    exact unlike ⟨hlen₀.symm.trans hlen, ho₀⟩

theorem ready (h : Undisturbed P L L' a j) (hr : Ready P ctx L r a j) : Ready P ctx L' r a j := by
  cases hr with
  | acceptWork accounts settles access signer buyer_eq submitted =>
    obtain ⟨b', hsettles⟩ := h.settles settles
    exact .acceptWork accounts hsettles (h.settleAccess settles access) signer buyer_eq submitted
  | resolveTimeoutSettle accounts settles access buyer_eq due =>
    obtain ⟨b', hsettles⟩ := h.settles settles
    refine .resolveTimeoutSettle accounts hsettles (h.settleAccess settles access) buyer_eq ?_
    rcases due with hdue | ⟨hs, m, c, hm, hc, hcj, hrest⟩
    · exact Or.inl hdue
    · exact Or.inr ⟨hs, m, c, hm, h.challenge hc hcj, hcj, hrest⟩
  | resolveTimeoutRefund accounts refunds access choice buyer_eq due =>
    exact .resolveTimeoutRefund accounts (h.refunds refunds) access (h.choice choice) buyer_eq due
  | slashBond accounts slashes access signer admin_eq challenged buyer_eq opened =>
    obtain ⟨b', hb', hp, hm⟩ := h.bond slashes.bond_at
    refine .slashBond accounts (b := b') { h.refunds slashes.toRefundAccounts with
      config_at := h.config slashes.config_at
      bond_at := hb'
      bond_of := ⟨hp.trans slashes.bond_of.1, hm.trans slashes.bond_of.2⟩
      vault_ata := slashes.vault_ata
      vault_at := h.thawed slashes.vault_at
      challenge_at := h.challenge slashes.challenge_at slashes.challenge_job
      challenge_job := slashes.challenge_job } access signer admin_eq challenged buyer_eq opened

end Undisturbed

end Frame

section Commutation

theorem isPaid_target (r : Resolver) : r.target.isPaid = true := by
  cases r <;> rfl

/-- A call that resolves its job, as a step of the chain: it was ready, and its effect is that of
the resolution. -/
theorem Ready.resolved (h : Ready P ctx L r a j) (hs : Sound P L) (hsigned : SignedByWallets P ctx)
    {data : List UInt8} (hparse : Instruction.parse data = .ok r.instruction)
    (hwallet : r = .slashBond → P.Wallet j.buyer)
    (hok : process P ctx L data = .ok (L', ev)) :
    Resolved P (abs P L) (abs P L') a j r.target ∧ Shrinks P L L' := by
  rw [process_of_parse hparse] at hok
  obtain ⟨L'', ev', hok', hj'⟩ := h.succeeds hs hwallet
  obtain ⟨rfl, rfl⟩ := Prod.mk.inj (Except.ok.inj (hok.symm.trans hok'))
  obtain ⟨ix, -, hstep, -⟩ := refined_of_process hsigned ((process_of_parse hparse).trans hok)
  exact ⟨hstep.resolved hs.inv h.job_at h.holdsEscrow hj' (isPaid_target r), .of_process hok⟩

/-- A call that is ready goes through after a resolution of another job. -/
theorem Ready.after (h : Ready P ctx L r a j) (hne : a₁ ≠ a) (hs : Sound P L) (hs₁ : Sound P L₁)
    (hsigned : SignedByWallets P ctx) {data : List UInt8}
    (hparse : Instruction.parse data = .ok r.instruction)
    (hwallet : r = .slashBond → P.Wallet j.buyer)
    (ho : Owned P (abs P L) a j r.target) (hr₁ : Resolved P (abs P L) (abs P L₁) a₁ j₁ r₁.target)
    (hshrinks : Shrinks P L L₁) : ∃ L' ev, process P ctx L₁ data = .ok (L', ev) ∧
      Resolved P (abs P L₁) (abs P L') a j r.target := by
  have hready := (undisturbed hr₁ ho hs.inv.found hne hshrinks).ready h
  obtain ⟨L', ev, hok, -⟩ := hready.succeeds hs₁ hwallet
  rw [← process_of_parse hparse] at hok
  exact ⟨L', ev, hok, (hready.resolved hs₁ hsigned hparse hwallet hok).1⟩

/-- Resolutions of two different jobs that could both go through both do, in either order, and the
accounts and balances they leave do not depend on the order. -/
theorem resolutions_commute (r₁ r₂ : Resolver) (h : Reached P L) {data₁ data₂ : List UInt8}
    (hparse₁ : Instruction.parse data₁ = .ok r₁.instruction)
    (hparse₂ : Instruction.parse data₂ = .ok r₂.instruction)
    (ha₁ : (ctx₁.accounts[r₁.jobIndex]?).map AccountMeta.key = some a₁)
    (ha₂ : (ctx₂.accounts[r₂.jobIndex]?).map AccountMeta.key = some a₂) (hne : a₁ ≠ a₂)
    (hwallet₁ : r₁ = .slashBond → ∀ j, L.recordAt P.programId a₁ = some (.job j) →
      P.Wallet j.buyer)
    (hwallet₂ : r₂ = .slashBond → ∀ j, L.recordAt P.programId a₂ = some (.job j) →
      P.Wallet j.buyer)
    (h₁ : ChainStep P L (.instruction ctx₁ data₁) L₁)
    (h₂ : ChainStep P L (.instruction ctx₂ data₂) L₂) :
    ∃ L₁₂ ev₁₂ L₂₁ ev₂₁, process P ctx₂ L₁ data₂ = .ok (L₁₂, ev₁₂) ∧
      process P ctx₁ L₂ data₁ = .ok (L₂₁, ev₂₁) ∧ abs P L₁₂ = abs P L₂₁ := by
  have hs := Sound.of_reached h
  have hs₁ := hs.step h₁
  have hs₂ := hs.step h₂
  cases h₁ with
  | instruction hsigned₁ hok₁ _ =>
    cases h₂ with
    | instruction hsigned₂ hok₂ _ =>
      have hix₁ := hok₁
      have hix₂ := hok₂
      rw [process_of_parse hparse₁] at hix₁
      rw [process_of_parse hparse₂] at hix₂
      obtain ⟨j₁, hready₁⟩ := ready_of_process hix₁ ha₁
      obtain ⟨j₂, hready₂⟩ := ready_of_process hix₂ ha₂
      have hw₁ := fun hr => hwallet₁ hr j₁ hready₁.job_at
      have hw₂ := fun hr => hwallet₂ hr j₂ hready₂.job_at
      obtain ⟨hr₁, hsh₁⟩ := hready₁.resolved hs hsigned₁ hparse₁ hw₁ hok₁
      obtain ⟨hr₂, hsh₂⟩ := hready₂.resolved hs hsigned₂ hparse₂ hw₂ hok₂
      obtain ⟨L₁₂, ev₁₂, hok₁₂, hr₁₂⟩ := hready₂.after hne hs hs₁ hsigned₂ hparse₂ hw₂
        hr₂.owned hr₁ hsh₁
      obtain ⟨L₂₁, ev₂₁, hok₂₁, hr₂₁⟩ := hready₁.after hne.symm hs hs₂ hsigned₁ hparse₁ hw₁
        hr₁.owned hr₂ hsh₂
      exact ⟨L₁₂, ev₁₂, L₂₁, ev₂₁, hok₁₂, hok₂₁, hr₁.comm hr₂ hr₁₂ hr₂₁ hs.inv.found hne⟩

end Commutation

end Resolutions

namespace Sample

/-! Two jobs with one bond: the first is challenged, the second only accepted. -/

def secondJobKey : Pubkey := key 25
def secondEscrow : Pubkey := key 34

def pairTable : AddressTable :=
  table ++ [derived (jobSeedParts buyer provider 8) secondJobKey,
    associated secondJobKey secondEscrow]

def pairPlatform : Platform :=
  referencePlatform programId platform.programId_ne_system platform.programId_ne_token pairTable
    digest

def pairLedger : Ledger :=
  ⟨ledger.entries ++ [(secondEscrow, tokenAccount secondJobKey 0)]⟩

def secondTerms : CreateJobPayload := { terms with jobNonce := 8 }

def engageSecond : Script :=
  [call 10 (.createJob secondTerms)
      [signer buyer, readonly configKey, readonly providerKey, writable secondJobKey,
        readonly systemProgramId],
    call 10 .fundJob
      [signer buyer, readonly configKey, writable secondJobKey, writable buyerToken,
        writable secondEscrow, readonly mint, readonly tokenProgramId],
    call 10 .acceptJob
      [signer provider, readonly configKey, readonly providerKey, writable bondKey,
        writable secondJobKey]]

def pairScript : Script :=
  setup ++ engage 10 terms ++ engageSecond ++ [submit 40, challenge]

def contestedLedger : Ledger := play pairPlatform pairLedger pairScript

theorem not_pda_pair : ∀ k ∈ wallets, ¬ pairPlatform.Pda k :=
  not_pda_of_wallets (by decide)

theorem reached_contestedLedger : Reached pairPlatform contestedLedger :=
  .of_run (genesis_of_table (by decide) (by decide) (by decide))
    (run_of_playable not_pda_pair (by decide +kernel))

/-- The refund of the second job. -/
def secondRefund : Ctx × List UInt8 :=
  call 301 .resolveTimeoutRefund
    [readonly admin, writable secondJobKey, writable bondKey, writable secondEscrow,
      writable buyerToken, writable buyer, readonly mint, readonly tokenProgramId]

theorem views_contestedLedger :
    contestedLedger.recordAt pairPlatform.programId jobKey = some (.job challengedJob) ∧
      Playable pairPlatform wallets contestedLedger [slash] ∧
      Playable pairPlatform wallets contestedLedger [secondRefund] := by
  decide +kernel

theorem wallet_of_contested (j : JobAccount)
    (hj : contestedLedger.recordAt pairPlatform.programId jobKey = some (.job j)) :
    pairPlatform.Wallet j.buyer := by
  obtain ⟨hcontested, -⟩ := views_contestedLedger
  obtain rfl : challengedJob = j := by simpa using hcontested.symm.trans hj
  exact wallet_of_notMem (by decide)

end Sample

/-- The first sample job is slashed and the second refunded, in either order. -/
theorem resolutions_commute_sample : ∃ L₁₂ ev₁₂ L₂₁ ev₂₁,
    process Sample.pairPlatform Sample.secondRefund.1
        (next Sample.pairPlatform Sample.contestedLedger Sample.slash)
        Sample.secondRefund.2 = .ok (L₁₂, ev₁₂) ∧
      process Sample.pairPlatform Sample.slash.1
          (next Sample.pairPlatform Sample.contestedLedger Sample.secondRefund)
          Sample.slash.2 = .ok (L₂₁, ev₂₁) ∧
        abs Sample.pairPlatform L₁₂ = abs Sample.pairPlatform L₂₁ :=
  resolutions_commute .slashBond .resolveTimeoutRefund Sample.reached_contestedLedger
    (by decide +kernel) (by decide +kernel) rfl rfl
    (show Sample.jobKey ≠ Sample.secondJobKey by decide) (fun _ => Sample.wallet_of_contested)
    (fun h => by cases h)
    (step_of_playable Sample.not_pda_pair Sample.views_contestedLedger.2.1)
    (step_of_playable Sample.not_pda_pair Sample.views_contestedLedger.2.2)

end AgentBond
