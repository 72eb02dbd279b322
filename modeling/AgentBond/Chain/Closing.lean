import AgentBond.Chain.Script

/-! # Closing a job

The escrow account is an optional account of `CloseJob`. Closing with it
requires that it is empty; closing without it leaves whatever it holds under an
authority whose job is gone.
-/

namespace AgentBond

open Foundation Protocol

section Closing

variable {P : Platform} {ctx : Ctx} {L L' : Ledger} {j : JobAccount}
  {ev : ProtocolEvent}

/-- There are no tokens at the address. -/
def EmptyAt (L : Ledger) (k : Pubkey) : Prop := ∀ t, L.tokenAt k = some t → t.amount = 0

/-- The fourth account, the optional escrow of `CloseJob`, is the given one. -/
def PassesEscrow (ctx : Ctx) (e : Pubkey) : Prop := ∃ m, ctx.accounts[3]? = some m ∧ m.key = e

theorem asToken_of_len_zero {d : AccountData} (h : d.len = 0) : d.asToken = none := by
  cases d with
  | raw bytes =>
    have hlen : bytes.length ≠ 165 := by
      intro he
      rw [AccountData.len] at h
      omega
    exact if_neg hlen
  | token t => cases h
  | mint m => rfl

theorem tokens_of_closeEscrow {jobAccount rentRecipient : AccountMeta}
    {escrow tokenProgram : Option AccountMeta}
    (h : closeEscrow P L j jobAccount rentRecipient escrow tokenProgram = .ok L') :
    (L'.tokenAt = L.tokenAt ∧ ∀ m, escrow = some m → L.tokenAt m.key = none) ∨
      ∃ m t, escrow = some m ∧ L.tokenAt m.key = some t ∧ t.amount = 0 ∧
        L'.tokenAt = Function.update L.tokenAt m.key none := by
  unfold closeEscrow at h
  split at h
  · cases h
    exact Or.inl ⟨rfl, fun m hm => by cases hm⟩
  · rename_i m
    split at h
    · simp only [bind_eq_ok, okOr_eq_ok, requireLegacyTokenProgram,
        requireLegacyTokenProgramId_eq_ok, tokenAmount_eq_ok, ensure_eq_ok, exists_const] at h
      obtain ⟨-, -, -, n, ⟨t, ht, hn⟩, h0, h⟩ := h
      have habs := abs_of_closeTokenAccount h ht
      exact Or.inr ⟨m, t, rfl, ht, hn.trans h0, congrArg State.tokens habs⟩
    · -- An account of the system program or without data is no token account.
      rename_i hskip
      cases h
      refine Or.inl ⟨rfl, fun m' hm' => ?_⟩
      obtain rfl := Option.some.inj hm'
      by_cases howner : (L.account m.key).owner = tokenProgramId
      · have hlen : (L.account m.key).data.len = 0 := by
          by_contra hne
          refine hskip ⟨?_, Nat.pos_of_ne_zero hne⟩
          rw [howner]
          decide
        rw [Ledger.tokenAt, if_pos howner]
        exact asToken_of_len_zero hlen
      · exact Ledger.tokenAt_of_owner howner

/-- What `CloseJob` does to the job and to the token accounts. -/
theorem effect_of_closeJob (h : closeJob P ctx L = .ok (L', ev)) :
    ∃ m j, ctx.accounts[1]? = some m ∧ L.recordAt P.programId m.key = some (.job j) ∧
      L'.recordAt P.programId m.key = none ∧
      ((L'.tokenAt = L.tokenAt ∧ ∀ x, ctx.accounts[3]? = some x → L.tokenAt x.key = none) ∨
        ∃ x t, ctx.accounts[3]? = some x ∧ L.tokenAt x.key = some t ∧ t.amount = 0 ∧
          L'.tokenAt = Function.update L.tokenAt x.key none) := by
  unfold closeJob at h
  split at h
  · rename_i buyer jobAccount rentRecipient rest hacc
    simp only [bind_eq_ok, requireSigner, requireWritable, loadValidatedJob_eq_ok, ensure_eq_ok,
      exists_const, Except.ok.injEq, Prod.mk.injEq] at h
    obtain ⟨-, -, j, ⟨hj, -⟩, -, -, -, L₁, hescrow, L₂, hclose, rfl, -⟩ := h
    have hrec : (abs P L₁).records jobAccount.key = some (.job j) := by
      rcases (abs_of_closeEscrow (P := P) hescrow).1 with habs | ⟨k, t, -, -, habs⟩
      · rw [habs]; exact hj
      · rw [habs]; exact hj
    have habs := abs_of_closePdaAccount hclose hrec
    have htokens : L₂.tokenAt = L₁.tokenAt := congrArg State.tokens habs
    have hgone : L₂.recordAt P.programId jobAccount.key = none := by
      rw [← records_abs, habs, State.records_drop_self]
    refine ⟨jobAccount, j, by rw [hacc]; rfl, hj, hgone, ?_⟩
    have hrest : ctx.accounts[3]? = rest[0]? := by rw [hacc]; rfl
    rw [htokens, hrest]
    exact tokens_of_closeEscrow hescrow
  · cases h

/-- A successful `CloseJob` removes the job, and leaves its escrow without tokens exactly when the
escrow was passed or held none. -/
theorem closeJob_strands_nothing_iff {data : List UInt8}
    (hparse : Instruction.parse data = .ok .closeJob)
    (hok : process P ctx L data = .ok (L', ev)) :
    ∃ m j, ctx.accounts[1]? = some m ∧ L.recordAt P.programId m.key = some (.job j) ∧
      L'.recordAt P.programId m.key = none ∧ ∀ e, P.ata m.key j.mint = some e →
        (EmptyAt L' e ↔ PassesEscrow ctx e ∨ EmptyAt L e) := by
  have hclose : closeJob P ctx L = .ok (L', ev) := by
    rw [← hok, process_of_parse hparse]
    rfl
  obtain ⟨m, j, hm, hj, hgone, htokens⟩ := effect_of_closeJob hclose
  refine ⟨m, j, hm, hj, hgone, fun e _ => ?_⟩
  rcases htokens with ⟨hsame, hnone⟩ | ⟨x, t, hx, ht, h0, hclosed⟩
  · rw [EmptyAt, hsame]
    constructor
    · exact Or.inr
    · rintro (⟨x, hx, rfl⟩ | hempty) t ht
      · rw [hnone x hx] at ht
        cases ht
      · exact hempty t ht
  · rw [EmptyAt, hclosed]
    by_cases hex : e = x.key
    · subst hex
      rw [Function.update_self]
      constructor
      · intro _
        exact Or.inl ⟨x, hx, rfl⟩
      · intro _ t' ht'
        cases ht'
    · rw [Function.update_of_ne hex]
      constructor
      · exact Or.inr
      · rintro (⟨x', hx', rfl⟩ | hempty)
        · rw [hx, Option.some.injEq] at hx'
          exact absurd (congrArg _ hx').symm hex
        · exact hempty

end Closing

namespace Sample

/-- Somebody sends five tokens to the escrow of the settled job. -/
def dustedEscrow : Ledger :=
  Reference.setToken settledLedger escrow
    { mint, owner := jobKey, amount := 5, delegate := none, frozen := false }

theorem views_dustedEscrow : settledLedger.tokenAt escrow = some (holding jobKey 0) ∧
    dustedEscrow.Light ∧ (process platform close.1 dustedEscrow close.2).isOk = true := by
  decide +kernel

theorem reached_dustedEscrow : Reached platform dustedEscrow := by
  obtain ⟨htoken, hlight, -⟩ := views_dustedEscrow
  exact reached_settledLedger.tail (.thirdParty (.sendToken htoken 5) hlight.capitalized)

/-- The ledger after the buyer closed the job without its escrow. -/
def strandedLedger : Ledger := next platform dustedEscrow close

theorem views_strandedLedger : strandedLedger.recordAt platform.programId jobKey = none ∧
    strandedLedger.tokenAt escrow = some (holding jobKey 5) := by
  decide +kernel

theorem close_dustedEscrow : ∃ ev,
    process platform close.1 dustedEscrow close.2 = .ok (strandedLedger, ev) := by
  obtain ⟨-, -, hok⟩ := views_dustedEscrow
  rw [strandedLedger, next]
  cases hp : process platform close.1 dustedEscrow close.2 with
  | error e =>
    rw [hp] at hok
    cases hok
  | ok r => exact ⟨r.2, rfl⟩

end Sample

/-- The sample job is closed without its escrow, which keeps the tokens somebody sent to it. -/
theorem closeJob_strands_tokens : ∃ ev,
    Reached Sample.platform Sample.dustedEscrow ∧
    process Sample.platform Sample.close.1 Sample.dustedEscrow Sample.close.2 =
      .ok (Sample.strandedLedger, ev) ∧
    Instruction.parse Sample.close.2 = .ok .closeJob ∧
    Sample.strandedLedger.recordAt Sample.platform.programId Sample.jobKey = none ∧
    Sample.platform.ata Sample.jobKey Sample.mint = some Sample.escrow ∧
    Sample.strandedLedger.tokenAt Sample.escrow =
      some { mint := Sample.mint, owner := Sample.jobKey, amount := 5, delegate := none,
             frozen := false } := by
  obtain ⟨ev, hok⟩ := Sample.close_dustedEscrow
  obtain ⟨hclosed, hkept⟩ := Sample.views_strandedLedger
  exact ⟨ev, Sample.reached_dustedEscrow, hok, by decide +kernel, hclosed, by decide +kernel, hkept⟩

/-- In the sample the escrow is empty after the closing exactly when it was before. -/
theorem closeJob_strands_nothing_iff_sample : ∃ m j,
    Sample.close.1.accounts[1]? = some m ∧
    Sample.dustedEscrow.recordAt Sample.platform.programId m.key = some (.job j) ∧
    Sample.strandedLedger.recordAt Sample.platform.programId m.key = none ∧
    ∀ e, Sample.platform.ata m.key j.mint = some e →
      (EmptyAt Sample.strandedLedger e ↔
        PassesEscrow Sample.close.1 e ∨ EmptyAt Sample.dustedEscrow e) := by
  obtain ⟨ev, hok⟩ := Sample.close_dustedEscrow
  exact closeJob_strands_nothing_iff (by decide +kernel) hok

end AgentBond
