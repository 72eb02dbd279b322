import AgentBond.Chain.Abstraction

/-! # When the helpers succeed

The conditions under which records are saved, accounts created and closed and
tokens moved. They complete the inversions of the helpers.
-/

namespace AgentBond

open Foundation Protocol

variable {P : Platform} {L L' : Ledger} {m : AccountMeta}

section Records

theorem writeAccountData_succeeds {data : List UInt8} (hw : m.isWritable = true)
    (hlen : (L.account m.key).data.len = data.length) :
    ∃ L', writeAccountData L m data = .ok L' :=
  ⟨L.put m.key { L.account m.key with data := .raw data }, by
    simp only [writeAccountData, bind_eq_ok, requireWritable, ensure_eq_ok, exists_const]
    exact ⟨hw, hlen, trivial⟩⟩

theorem saveBond_succeeds {b : ProviderBondAccount} (hw : m.isWritable = true)
    (hlen : (L.account m.key).data.len = providerBondAccountLen) (hle : b.locked ≤ b.deposited) :
    ∃ L', saveBond L m b = .ok L' := by
  have hdata : ∃ data, b.encode = .ok data := by
    simp only [ProviderBondAccount.encode, ensure_bind_eq_ok, hle, true_and]
    exact ⟨_, rfl⟩
  obtain ⟨data, hd⟩ := hdata
  have hl := (ProviderBondAccount.of_decode (ProviderBondAccount.decode_of_encode hd)).1
  obtain ⟨L', hL'⟩ := writeAccountData_succeeds hw (hlen.trans hl.symm)
  exact ⟨L', by simp only [saveBond, bind_eq_ok, orFail_eq_ok]; exact ⟨data, hd, hL'⟩⟩

theorem saveJob_succeeds {j : JobAccount} (hw : m.isWritable = true)
    (hlen : (L.account m.key).data.len = jobAccountLen) : ∃ L', saveJob L m j = .ok L' :=
  writeAccountData_succeeds hw (hlen.trans (JobAccount.of_decode j.decode_encode).1.symm)

theorem saveProvider_succeeds {p : ProviderAccount} (hw : m.isWritable = true)
    (hlen : (L.account m.key).data.len = providerAccountLen)
    (hstatus : p.status = providerStatusActive)
    (hcount : p.executionKeyCount.toNat ≤ maxExecutionKeys) :
    ∃ L', saveProvider L m p = .ok L' := by
  have hdata : ∃ data, p.encode = .ok data := by
    simp only [ProviderAccount.encode, ensure_bind_eq_ok, hstatus, true_or, hcount, true_and]
    exact ⟨_, rfl⟩
  obtain ⟨data, hd⟩ := hdata
  have hl := (ProviderAccount.of_decode (ProviderAccount.decode_of_encode hd)).1
  obtain ⟨L', hL'⟩ := writeAccountData_succeeds hw (hlen.trans hl.symm)
  exact ⟨L', by simp only [saveProvider, bind_eq_ok, orFail_eq_ok]; exact ⟨data, hd, hL'⟩⟩

theorem saveProvider_registered_succeeds (bump : UInt8) (authority : Pubkey)
    (hw : m.isWritable = true) (hlen : (L.account m.key).data.len = providerAccountLen) :
    ∃ L', saveProvider L m (.registered bump authority) = .ok L' :=
  saveProvider_succeeds hw hlen rfl (Nat.zero_le _)

theorem saveChallenge_open_succeeds (j : JobAccount) (bump : UInt8) (key reasonHash : Pubkey)
    (deadline : Int64) (hw : m.isWritable = true)
    (hlen : (L.account m.key).data.len = challengeAccountLen) :
    ∃ L', saveChallenge L m (j.challenge bump key reasonHash deadline) = .ok L' := by
  have hdata : ∃ data, (j.challenge bump key reasonHash deadline).encode = .ok data := ⟨_, rfl⟩
  obtain ⟨data, hd⟩ := hdata
  have hl := (ChallengeAccount.of_decode (ChallengeAccount.decode_of_encode hd)).1
  obtain ⟨L', hL'⟩ := writeAccountData_succeeds hw (hlen.trans hl.symm)
  exact ⟨L', by simp only [saveChallenge, bind_eq_ok, orFail_eq_ok]; exact ⟨data, hd, hL'⟩⟩

theorem len_of_bond {k : Pubkey} {b : ProviderBondAccount}
    (h : L.recordAt P.programId k = some (.bond b)) :
    (L.account k).data.len = providerBondAccountLen :=
  AccountData.len_eq_of_bytes (by decide)
    (ProviderBondAccount.of_decode (Record.decode_eq_bond.mp (recordAt_eq_some.mp h).2)).1

theorem len_of_provider {k : Pubkey} {p : ProviderAccount}
    (h : L.recordAt P.programId k = some (.provider p)) :
    (L.account k).data.len = providerAccountLen :=
  AccountData.len_eq_of_bytes (by decide)
    (ProviderAccount.of_decode (Record.decode_eq_provider.mp (recordAt_eq_some.mp h).2)).1

theorem len_of_job {k : Pubkey} {j : JobAccount} (h : L.recordAt P.programId k = some (.job j)) :
    (L.account k).data.len = jobAccountLen :=
  AccountData.len_eq_of_bytes (by decide)
    (JobAccount.of_decode (Record.decode_eq_job.mp (recordAt_eq_some.mp h).2)).1

theorem len_of_challenge {k : Pubkey} {c : ChallengeAccount}
    (h : L.recordAt P.programId k = some (.challenge c)) :
    (L.account k).data.len = challengeAccountLen :=
  AccountData.len_eq_of_bytes (by decide)
    (ChallengeAccount.of_decode (Record.decode_eq_challenge.mp (recordAt_eq_some.mp h).2)).1

theorem closePdaAccount_succeeds_of_sum (account recipient : AccountMeta)
    (hw : account.isWritable = true) (hr : recipient.isWritable = true)
    (hsum : (L.account recipient.key).lamports + (L.account account.key).lamports < 2 ^ 64) :
    ∃ L', closePdaAccount L account recipient = .ok L' := by
  simp only [closePdaAccount, bind_eq_ok, requireWritable, ensure_eq_ok, exists_const]
  exact ⟨_, hw, hr, hsum, rfl⟩

theorem closePdaAccount_succeeds (account recipient : AccountMeta) (hc : L.Capitalized)
    (hw : account.isWritable = true) (hr : recipient.isWritable = true)
    (hne : account.key ≠ recipient.key) : ∃ L', closePdaAccount L account recipient = .ok L' :=
  closePdaAccount_succeeds_of_sum account recipient hw hr (hc recipient.key account.key hne.symm)

theorem lamports_of_writeAccountData {data : List UInt8} (h : writeAccountData L m data = .ok L')
    (k : Pubkey) : (L'.account k).lamports = (L.account k).lamports := by
  simp only [writeAccountData, bind_eq_ok, requireWritable, ensure_eq_ok, exists_const,
    Except.ok.injEq] at h
  obtain ⟨-, -, rfl⟩ := h
  by_cases hk : k = m.key
  · subst hk
    rw [Ledger.account_put_self]
  · rw [Ledger.account_put_of_ne _ _ hk]

theorem lamports_of_saveBond {b : ProviderBondAccount} (h : saveBond L m b = .ok L') (k : Pubkey) :
    (L'.account k).lamports = (L.account k).lamports := by
  simp only [saveBond, bind_eq_ok, orFail_eq_ok] at h
  obtain ⟨data, -, h⟩ := h
  exact lamports_of_writeAccountData h k

/-- An account is created exactly at a vacant address. -/
theorem createPdaAccount_succeeds_iff (payer account : AccountMeta) {space : ℕ} {seeds : Seeds}
    (hpayer : payer.isSigner = true ∧ payer.isWritable = true)
    (hunused : (L.account payer.key).Unused)
    (hfunds : P.minimumBalance space ≤ (L.account payer.key).lamports)
    (hspace : space ≤ maxDataIncrease) (hw : account.isWritable = true)
    (hseeds : P.createProgramAddress seeds P.programId = some account.key)
    (hne : payer.key ≠ account.key) :
    (∃ L', createPdaAccount P L payer account space seeds = .ok L') ↔
      L.account account.key = Account.vacant := by
  simp only [createPdaAccount, invokeCreateAccount, bind_eq_ok, requireWritable,
    requireUninitialized, ensure_eq_ok, exists_const]
  constructor
  · rintro ⟨L', -, -, -, -, h⟩
    exact (P.createAccount_ok h).empty
  · intro hv
    obtain ⟨L', hL'⟩ : ∃ L', P.createAccount L payer.key account.key (P.minimumBalance space) space
        P.programId = .ok L' := P.createAccount_succeeds hv hne hunused hfunds hspace
    exact ⟨L', hw, by rw [isUninitialized, hv]; exact ⟨rfl, rfl⟩, hpayer, Or.inl hseeds, hL'⟩

end Records

section Tokens

theorem transferChecked_succeeds {source mint destination authority : AccountMeta} {n : ℕ}
    {decimals : UInt8} {seeds : Option Seeds} (hs : source.isWritable = true)
    (hd : destination.isWritable = true) (ha : signedBy P seeds authority)
    (h : L.Transferable source.key mint.key destination.key authority.key n decimals) :
    ∃ L', transferChecked P L source mint destination authority n decimals seeds = .ok L' := by
  obtain ⟨L', hL'⟩ := P.transferChecked_succeeds h
  exact ⟨L', by
    simp only [transferChecked, bind_eq_ok, requireWritable, ensure_eq_ok, exists_const]
    exact ⟨hs, hd, ha, hL'⟩⟩

end Tokens

end AgentBond
