import AgentBond.Protocol.Step

/-! # From the ledger to the protocol state

What the ledger means to the protocol, and what each helper of the program does
to that meaning: saving stores a record, closing drops one, creating changes
nothing until the record is saved, and the token program moves tokens.
-/

namespace AgentBond

open Foundation Protocol

/-- The protocol state of a ledger. -/
def abs (P : Platform) (L : Ledger) : State where
  records := L.recordAt P.programId
  tokens := L.tokenAt
  mints := L.mintAt

variable {P : Platform} {L L' : Ledger} {m : AccountMeta}

@[simp] theorem records_abs : (abs P L).records = L.recordAt P.programId := rfl

@[simp] theorem tokens_abs : (abs P L).tokens = L.tokenAt := rfl

@[simp] theorem mints_abs : (abs P L).mints = L.mintAt := rfl

/-- The owner and the data of an address decide what it means. -/
def SameView (L L' : Ledger) (k : Pubkey) : Prop :=
  (L'.account k).owner = (L.account k).owner ∧ (L'.account k).data = (L.account k).data

theorem sameView_of_eq {k : Pubkey} (h : L'.account k = L.account k) : SameView L L' k := by
  rw [SameView, h]
  exact ⟨rfl, rfl⟩

namespace SameView

variable {k : Pubkey} (h : SameView L L' k)
include h

theorem recordAt_eq : L'.recordAt P.programId k = L.recordAt P.programId k := by
  simp only [Ledger.recordAt, h.1, h.2]

theorem tokenAt_eq : L'.tokenAt k = L.tokenAt k := by
  simp only [Ledger.tokenAt, h.1, h.2]

theorem mintAt_eq : L'.mintAt k = L.mintAt k := by
  simp only [Ledger.mintAt, h.1, h.2]

end SameView

/-- Changing one address changes the meaning of that address only. -/
theorem abs_eq_of_frame {s : State} (k : Pubkey) (frame : ∀ i, i ≠ k → SameView L L' i)
    (hr : s.records = Function.update (L.recordAt P.programId) k (L'.recordAt P.programId k))
    (ht : s.tokens = Function.update L.tokenAt k (L'.tokenAt k))
    (hm : s.mints = Function.update L.mintAt k (L'.mintAt k)) : abs P L' = s := by
  refine State.ext (funext fun i => ?_) (funext fun i => ?_) (funext fun i => ?_)
  · rw [records_abs, hr]
    by_cases hi : i = k
    · subst hi; rw [Function.update_self]
    · rw [Function.update_of_ne hi, (frame i hi).recordAt_eq]
  · rw [tokens_abs, ht]
    by_cases hi : i = k
    · subst hi; rw [Function.update_self]
    · rw [Function.update_of_ne hi, (frame i hi).tokenAt_eq]
  · rw [mints_abs, hm]
    by_cases hi : i = k
    · subst hi; rw [Function.update_self]
    · rw [Function.update_of_ne hi, (frame i hi).mintAt_eq]

theorem update_eq_of_eq {α : Type} {f : Pubkey → α} {k : Pubkey} {a : α} (h : a = f k) :
    f = Function.update f k a := by
  rw [h, Function.update_eq_self]

theorem tokenAt_of_program {k : Pubkey} (h : (L.account k).owner = P.programId) :
    L.tokenAt k = none ∧ L.mintAt k = none := by
  have hne : (L.account k).owner ≠ tokenProgramId := h ▸ P.programId_ne_token
  exact ⟨Ledger.tokenAt_of_owner hne, Ledger.mintAt_of_owner hne⟩

/-- Nothing but lamports or a record is at the address. -/
def Neat (P : Platform) (L : Ledger) (k : Pubkey) : Prop :=
  (L.account k).Unused ∨ ∃ r, L.recordAt P.programId k = some r

/-- Every address of the program is neat, except the given ones. -/
def Tidy (P : Platform) (L : Ledger) (E : Set Pubkey) : Prop := ∀ k, P.Pda k → k ∉ E → Neat P L k

theorem SameView.neat {k : Pubkey} (h : SameView L L' k) (hn : Neat P L k) : Neat P L' k := by
  rcases hn with ⟨ho, hd⟩ | ⟨r, hr⟩
  · exact Or.inl ⟨h.1.trans ho, h.2.trans hd⟩
  · exact Or.inr ⟨r, h.recordAt_eq.trans hr⟩

theorem Tidy.mono {E E' : Set Pubkey} (h : Tidy P L E) (hE : E ⊆ E') : Tidy P L E' :=
  fun k hk hn => h k hk fun hin => hn (hE hin)

section Records

/-- A record was stored at an address and nothing else changed. -/
structure Saved (P : Platform) (L : Ledger) (k : Pubkey) (r : Record) (L' : Ledger) : Prop where
  abs_eq : abs P L' = (abs P L).put k r
  frame : ∀ i, i ≠ k → L'.account i = L.account i

theorem Tidy.saved {E : Set Pubkey} {k : Pubkey} {r : Record} (h : Tidy P L E)
    (hs : Saved P L k r L') : Tidy P L' (E \ {k}) := by
  intro i hi hE
  by_cases hik : i = k
  · subst hik
    refine Or.inr ⟨r, ?_⟩
    rw [← records_abs, hs.abs_eq, State.records_put_self]
  · exact (sameView_of_eq (hs.frame i hik)).neat (h i hi fun hin => hE ⟨hin, hik⟩)

theorem saved_of_writeAccountData {data : List UInt8} {r : Record}
    (h : writeAccountData L m data = .ok L') (ho : (L.account m.key).owner = P.programId)
    (hr : Record.decode data = some r) : Saved P L m.key r L' := by
  simp only [writeAccountData, bind_eq_ok, requireWritable, ensure_eq_ok, exists_const,
    Except.ok.injEq] at h
  obtain ⟨-, -, rfl⟩ := h
  have hself := Ledger.account_put_self L m.key { L.account m.key with data := .raw data }
  have hown : ((L.put m.key { L.account m.key with data := .raw data }).account m.key).owner =
      P.programId := by rw [hself]; exact ho
  have frame : ∀ i, i ≠ m.key → (L.put m.key { L.account m.key with data := .raw data }).account i =
      L.account i := fun i hi => Ledger.account_put_of_ne L _ hi
  refine ⟨abs_eq_of_frame (L := L) m.key (fun i hi => sameView_of_eq (frame i hi)) ?_ ?_ ?_, frame⟩
  · rw [recordAt_eq_some.mpr ⟨hown, by rw [hself]; exact hr⟩]; rfl
  · exact update_eq_of_eq
      ((tokenAt_of_program hown).1.trans (tokenAt_of_program (P := P) ho).1.symm)
  · exact update_eq_of_eq
      ((tokenAt_of_program hown).2.trans (tokenAt_of_program (P := P) ho).2.symm)

theorem saved_of_saveConfig {c : ConfigAccount} (h : saveConfig L m c = .ok L')
    (ho : (L.account m.key).owner = P.programId) : Saved P L m.key (.config c) L' :=
  saved_of_writeAccountData h ho (Record.decode_eq_config.mpr c.decode_encode)

theorem saved_of_saveProvider {p : ProviderAccount} (h : saveProvider L m p = .ok L')
    (ho : (L.account m.key).owner = P.programId) :
    Saved P L m.key (.provider p) L' := by
  simp only [saveProvider, bind_eq_ok, orFail_eq_ok] at h
  obtain ⟨data, hd, h⟩ := h
  exact saved_of_writeAccountData h ho
    (Record.decode_eq_provider.mpr (ProviderAccount.decode_of_encode hd))

/-- Only a bond that covers what is locked is saved. -/
theorem saved_of_saveBond {b : ProviderBondAccount} (h : saveBond L m b = .ok L')
    (ho : (L.account m.key).owner = P.programId) :
    Saved P L m.key (.bond b) L' ∧ b.locked ≤ b.deposited := by
  simp only [saveBond, bind_eq_ok, orFail_eq_ok] at h
  obtain ⟨data, hd, h⟩ := h
  refine ⟨saved_of_writeAccountData h ho
    (Record.decode_eq_bond.mpr (ProviderBondAccount.decode_of_encode hd)), ?_⟩
  simp only [ProviderBondAccount.encode, bind_eq_ok, ensure_eq_ok, exists_const] at hd
  exact hd.1

theorem saved_of_saveJob {j : JobAccount} (h : saveJob L m j = .ok L')
    (ho : (L.account m.key).owner = P.programId) : Saved P L m.key (.job j) L' :=
  saved_of_writeAccountData h ho (Record.decode_eq_job.mpr j.decode_encode)

theorem saved_of_saveChallenge {c : ChallengeAccount} (h : saveChallenge L m c = .ok L')
    (ho : (L.account m.key).owner = P.programId) :
    Saved P L m.key (.challenge c) L' := by
  simp only [saveChallenge, bind_eq_ok, orFail_eq_ok] at h
  obtain ⟨data, hd, h⟩ := h
  exact saved_of_writeAccountData h ho
    (Record.decode_eq_challenge.mpr (ChallengeAccount.decode_of_encode hd))

theorem vacant_views {k : Pubkey} (h : L.account k = Account.vacant) :
    L.recordAt P.programId k = none ∧ L.tokenAt k = none ∧ L.mintAt k = none := by
  have ho : (L.account k).owner = systemProgramId := by rw [h]; rfl
  have ht : (L.account k).owner ≠ tokenProgramId := by rw [ho]; decide
  refine ⟨Ledger.recordAt_of_owner ?_, Ledger.tokenAt_of_owner ht, Ledger.mintAt_of_owner ht⟩
  rw [ho]
  exact P.programId_ne_system.symm

/-- A created account means nothing yet, and nothing was at its address. -/
theorem abs_of_createPdaAccount {payer account : AccountMeta} {space : ℕ} {seeds : Seeds}
    (h : createPdaAccount P L payer account space seeds = .ok L') :
    abs P L' = abs P L ∧ (L'.account account.key).owner = P.programId ∧
      (abs P L).records account.key = none := by
  simp only [createPdaAccount, invokeCreateAccount, bind_eq_ok, requireWritable,
    requireUninitialized, ensure_eq_ok, exists_const] at h
  obtain ⟨-, -, -, -, h⟩ := h
  have hc := P.createAccount_ok h
  have hown : (L'.account account.key).owner = P.programId := by rw [hc.created]
  have hv := vacant_views (P := P) hc.empty
  refine ⟨abs_eq_of_frame (L := L) account.key (fun i hi => ?_) ?_ ?_ ?_, hown, hv.1⟩
  · by_cases hp : i = payer.key
    · subst hp; rw [SameView, hc.charged]; exact ⟨rfl, rfl⟩
    · exact sameView_of_eq (hc.frame i hp hi)
  · refine update_eq_of_eq (Eq.trans ?_ hv.1.symm)
    rw [Ledger.recordAt, if_pos hown, hc.created]
    exact Record.decode_of_zeroed fun b hb => List.eq_of_mem_replicate hb
  · exact update_eq_of_eq ((tokenAt_of_program hown).1.trans hv.2.1.symm)
  · exact update_eq_of_eq ((tokenAt_of_program hown).2.trans hv.2.2.symm)

theorem Tidy.created {payer account : AccountMeta} {space : ℕ} {seeds : Seeds} {E : Set Pubkey}
    (ht : Tidy P L E) (h : createPdaAccount P L payer account space seeds = .ok L') :
    Tidy P L' (insert account.key E) := by
  simp only [createPdaAccount, invokeCreateAccount, bind_eq_ok, requireWritable,
    requireUninitialized, ensure_eq_ok, exists_const] at h
  obtain ⟨-, -, -, -, h⟩ := h
  have hc := P.createAccount_ok h
  intro k hk hE
  rw [Set.mem_insert_iff, not_or] at hE
  refine SameView.neat ?_ (ht k hk hE.2)
  by_cases hp : k = payer.key
  · subst hp; rw [SameView, hc.charged]; exact ⟨rfl, rfl⟩
  · exact sameView_of_eq (hc.frame k hp hE.1)

theorem Tidy.closedPda {account recipient : AccountMeta} {E : Set Pubkey} (ht : Tidy P L E)
    (h : closePdaAccount L account recipient = .ok L') : Tidy P L' (E \ {account.key}) := by
  simp only [closePdaAccount, bind_eq_ok, requireWritable, ensure_eq_ok, exists_const,
    Except.ok.injEq] at h
  obtain ⟨-, -, -, rfl⟩ := h
  intro k hk hE
  by_cases hka : k = account.key
  · subst hka
    exact Or.inl (by rw [Ledger.account_put_self]; exact ⟨rfl, rfl⟩)
  · refine SameView.neat ?_ (ht k hk fun hin => hE ⟨hin, hka⟩)
    rw [SameView, Ledger.account_put_of_ne _ _ hka]
    by_cases hp : k = recipient.key
    · subst hp; simp
    · rw [Ledger.account_put_of_ne _ _ hp]; exact ⟨rfl, rfl⟩

theorem abs_of_closePdaAccount {account recipient : AccountMeta} {r : Record}
    (h : closePdaAccount L account recipient = .ok L')
    (hr : L.recordAt P.programId account.key = some r) :
    abs P L' = (abs P L).drop account.key := by
  simp only [closePdaAccount, bind_eq_ok, requireWritable, ensure_eq_ok, exists_const,
    Except.ok.injEq] at h
  obtain ⟨-, -, -, rfl⟩ := h
  have hv := vacant_views (P := P) (Ledger.account_put_self
    (L.put recipient.key { L.account recipient.key with
      lamports := (L.account recipient.key).lamports + (L.account account.key).lamports })
    account.key Account.vacant)
  have ho := Ledger.owner_of_recordAt hr
  refine abs_eq_of_frame (L := L) account.key (fun i hi => ?_) ?_ ?_ ?_
  · rw [SameView, Ledger.account_put_of_ne _ _ hi]
    by_cases hp : i = recipient.key
    · subst hp; simp
    · rw [Ledger.account_put_of_ne _ _ hp]; exact ⟨rfl, rfl⟩
  · rw [hv.1]; rfl
  · exact update_eq_of_eq (hv.2.1.trans (tokenAt_of_program (P := P) ho).1.symm)
  · exact update_eq_of_eq (hv.2.2.trans (tokenAt_of_program (P := P) ho).2.symm)

end Records

section Tokens

theorem recordAt_of_tokenAt {k : Pubkey} {t : TokenAccount} (h : L.tokenAt k = some t) :
    L.recordAt P.programId k = none :=
  Ledger.recordAt_of_owner fun ho =>
    P.programId_ne_token (ho.symm.trans (Ledger.owner_of_tokenAt h))

/-- A transfer from an account without a delegate is made by its owner and moves the amount. -/
theorem abs_of_transferChecked {source mint destination authority : AccountMeta} {n : ℕ}
    {decimals : UInt8} {seeds : Option Seeds} {t : TokenAccount}
    (h : transferChecked P L source mint destination authority n decimals seeds = .ok L')
    (ht : L.tokenAt source.key = some t) (hd : t.delegate = none) :
    abs P L' = (abs P L).pay source.key destination.key n ∧ t.owner = authority.key ∧
      n ≤ t.amount := by
  simp only [transferChecked, bind_eq_ok, requireWritable, ensure_eq_ok, exists_const] at h
  obtain ⟨-, -, -, h⟩ := h
  have hx := P.transferChecked_ok h ht hd
  obtain ⟨ts, hts, howner, -, hle⟩ := hx.debited
  obtain rfl := Option.some.inj (ht.symm.trans hts)
  obtain ⟨td, htd, -⟩ := hx.credited
  -- Both ends are token accounts before and after, so they are neither records nor mints.
  have hend : ∀ k u, L.tokenAt k = some u → L'.recordAt P.programId k = L.recordAt P.programId k ∧
      L'.mintAt k = L.mintAt k := by
    intro k u hu
    obtain ⟨w, hw⟩ := Tokens.move_some source.key destination.key n k hu
    rw [← hx.tokens] at hw
    exact ⟨(recordAt_of_tokenAt hw).trans (recordAt_of_tokenAt hu).symm,
      (Ledger.mintAt_of_tokenAt hw).trans (Ledger.mintAt_of_tokenAt hu).symm⟩
  have hall : ∀ k, L'.recordAt P.programId k = L.recordAt P.programId k ∧
      L'.mintAt k = L.mintAt k := by
    intro k
    by_cases hs : k = source.key
    · subst hs; exact hend _ _ ht
    · by_cases hdst : k = destination.key
      · subst hdst; exact hend _ _ htd
      · have hv := sameView_of_eq (hx.frame k hs hdst)
        exact ⟨hv.recordAt_eq, hv.mintAt_eq⟩
  exact ⟨State.ext (funext fun k => (hall k).1) hx.tokens (funext fun k => (hall k).2), howner, hle⟩

theorem not_neat_of_tokenAt {k : Pubkey} {t : TokenAccount} (h : L.tokenAt k = some t) :
    ¬ Neat P L k := by
  have ho := Ledger.owner_of_tokenAt h
  rintro (⟨hs, -⟩ | ⟨r, hr⟩)
  · exact absurd (hs.symm.trans ho) (by decide)
  · exact P.programId_ne_token ((Ledger.owner_of_recordAt hr).symm.trans ho)

theorem Tidy.transferred {source mint destination authority : AccountMeta} {n : ℕ}
    {decimals : UInt8} {seeds : Option Seeds} {t : TokenAccount} {E : Set Pubkey}
    (htidy : Tidy P L E)
    (h : transferChecked P L source mint destination authority n decimals seeds = .ok L')
    (ht : L.tokenAt source.key = some t) (hd : t.delegate = none) : Tidy P L' E := by
  simp only [transferChecked, bind_eq_ok, requireWritable, ensure_eq_ok, exists_const] at h
  obtain ⟨-, -, -, h⟩ := h
  have hx := P.transferChecked_ok h ht hd
  obtain ⟨td, htd, -⟩ := hx.credited
  intro k hk hE
  have hne : ∀ {i u}, L.tokenAt i = some u → k ≠ i := by
    rintro i u hu rfl
    exact not_neat_of_tokenAt hu (htidy k hk hE)
  exact (sameView_of_eq (hx.frame k (hne ht) (hne htd))).neat (htidy k hk hE)

theorem account_of_transferChecked {source mint destination authority : AccountMeta} {n : ℕ}
    {decimals : UInt8} {seeds : Option Seeds} {t : TokenAccount} {k : Pubkey}
    (h : transferChecked P L source mint destination authority n decimals seeds = .ok L')
    (ht : L.tokenAt source.key = some t) (hd : t.delegate = none)
    (hk : (L.account k).owner = P.programId) : L'.account k = L.account k := by
  simp only [transferChecked, bind_eq_ok, requireWritable, ensure_eq_ok, exists_const] at h
  obtain ⟨-, -, -, h⟩ := h
  have hx := P.transferChecked_ok h ht hd
  obtain ⟨td, htd, -⟩ := hx.credited
  have hne : ∀ {i u}, L.tokenAt i = some u → k ≠ i := by
    rintro i u hu rfl
    exact P.programId_ne_token (hk.symm.trans (Ledger.owner_of_tokenAt hu))
  exact hx.frame k (hne ht) (hne htd)

theorem abs_of_closeTokenAccount {destination authority : AccountMeta} {seeds : Seeds}
    {t : TokenAccount} (h : closeTokenAccount P L m destination authority seeds = .ok L')
    (ht : L.tokenAt m.key = some t) : abs P L' = (abs P L).removeToken m.key := by
  simp only [closeTokenAccount, bind_eq_ok, requireWritable, ensure_eq_ok, exists_const] at h
  obtain ⟨-, -, -, h⟩ := h
  have hc := P.closeAccount_ok h
  have hv := vacant_views (P := P) hc.closed
  refine abs_eq_of_frame (L := L) m.key (fun i hi => ?_) ?_ ?_ ?_
  · by_cases hp : i = destination.key
    · obtain ⟨n, hn⟩ := hc.refunded
      subst hp; rw [SameView, hn]; exact ⟨rfl, rfl⟩
    · exact sameView_of_eq (hc.frame i hi hp)
  · exact update_eq_of_eq (hv.1.trans (recordAt_of_tokenAt ht).symm)
  · rw [hv.2.1]; rfl
  · exact update_eq_of_eq (hv.2.2.trans (Ledger.mintAt_of_tokenAt ht).symm)

theorem Tidy.closedToken {destination authority : AccountMeta} {seeds : Seeds} {E : Set Pubkey}
    (ht : Tidy P L E) (h : closeTokenAccount P L m destination authority seeds = .ok L') :
    Tidy P L' E := by
  simp only [closeTokenAccount, bind_eq_ok, requireWritable, ensure_eq_ok, exists_const] at h
  obtain ⟨-, -, -, h⟩ := h
  have hc := P.closeAccount_ok h
  intro k hk hE
  by_cases hkm : k = m.key
  · subst hkm
    exact Or.inl (by rw [hc.closed]; exact ⟨rfl, rfl⟩)
  · refine SameView.neat ?_ (ht k hk hE)
    by_cases hp : k = destination.key
    · obtain ⟨n, hn⟩ := hc.refunded
      subst hp; rw [SameView, hn]; exact ⟨rfl, rfl⟩
    · exact sameView_of_eq (hc.frame k hkm hp)

theorem Tidy.surplusReturned {escrow mint buyerToken authority : AccountMeta}
    {principal : UInt64} {decimals : UInt8} {seeds : Seeds} {t : TokenAccount} {E : Set Pubkey}
    (htidy : Tidy P L E)
    (h : returnSurplusToBuyer P L escrow mint buyerToken authority principal decimals seeds =
      .ok L')
    (ht : L.tokenAt escrow.key = some t) (hd : t.delegate = none) : Tidy P L' E := by
  simp only [returnSurplusToBuyer, bind_eq_ok, ensure_eq_ok, exists_const] at h
  obtain ⟨u, -, -, h⟩ := h
  split at h
  · exact htidy.transferred h ht hd
  · exact Except.ok.inj h ▸ htidy

theorem abs_of_returnSurplusToBuyer {escrow mint buyerToken authority : AccountMeta}
    {principal : UInt64} {decimals : UInt8} {seeds : Seeds} {t : TokenAccount}
    (h : returnSurplusToBuyer P L escrow mint buyerToken authority principal decimals seeds =
      .ok L')
    (ht : L.tokenAt escrow.key = some t) (hd : t.delegate = none) :
    abs P L' = (abs P L).pay escrow.key buyerToken.key (t.amount - principal.toNat) ∧
      principal.toNat ≤ t.amount := by
  simp only [returnSurplusToBuyer, bind_eq_ok, parseTokenAccount_eq_ok, ensure_eq_ok,
    exists_const] at h
  obtain ⟨u, hu, hle, h⟩ := h
  obtain rfl := Option.some.inj (ht.symm.trans hu)
  refine ⟨?_, hle⟩
  split at h
  · exact (abs_of_transferChecked h ht hd).1
  · rename_i h0
    obtain rfl := Except.ok.inj h
    obtain h0 : t.amount - principal.toNat = 0 := by omega
    rw [h0, State.pay_zero]

end Tokens

end AgentBond
