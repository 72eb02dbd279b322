import AgentBond.Runtime.Platform

/-! # A reference platform

The System program and the token program as far as the program calls them, over
a table of derived addresses. They satisfy the laws of a platform.
-/

namespace AgentBond

open Foundation

/-- Addresses by the concatenated seeds and the deriving program. -/
abbrev AddressTable := List ((List UInt8 × Pubkey) × Pubkey)

namespace Reference

/-- The account is in use, the payer cannot pay, or a token operation is refused. -/
def refused : ProgramError := .runtime 0

instance (a : Account) : Decidable a.Unused := inferInstanceAs (Decidable (_ ∧ _))

def createAccount (L : Ledger) (payer account : Pubkey) (lamports space : ℕ) (owner : Pubkey) :
    Except ProgramError Ledger := do
  ensure (L.account account = Account.vacant) refused
  ensure (payer ≠ account ∧ (L.account payer).Unused ∧ lamports ≤ (L.account payer).lamports)
    refused
  .ok ((L.put payer { L.account payer with lamports := (L.account payer).lamports - lamports }).put
    account { lamports, owner, data := .raw (List.replicate space 0) })

/-- Replace the token account at an address. -/
def setToken (L : Ledger) (k : Pubkey) (t : TokenAccount) : Ledger :=
  L.put k { L.account k with data := .token t }

def transferChecked (L : Ledger) (source mint destination authority : Pubkey) (amount : ℕ)
    (decimals : UInt8) : Except ProgramError Ledger := do
  let ts ← okOr (L.tokenAt source) refused
  let td ← okOr (L.tokenAt destination) refused
  let m ← okOr (L.mintAt mint) refused
  ensure (ts.frozen = false ∧ td.frozen = false) refused
  ensure (amount ≤ ts.amount) refused
  ensure (ts.mint = mint ∧ td.mint = mint) refused
  ensure (m.isInitialized = true ∧ m.decimals = decimals) refused
  ensure (ts.owner = authority) refused
  let L₁ := setToken L source { ts with amount := ts.amount - amount }
  let td ← okOr (L₁.tokenAt destination) refused
  .ok (setToken L₁ destination { td with amount := td.amount + amount })

def closeAccount (L : Ledger) (account destination authority : Pubkey) :
    Except ProgramError Ledger := do
  let t ← okOr (L.tokenAt account) refused
  ensure (account ≠ destination ∧ t.amount = 0 ∧ t.owner = authority) refused
  let lamports := (L.account destination).lamports + (L.account account).lamports
  .ok ((L.put destination { L.account destination with lamports }).put account Account.vacant)

def createProgramAddress (table : AddressTable) (seeds : Seeds) (owner : Pubkey) : Option Pubkey :=
  table.lookup (seeds.flatten, owner)

/-- Every address of the table is found with the first bump. -/
def tryFindProgramAddress (table : AddressTable) (seeds : Seeds) (owner : Pubkey) :
    Option (Pubkey × UInt8) :=
  (createProgramAddress table (seeds ++ [[255]]) owner).map (·, 255)

variable {L L' : Ledger} {payer account source mint destination authority owner k : Pubkey}
  {lamports space amount : ℕ} {decimals : UInt8} {t : TokenAccount}

theorem createAccount_ok (h : createAccount L payer account lamports space owner = .ok L') :
    L.AccountCreated payer account lamports space owner L' := by
  simp only [createAccount, bind_eq_ok, ensure_eq_ok, exists_const, Except.ok.injEq] at h
  obtain ⟨hempty, ⟨hne, hunused, hlamports⟩, rfl⟩ := h
  refine ⟨hempty, hne, hunused.1, hlamports, Ledger.account_put_self .., ?_, fun k hp ha => ?_⟩
  · rw [Ledger.account_put_of_ne _ _ hne, Ledger.account_put_self]
  · rw [Ledger.account_put_of_ne _ _ ha, Ledger.account_put_of_ne _ _ hp]

theorem createAccount_succeeds (hempty : L.account account = Account.vacant)
    (hne : payer ≠ account) (hunused : (L.account payer).Unused)
    (hlamports : lamports ≤ (L.account payer).lamports) :
    ∃ L', createAccount L payer account lamports space owner = .ok L' :=
  ⟨_, by simp only [createAccount, bind_eq_ok, ensure_eq_ok, exists_const, Except.ok.injEq]
         exact ⟨hempty, ⟨hne, hunused, hlamports⟩, rfl⟩⟩

theorem tokenAt_setToken (h : (L.account k).owner = tokenProgramId) :
    (setToken L k t).tokenAt = Function.update L.tokenAt k (some t) := by
  funext i
  by_cases hi : i = k
  · subst hi
    simp [Ledger.tokenAt, setToken, h, AccountData.asToken]
  · rw [Function.update_of_ne hi]
    simp only [Ledger.tokenAt, setToken, Ledger.account_put_of_ne _ _ hi]

theorem account_setToken_of_ne {i : Pubkey} (h : i ≠ k) :
    (setToken L k t).account i = L.account i :=
  Ledger.account_put_of_ne _ _ h

theorem owner_setToken {i : Pubkey} : ((setToken L k t).account i).owner = (L.account i).owner := by
  by_cases hi : i = k
  · subst hi; rw [setToken, Ledger.account_put_self]
  · rw [account_setToken_of_ne hi]

theorem tokenAt_adjust (f : ℕ → ℕ) (h : L.tokenAt k = some t) :
    (setToken L k { t with amount := f t.amount }).tokenAt = Tokens.adjust L.tokenAt k f := by
  rw [tokenAt_setToken (Ledger.owner_of_tokenAt h), Tokens.adjust, h, Option.map_some]

theorem transferChecked_ok
    (h : transferChecked L source mint destination authority amount decimals = .ok L') :
    L.Transferred source mint destination authority amount L' := by
  simp only [transferChecked, bind_eq_ok, okOr_eq_ok, ensure_eq_ok, exists_const,
    Except.ok.injEq] at h
  obtain ⟨ts, hts, td, htd, -, -, -, hle, ⟨hms, hmd⟩, -, howner, td', htd', rfl⟩ := h
  refine ⟨⟨ts, hts, howner, hms, hle⟩, ⟨td, htd, hmd⟩, ?_, fun k hs hd => ?_⟩
  · rw [tokenAt_adjust (· + amount) htd', tokenAt_adjust (· - amount) hts, Tokens.move]
  · rw [account_setToken_of_ne hd, account_setToken_of_ne hs]

theorem transferChecked_succeeds
    (h : L.Transferable source mint destination authority amount decimals) :
    ∃ L', transferChecked L source mint destination authority amount decimals = .ok L' := by
  obtain ⟨m, hm, hinit, hdec⟩ := h.mint_at
  obtain ⟨ts, hts, hms, howner, hfs, hle⟩ := h.debited
  obtain ⟨td, htd, hmd, hfd⟩ := h.credited
  obtain ⟨n, hn⟩ := Tokens.adjust_some (k := source) (f := (· - amount)) destination htd
  rw [← tokenAt_adjust (· - amount) hts] at hn
  simp only [transferChecked, bind_eq_ok, okOr_eq_ok, ensure_eq_ok, exists_const, Except.ok.injEq]
  exact ⟨_, ts, hts, td, htd, m, hm, ⟨hfs, hfd⟩, hle, ⟨hms, hmd⟩, ⟨hinit, hdec⟩, howner, _, hn, rfl⟩

theorem closeAccount_ok (h : closeAccount L account destination authority = .ok L') :
    L.TokenAccountClosed account destination L' := by
  simp only [closeAccount, bind_eq_ok, okOr_eq_ok, ensure_eq_ok, exists_const,
    Except.ok.injEq] at h
  obtain ⟨t, -, ⟨hne, -, -⟩, rfl⟩ := h
  refine ⟨hne, Ledger.account_put_self .., ⟨(L.account destination).lamports +
    (L.account account).lamports, ?_⟩, fun k ha hd => ?_⟩
  · rw [Ledger.account_put_of_ne _ _ hne.symm, Ledger.account_put_self]
  · rw [Ledger.account_put_of_ne _ _ ha, Ledger.account_put_of_ne _ _ hd]

end Reference

/-- The reference platform of a program. -/
def referencePlatform (programId : Pubkey) (hs : programId ≠ systemProgramId)
    (ht : programId ≠ tokenProgramId) (table : AddressTable) (sha256 : List UInt8 → Pubkey) :
    Platform where
  programId
  programId_ne_system := hs
  programId_ne_token := ht
  sha256
  -- The rent-exempt minimum of the default rent schedule.
  minimumBalance space := (128 + space) * 6960
  createProgramAddress := Reference.createProgramAddress table
  tryFindProgramAddress := Reference.tryFindProgramAddress table
  create_of_find h := by
    obtain ⟨_, ha, he⟩ := Option.map_eq_some_iff.mp h
    cases he
    exact ha
  createAccount := Reference.createAccount
  createAccount_ok := Reference.createAccount_ok
  createAccount_succeeds he hn hu hl _ := Reference.createAccount_succeeds he hn hu hl
  transferChecked := Reference.transferChecked
  transferChecked_ok h _ _ := Reference.transferChecked_ok h
  transferChecked_succeeds := Reference.transferChecked_succeeds
  closeAccount := Reference.closeAccount
  closeAccount_ok := Reference.closeAccount_ok

/-- A table derives collision-free addresses when no two of its rows share an address. -/
theorem Reference.collisionFree {programId : Pubkey} {hs : programId ≠ systemProgramId}
    {ht : programId ≠ tokenProgramId} {table : AddressTable} {sha256 : List UInt8 → Pubkey}
    {derived : Seeds → Prop} (h : ∀ e ∈ table, ∀ e' ∈ table, e.2 = e'.2 → e.1 = e'.1) :
    (referencePlatform programId hs ht table sha256).CollisionFree derived := by
  intro seeds seeds' owner a _ _ h₁ h₂
  have hmem : ∀ {k}, table.lookup k = some a → (k, a) ∈ table := by
    intro k hk
    obtain ⟨l₁, l₂, rfl, -⟩ := List.lookup_eq_some_iff.mp hk
    exact List.mem_append_right _ List.mem_cons_self
  exact congrArg Prod.fst (h _ (hmem h₁) _ (hmem h₂) rfl)

end AgentBond
