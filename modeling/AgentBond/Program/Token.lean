import AgentBond.Program.Accounts

/-! # Token checks and calls

Only the legacy token program is accepted. A token account is checked by its
mint, its owner, its freeze flag and the absence of a delegate.
-/

namespace AgentBond

open Foundation

variable (P : Platform) (L : Ledger)

def requireLegacyTokenProgramId (tokenProgram : Pubkey) : Outcome Unit := do
  ensure (tokenProgram ≠ token2022ProgramId) (fail .invalidTokenProgram)
  ensure (tokenProgram = tokenProgramId) (fail .invalidTokenProgram)

def requireLegacyTokenProgram (m : AccountMeta) : Outcome Unit :=
  requireLegacyTokenProgramId m.key

def parseMint (m : AccountMeta) : Outcome MintAccount :=
  okOr (L.mintAt m.key) (fail .invalidMint)

def validateMint (m : AccountMeta) (expectedMint : Pubkey) (expectedDecimals : UInt8) :
    Outcome Unit := do
  requireAccountKey m expectedMint .invalidMint
  ensure ((L.account m.key).owner = tokenProgramId) (fail .invalidMint)
  let mint ← parseMint L m
  ensure (mint.isInitialized = true) (fail .invalidMint)
  ensure (mint.decimals = expectedDecimals) (fail .invalidMint)

def parseTokenAccount (m : AccountMeta) : Outcome TokenAccount := do
  ensure ((L.account m.key).owner = tokenProgramId) (fail .invalidTokenAccountOwner)
  okOr (L.account m.key).data.asToken (fail .invalidTokenAccount)

def validateTokenAccount (m : AccountMeta) (expectedMint expectedOwner : Pubkey) : Outcome ℕ := do
  let token ← parseTokenAccount L m
  ensure (token.mint = expectedMint) (fail .invalidTokenAccountMint)
  ensure (token.owner = expectedOwner) (fail .invalidTokenAccountAuthority)
  ensure (token.frozen = false) (fail .tokenAccountFrozen)
  -- A delegate is no substitute for the expected owner.
  ensure (token.delegate = none) (fail .invalidTokenAccountAuthority)
  .ok token.amount

def associatedTokenAddress (wallet mint : Pubkey) : Outcome Pubkey :=
  okOr (P.ata wallet mint) (fail .invalidAssociatedTokenAccount)

def validateAta (m : AccountMeta) (wallet mint : Pubkey) : Outcome ℕ := do
  let expected ← associatedTokenAddress P wallet mint
  requireAccountKey m expected .invalidAssociatedTokenAccount
  validateTokenAccount L m mint wallet

/-- Call `TransferChecked`; the authority signs itself or through the seeds of the program. -/
def transferChecked (source mint destination authority : AccountMeta) (amount : ℕ)
    (decimals : UInt8) (seeds : Option Seeds) : Outcome Ledger := do
  requireWritable source
  requireWritable destination
  ensure (signedBy P seeds authority) privilegeEscalation
  P.transferChecked L source.key mint.key destination.key authority.key amount decimals

def closeTokenAccount (m destination authority : AccountMeta) (seeds : Seeds) : Outcome Ledger := do
  requireWritable m
  requireWritable destination
  ensure (signedBy P (some seeds) authority) privilegeEscalation
  P.closeAccount L m.key destination.key authority.key

/-- Send what the escrow holds over the principal to the buyer. -/
def returnSurplusToBuyer (escrow mint buyerToken authority : AccountMeta) (principal : UInt64)
    (decimals : UInt8) (seeds : Seeds) : Outcome Ledger := do
  let token ← parseTokenAccount L escrow
  ensure (principal.toNat ≤ token.amount) (fail .escrowUnexpectedBalance)
  if 0 < token.amount - principal.toNat then
    transferChecked P L escrow mint buyerToken authority (token.amount - principal.toNat) decimals
      (some seeds)
  else .ok L

def tokenAmount (m : AccountMeta) : Outcome ℕ := do
  let token ← parseTokenAccount L m
  .ok token.amount

variable {P} {L}

@[simp] theorem requireLegacyTokenProgramId_eq_ok {k : Pubkey} {u : Unit} :
    requireLegacyTokenProgramId k = .ok u ↔ k = tokenProgramId := by
  have hne : tokenProgramId ≠ token2022ProgramId := by decide
  simp only [requireLegacyTokenProgramId, bind_eq_ok, ensure_eq_ok, exists_const]
  exact ⟨And.right, fun h => ⟨h ▸ hne, h⟩⟩

@[simp] theorem validateMint_eq_ok {m : AccountMeta} {mint : Pubkey} {decimals : UInt8} {u : Unit} :
    validateMint L m mint decimals = .ok u ↔
      m.key = mint ∧ ∃ a, L.mintAt mint = some a ∧ a.isInitialized = true ∧
        a.decimals = decimals := by
  simp only [validateMint, requireAccountKey, parseMint, bind_eq_ok, okOr_eq_ok, ensure_eq_ok,
    exists_const]
  constructor
  · rintro ⟨rfl, -, h⟩; exact ⟨rfl, h⟩
  · rintro ⟨rfl, a, ha, h⟩
    refine ⟨rfl, ?_, a, ha, h⟩
    by_contra ho
    rw [Ledger.mintAt_of_owner ho] at ha
    cases ha

@[simp] theorem parseTokenAccount_eq_ok {m : AccountMeta} {t : TokenAccount} :
    parseTokenAccount L m = .ok t ↔ L.tokenAt m.key = some t := by
  simp only [parseTokenAccount, bind_eq_ok, ensure_eq_ok, exists_const, okOr_eq_ok, Ledger.tokenAt]
  split <;> simp [*]

@[simp] theorem validateTokenAccount_eq_ok {m : AccountMeta} {mint owner : Pubkey} {n : ℕ} :
    validateTokenAccount L m mint owner = .ok n ↔
      ∃ t, L.tokenAt m.key = some t ∧ t.Ordinary mint owner ∧ t.amount = n := by
  simp only [validateTokenAccount, bind_eq_ok, parseTokenAccount_eq_ok, ensure_eq_ok, exists_const,
    Except.ok.injEq]
  constructor
  · rintro ⟨t, ht, hm, ho, hf, hd, hn⟩; exact ⟨t, ht, ⟨hm, ho, hf, hd⟩, hn⟩
  · rintro ⟨t, ht, ⟨hm, ho, hf, hd⟩, hn⟩; exact ⟨t, ht, hm, ho, hf, hd, hn⟩

@[simp] theorem validateAta_eq_ok {m : AccountMeta} {wallet mint : Pubkey} {n : ℕ} :
    validateAta P L m wallet mint = .ok n ↔
      P.ata wallet mint = some m.key ∧
        ∃ t, L.tokenAt m.key = some t ∧ t.Ordinary mint wallet ∧ t.amount = n := by
  simp only [validateAta, associatedTokenAddress, requireAccountKey, bind_eq_ok, okOr_eq_ok,
    ensure_eq_ok, exists_const, validateTokenAccount_eq_ok]
  constructor
  · rintro ⟨_, ha, rfl, h⟩; exact ⟨ha, h⟩
  · rintro ⟨ha, h⟩; exact ⟨_, ha, rfl, h⟩

@[simp] theorem tokenAmount_eq_ok {m : AccountMeta} {n : ℕ} :
    tokenAmount L m = .ok n ↔ ∃ t, L.tokenAt m.key = some t ∧ t.amount = n := by
  simp only [tokenAmount, bind_eq_ok, parseTokenAccount_eq_ok, Except.ok.injEq]

end AgentBond
