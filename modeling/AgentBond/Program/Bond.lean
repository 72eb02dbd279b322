import AgentBond.Program.Registry

/-! # Provider bonds

Deposits into and withdrawals from the vault of a provider's bond.
-/

namespace AgentBond

open Foundation

variable (P : Platform) (ctx : Ctx) (L : Ledger)

/-- A new bond of a provider in the allowed mint, with nothing deposited. -/
def ConfigAccount.emptyBond (config : ConfigAccount) (bump : UInt8) (provider : Pubkey) :
    ProviderBondAccount :=
  { bump, provider, mint := config.allowedMint, tokenProgram := config.tokenProgram,
    deposited := 0, locked := 0 }

/-- The bond account of a deposit: a new one at an unused address, or the existing one. -/
def openBond (authority bondAccount : AccountMeta) (config : ConfigAccount) (bump : UInt8) :
    Outcome (Ledger × ProviderBondAccount) :=
  if isUninitialized L bondAccount then do
    requireUninitialized L bondAccount
    let L₁ ← createPdaAccount P L authority bondAccount providerBondAccountLen
      (bondSeedParts authority.key config.allowedMint ++ [[bump]])
    .ok (L₁, config.emptyBond bump authority.key)
  else do
    requireWritable bondAccount
    let existing ← loadValidatedBond P L bondAccount
    ensure (existing.provider = authority.key ∧ existing.mint = config.allowedMint)
      (fail .invalidPda)
    .ok (L, existing)

def depositBond (amount : UInt64) : Processed :=
  match ctx.accounts with
  | authority :: configAccount :: providerAccount :: bondAccount :: bondVault :: authorityToken ::
      mint :: tokenProgram :: systemProgram :: _ => do
    requireSigner authority
    requireSystemProgram systemProgram
    requireLegacyTokenProgram tokenProgram
    ensure (amount ≠ 0) (fail .invalidAmount)
    let config ← loadValidatedConfigReadonly P L configAccount
    requireNotPaused config
    ensure (tokenProgram.key = config.tokenProgram) (fail .invalidTokenProgram)
    let provider ← loadValidatedProvider P L providerAccount
    ensure (provider.authority = authority.key) (fail .unauthorized)
    ensure (provider.status = providerStatusActive) (fail .providerInactive)
    validateMint L mint config.allowedMint config.mintDecimals
    let _ ← validateTokenAccount L authorityToken config.allowedMint authority.key
    let (expectedBond, bump) ←
      okOr (P.tryFindProgramAddress (bondSeedParts authority.key config.allowedMint) P.programId)
        (fail .invalidPda)
    ensure (bondAccount.key = expectedBond) (fail .invalidPda)
    let (L₁, bond) ← openBond P L authority bondAccount config bump
    let _ ← validateAta P L₁ bondVault bondAccount.key config.allowedMint
    let expectedVault ← associatedTokenAddress P bondAccount.key config.allowedMint
    ensure (bondVault.key = expectedVault) (fail .invalidAssociatedTokenAccount)
    let L₂ ← transferChecked P L₁ authorityToken mint bondVault authority amount.toNat
      config.mintDecimals none
    let deposited ← okOr (checkedAdd bond.deposited amount) (fail .mathOverflow)
    let L₃ ← saveBond L₂ bondAccount { bond with deposited }
    .ok (L₃, emit ctx .bondDeposited bondAccount.key authority.key amount)
  | _ => .error missingAccount

def withdrawBond (amount : UInt64) : Processed :=
  match ctx.accounts with
  | authority :: bondAccount :: bondVault :: authorityToken :: mint :: tokenProgram :: _ => do
    requireSigner authority
    requireWritable bondAccount
    requireLegacyTokenProgram tokenProgram
    ensure (amount ≠ 0) (fail .invalidAmount)
    let bond ← loadValidatedBond P L bondAccount
    ensure (bond.provider = authority.key) (fail .unauthorized)
    ensure (tokenProgram.key = bond.tokenProgram) (fail .invalidTokenProgram)
    let unlocked ← orFail bond.unlocked
    ensure (amount ≤ unlocked) (fail .insufficientBond)
    -- Decimals are not stored on the bond; they are read from the mint.
    let mintState ← parseMint L mint
    validateMint L mint bond.mint mintState.decimals
    let _ ← validateAta P L bondVault bondAccount.key bond.mint
    let _ ← validateTokenAccount L authorityToken bond.mint authority.key
    let L₁ ← transferChecked P L bondVault mint authorityToken bondAccount amount.toNat
      mintState.decimals (some (bondSignerSeeds bond.provider bond.mint bond.bump))
    let deposited ← okOr (checkedSub bond.deposited amount) (fail .mathOverflow)
    ensure (bond.locked ≤ deposited) (fail .invalidAccountData)
    let L₂ ← saveBond L₁ bondAccount { bond with deposited }
    .ok (L₂, emit ctx .bondWithdrawn bondAccount.key authority.key amount)
  | _ => .error missingAccount

end AgentBond
