import AgentBond.Program.Helpers

/-! # Configuration, providers and execution keys -/

namespace AgentBond

open Foundation

variable (P : Platform) (ctx : Ctx) (L : Ledger)

/-- A processor's outcome: the ledger it leaves and the event it emits. -/
abbrev Processed := Outcome (Ledger × ProtocolEvent)

/-- An account the instruction needs was not passed. -/
def missingAccount : ProgramError := fail .invalidAccountData

def emit (kind : ProtocolEventKind) (subject actor : Pubkey) (amount : UInt64) : ProtocolEvent :=
  { kind, subject, actor, amount, timestamp := ctx.now }

/-- The configuration an admin creates: not paused, with the given terms. -/
def InitializeConfigPayload.config (payload : InitializeConfigPayload) (bump : UInt8)
    (admin : Pubkey) : ConfigAccount :=
  { bump, paused := false, admin, genesisHash := payload.genesisHash,
    allowedMint := payload.allowedMint, tokenProgram := payload.tokenProgram,
    mintDecimals := payload.mintDecimals, minProviderBond := payload.minProviderBond,
    challengeDurationSeconds := payload.challengeDurationSeconds }

def initializeConfig (payload : InitializeConfigPayload) : Processed :=
  match ctx.accounts with
  | admin :: configAccount :: systemProgram :: _ => do
    requireSigner admin
    requireSystemProgram systemProgram
    requireLegacyTokenProgramId payload.tokenProgram
    ensure (payload.minProviderBond ≠ 0) (fail .invalidAmount)
    ensure (0 < payload.challengeDurationSeconds) (fail .invalidConfig)
    ensure (payload.allowedMint ≠ zeroKey ∧ payload.genesisHash ≠ zeroKey) (fail .invalidPubkey)
    let (expected, bump) ←
      okOr (P.tryFindProgramAddress configSeedParts P.programId) (fail .invalidPda)
    ensure (configAccount.key = expected) (fail .invalidPda)
    requireUninitialized L configAccount
    let L₁ ← createPdaAccount P L admin configAccount configAccountLen
      (configSeedParts ++ [[bump]])
    let L₂ ← saveConfig L₁ configAccount (payload.config bump admin.key)
    .ok (L₂, emit ctx .configInitialized configAccount.key admin.key 0)
  | _ => .error missingAccount

def setPaused (paused : Bool) : Processed :=
  match ctx.accounts with
  | admin :: configAccount :: _ => do
    requireSigner admin
    requireWritable configAccount
    let config ← loadValidatedConfig P L configAccount
    requireAdmin admin config
    let L₁ ← saveConfig L configAccount { config with paused }
    .ok (L₁, emit ctx .pauseChanged configAccount.key admin.key (if paused then 1 else 0))
  | _ => .error missingAccount

/-- A newly registered provider: active, with no execution key. -/
def ProviderAccount.registered (bump : UInt8) (authority : Pubkey) : ProviderAccount :=
  { bump, status := providerStatusActive, authority, executionKeyCount := 0,
    executionKeys := List.Vector.replicate 4 zeroKey }

def registerProvider : Processed :=
  match ctx.accounts with
  | authority :: configAccount :: providerAccount :: systemProgram :: _ => do
    requireSigner authority
    requireSystemProgram systemProgram
    let config ← loadValidatedConfigReadonly P L configAccount
    requireNotPaused config
    let (expected, bump) ←
      okOr (P.tryFindProgramAddress (providerSeedParts authority.key) P.programId)
        (fail .invalidPda)
    ensure (providerAccount.key = expected) (fail .invalidPda)
    requireUninitialized L providerAccount
    let L₁ ← createPdaAccount P L authority providerAccount providerAccountLen
      (providerSeedParts authority.key ++ [[bump]])
    let L₂ ← saveProvider L₁ providerAccount (.registered bump authority.key)
    .ok (L₂, emit ctx .providerRegistered providerAccount.key authority.key 0)
  | _ => .error missingAccount

namespace ProviderAccount

/-- The slot with an index that the caller has checked to be in range. -/
def keySlot (index : ℕ) : Fin 4 := ⟨index % 4, Nat.mod_lt index (by decide)⟩

/-- The provider with the key in its first free slot. -/
def addKey (p : ProviderAccount) (key : Pubkey) : Outcome ProviderAccount := do
  ensure (p.status = providerStatusActive) (fail .providerInactive)
  ensure (p.containsExecutionKey key = false) (fail .duplicateExecutionKey)
  ensure (p.executionKeyCount.toNat < maxExecutionKeys) (fail .executionKeyLimit)
  .ok { p with
    executionKeys := p.executionKeys.set (keySlot p.executionKeyCount.toNat) key
    executionKeyCount := p.executionKeyCount + 1 }

/-- The index of the key among the first `executionKeyCount` slots. -/
def findKey (p : ProviderAccount) (key : Pubkey) : Option ℕ :=
  (p.executionKeys.toList.take p.executionKeyCount.toNat).findIdx? (· = key)

/-- The provider without the key: the last key takes its slot. -/
def revokeKey (p : ProviderAccount) (key : Pubkey) : Outcome ProviderAccount := do
  let index ← okOr (p.findKey key) (fail .executionKeyNotFound)
  let last := p.executionKeyCount.toNat - 1
  let moved := p.executionKeys.set (keySlot index) (p.executionKeys.get (keySlot last))
  .ok { p with
    executionKeys := moved.set (keySlot last) zeroKey
    executionKeyCount := p.executionKeyCount - 1 }

end ProviderAccount

def addExecutionKey (key : Pubkey) : Processed :=
  match ctx.accounts with
  | authority :: providerAccount :: _ => do
    requireSigner authority
    requireWritable providerAccount
    ensure (key ≠ zeroKey) (fail .invalidPubkey)
    let provider ← loadValidatedProvider P L providerAccount
    requireKeysEq authority.key provider.authority .unauthorized
    let provider' ← provider.addKey key
    let L₁ ← saveProvider L providerAccount provider'
    .ok (L₁, emit ctx .executionKeyAdded providerAccount.key authority.key 0)
  | _ => .error missingAccount

def revokeExecutionKey (key : Pubkey) : Processed :=
  match ctx.accounts with
  | authority :: providerAccount :: _ => do
    requireSigner authority
    requireWritable providerAccount
    let provider ← loadValidatedProvider P L providerAccount
    requireKeysEq authority.key provider.authority .unauthorized
    let provider' ← provider.revokeKey key
    let L₁ ← saveProvider L providerAccount provider'
    .ok (L₁, emit ctx .executionKeyRevoked providerAccount.key authority.key 0)
  | _ => .error missingAccount

end AgentBond
