import AgentBond.Program.Registry
import AgentBond.Program.Ed25519

/-! # Jobs before settlement

Creation, funding, acceptance, the work receipt, the challenge, the expiry of
an unfunded job and the closing of a finished one.
-/

namespace AgentBond

open Foundation

variable (P : Platform) (ctx : Ctx) (L : Ledger)

/-- The job a buyer creates on the given terms, with the mint of the configuration. -/
def CreateJobPayload.job (payload : CreateJobPayload) (config : ConfigAccount) (bump : UInt8)
    (buyer provider : Pubkey) : JobAccount :=
  { bump, state := .created, buyer, provider, mint := config.allowedMint,
    tokenProgram := config.tokenProgram, amount := payload.amount, jobNonce := payload.jobNonce,
    fundDeadline := payload.fundDeadline, acceptDeadline := payload.acceptDeadline,
    workDeadline := payload.workDeadline, autoSettleDeadline := payload.autoSettleDeadline,
    receiptDigest := zeroKey, requestHash := payload.requestHash, lockedBond := 0,
    mintDecimals := config.mintDecimals }

def createJob (payload : CreateJobPayload) : Processed :=
  match ctx.accounts with
  | buyer :: configAccount :: providerAccount :: jobAccount :: systemProgram :: _ => do
    requireSigner buyer
    requireSystemProgram systemProgram
    let config ← loadValidatedConfigReadonly P L configAccount
    requireNotPaused config
    requireLegacyTokenProgramId config.tokenProgram
    ensure (payload.amount ≠ 0) (fail .invalidAmount)
    ensure (payload.requestHash ≠ zeroKey) (fail .invalidPubkey)
    ensure (ctx.now < payload.fundDeadline ∧ payload.fundDeadline < payload.acceptDeadline ∧
        payload.acceptDeadline < payload.workDeadline ∧
        payload.workDeadline < payload.autoSettleDeadline)
      (fail .invalidDeadlineOrder)
    let provider ← loadValidatedProvider P L providerAccount
    ensure (provider.status = providerStatusActive) (fail .providerInactive)
    let (expected, bump) ←
      okOr (P.tryFindProgramAddress (jobSeedParts buyer.key provider.authority payload.jobNonce)
        P.programId) (fail .invalidPda)
    ensure (jobAccount.key = expected) (fail .invalidPda)
    requireUninitialized L jobAccount
    let L₁ ← createPdaAccount P L buyer jobAccount jobAccountLen
      (jobSeedParts buyer.key provider.authority payload.jobNonce ++ [[bump]])
    let L₂ ← saveJob L₁ jobAccount (payload.job config bump buyer.key provider.authority)
    .ok (L₂, emit ctx .jobCreated jobAccount.key buyer.key payload.amount)
  | _ => .error missingAccount

def fundJob : Processed :=
  match ctx.accounts with
  | buyer :: configAccount :: jobAccount :: buyerToken :: escrow :: mint :: tokenProgram :: _ => do
    requireSigner buyer
    requireWritable jobAccount
    requireLegacyTokenProgram tokenProgram
    let config ← loadValidatedConfigReadonly P L configAccount
    requireNotPaused config
    let job ← loadValidatedJob P L jobAccount
    ensure (job.buyer = buyer.key) (fail .unauthorized)
    ensure (job.state = .created) (fail .invalidStateTransition)
    ensure (ctx.now < job.fundDeadline) (fail .deadlineExpired)
    ensure (job.mint = config.allowedMint ∧ job.tokenProgram = config.tokenProgram)
      (fail .invalidConfig)
    ensure (tokenProgram.key = job.tokenProgram) (fail .invalidTokenProgram)
    validateMint L mint job.mint job.mintDecimals
    let _ ← validateTokenAccount L buyerToken job.mint buyer.key
    let escrowBalance ← validateAta P L escrow jobAccount.key job.mint
    ensure (escrowBalance = 0) (fail .escrowNotEmpty)
    let L₁ ← transferChecked P L buyerToken mint escrow buyer job.amount.toNat job.mintDecimals none
    let funded ← tokenAmount L₁ escrow
    ensure (funded = job.amount.toNat) (fail .escrowUnexpectedBalance)
    let job' ← transitionJob job .funded
    let L₂ ← saveJob L₁ jobAccount job'
    .ok (L₂, emit ctx .jobFunded jobAccount.key buyer.key job.amount)
  | _ => .error missingAccount

def acceptJob : Processed :=
  match ctx.accounts with
  | authority :: configAccount :: providerAccount :: bondAccount :: jobAccount :: _ => do
    requireSigner authority
    requireWritable bondAccount
    requireWritable jobAccount
    let config ← loadValidatedConfigReadonly P L configAccount
    requireNotPaused config
    let provider ← loadValidatedProvider P L providerAccount
    ensure (provider.authority = authority.key) (fail .unauthorized)
    ensure (provider.status = providerStatusActive) (fail .providerInactive)
    let job ← loadValidatedJob P L jobAccount
    ensure (job.provider = provider.authority) (fail .unauthorized)
    ensure (job.state = .funded) (fail .invalidStateTransition)
    ensure (ctx.now < job.acceptDeadline) (fail .deadlineExpired)
    let bond ← loadValidatedBond P L bondAccount
    ensure (bond.provider = provider.authority ∧ bond.mint = job.mint) (fail .invalidPda)
    ensure (bond.tokenProgram = job.tokenProgram) (fail .invalidTokenProgram)
    let unlocked ← orFail bond.unlocked
    ensure (config.minProviderBond ≤ unlocked) (fail .insufficientBond)
    let locked ← okOr (checkedAdd bond.locked config.minProviderBond) (fail .mathOverflow)
    ensure (locked ≤ bond.deposited) (fail .invalidAccountData)
    let job' ← transitionJob { job with lockedBond := config.minProviderBond } .accepted
    let L₁ ← saveBond L bondAccount { bond with locked }
    let L₂ ← saveJob L₁ jobAccount job'
    .ok (L₂, emit ctx .jobAccepted jobAccount.key authority.key job'.lockedBond)
  | _ => .error missingAccount

/-- The receipt binds the program, the cluster, the job and its parties and terms. -/
def checkReceiptFields (receipt : AgentBondWorkReceiptV1) (config : ConfigAccount)
    (jobAccount : AccountMeta) (job : JobAccount) : Outcome Unit := do
  ensure (receipt.programId = P.programId) (fail .invalidReceiptField)
  ensure (receipt.genesisHash = config.genesisHash) (fail .invalidReceiptField)
  ensure (receipt.job = jobAccount.key) (fail .invalidReceiptField)
  ensure (receipt.buyer = job.buyer) (fail .invalidReceiptField)
  ensure (receipt.provider = job.provider) (fail .invalidReceiptField)
  ensure (receipt.requestHash = job.requestHash) (fail .invalidReceiptField)
  ensure (receipt.jobNonce = job.jobNonce) (fail .invalidReceiptField)

def submitReceipt (receipt : AgentBondWorkReceiptV1) : Processed :=
  match ctx.accounts with
  | configAccount :: providerAccount :: jobAccount :: instructionsSysvar :: _ => do
    requireWritable jobAccount
    let config ← loadValidatedConfigReadonly P L configAccount
    let provider ← loadValidatedProvider P L providerAccount
    ensure (provider.status = providerStatusActive) (fail .providerInactive)
    let job ← loadValidatedJob P L jobAccount
    ensure (job.state = .accepted) (fail .invalidStateTransition)
    ensure (job.provider = provider.authority) (fail .unauthorized)
    ensure (ctx.now ≤ job.workDeadline) (fail .deadlineExpired)
    ensure (ctx.now ≤ receipt.expiresAt) (fail .receiptExpired)
    ensure (receipt.createdAt ≤ ctx.now) (fail .futureTimestamp)
    checkReceiptFields P receipt config jobAccount job
    let encoded ← orFail receipt.encode
    let signerKey ← verifyPrecedingEd25519 ctx instructionsSysvar encoded
    ensure (provider.containsExecutionKey signerKey = true) (fail .invalidSignature)
    let digest ← orFail (receipt.digest P.sha256)
    let job' ← transitionJob { job with receiptDigest := digest } .submitted
    let L₁ ← saveJob L jobAccount job'
    .ok (L₁, emit ctx .receiptSubmitted jobAccount.key signerKey 0)
  | _ => .error missingAccount

/-- The open challenge of a job. -/
def JobAccount.challenge (job : JobAccount) (bump : UInt8) (key reasonHash : Pubkey)
    (deadline : Int64) : ChallengeAccount :=
  { bump, status := ChallengeAccount.statusOpen, job := key, buyer := job.buyer, reasonHash,
    bondAmount := 0, deadline }

def challengeWork (reasonHash : Pubkey) : Processed :=
  match ctx.accounts with
  | buyer :: configAccount :: jobAccount :: challengeAccount :: systemProgram :: _ => do
    requireSigner buyer
    requireWritable jobAccount
    requireSystemProgram systemProgram
    let config ← loadValidatedConfigReadonly P L configAccount
    let job ← loadValidatedJob P L jobAccount
    ensure (job.buyer = buyer.key) (fail .unauthorized)
    ensure (job.state = .submitted) (fail .invalidStateTransition)
    ensure (ctx.now < job.autoSettleDeadline) (fail .deadlineExpired)
    let (expected, bump) ←
      okOr (P.tryFindProgramAddress (challengeSeedParts jobAccount.key) P.programId)
        (fail .invalidPda)
    ensure (challengeAccount.key = expected) (fail .invalidPda)
    requireUninitialized L challengeAccount
    let deadline ← okOr (checkedAddI64 ctx.now config.challengeDurationSeconds) (fail .mathOverflow)
    let L₁ ← createPdaAccount P L buyer challengeAccount challengeAccountLen
      (challengeSeedParts jobAccount.key ++ [[bump]])
    let L₂ ← saveChallenge L₁ challengeAccount
      (job.challenge bump jobAccount.key reasonHash deadline)
    let job' ← transitionJob job .challenged
    let L₃ ← saveJob L₂ jobAccount job'
    .ok (L₃, emit ctx .jobChallenged jobAccount.key buyer.key 0)
  | _ => .error missingAccount

def expireUnfunded : Processed :=
  match ctx.accounts with
  | _payer :: jobAccount :: _ => do
    requireWritable jobAccount
    let job ← loadValidatedJob P L jobAccount
    ensure (job.state = .created) (fail .invalidStateTransition)
    ensure (job.fundDeadline ≤ ctx.now) (fail .deadlineNotReached)
    let job' ← transitionJob job .expired
    let L₁ ← saveJob L jobAccount job'
    .ok (L₁, emit ctx .jobExpired jobAccount.key job.buyer 0)
  | _ => .error missingAccount

/-- Close the escrow account that is passed, when it is one and holds nothing. -/
def closeEscrow (job : JobAccount) (jobAccount rentRecipient : AccountMeta)
    (escrow tokenProgram : Option AccountMeta) : Outcome Ledger :=
  match escrow with
  | none => .ok L
  | some escrow =>
    if (L.account escrow.key).owner ≠ systemProgramId ∧ 0 < (L.account escrow.key).data.len then do
      let tokenProgram ← okOr tokenProgram (fail .invalidTokenProgram)
      requireLegacyTokenProgram tokenProgram
      let amount ← tokenAmount L escrow
      ensure (amount = 0) (fail .escrowNotEmpty)
      closeTokenAccount P L escrow rentRecipient jobAccount
        (jobSignerSeeds job.buyer job.provider job.jobNonce job.bump)
    else .ok L

def closeJob : Processed :=
  match ctx.accounts with
  | buyer :: jobAccount :: rentRecipient :: rest => do
    requireSigner buyer
    requireWritable jobAccount
    let job ← loadValidatedJob P L jobAccount
    ensure (job.buyer = buyer.key) (fail .unauthorized)
    ensure (job.state.isTerminal = true) (fail .invalidStateTransition)
    ensure (rentRecipient.key = buyer.key) (fail .invalidRentRecipient)
    let L₁ ← closeEscrow P L job jobAccount rentRecipient rest[0]? rest[1]?
    let L₂ ← closePdaAccount L₁ jobAccount rentRecipient
    .ok (L₂, emit ctx .jobClosed job.buyer buyer.key job.amount)
  | _ => .error missingAccount

end AgentBond
