import AgentBond.Program.Registry

/-! # Settlement

The instructions that empty an escrow: the buyer accepts the work, a deadline
settles or refunds the job, or the admin slashes the bond of a challenged job.
-/

namespace AgentBond

open Foundation

variable (P : Platform) (ctx : Ctx) (L : Ledger)

/-- The bond of the job's provider in the job's mint. -/
def loadJobBond (bondAccount : AccountMeta) (job : JobAccount) : Outcome ProviderBondAccount := do
  let bond ← loadValidatedBond P L bondAccount
  ensure (bond.provider = job.provider ∧ bond.mint = job.mint) (fail .invalidPda)
  .ok bond

/-- Pay the principal to the provider and the surplus to the buyer, unlock the bond and record
the job as settled. -/
def settle (job : JobAccount) (bond : ProviderBondAccount)
    (jobAccount bondAccount escrow providerToken buyerToken mint : AccountMeta) :
    Outcome Ledger := do
  let seeds := jobSignerSeeds job.buyer job.provider job.jobNonce job.bump
  let L₁ ← returnSurplusToBuyer P L escrow mint buyerToken jobAccount job.amount job.mintDecimals
    seeds
  let L₂ ← transferChecked P L₁ escrow mint providerToken jobAccount job.amount.toNat
    job.mintDecimals (some seeds)
  let left ← tokenAmount L₂ escrow
  ensure (left = 0) (fail .escrowNotEmpty)
  let (job₁, bond₁) ← unlockJobBond job bond
  let job₂ ← transitionJob job₁ .settled
  let L₃ ← saveBond L₂ bondAccount bond₁
  saveJob L₃ jobAccount job₂

def acceptWork : Processed :=
  match ctx.accounts with
  | buyer :: jobAccount :: bondAccount :: escrow :: providerToken :: buyerToken :: mint ::
      tokenProgram :: _ => do
    requireSigner buyer
    requireWritable jobAccount
    requireWritable bondAccount
    requireLegacyTokenProgram tokenProgram
    let job ← loadValidatedJob P L jobAccount
    ensure (job.buyer = buyer.key) (fail .unauthorized)
    ensure (job.state = .submitted) (fail .invalidStateTransition)
    ensure (tokenProgram.key = job.tokenProgram) (fail .invalidTokenProgram)
    validateMint L mint job.mint job.mintDecimals
    let _ ← validateAta P L escrow jobAccount.key job.mint
    let _ ← validateAta P L providerToken job.provider job.mint
    let _ ← validateAta P L buyerToken buyer.key job.mint
    let bond ← loadJobBond P L bondAccount job
    let L₁ ← settle P L job bond jobAccount bondAccount escrow providerToken buyerToken mint
    .ok (L₁, emit ctx .jobSettled jobAccount.key buyer.key job.amount)
  | _ => .error missingAccount

/-- The deadline that settles the job has passed; an open challenge is closed. -/
def settleDeadline (job : JobAccount) (jobAccount buyer : AccountMeta)
    (challengeAccount : Option AccountMeta) : Outcome Ledger :=
  match job.state with
  | .submitted => do
    ensure (job.autoSettleDeadline ≤ ctx.now) (fail .deadlineNotReached)
    .ok L
  | .challenged => do
    let challengeAccount ← okOr challengeAccount missingAccount
    let challenge ← loadValidatedChallenge P L challengeAccount jobAccount.key
    ensure (challenge.status = ChallengeAccount.statusOpen) (fail .invalidChallengeStatus)
    ensure (challenge.deadline ≤ ctx.now) (fail .deadlineNotReached)
    ensure (buyer.key = challenge.buyer) (fail .invalidRentRecipient)
    requireWritable challengeAccount
    closePdaAccount L challengeAccount buyer
  | _ => .error (fail .invalidStateTransition)

def resolveTimeoutSettle : Processed :=
  match ctx.accounts with
  | _payer :: jobAccount :: bondAccount :: escrow :: providerToken :: buyerToken :: buyer :: mint ::
      tokenProgram :: rest => do
    requireWritable jobAccount
    requireWritable bondAccount
    requireLegacyTokenProgram tokenProgram
    let job ← loadValidatedJob P L jobAccount
    let L₁ ← settleDeadline P ctx L job jobAccount buyer rest[0]?
    ensure (tokenProgram.key = job.tokenProgram) (fail .invalidTokenProgram)
    validateMint L₁ mint job.mint job.mintDecimals
    let _ ← validateAta P L₁ escrow jobAccount.key job.mint
    let _ ← validateAta P L₁ providerToken job.provider job.mint
    let _ ← validateAta P L₁ buyerToken job.buyer job.mint
    ensure (buyer.key = job.buyer) (fail .invalidRentRecipient)
    let bond ← loadJobBond P L₁ bondAccount job
    let L₂ ← settle P L₁ job bond jobAccount bondAccount escrow providerToken buyerToken mint
    .ok (L₂, emit ctx .jobSettled jobAccount.key job.provider job.amount)
  | _ => .error missingAccount

/-- The deadline that refunds the job has passed. -/
def refundDeadline (job : JobAccount) (fundedOnly : Bool) : Outcome Unit :=
  match job.state, fundedOnly with
  | .funded, _ => ensure (job.acceptDeadline ≤ ctx.now) (fail .deadlineNotReached)
  | .accepted, false => ensure (job.workDeadline < ctx.now) (fail .deadlineNotReached)
  | _, _ => .error (fail .invalidStateTransition)

/-- Unlock the bond that is passed; only a job that locked nothing may go without its bond. -/
def refundBond (job : JobAccount) (bondAccount : AccountMeta) :
    Outcome (JobAccount × Option ProviderBondAccount) :=
  if (L.account bondAccount.key).data.len = providerBondAccountLen ∧
      (L.account bondAccount.key).owner = P.programId then do
    requireWritable bondAccount
    let bond ← loadValidatedBond P L bondAccount
    if bond.provider = job.provider ∧ bond.mint = job.mint then do
      let (job', bond') ← unlockJobBond job bond
      .ok (job', some bond')
    else do
      ensure (job.lockedBond = 0) (fail .invalidPda)
      .ok (job, none)
  else do
    ensure (job.lockedBond = 0) (fail .invalidAccountData)
    .ok (job, none)

def saveRefundBond (bondAccount : AccountMeta) : Option ProviderBondAccount → Outcome Ledger
  | some bond => saveBond L bondAccount bond
  | none => .ok L

def refundInternal (fundedOnly : Bool) : Processed :=
  match ctx.accounts with
  | _payer :: jobAccount :: bondAccount :: escrow :: buyerToken :: buyer :: mint ::
      tokenProgram :: _ => do
    requireWritable jobAccount
    requireLegacyTokenProgram tokenProgram
    let job ← loadValidatedJob P L jobAccount
    refundDeadline ctx job fundedOnly
    ensure (buyer.key = job.buyer) (fail .invalidRentRecipient)
    let L₁ ← refundPrincipalToBuyer P L job jobAccount escrow mint buyerToken tokenProgram
      job.mintDecimals
    let (job₁, bond) ← refundBond P L₁ job bondAccount
    let job₂ ← transitionJob job₁ .refunded
    let L₂ ← saveRefundBond L₁ bondAccount bond
    let L₃ ← saveJob L₂ jobAccount job₂
    .ok (L₃, emit ctx .jobRefunded jobAccount.key buyer.key job.amount)
  | _ => .error missingAccount

def resolveTimeoutRefund : Processed := refundInternal P ctx L false

def expireUnaccepted : Processed := refundInternal P ctx L true

def slashBond : Processed :=
  match ctx.accounts with
  | admin :: configAccount :: jobAccount :: bondAccount :: bondVault :: escrow :: buyerToken ::
      buyer :: challengeAccount :: mint :: tokenProgram :: _ => do
    requireSigner admin
    requireWritable jobAccount
    requireWritable bondAccount
    requireWritable challengeAccount
    requireLegacyTokenProgram tokenProgram
    let config ← loadValidatedConfigReadonly P L configAccount
    ensure (admin.key = config.admin) (fail .unauthorized)
    let job ← loadValidatedJob P L jobAccount
    ensure (job.state = .challenged) (fail .invalidStateTransition)
    let challenge ← loadValidatedChallenge P L challengeAccount jobAccount.key
    ensure (challenge.status = ChallengeAccount.statusOpen) (fail .invalidChallengeStatus)
    ensure (ctx.now < challenge.deadline) (fail .deadlineExpired)
    ensure (buyer.key = job.buyer) (fail .invalidRentRecipient)
    let L₁ ← refundPrincipalToBuyer P L job jobAccount escrow mint buyerToken tokenProgram
      job.mintDecimals
    let bond ← loadJobBond P L₁ bondAccount job
    let slashAmount := job.lockedBond
    ensure (slashAmount ≠ 0) (fail .invalidAmount)
    ensure (slashAmount ≤ bond.locked ∧ slashAmount ≤ bond.deposited) (fail .insufficientBond)
    let _ ← validateAta P L₁ bondVault bondAccount.key bond.mint
    validateMint L₁ mint job.mint job.mintDecimals
    let L₂ ← transferChecked P L₁ bondVault mint buyerToken bondAccount slashAmount.toNat
      job.mintDecimals (some (bondSignerSeeds bond.provider bond.mint bond.bump))
    let locked ← okOr (checkedSub bond.locked slashAmount) (fail .mathOverflow)
    let deposited ← okOr (checkedSub bond.deposited slashAmount) (fail .mathOverflow)
    let job' ← transitionJob { job with lockedBond := 0 } .slashed
    let L₃ ← saveBond L₂ bondAccount { bond with locked, deposited }
    let L₄ ← saveJob L₃ jobAccount job'
    let L₅ ← closePdaAccount L₄ challengeAccount buyer
    .ok (L₅, emit ctx .jobSlashed jobAccount.key admin.key slashAmount)
  | _ => .error missingAccount

end AgentBond
