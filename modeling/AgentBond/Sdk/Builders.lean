import AgentBond.Program.Processor
import AgentBond.Sdk.Plan
import AgentBond.Types.Encoding

/-! # The plan builders

One builder for each instruction without a receipt: it derives the addresses,
lists the accounts in the order the processor takes them and encodes the payload.
-/

namespace AgentBond

open Foundation

variable (P : Platform) (programId : Pubkey)

/-- The data of an instruction without a payload. -/
def emptyData (kind : InstructionKind) : Planned (List UInt8) := ofProtocol (encodeEmpty kind)

def requireAmount (amount : UInt64) : Planned Unit := ensure (amount ≠ 0) .invalidAmount

def requireDeadlineOrder (now fund accept work auto : Int64) : Planned Unit :=
  ensure (now < fund ∧ fund < accept ∧ accept < work ∧ work < auto) .invalidDeadlineOrder

/-- A plan of one instruction with one signer. -/
def InstructionPlan.single (action : String) (accounts : List AccountMeta) (data : List UInt8)
    (signer : Pubkey) (expiresAt : Option Int64) : InstructionPlan :=
  .new action programId [{ programId, accounts, data }] [signer] expiresAt

def planInitializeConfig (admin : Pubkey) (payload : InitializeConfigPayload) :
    Planned InstructionPlan := do
  ensure (payload.minProviderBond ≠ 0) .invalidAmount
  ensure (0 < payload.challengeDurationSeconds)
    (.invalidInput "challenge_duration must be > 0")
  let config ← configPda P programId
  .ok (.single programId "initialize_config"
    [.new admin true, .new config.address false, .newReadonly systemProgramId false]
    (encodeInitializeConfig payload) admin none)

def planSetPaused (admin : Pubkey) (paused : Bool) : Planned InstructionPlan := do
  let config ← configPda P programId
  .ok (.single programId "set_paused"
    [.newReadonly admin true, .new config.address false]
    (encodeSetPaused paused) admin none)

def planRegisterProvider (authority : Pubkey) : Planned InstructionPlan := do
  let config ← configPda P programId
  let provider ← providerPda P programId authority
  let data ← emptyData .registerProvider
  .ok (.single programId "register_provider"
    [.new authority true, .newReadonly config.address false, .new provider.address false,
      .newReadonly systemProgramId false]
    data authority none)

def planAddExecutionKey (authority key : Pubkey) : Planned InstructionPlan := do
  ensure (key ≠ zeroKey) (.invalidInput "execution key must be nonzero")
  let provider ← providerPda P programId authority
  .ok (.single programId "add_execution_key"
    [.newReadonly authority true, .new provider.address false]
    (encodeAddExecutionKey key) authority none)

def planRevokeExecutionKey (authority key : Pubkey) : Planned InstructionPlan := do
  let provider ← providerPda P programId authority
  .ok (.single programId "revoke_execution_key"
    [.newReadonly authority true, .new provider.address false]
    (encodeRevokeExecutionKey key) authority none)

def planDepositBond (authority mint : Pubkey) (amount : UInt64) : Planned InstructionPlan := do
  requireAmount amount
  let config ← configPda P programId
  let provider ← providerPda P programId authority
  let bond ← providerBondPda P programId authority mint
  let vault ← bondVaultAta P bond.address mint
  let authorityAta ← userSettlementAta P authority mint
  .ok (.single programId "deposit_bond"
    [.new authority true, .newReadonly config.address false, .newReadonly provider.address false,
      .new bond.address false, .new vault false, .new authorityAta false, .newReadonly mint false,
      .newReadonly tokenProgramId false, .newReadonly systemProgramId false]
    (encodeDepositBond amount) authority none)

def planWithdrawBond (authority mint : Pubkey) (amount : UInt64) : Planned InstructionPlan := do
  requireAmount amount
  let bond ← providerBondPda P programId authority mint
  let vault ← bondVaultAta P bond.address mint
  let authorityAta ← userSettlementAta P authority mint
  .ok (.single programId "withdraw_bond"
    [.newReadonly authority true, .new bond.address false, .new vault false,
      .new authorityAta false, .newReadonly mint false, .newReadonly tokenProgramId false]
    (encodeWithdrawBond amount) authority none)

def planCreateJob (buyer providerAuthority : Pubkey) (now : Int64) (payload : CreateJobPayload) :
    Planned InstructionPlan := do
  requireAmount payload.amount
  requireDeadlineOrder now payload.fundDeadline payload.acceptDeadline payload.workDeadline
    payload.autoSettleDeadline
  ensure (payload.requestHash ≠ zeroKey) (.invalidInput "request_hash must be nonzero")
  let config ← configPda P programId
  let provider ← providerPda P programId providerAuthority
  let job ← jobPda P programId buyer providerAuthority payload.jobNonce
  .ok (.single programId "create_job"
    [.new buyer true, .newReadonly config.address false, .newReadonly provider.address false,
      .new job.address false, .newReadonly systemProgramId false]
    (encodeCreateJob payload) buyer (some payload.fundDeadline))

def planFundJob (buyer providerAuthority mint : Pubkey) (nonce : UInt64) :
    Planned InstructionPlan := do
  let config ← configPda P programId
  let job ← jobPda P programId buyer providerAuthority nonce
  let buyerAta ← userSettlementAta P buyer mint
  let escrow ← jobEscrowAta P job.address mint
  let data ← emptyData .fundJob
  .ok (.single programId "fund_job"
    [.newReadonly buyer true, .newReadonly config.address false, .new job.address false,
      .new buyerAta false, .new escrow false, .newReadonly mint false,
      .newReadonly tokenProgramId false]
    data buyer none)

def planAcceptJob (providerAuthority buyer mint : Pubkey) (nonce : UInt64) :
    Planned InstructionPlan := do
  let config ← configPda P programId
  let provider ← providerPda P programId providerAuthority
  let bond ← providerBondPda P programId providerAuthority mint
  let job ← jobPda P programId buyer providerAuthority nonce
  let data ← emptyData .acceptJob
  .ok (.single programId "accept_job"
    [.newReadonly providerAuthority true, .newReadonly config.address false,
      .newReadonly provider.address false, .new bond.address false, .new job.address false]
    data providerAuthority none)

def planAcceptWork (buyer providerAuthority mint : Pubkey) (nonce : UInt64) :
    Planned InstructionPlan := do
  let job ← jobPda P programId buyer providerAuthority nonce
  let bond ← providerBondPda P programId providerAuthority mint
  let escrow ← jobEscrowAta P job.address mint
  let providerAta ← userSettlementAta P providerAuthority mint
  let buyerAta ← userSettlementAta P buyer mint
  let data ← emptyData .acceptWork
  .ok (.single programId "accept_work"
    [.newReadonly buyer true, .new job.address false, .new bond.address false, .new escrow false,
      .new providerAta false, .new buyerAta false, .newReadonly mint false,
      .newReadonly tokenProgramId false]
    data buyer none)

def planChallengeWork (buyer providerAuthority : Pubkey) (nonce : UInt64) (reasonHash : Pubkey) :
    Planned InstructionPlan := do
  let config ← configPda P programId
  let job ← jobPda P programId buyer providerAuthority nonce
  let challenge ← challengePda P programId job.address
  .ok (.single programId "challenge_work"
    [.new buyer true, .newReadonly config.address false, .new job.address false,
      .new challenge.address false, .newReadonly systemProgramId false]
    (encodeChallengeWork reasonHash) buyer none)

/-- The challenge account comes last, when the job has one. -/
def challengeAccounts (job : Pubkey) (withChallenge : Bool) : Planned (List AccountMeta) :=
  if withChallenge then do
    let challenge ← challengePda P programId job
    .ok [.new challenge.address false]
  else .ok []

def planResolveTimeoutSettle (payer buyer providerAuthority mint : Pubkey) (nonce : UInt64)
    (withChallenge : Bool) : Planned InstructionPlan := do
  let job ← jobPda P programId buyer providerAuthority nonce
  let bond ← providerBondPda P programId providerAuthority mint
  let escrow ← jobEscrowAta P job.address mint
  let providerAta ← userSettlementAta P providerAuthority mint
  let buyerAta ← userSettlementAta P buyer mint
  let challenge ← challengeAccounts P programId job.address withChallenge
  let data ← emptyData .resolveTimeoutSettle
  .ok (.single programId "resolve_timeout_settle"
    ([.newReadonly payer true, .new job.address false, .new bond.address false, .new escrow false,
      .new providerAta false, .new buyerAta false, .new buyer false, .newReadonly mint false,
      .newReadonly tokenProgramId false] ++ challenge)
    data payer none)

/-- The plans of the two refunds differ in their instruction only. -/
def planRefund (action : String) (kind : InstructionKind)
    (payer buyer providerAuthority mint : Pubkey) (nonce : UInt64) : Planned InstructionPlan := do
  let job ← jobPda P programId buyer providerAuthority nonce
  let bond ← providerBondPda P programId providerAuthority mint
  let escrow ← jobEscrowAta P job.address mint
  let buyerAta ← userSettlementAta P buyer mint
  let data ← emptyData kind
  .ok (.single programId action
    [.newReadonly payer true, .new job.address false, .new bond.address false, .new escrow false,
      .new buyerAta false, .new buyer false, .newReadonly mint false,
      .newReadonly tokenProgramId false]
    data payer none)

def planResolveTimeoutRefund (payer buyer providerAuthority mint : Pubkey) (nonce : UInt64) :
    Planned InstructionPlan :=
  planRefund P programId "resolve_timeout_refund" .resolveTimeoutRefund payer buyer
    providerAuthority mint nonce

def planExpireUnfunded (payer buyer providerAuthority : Pubkey) (nonce : UInt64) :
    Planned InstructionPlan := do
  let job ← jobPda P programId buyer providerAuthority nonce
  let data ← emptyData .expireUnfunded
  .ok (.single programId "expire_unfunded"
    [.newReadonly payer true, .new job.address false] data payer none)

def planExpireUnaccepted (payer buyer providerAuthority mint : Pubkey) (nonce : UInt64) :
    Planned InstructionPlan :=
  planRefund P programId "expire_unaccepted" .expireUnaccepted payer buyer providerAuthority mint
    nonce

def planSlashBond (admin buyer providerAuthority mint : Pubkey) (nonce : UInt64) :
    Planned InstructionPlan := do
  let config ← configPda P programId
  let job ← jobPda P programId buyer providerAuthority nonce
  let bond ← providerBondPda P programId providerAuthority mint
  let vault ← bondVaultAta P bond.address mint
  let escrow ← jobEscrowAta P job.address mint
  let buyerAta ← userSettlementAta P buyer mint
  let challenge ← challengePda P programId job.address
  let data ← emptyData .slashBond
  .ok (.single programId "slash_bond"
    [.newReadonly admin true, .newReadonly config.address false, .new job.address false,
      .new bond.address false, .new vault false, .new escrow false, .new buyerAta false,
      .new buyer false, .new challenge.address false, .newReadonly mint false,
      .newReadonly tokenProgramId false]
    data admin none)

def planCloseJob (buyer providerAuthority mint : Pubkey) (nonce : UInt64) (includeEscrow : Bool) :
    Planned InstructionPlan := do
  let job ← jobPda P programId buyer providerAuthority nonce
  let escrow ← if includeEscrow then do
      let escrow ← jobEscrowAta P job.address mint
      .ok [.new escrow false, .newReadonly tokenProgramId false]
    else .ok []
  let data ← emptyData .closeJob
  .ok (.single programId "close_job"
    ([.newReadonly buyer true, .new job.address false, .new buyer false] ++ escrow)
    data buyer none)

variable {P} {programId}

@[simp] theorem toSolanaInstructions_single {action : String} {accounts : List AccountMeta}
    {data : List UInt8} {signer : Pubkey} {expiresAt : Option Int64} :
    (InstructionPlan.single programId action accounts data signer expiresAt).toSolanaInstructions =
      .ok [{ programId, accounts, data }] :=
  InstructionPlan.toSolanaInstructions_new ..

theorem parse_of_emptyData {kind : InstructionKind} {data : List UInt8} {ix : Instruction}
    (hix : ix.encodeData = encodeEmpty kind) (h : emptyData kind = .ok data) :
    Instruction.parse data = .ok ix := by
  rw [emptyData, ofProtocol_eq_ok, ← hix, Instruction.encodeData_eq] at h
  exact Instruction.parse_of_encode h

theorem emptyData_succeeds {kind : InstructionKind} (h : kind.expectedPayloadLen = 0) :
    emptyData kind = .ok [kind.asU8] := by
  simp only [emptyData, ofProtocol_eq_ok, encodeEmpty, ensure_bind_eq_ok]
  exact ⟨h, trivial⟩

end AgentBond
