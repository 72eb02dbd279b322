import AgentBond.Program.Processor
import AgentBond.Protocol.State

/-! # Protocol steps

What each instruction does to the abstract state, and under which conditions.
The conditions on a settlement, a refund and a slashing are structures, so that
the later results name the accounts involved.
-/

namespace AgentBond.Protocol

open Foundation

variable (P : Platform)

/-- The job of a payout with its escrow and its buyer's token account. -/
structure Refund (s : State) where
  jobKey : Pubkey
  job : JobAccount
  escrow : Pubkey
  buyerToken : Pubkey
  balance : ℕ
  job_at : s.records jobKey = some (.job job)
  job_address : P.addressOf (.job job) = some jobKey
  escrow_ata : P.ata jobKey job.mint = some escrow
  escrow_holds : s.Holds escrow job.mint jobKey balance
  buyer_ata : P.ata job.buyer job.mint = some buyerToken
  buyer_holds : ∃ n, s.Holds buyerToken job.mint job.buyer n
  principal_le : job.amount.toNat ≤ balance

/-- The bond of the job of a payout. -/
structure JobBond {s : State} (x : Refund P s) where
  key : Pubkey
  bond : ProviderBondAccount
  bond_at : s.records key = some (.bond bond)
  bond_address : P.addressOf (.bond bond) = some key
  provider_eq : bond.provider = x.job.provider
  mint_eq : bond.mint = x.job.mint
  locked_le : x.job.lockedBond ≤ bond.locked

/-- A payout to the provider: the principal to the provider, the surplus to the buyer. -/
structure Settlement (s : State) extends Refund P s, JobBond P toRefund where
  providerToken : Pubkey
  provider_ata : P.ata job.provider job.mint = some providerToken
  provider_holds : ∃ n, s.Holds providerToken job.mint job.provider n

/-- A refund to the buyer with the job's part of the bond on top. -/
structure Slashing (s : State) extends Refund P s, JobBond P toRefund where
  vault : Pubkey
  vaultBalance : ℕ
  vault_ata : P.ata key job.mint = some vault
  vault_holds : (s.pay escrow buyerToken balance).Holds vault job.mint key vaultBalance
  slashed_ne : job.lockedBond ≠ 0
  slashed_le : job.lockedBond ≤ bond.deposited
  slashed_le_vault : job.lockedBond.toNat ≤ vaultBalance

variable {P}

/-- The job without its part of the bond, in the given state. -/
def released (j : JobAccount) (target : JobState) : JobAccount :=
  { j with lockedBond := 0, state := target }

/-- The bond without the part the job had locked. -/
def unlockedBy (j : JobAccount) (b : ProviderBondAccount) : ProviderBondAccount :=
  { b with locked := b.locked - j.lockedBond }

/-- The bond without the part the job had locked and lost. -/
def slashedBy (j : JobAccount) (b : ProviderBondAccount) : ProviderBondAccount :=
  { b with locked := b.locked - j.lockedBond, deposited := b.deposited - j.lockedBond }

def Settlement.tokens {s : State} (x : Settlement P s) : State :=
  (s.pay x.escrow x.buyerToken (x.balance - x.job.amount.toNat)).pay x.escrow x.providerToken
    x.job.amount.toNat

def Settlement.result {s : State} (x : Settlement P s) : State :=
  (x.tokens.put x.key (.bond (unlockedBy x.job x.bond))).put x.jobKey
    (.job (released x.job .settled))

def Refund.tokens {s : State} (x : Refund P s) : State :=
  s.pay x.escrow x.buyerToken x.balance

def Refund.result {s : State} (x : Refund P s) : State :=
  x.tokens.put x.jobKey (.job (released x.job .refunded))

def Refund.resultWith {s : State} (x : Refund P s) (y : JobBond P x) : State :=
  (x.tokens.put y.key (.bond (unlockedBy x.job y.bond))).put x.jobKey
    (.job (released x.job .refunded))

def Slashing.tokens {s : State} (x : Slashing P s) : State :=
  (s.pay x.escrow x.buyerToken x.balance).pay x.vault x.buyerToken x.job.lockedBond.toNat

def Slashing.result {s : State} (x : Slashing P s) : State :=
  (x.tokens.put x.key (.bond (slashedBy x.job x.bond))).put x.jobKey
    (.job (released x.job .slashed))

variable (P)

/-- One successful instruction at the given time. -/
inductive Step (now : Int64) : State → Instruction → State → Prop
  | initializeConfig {s : State} {a admin : Pubkey} {bump : UInt8}
      {payload : InitializeConfigPayload}
      (find : P.tryFindProgramAddress configSeedParts P.programId = some (a, bump))
      (free : s.records a = none)
      (token : payload.tokenProgram = tokenProgramId)
      (bond_pos : payload.minProviderBond ≠ 0)
      (duration_pos : 0 < payload.challengeDurationSeconds)
      (mint_set : payload.allowedMint ≠ zeroKey) :
      Step now s (.initializeConfig payload) (s.put a (.config (payload.config bump admin)))
  | setPaused {s : State} {a : Pubkey} {c : ConfigAccount} {paused : Bool}
      (config_at : s.records a = some (.config c)) :
      Step now s (.setPaused paused) (s.put a (.config { c with paused }))
  | registerProvider {s : State} {a authority : Pubkey} {bump : UInt8}
      (find : P.tryFindProgramAddress (providerSeedParts authority) P.programId = some (a, bump))
      (free : s.records a = none)
      (signer : ¬ P.Pda authority) :
      Step now s .registerProvider (s.put a (.provider (.registered bump authority)))
  | addExecutionKey {s : State} {a key : Pubkey} {p p' : ProviderAccount}
      (provider_at : s.records a = some (.provider p))
      (added : p.addKey key = .ok p') :
      Step now s (.addExecutionKey key) (s.put a (.provider p'))
  | revokeExecutionKey {s : State} {a key : Pubkey} {p p' : ProviderAccount}
      (provider_at : s.records a = some (.provider p))
      (revoked : p.revokeKey key = .ok p') :
      Step now s (.revokeExecutionKey key) (s.put a (.provider p'))
  | depositBond {s : State} {configKey a vault source : Pubkey} {c : ConfigAccount}
      {b : ProviderBondAccount} {amount deposited : UInt64} {n m : ℕ}
      (config_at : s.records configKey = some (.config c))
      (bond_at : s.records a = some (.bond b) ∧ b.mint = c.allowedMint ∨
        s.records a = none ∧ ∃ bump, P.tryFindProgramAddress
          (bondSeedParts b.provider c.allowedMint) P.programId = some (a, bump) ∧
            b = c.emptyBond bump b.provider)
      (signer : ¬ P.Pda b.provider)
      (vault_ata : P.ata a b.mint = some vault)
      (vault_holds : s.Holds vault b.mint a n)
      (source_holds : s.Holds source b.mint b.provider m)
      (source_le : amount.toNat ≤ m)
      (sum : checkedAdd b.deposited amount = some deposited)
      (locked_le : b.locked ≤ deposited) :
      Step now s (.depositBond amount)
        ((s.pay source vault amount.toNat).put a (.bond { b with deposited }))
  | withdrawBond {s : State} {a vault destination : Pubkey} {b : ProviderBondAccount}
      {amount deposited : UInt64} {n m : ℕ}
      (bond_at : s.records a = some (.bond b))
      (signer : ¬ P.Pda b.provider)
      (vault_ata : P.ata a b.mint = some vault)
      (vault_holds : s.Holds vault b.mint a n)
      (destination_holds : s.Holds destination b.mint b.provider m)
      (vault_le : amount.toNat ≤ n)
      (difference : checkedSub b.deposited amount = some deposited)
      (locked_le : b.locked ≤ deposited) :
      Step now s (.withdrawBond amount)
        ((s.pay vault destination amount.toNat).put a (.bond { b with deposited }))
  | createJob {s : State} {configKey providerKey a buyer : Pubkey} {c : ConfigAccount}
      {p : ProviderAccount} {bump : UInt8} {payload : CreateJobPayload}
      (config_at : s.records configKey = some (.config c))
      (token : c.tokenProgram = tokenProgramId)
      (provider_at : s.records providerKey = some (.provider p))
      (find : P.tryFindProgramAddress (jobSeedParts buyer p.authority payload.jobNonce)
        P.programId = some (a, bump))
      (free : s.records a = none)
      (signer : ¬ P.Pda buyer)
      (amount_pos : payload.amount ≠ 0)
      (order : now < payload.fundDeadline ∧ payload.fundDeadline < payload.acceptDeadline ∧
        payload.acceptDeadline < payload.workDeadline ∧
        payload.workDeadline < payload.autoSettleDeadline) :
      Step now s (.createJob payload) (s.put a (.job (payload.job c bump buyer p.authority)))
  | fundJob {s : State} {a source escrow : Pubkey} {j : JobAccount} {m : ℕ}
      (job_at : s.records a = some (.job j))
      (created : j.state = .created)
      (open_until : now < j.fundDeadline)
      (signer : ¬ P.Pda j.buyer)
      (mint_at : ∃ d, s.mints j.mint = some d ∧ d.isInitialized = true ∧
        d.decimals = j.mintDecimals)
      (escrow_ata : P.ata a j.mint = some escrow)
      (escrow_holds : s.Holds escrow j.mint a 0)
      (source_holds : s.Holds source j.mint j.buyer m)
      (source_le : j.amount.toNat ≤ m) :
      Step now s .fundJob
        ((s.pay source escrow j.amount.toNat).put a (.job { j with state := .funded }))
  | acceptJob {s : State} {configKey bondKey a : Pubkey} {c : ConfigAccount} {j : JobAccount}
      {b : ProviderBondAccount} {locked : UInt64}
      (config_at : s.records configKey = some (.config c))
      (job_at : s.records a = some (.job j))
      (funded : j.state = .funded)
      (open_until : now < j.acceptDeadline)
      (bond_at : s.records bondKey = some (.bond b))
      (provider_eq : b.provider = j.provider)
      (mint_eq : b.mint = j.mint)
      (sum : checkedAdd b.locked c.minProviderBond = some locked)
      (locked_le : locked ≤ b.deposited) :
      Step now s .acceptJob
        ((s.put bondKey (.bond { b with locked })).put a
          (.job { j with lockedBond := c.minProviderBond, state := .accepted }))
  | submitReceipt {s : State} {configKey a : Pubkey} {c : ConfigAccount} {j : JobAccount}
      {r : AgentBondWorkReceiptV1} {digest : Pubkey}
      (config_at : s.records configKey = some (.config c))
      (job_at : s.records a = some (.job j))
      (accepted : j.state = .accepted)
      (in_time : now ≤ j.workDeadline)
      (job_eq : r.job = a)
      (request_eq : r.requestHash = j.requestHash)
      (encoded : ∃ message, r.encode = .ok message ∧ digest = P.sha256 message) :
      Step now s (.submitReceipt r)
        (s.put a (.job { j with receiptDigest := digest, state := .submitted }))
  | acceptWork {s : State} (x : Settlement P s) (submitted : x.job.state = .submitted) :
      Step now s .acceptWork x.result
  | challengeWork {s : State} {configKey a challengeKey reasonHash : Pubkey} {c : ConfigAccount}
      {j : JobAccount} {bump : UInt8} {deadline : Int64}
      (config_at : s.records configKey = some (.config c))
      (job_at : s.records a = some (.job j))
      (submitted : j.state = .submitted)
      (open_until : now < j.autoSettleDeadline)
      (find : P.tryFindProgramAddress (challengeSeedParts a) P.programId =
        some (challengeKey, bump))
      (free : s.records challengeKey = none)
      (sum : checkedAddI64 now c.challengeDurationSeconds = some deadline) :
      Step now s (.challengeWork reasonHash)
        ((s.put challengeKey (.challenge (j.challenge bump a reasonHash deadline))).put a
          (.job { j with state := .challenged }))
  | settleSubmitted {s : State} (x : Settlement P s) (submitted : x.job.state = .submitted)
      (due : x.job.autoSettleDeadline ≤ now) :
      Step now s .resolveTimeoutSettle x.result
  | settleChallenged {s : State} {challengeKey : Pubkey} {c : ChallengeAccount}
      (challenge_at : s.records challengeKey = some (.challenge c))
      (x : Settlement P (s.drop challengeKey)) (challenged : x.job.state = .challenged)
      (challenge_job : c.job = x.jobKey) (due : c.deadline ≤ now) :
      Step now s .resolveTimeoutSettle x.result
  | refund {s : State} {ix : Instruction} (refunds : ix = .resolveTimeoutRefund ∨
        ix = .expireUnaccepted) (x : Refund P s)
      (due : x.job.state = .funded ∧ x.job.acceptDeadline ≤ now ∨
        x.job.state = .accepted ∧ x.job.workDeadline < now ∧ ix = .resolveTimeoutRefund)
      (unlocked : x.job.lockedBond = 0) :
      Step now s ix x.result
  | refundWith {s : State} {ix : Instruction} (refunds : ix = .resolveTimeoutRefund ∨
        ix = .expireUnaccepted) (x : Refund P s)
      (due : x.job.state = .funded ∧ x.job.acceptDeadline ≤ now ∨
        x.job.state = .accepted ∧ x.job.workDeadline < now ∧ ix = .resolveTimeoutRefund)
      (y : JobBond P x) :
      Step now s ix (x.resultWith y)
  | expireUnfunded {s : State} {a : Pubkey} {j : JobAccount}
      (job_at : s.records a = some (.job j))
      (created : j.state = .created)
      (due : j.fundDeadline ≤ now) :
      Step now s .expireUnfunded (s.put a (.job { j with state := .expired }))
  | slashBond {s : State} {challengeKey : Pubkey} {c : ChallengeAccount}
      (challenge_at : s.records challengeKey = some (.challenge c))
      (x : Slashing P s) (challenged : x.job.state = .challenged)
      (challenge_job : c.job = x.jobKey) (open_until : now < c.deadline) :
      Step now s .slashBond (x.result.drop challengeKey)
  | closeJob {s : State} {a : Pubkey} {j : JobAccount}
      (job_at : s.records a = some (.job j))
      (terminal : j.state.isTerminal = true) :
      Step now s .closeJob (s.drop a)
  | closeJobWith {s : State} {a escrow : Pubkey} {j : JobAccount} {t : TokenAccount}
      (job_at : s.records a = some (.job j))
      (terminal : j.state.isTerminal = true)
      (escrow_at : s.tokens escrow = some t)
      (empty : t.amount = 0) :
      Step now s .closeJob ((s.removeToken escrow).drop a)

end AgentBond.Protocol
