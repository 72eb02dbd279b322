import AgentBond.Foundation.Checked
import AgentBond.Foundation.ByteLayout
import AgentBond.Types.State

/-! # Account records

The five accounts of the program and their byte layouts. Every layout starts
with a discriminator, the layout version, the bump and one more byte; the rest
are fixed-width fields at the offsets the decoders read.
-/

namespace AgentBond

open Foundation

/-- Addresses and hashes are byte strings of length 32. -/
abbrev Pubkey := Bytes 32

/-- The all-zero key. -/
def zeroKey : Pubkey := List.Vector.replicate 32 0

def accountLayoutVersion : UInt8 := 1

def configAccountDiscriminator : UInt8 := 1
def providerAccountDiscriminator : UInt8 := 2
def providerBondAccountDiscriminator : UInt8 := 3
def jobAccountDiscriminator : UInt8 := 4
def challengeAccountDiscriminator : UInt8 := 5

def providerStatusActive : UInt8 := 1
def providerStatusInactive : UInt8 := 2

def maxExecutionKeys : ℕ := 4

def configAccountLen : ℕ := 149
def providerAccountLen : ℕ := 165
def providerBondAccountLen : ℕ := 116
def jobAccountLen : ℕ := 253
def challengeAccountLen : ℕ := 116

def readBool (b : UInt8) : Except ProtocolError Bool :=
  match b.toNat with
  | 0 => .ok false
  | 1 => .ok true
  | _ => .error .invalidBoolean

def writeBool (b : Bool) : UInt8 := if b then 1 else 0

@[simp] theorem readBool_writeBool (b : Bool) : readBool (writeBool b) = .ok b := by
  cases b <;> rfl

def requireLen (data : List UInt8) (expected : ℕ) : Except ProtocolError Unit :=
  ensure (data.length = expected) .invalidAccountLength

def readU64 (data : List UInt8) (offset : ℕ) : Except ProtocolError UInt64 :=
  okOr ((slice data offset 8).map u64OfBytes) .invalidAccountData

def readI64 (data : List UInt8) (offset : ℕ) : Except ProtocolError Int64 :=
  okOr ((slice data offset 8).map i64OfBytes) .invalidAccountData

def readPubkey (data : List UInt8) (offset : ℕ) : Except ProtocolError Pubkey :=
  okOr (slice data offset 32) .invalidAccountData

/-- Every layout starts with the discriminator of its kind and the layout version. -/
def requireHeader (data : List UInt8) (discriminator : UInt8) : Except ProtocolError Unit := do
  ensure (byteAt data 0 = discriminator) .invalidAccountDiscriminator
  ensure (byteAt data 1 = accountLayoutVersion) .unsupportedAccountVersion

structure ConfigAccount where
  bump : UInt8
  paused : Bool
  admin : Pubkey
  genesisHash : Pubkey
  allowedMint : Pubkey
  tokenProgram : Pubkey
  mintDecimals : UInt8
  minProviderBond : UInt64
  challengeDurationSeconds : Int64
  deriving DecidableEq

namespace ConfigAccount

def encode (c : ConfigAccount) : List UInt8 :=
  [[configAccountDiscriminator, accountLayoutVersion, c.bump, writeBool c.paused],
    c.admin.toList, c.genesisHash.toList, c.allowedMint.toList, c.tokenProgram.toList,
    [c.mintDecimals], (u64Bytes c.minProviderBond).toList,
    (i64Bytes c.challengeDurationSeconds).toList].flatten

def decode (data : List UInt8) : Except ProtocolError ConfigAccount := do
  requireLen data configAccountLen
  requireHeader data configAccountDiscriminator
  let paused ← readBool (byteAt data 3)
  let admin ← readPubkey data 4
  let genesisHash ← readPubkey data 36
  let allowedMint ← readPubkey data 68
  let tokenProgram ← readPubkey data 100
  let minProviderBond ← readU64 data 133
  let challengeDurationSeconds ← readI64 data 141
  .ok { bump := byteAt data 2, paused, admin, genesisHash, allowedMint, tokenProgram,
        mintDecimals := byteAt data 132, minProviderBond, challengeDurationSeconds }

end ConfigAccount

structure ProviderAccount where
  bump : UInt8
  status : UInt8
  authority : Pubkey
  executionKeyCount : UInt8
  executionKeys : List.Vector Pubkey 4
  deriving DecidableEq

namespace ProviderAccount

def encode (p : ProviderAccount) : Except ProtocolError (List UInt8) := do
  ensure (p.status = providerStatusActive ∨ p.status = providerStatusInactive)
    .invalidProviderStatus
  ensure (p.executionKeyCount.toNat ≤ maxExecutionKeys) .invalidAccountData
  .ok [[providerAccountDiscriminator, accountLayoutVersion, p.bump, p.status],
    p.authority.toList, [p.executionKeyCount],
    (p.executionKeys.get 0).toList, (p.executionKeys.get 1).toList,
    (p.executionKeys.get 2).toList, (p.executionKeys.get 3).toList].flatten

def decode (data : List UInt8) : Except ProtocolError ProviderAccount := do
  requireLen data providerAccountLen
  requireHeader data providerAccountDiscriminator
  ensure (byteAt data 3 = providerStatusActive ∨ byteAt data 3 = providerStatusInactive)
    .invalidProviderStatus
  ensure ((byteAt data 36).toNat ≤ maxExecutionKeys) .invalidAccountData
  let k₀ ← readPubkey data 37
  let k₁ ← readPubkey data 69
  let k₂ ← readPubkey data 101
  let k₃ ← readPubkey data 133
  let authority ← readPubkey data 4
  .ok { bump := byteAt data 2, status := byteAt data 3, authority,
        executionKeyCount := byteAt data 36,
        executionKeys := ⟨[k₀, k₁, k₂, k₃], rfl⟩ }

/-- Whether the key is among the first `executionKeyCount` slots. -/
def containsExecutionKey (p : ProviderAccount) (key : Pubkey) : Bool :=
  (p.executionKeys.toList.take p.executionKeyCount.toNat).any (· = key)

end ProviderAccount

structure ProviderBondAccount where
  bump : UInt8
  provider : Pubkey
  mint : Pubkey
  tokenProgram : Pubkey
  deposited : UInt64
  locked : UInt64
  deriving DecidableEq

namespace ProviderBondAccount

/-- The part of the deposit that no job has locked. -/
def unlocked (b : ProviderBondAccount) : Except ProtocolError UInt64 :=
  okOr (checkedSub b.deposited b.locked) .mathOverflow

def encode (b : ProviderBondAccount) : Except ProtocolError (List UInt8) := do
  ensure (b.locked ≤ b.deposited) .invalidAccountData
  .ok [[providerBondAccountDiscriminator, accountLayoutVersion, b.bump, 0],
    b.provider.toList, b.mint.toList, b.tokenProgram.toList,
    (u64Bytes b.deposited).toList, (u64Bytes b.locked).toList].flatten

def decode (data : List UInt8) : Except ProtocolError ProviderBondAccount := do
  requireLen data providerBondAccountLen
  requireHeader data providerBondAccountDiscriminator
  let provider ← readPubkey data 4
  let mint ← readPubkey data 36
  let tokenProgram ← readPubkey data 68
  let deposited ← readU64 data 100
  let locked ← readU64 data 108
  ensure (locked ≤ deposited) .invalidAccountData
  .ok { bump := byteAt data 2, provider, mint, tokenProgram, deposited, locked }

end ProviderBondAccount

structure JobAccount where
  bump : UInt8
  state : JobState
  buyer : Pubkey
  provider : Pubkey
  mint : Pubkey
  tokenProgram : Pubkey
  amount : UInt64
  jobNonce : UInt64
  fundDeadline : Int64
  acceptDeadline : Int64
  workDeadline : Int64
  autoSettleDeadline : Int64
  receiptDigest : Pubkey
  requestHash : Pubkey
  lockedBond : UInt64
  mintDecimals : UInt8
  deriving DecidableEq

namespace JobAccount

def encode (j : JobAccount) : List UInt8 :=
  [[jobAccountDiscriminator, accountLayoutVersion, j.bump, j.state.asU8],
    j.buyer.toList, j.provider.toList, j.mint.toList, j.tokenProgram.toList,
    (u64Bytes j.amount).toList, (u64Bytes j.jobNonce).toList,
    (i64Bytes j.fundDeadline).toList, (i64Bytes j.acceptDeadline).toList,
    (i64Bytes j.workDeadline).toList, (i64Bytes j.autoSettleDeadline).toList,
    j.receiptDigest.toList, j.requestHash.toList, (u64Bytes j.lockedBond).toList,
    [j.mintDecimals]].flatten

def decode (data : List UInt8) : Except ProtocolError JobAccount := do
  requireLen data jobAccountLen
  requireHeader data jobAccountDiscriminator
  let state ← JobState.fromU8 (byteAt data 3)
  let buyer ← readPubkey data 4
  let provider ← readPubkey data 36
  let mint ← readPubkey data 68
  let tokenProgram ← readPubkey data 100
  let amount ← readU64 data 132
  let jobNonce ← readU64 data 140
  let fundDeadline ← readI64 data 148
  let acceptDeadline ← readI64 data 156
  let workDeadline ← readI64 data 164
  let autoSettleDeadline ← readI64 data 172
  let receiptDigest ← readPubkey data 180
  let requestHash ← readPubkey data 212
  let lockedBond ← readU64 data 244
  .ok { bump := byteAt data 2, state, buyer, provider, mint, tokenProgram, amount, jobNonce,
        fundDeadline, acceptDeadline, workDeadline, autoSettleDeadline, receiptDigest,
        requestHash, lockedBond, mintDecimals := byteAt data 252 }

end JobAccount

structure ChallengeAccount where
  bump : UInt8
  status : UInt8
  job : Pubkey
  buyer : Pubkey
  reasonHash : Pubkey
  bondAmount : UInt64
  deadline : Int64
  deriving DecidableEq

namespace ChallengeAccount

def statusOpen : UInt8 := 1
def statusResolved : UInt8 := 2

def encode (c : ChallengeAccount) : Except ProtocolError (List UInt8) := do
  ensure (c.status = statusOpen ∨ c.status = statusResolved) .invalidChallengeStatus
  ensure (c.bondAmount = 0) .challengeBondMustBeZero
  .ok [[challengeAccountDiscriminator, accountLayoutVersion, c.bump, c.status],
    c.job.toList, c.buyer.toList, c.reasonHash.toList,
    (u64Bytes c.bondAmount).toList, (i64Bytes c.deadline).toList].flatten

def decode (data : List UInt8) : Except ProtocolError ChallengeAccount := do
  requireLen data challengeAccountLen
  requireHeader data challengeAccountDiscriminator
  ensure (byteAt data 3 = statusOpen ∨ byteAt data 3 = statusResolved) .invalidChallengeStatus
  let job ← readPubkey data 4
  let buyer ← readPubkey data 36
  let reasonHash ← readPubkey data 68
  let bondAmount ← readU64 data 100
  let deadline ← readI64 data 108
  ensure (bondAmount = 0) .challengeBondMustBeZero
  .ok { bump := byteAt data 2, status := byteAt data 3, job, buyer, reasonHash, bondAmount,
        deadline }

end ChallengeAccount

end AgentBond
