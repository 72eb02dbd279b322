import AgentBond.Types.Accounts

/-! # Indexer types

What the stream of the chain delivers: slots with their commitment, account
versions with the projection decoded from them, and protocol events.
-/

namespace AgentBond.Indexer

inductive Commitment
  | processed | confirmed | finalized | dead
  deriving DecidableEq, Repr

namespace Commitment

/-- Whether the next status may replace this one. -/
def canUpgrade (self next : Commitment) : Bool :=
  if self = next then true
  else match self with
    | finalized | dead => false
    | confirmed => next = finalized ∨ next = dead
    | processed => next = confirmed ∨ next = finalized ∨ next = dead

end Commitment

structure SlotUpdate where
  slot : UInt64
  parentSlot : Option UInt64
  status : Commitment
  blockTime : Option Int64
  deriving DecidableEq

structure RawAccountVersion where
  address : Pubkey
  slot : UInt64
  writeVersion : UInt64
  owner : Option Pubkey
  lamports : UInt64
  executable : Bool
  data : Option (List UInt8)
  deleted : Bool
  commitment : Commitment
  deriving DecidableEq

structure RawProtocolEvent where
  signature : String
  eventIndex : UInt32
  slot : UInt64
  programId : Pubkey
  kind : UInt8
  subject : Pubkey
  actor : Pubkey
  amount : UInt64
  eventTimestamp : Int64
  commitment : Commitment
  deriving DecidableEq

inductive ProjectionKind
  | config | provider | providerBond | job | challenge | tombstone
  deriving DecidableEq, Repr

structure ConfigProjection where
  paused : Bool
  admin : Pubkey
  genesisHash : Pubkey
  allowedMint : Pubkey
  tokenProgram : Pubkey
  mintDecimals : UInt8
  minProviderBond : UInt64
  challengeDurationSeconds : UInt64
  deriving DecidableEq

structure ProviderProjection where
  authority : Pubkey
  status : String
  executionKeyCount : UInt8
  deriving DecidableEq

structure ProviderBondProjection where
  authority : Pubkey
  mint : Pubkey
  deposited : UInt64
  locked : UInt64
  deriving DecidableEq

structure JobProjection where
  buyer : Pubkey
  provider : Pubkey
  mint : Pubkey
  tokenProgram : Pubkey
  amount : UInt64
  jobNonce : UInt64
  state : String
  fundDeadline : Int64
  acceptDeadline : Int64
  workDeadline : Int64
  autoSettleDeadline : Int64
  requestHash : Pubkey
  receiptDigest : Pubkey
  lockedBond : UInt64
  mintDecimals : UInt8
  deriving DecidableEq

structure ChallengeProjection where
  job : Pubkey
  buyer : Pubkey
  reasonHash : Pubkey
  bondAmount : UInt64
  deadline : Int64
  status : String
  deriving DecidableEq

inductive ProjectionPayload
  | config (c : ConfigProjection)
  | provider (p : ProviderProjection)
  | providerBond (b : ProviderBondProjection)
  | job (j : JobProjection)
  | challenge (c : ChallengeProjection)
  | tombstone
  deriving DecidableEq

/-- The kind of account a payload is about. -/
def ProjectionPayload.kind : ProjectionPayload → ProjectionKind
  | config _ => .config
  | provider _ => .provider
  | providerBond _ => .providerBond
  | job _ => .job
  | challenge _ => .challenge
  | tombstone => .tombstone

structure DecodedProjection where
  kind : ProjectionKind
  address : Pubkey
  slot : UInt64
  writeVersion : UInt64
  payload : ProjectionPayload
  deriving DecidableEq

structure AccountUpdate where
  raw : RawAccountVersion
  projection : Option DecodedProjection
  deriving DecidableEq

inductive ChainUpdate
  | slot (slot : SlotUpdate)
  | account (account : AccountUpdate)
  | events (events : List RawProtocolEvent)
  deriving DecidableEq

end AgentBond.Indexer
