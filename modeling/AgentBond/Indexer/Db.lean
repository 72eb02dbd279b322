import AgentBond.Foundation.Checked
import AgentBond.Foundation.Table
import AgentBond.Indexer.Types

/-! # The indexer database

The tables the indexer writes, with the columns it reads back. Slots, versions
and block counts are stored as non-negative 64-bit integers and kept here as the
unsigned words they come from; a time is kept as its seconds.
-/

namespace AgentBond.Indexer

open Foundation

/-- The statement was refused, or one of the errors the repository reports itself. -/
inductive DbError
  | sql
  | notFound (message : String)
  | conflict (message : String)
  | validation (message : String)
  deriving DecidableEq

/-- What a transaction leaves, or why it was rolled back. -/
abbrev Stored (α : Type) := Except DbError α

structure SlotRow where
  parentSlot : Option UInt64
  status : Commitment
  blockTime : Option Int64
  deriving DecidableEq

/-- The key of an account version. -/
structure VersionKey where
  address : Pubkey
  slot : UInt64
  writeVersion : UInt64
  deriving DecidableEq

structure AccountVersionRow where
  owner : Option Pubkey
  lamports : UInt64
  executable : Bool
  data : Option (List UInt8)
  deleted : Bool
  commitment : Commitment
  deriving DecidableEq

/-- The key of an event: a transaction runs in one slot of each fork. -/
structure EventKey where
  signature : String
  eventIndex : UInt32
  deriving DecidableEq

structure EventRow where
  slot : UInt64
  programId : Pubkey
  kind : UInt8
  subject : Pubkey
  actor : Pubkey
  amount : UInt64
  eventTimestamp : Int64
  commitment : Commitment
  deriving DecidableEq

structure StagedRow where
  kind : ProjectionKind
  payload : ProjectionPayload
  deriving DecidableEq

/-- A row of a public table, with the slot it stems from. -/
structure Projected (α : Type) where
  asOfSlot : UInt64
  row : α
  deriving DecidableEq

inductive GapStatus
  | opened | repairing | repaired | failed | partly
  deriving DecidableEq

structure Db where
  indexerSlots : Table UInt64 SlotRow
  rawAccountVersions : Table VersionKey AccountVersionRow
  rawProtocolEvents : Table EventKey EventRow
  stagedAccountProjections : Table VersionKey StagedRow
  projConfig : Table Pubkey (Projected ConfigProjection)
  projProviders : Table Pubkey (Projected ProviderProjection)
  projProviderBonds : Table Pubkey (Projected ProviderBondProjection)
  projJobs : Table Pubkey (Projected JobProjection)
  projChallenges : Table Pubkey (Projected ChallengeProjection)
  ingestionGaps : Table (UInt64 × UInt64) GapStatus
  finalizedSlot : UInt64
  processedSlot : UInt64

/-- The database after its migrations. -/
def Db.fresh : Db where
  indexerSlots := .empty
  rawAccountVersions := .empty
  rawProtocolEvents := .empty
  stagedAccountProjections := .empty
  projConfig := .empty
  projProviders := .empty
  projProviderBonds := .empty
  projJobs := .empty
  projChallenges := .empty
  ingestionGaps := .empty
  finalizedSlot := 0
  processedSlot := 0

def u64ToI64 (v : UInt64) : Stored UInt64 := do
  ensure (v.toNat < 2 ^ 63) (.validation s!"u64 does not fit i64: {v}")
  .ok v

/-- The seconds a calendar date can be made of: whole days in the years -262143 to 262142. -/
def timestampOpt (unix : Int64) : Option Int64 :=
  if -8334601228800 ≤ unix.toInt ∧ unix.toInt ≤ 8210266876799 then some unix else none

def ts (unix : Int64) : Stored Int64 := okOr (timestampOpt unix) (.validation "bad timestamp")

/-- The times a column holds: from the year 4714 BC up to, and without, the year 294277. -/
def Storable (time : Int64) : Prop :=
  -210866803200 ≤ time.toInt ∧ time.toInt < 9224318016000

instance (time : Int64) : Decidable (Storable time) := inferInstanceAs (Decidable (_ ∧ _))

@[simp] theorem u64ToI64_eq_ok {v w : UInt64} : u64ToI64 v = .ok w ↔ v.toNat < 2 ^ 63 ∧ v = w := by
  simp only [u64ToI64, bind_eq_ok, ensure_eq_ok, exists_const, Except.ok.injEq]

@[simp] theorem ts_eq_ok {unix time : Int64} :
    ts unix = .ok time ↔ timestampOpt unix = some time := by
  simp only [ts, okOr_eq_ok]

end AgentBond.Indexer
