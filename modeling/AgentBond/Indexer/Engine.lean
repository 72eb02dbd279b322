import AgentBond.Indexer.Projection

/-! # The ingest engine

The engine feeds the updates of a stream to the database, each in one or two
transactions. An update that fails may leave its first transaction behind.
-/

namespace AgentBond.Indexer

open Foundation

/-- The database and the newest slot the engine was told of. -/
structure Engine where
  db : Db
  lastSlot : Option UInt64

/-- What the engine returns: the gap the update revealed, if any. -/
abbrev Ingested := Engine × Stored (Option (UInt64 × UInt64))

/-- Forward gap between previously seen slot and a newer notification. -/
def detectForwardGap (prev slot : UInt64) : Option (UInt64 × UInt64) :=
  if prev.toNat + 1 < 2 ^ 64 ∧ prev.toNat + 1 < slot.toNat then some (prev + 1, slot - 1) else none

def recordGap (d : Db) (gap : UInt64 × UInt64) : Stored Db := do
  discard (u64ToI64 gap.1)
  discard (u64ToI64 gap.2)
  .ok { d with ingestionGaps := d.ingestionGaps.insertNew gap .opened }

/-- Only advance gap tracking forward; ignore older notifications. -/
def trackSlot (e : Engine) (slot : UInt64) : Stored (Engine × Option (UInt64 × UInt64)) :=
  match e.lastSlot with
  | none => .ok ({ e with lastSlot := some slot }, none)
  | some prev =>
    match detectForwardGap prev slot with
    | some gap => do
      let db ← recordGap e.db gap
      .ok ({ db, lastSlot := some slot }, some gap)
    | none =>
      if prev < slot then .ok ({ e with lastSlot := some slot }, none) else .ok (e, none)

def ingestSlot (e : Engine) (update : SlotUpdate) : Ingested :=
  match trackSlot e update.slot with
  | .error err => (e, .error err)
  | .ok (e₁, gap) =>
    match upsertSlot e₁.db update with
    | .error err => (e₁, .error err)
    | .ok d₁ =>
      if update.status = .finalized then
        match finalizeSlot d₁ update.slot with
        | .error err => ({ e₁ with db := d₁ }, .error err)
        | .ok (d₂, _) => ({ e₁ with db := d₂ }, .ok gap)
      else ({ e₁ with db := d₁ }, .ok gap)

def ingestAccount (e : Engine) (account : AccountUpdate) : Ingested :=
  match insertAccountWithProjection e.db account.raw account.projection with
  | .error err => (e, .error err)
  | .ok (db, _) => ({ e with db }, .ok none)

def ingestEvents (e : Engine) : List RawProtocolEvent → Ingested
  | [] => (e, .ok none)
  | ev :: evs =>
    match insertEvent e.db ev with
    | .error err => (e, .error err)
    | .ok (db, _) => ingestEvents { e with db } evs

def ingestUpdate (e : Engine) : ChainUpdate → Ingested
  | .slot update => ingestSlot e update
  | .account account => ingestAccount e account
  | .events evs => ingestEvents e evs

end AgentBond.Indexer
