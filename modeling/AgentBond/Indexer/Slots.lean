import AgentBond.Indexer.Db

/-! # Slots

Recording a slot with its parent and commitment, the cleanup of a dead slot and
the walk along the recorded parents that a finalization requires.
-/

namespace AgentBond.Indexer

open Foundation

/-- Bound ancestry walks so finalization never issues unbounded queries. -/
def maxAncestryDepth : ℕ := 256

def parentToI64 : Option UInt64 → Stored Unit
  | some p => discard (u64ToI64 p)
  | none => .ok ()

/-- The parent a row may be given by an update. -/
def reconcileParent (stored incoming : Option UInt64) (current : Commitment) : Stored Unit :=
  match stored, incoming with
  | some a, some b => ensure (a = b) (.conflict "conflicting parent_slot for existing slot")
  | some _, none => .error (.conflict "conflicting parent_slot for existing slot")
  | none, some _ =>
    ensure (current ≠ .finalized) (.conflict "cannot set parent_slot after finalization")
  | none, none => .ok ()

/-- Forget what is not finalized of a dead slot. -/
def cleanupDeadSlot (d : Db) (slot : UInt64) : Db :=
  { d with
    rawAccountVersions := d.rawAccountVersions.deleteWhere fun k r =>
      k.slot = slot ∧ r.commitment ≠ .finalized
    rawProtocolEvents := d.rawProtocolEvents.deleteWhere fun _ r =>
      r.slot = slot ∧ r.commitment ≠ .finalized
    stagedAccountProjections := d.stagedAccountProjections.deleteWhere fun k _ => k.slot = slot }

/-- The block time an update brings. -/
def SlotUpdate.time (update : SlotUpdate) : Option Int64 := update.blockTime.bind timestampOpt

/-- The slots with an update written: a known parent and block time are kept. -/
def recordSlot (slots : Table UInt64 SlotRow) (update : SlotUpdate) : Table UInt64 SlotRow :=
  match slots.get update.slot with
  | some row =>
    slots.put update.slot
      { parentSlot := row.parentSlot <|> update.parentSlot, status := update.status,
        blockTime := update.time <|> row.blockTime }
  | none =>
    slots.put update.slot
      { parentSlot := update.parentSlot, status := update.status, blockTime := update.time }

/-- The block time of the update fits its column. -/
def Timely (update : SlotUpdate) : Prop := ∀ time ∈ update.time, Storable time

instance (update : SlotUpdate) : Decidable (Timely update) := Option.decidableForallMem _

/-- Write an update that passed its checks: a dead slot is cleaned up, any other one counts as
processed. -/
def writeSlot (d : Db) (update : SlotUpdate) : Stored Db := do
  ensure (Timely update) .sql
  let d₁ := { d with indexerSlots := recordSlot d.indexerSlots update }
  if update.status = .dead then .ok (cleanupDeadSlot d₁ update.slot)
  else .ok { d₁ with processedSlot := max d₁.processedSlot update.slot }

def upsertSlot (d : Db) (update : SlotUpdate) : Stored Db := do
  ensure (update.parentSlot ≠ some update.slot)
    (.conflict "conflicting parent_slot: slot cannot parent itself")
  let slot ← u64ToI64 update.slot
  parentToI64 update.parentSlot
  match d.indexerSlots.get slot with
  | some row =>
    reconcileParent row.parentSlot update.parentSlot row.status
    ensure (¬ (row.status = .finalized ∧ update.status = .dead))
      (.conflict "illegal slot status transition: finalized -> dead")
    ensure (¬ (row.status = .dead ∧ update.status = .finalized))
      (.conflict "illegal slot status transition: dead -> finalized")
    -- Ignore commitment downgrades and repeats that cannot upgrade (replay-safe).
    if row.status.canUpgrade update.status then writeSlot d update else .ok d
  | none => writeSlot d update

/-- Follow the recorded parents for the given number of slots; each parent must be stored and
alive, and none may come up twice. -/
def ancestryWalk (slots : Table UInt64 SlotRow) (slot : UInt64) :
    ℕ → UInt64 → List UInt64 → Stored Unit
  | 0, _, _ => .error (.conflict "conflicting finalized ancestry: parent chain too deep")
  | n + 1, current, visited => do
    ensure (current ∉ visited)
      (.conflict "conflicting finalized ancestry: parent cycle detected")
    let key ← u64ToI64 current
    match slots.get key with
    | none =>
      if current = slot then .error (.notFound s!"unknown slot {slot}")
      else .error (.conflict s!"conflicting finalized ancestry: missing parent slot {current}")
    | some row =>
      match row.parentSlot with
      | none => .ok ()
      | some parent => do
        ensure (parent ≠ current) (.conflict "conflicting finalized ancestry: self-parent")
        let parentRow ← okOr (slots.get parent)
          (.conflict s!"conflicting finalized ancestry: missing parent slot {parent}")
        ensure (parentRow.status ≠ .dead)
          (.conflict "conflicting finalized ancestry: ancestor is dead")
        ancestryWalk slots slot n parent (current :: visited)

def assertAncestry (slots : Table UInt64 SlotRow) (slot : UInt64) : Stored Unit :=
  ancestryWalk slots slot maxAncestryDepth slot []

end AgentBond.Indexer
