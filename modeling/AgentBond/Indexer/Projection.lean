import AgentBond.Indexer.Slots
import Mathlib.Data.List.Sort

/-! # Projections

The public tables: applying the projection of an account version, storing an
account version or an event, and finalizing a slot with what is staged for it.
-/

namespace AgentBond.Indexer

open Foundation

section Tables

variable {α : Type} (t : Table Pubkey (Projected α)) (address : Pubkey) (slot : UInt64)

/-- Store a row unless the table holds a newer one. -/
def projectRow (row : α) : Table Pubkey (Projected α) :=
  t.upsertWhere address ⟨slot, row⟩ fun old => old.asOfSlot ≤ slot

/-- Delete a row unless it is newer. -/
def deleteRow : Table Pubkey (Projected α) :=
  t.deleteWhere fun k r => k = address ∧ r.asOfSlot ≤ slot

end Tables

/-- The decimals a column holds. -/
def maxMintDecimals : ℕ := 18

def jobStates : List String :=
  ["Created", "Funded", "Accepted", "Submitted", "Challenged", "Settled", "Refunded", "Expired",
    "Slashed", "Closed"]

/-- The checks of the columns a payload is stored in; they hold of a proposed row even where an
older one stays. -/
def checkPayload : ProjectionPayload → Stored Unit
  | .config c => do
    discard (u64ToI64 c.challengeDurationSeconds)
    ensure (c.mintDecimals.toNat ≤ maxMintDecimals) .sql
  | .provider p => do
    ensure (p.status ∈ ["Active", "Inactive"]) .sql
    ensure (p.executionKeyCount.toNat ≤ 4) .sql
  | .providerBond _ => .ok ()
  | .job j => do
    let fundDeadline ← ts j.fundDeadline
    let acceptDeadline ← ts j.acceptDeadline
    let workDeadline ← ts j.workDeadline
    let autoSettleDeadline ← ts j.autoSettleDeadline
    ensure (Storable fundDeadline ∧ Storable acceptDeadline ∧ Storable workDeadline ∧
      Storable autoSettleDeadline) .sql
    ensure (j.state ∈ jobStates) .sql
    ensure (j.mintDecimals.toNat ≤ maxMintDecimals) .sql
  | .challenge c => do
    let deadline ← ts c.deadline
    ensure (Storable deadline) .sql
    ensure (c.bondAmount = 0) .sql
    ensure (c.status ∈ ["Open", "Resolved"]) .sql
  | .tombstone => .ok ()

/-- What a payload does to the public tables. -/
def project (d : Db) (address : Pubkey) (slot : UInt64) : ProjectionPayload → Db
  | .config c => { d with projConfig := projectRow d.projConfig address slot c }
  | .provider p => { d with projProviders := projectRow d.projProviders address slot p }
  | .providerBond b => { d with projProviderBonds := projectRow d.projProviderBonds address slot b }
  | .job j => { d with projJobs := projectRow d.projJobs address slot j }
  | .challenge c => { d with projChallenges := projectRow d.projChallenges address slot c }
  | .tombstone =>
    { d with
      projJobs := deleteRow d.projJobs address slot
      projProviders := deleteRow d.projProviders address slot
      projProviderBonds := deleteRow d.projProviderBonds address slot
      projChallenges := deleteRow d.projChallenges address slot
      projConfig := deleteRow d.projConfig address slot }

def applyProjection (d : Db) (p : DecodedProjection) : Stored Db := do
  let slot ← u64ToI64 p.slot
  checkPayload p.payload
  .ok (project d p.address slot p.payload)

/-- The status of a slot, when it is known. -/
def slotStatus (d : Db) (slot : UInt64) : Option Commitment :=
  (d.indexerSlots.get slot).map (·.status)

/-- What a delivery for a slot is stored as: finalized when its slot is. -/
def commitmentAt (d : Db) (slot : UInt64) (commitment : Commitment) : Commitment :=
  if slotStatus d slot = some .finalized ∨ commitment = .finalized then .finalized else commitment

def DecodedProjection.key (p : DecodedProjection) : VersionKey :=
  { address := p.address, slot := p.slot, writeVersion := p.writeVersion }

def RawAccountVersion.key (acc : RawAccountVersion) : VersionKey :=
  { address := acc.address, slot := acc.slot, writeVersion := acc.writeVersion }

def RawAccountVersion.row (acc : RawAccountVersion) (commitment : Commitment) : AccountVersionRow :=
  { owner := acc.owner, lamports := acc.lamports, executable := acc.executable, data := acc.data,
    deleted := acc.deleted, commitment }

/-- Stage a projection, or apply it at once when its slot is finalized. -/
def storeProjection (d : Db) (p : DecodedProjection) (applyNow : Bool) : Stored Db := do
  discard (u64ToI64 p.slot)
  discard (u64ToI64 p.writeVersion)
  let d₁ := { d with
    stagedAccountProjections := d.stagedAccountProjections.put p.key ⟨p.kind, p.payload⟩ }
  if applyNow then do
    let d₂ ← applyProjection d₁ p
    .ok { d₂ with
      stagedAccountProjections := d₂.stagedAccountProjections.deleteWhere fun k _ => k = p.key }
  else .ok d₁

/-- Store an account version with its projection; a version that is there already is left alone. -/
def insertAccountWithProjection (d : Db) (acc : RawAccountVersion)
    (projection : Option DecodedProjection) : Stored (Db × Bool) := do
  discard (u64ToI64 acc.slot)
  discard (u64ToI64 acc.writeVersion)
  let commitment := commitmentAt d acc.slot acc.commitment
  ensure (commitment ≠ .dead) (.validation "account commitment cannot be dead")
  match d.rawAccountVersions.get acc.key with
  | some _ => .ok (d, false)
  | none => do
    let d₁ := { d with
      rawAccountVersions := d.rawAccountVersions.put acc.key (acc.row commitment) }
    match projection with
    | some p => do
      let d₂ ← storeProjection d₁ p (commitment = .finalized)
      .ok (d₂, true)
    | none => .ok (d₁, true)

def RawProtocolEvent.key (ev : RawProtocolEvent) : EventKey :=
  { signature := ev.signature, eventIndex := ev.eventIndex }

def RawProtocolEvent.row (ev : RawProtocolEvent) (commitment : Commitment) : EventRow :=
  { slot := ev.slot, programId := ev.programId, kind := ev.kind, subject := ev.subject,
    actor := ev.actor, amount := ev.amount, eventTimestamp := ev.eventTimestamp, commitment }

/-- Store an event; one with the same signature and index is left alone. -/
def insertEvent (d : Db) (ev : RawProtocolEvent) : Stored (Db × Bool) := do
  let time ← okOr (timestampOpt ev.eventTimestamp) (.validation "bad event timestamp")
  discard (u64ToI64 ev.slot)
  let commitment := commitmentAt d ev.slot ev.commitment
  ensure (commitment ≠ .dead) (.validation "event commitment cannot be dead")
  ensure (64 ≤ ev.signature.length ∧ ev.signature.length ≤ 128) .sql
  ensure (ev.eventIndex.toNat < 256) .sql
  ensure (1 ≤ ev.kind.toNat ∧ ev.kind.toNat ≤ 17) .sql
  ensure (Storable time) .sql
  match d.rawProtocolEvents.get ev.key with
  | some _ => .ok (d, false)
  | none =>
    .ok ({ d with rawProtocolEvents := d.rawProtocolEvents.put ev.key (ev.row commitment) }, true)

theorem bytes_lt_trichotomy (a b : List UInt8) : a < b ∨ a = b ∨ b < a := by
  by_cases h : a < b
  · exact .inl h
  · by_cases h' : b < a
    · exact .inr (.inr h')
    · exact .inr (.inl (List.le_antisymm (List.not_lt.mp h') (List.not_lt.mp h)))

/-- Staged rows of a slot are read by address, then by write version. -/
def stagedBefore (a b : VersionKey × StagedRow) : Prop :=
  a.1.address.toList < b.1.address.toList ∨
    (a.1.address = b.1.address ∧ a.1.writeVersion ≤ b.1.writeVersion)

instance : DecidableRel stagedBefore := fun _ _ => inferInstanceAs (Decidable (_ ∨ _ ∧ _))

def toProjection (e : VersionKey × StagedRow) : DecodedProjection :=
  { kind := e.2.kind, address := e.1.address, slot := e.1.slot, writeVersion := e.1.writeVersion,
    payload := e.2.payload }

/-- The projections staged for a slot, in the order they are read. -/
def stagedProjections (d : Db) (slot : UInt64) : List DecodedProjection :=
  ((d.stagedAccountProjections.selectWhere fun k _ => k.slot = slot).insertionSort
    stagedBefore).map toProjection

/-- The slot and what was delivered for it become finalized. -/
def markFinalized (d : Db) (slot : UInt64) : Db :=
  { d with
    indexerSlots := d.indexerSlots.updateWhere (fun k _ => k = slot) fun r =>
      { r with status := .finalized }
    rawAccountVersions := d.rawAccountVersions.updateWhere (fun k _ => k.slot = slot) fun r =>
      { r with commitment := .finalized }
    rawProtocolEvents := d.rawProtocolEvents.updateWhere (fun _ r => r.slot = slot) fun r =>
      { r with commitment := .finalized } }

/-- Nothing stays staged for a finalized slot, and the checkpoint covers it. -/
def advanceCheckpoint (d : Db) (slot : UInt64) : Db :=
  { d with
    stagedAccountProjections := d.stagedAccountProjections.deleteWhere fun k _ => k.slot = slot
    finalizedSlot := max d.finalizedSlot slot
    processedSlot := max d.processedSlot slot }

/-- Ancestry is required the first time a slot becomes finalized. -/
def firstAncestry (d : Db) (slot : UInt64) (status : Commitment) : Stored Unit :=
  if status ≠ .finalized then assertAncestry d.indexerSlots slot else .ok ()

/-- Finalize a slot and publish what is staged for it; returns how many projections were applied. -/
def finalizeSlot (d : Db) (slot : UInt64) : Stored (Db × ℕ) := do
  discard (u64ToI64 slot)
  let row ← okOr (d.indexerSlots.get slot) (.notFound s!"unknown slot {slot}")
  ensure (row.status ≠ .dead) (.conflict s!"cannot finalize dead slot {slot}")
  firstAncestry d slot row.status
  let projections := stagedProjections d slot
  let d₁ ← projections.foldlM applyProjection (markFinalized d slot)
  .ok (advanceCheckpoint d₁ slot, projections.length)

end AgentBond.Indexer
