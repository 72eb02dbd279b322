import AgentBond.Foundation.Session
import AgentBond.Indexer.Ancestry

/-! # The slot transactions statement by statement

Recording and finalizing a slot as they are sent to the database: what is
checked before the transaction is opened, what each statement reads or writes,
and where it is committed. Where the database refuses nothing they do what the
transactions do, and an error at any point leaves the database as it was.
-/

namespace AgentBond.Indexer

open Foundation Script

/-- The row of the slot is updated or inserted; the block time must fit its column. -/
def writeRow (update : SlotUpdate) (d : Db) : Stored Db := do
  ensure (Timely update) .sql
  .ok { d with indexerSlots := recordSlot d.indexerSlots update }

def cleanupDeadSlotScript (slot : UInt64) : Script Db DbError Unit := do
  exec fun d => .ok { d with
    rawAccountVersions := d.rawAccountVersions.deleteWhere fun k r =>
      k.slot = slot ∧ r.commitment ≠ .finalized }
  exec fun d => .ok { d with
    rawProtocolEvents := d.rawProtocolEvents.deleteWhere fun _ r =>
      r.slot = slot ∧ r.commitment ≠ .finalized }
  exec fun d => .ok { d with
    stagedAccountProjections := d.stagedAccountProjections.deleteWhere fun k _ => k.slot = slot }

/-- From the write of the row to the commit. -/
def writeSlotScript (update : SlotUpdate) : Script Db DbError Unit := do
  exec (writeRow update)
  if update.status = .dead then cleanupDeadSlotScript update.slot
  if update.status ≠ .dead then
    exec fun d => .ok { d with processedSlot := max d.processedSlot update.slot }
  finish ()

def upsertSlotScript (update : SlotUpdate) : Script Db DbError Unit := do
  check (ensure (update.parentSlot ≠ some update.slot)
    (.conflict "conflicting parent_slot: slot cannot parent itself"))
  let slot ← check (u64ToI64 update.slot)
  check (parentToI64 update.parentSlot)
  start
  let existing ← query fun d => d.indexerSlots.get slot
  match existing with
  | some row =>
    check (reconcileParent row.parentSlot update.parentSlot row.status)
    check (ensure (¬ (row.status = .finalized ∧ update.status = .dead))
      (.conflict "illegal slot status transition: finalized -> dead"))
    check (ensure (¬ (row.status = .dead ∧ update.status = .finalized))
      (.conflict "illegal slot status transition: dead -> finalized"))
    if row.status.canUpgrade update.status then writeSlotScript update else finish ()
  | none => writeSlotScript update

def ancestryScript (slot : UInt64) : ℕ → UInt64 → List UInt64 → Script Db DbError Unit
  | 0, _, _ => check (.error (.conflict "conflicting finalized ancestry: parent chain too deep"))
  | n + 1, current, visited => do
    check (ensure (current ∉ visited)
      (.conflict "conflicting finalized ancestry: parent cycle detected"))
    let key ← check (u64ToI64 current)
    let row ← query fun d => (d.indexerSlots.get key).map (·.parentSlot)
    match row with
    | none =>
      if current = slot then check (.error (.notFound s!"unknown slot {slot}"))
      else
        check (.error (.conflict s!"conflicting finalized ancestry: missing parent slot {current}"))
    | some none => pure ()
    | some (some parent) => do
      check (ensure (parent ≠ current) (.conflict "conflicting finalized ancestry: self-parent"))
      let found ← query fun d => (d.indexerSlots.get parent).map (·.status)
      let status ← check (okOr found
        (.conflict s!"conflicting finalized ancestry: missing parent slot {parent}"))
      check (ensure (status ≠ .dead)
        (.conflict "conflicting finalized ancestry: ancestor is dead"))
      ancestryScript slot n parent (current :: visited)

/-- Ancestry is required the first time a slot becomes finalized. -/
def firstAncestryScript (slot : UInt64) (status : Commitment) : Script Db DbError Unit :=
  if status ≠ .finalized then ancestryScript slot maxAncestryDepth slot [] else pure ()

/-- The slot, if it is not finalized yet, and what was delivered for it become finalized. -/
def markFinalizedScript (slot : UInt64) (status : Commitment) : Script Db DbError Unit := do
  if status ≠ .finalized then
    exec fun d => .ok { d with
      indexerSlots := d.indexerSlots.updateWhere (fun k _ => k = slot) fun r =>
        { r with status := .finalized } }
  exec fun d => .ok { d with
    rawAccountVersions := d.rawAccountVersions.updateWhere (fun k _ => k.slot = slot) fun r =>
      { r with commitment := .finalized } }
  exec fun d => .ok { d with
    rawProtocolEvents := d.rawProtocolEvents.updateWhere (fun _ r => r.slot = slot) fun r =>
      { r with commitment := .finalized } }

/-- From the first projection to the commit; a projection is applied as one statement. -/
def publishScript (slot : UInt64) (projections : List DecodedProjection) : Script Db DbError ℕ := do
  execAll (projections.map fun p d => applyProjection d p)
  exec fun d => .ok { d with
    stagedAccountProjections := d.stagedAccountProjections.deleteWhere fun k _ => k.slot = slot }
  exec fun d => .ok { d with
    finalizedSlot := max d.finalizedSlot slot, processedSlot := max d.processedSlot slot }
  finish projections.length

def finalizeSlotScript (slot : UInt64) : Script Db DbError ℕ := do
  let key ← check (u64ToI64 slot)
  start
  let row ← query fun d => (d.indexerSlots.get key).map (·.status)
  let status ← check (okOr row (.notFound s!"unknown slot {slot}"))
  check (ensure (status ≠ .dead) (.conflict s!"cannot finalize dead slot {slot}"))
  firstAncestryScript slot status
  let projections ← query fun d => stagedProjections d key
  markFinalizedScript key status
  publishScript key projections

section Effects

variable {d d' : Db} {update : SlotUpdate} {slot : UInt64}

theorem effect_writeSlotScript (s : Session Db) : (writeSlotScript update).effect s =
    (writeSlot s.working update).map fun w => ((), { committed := w, working := w }) := by
  rw [writeSlotScript, effect_bind, effect_exec, writeRow, writeSlot]
  by_cases ht : Timely update
  · rw [ensure, if_pos ht]
    by_cases hdead : update.status = .dead
    · simp only [hdead, if_true, ne_eq, not_true_eq_false, if_false]
      rfl
    · simp only [hdead, if_false, ne_eq, not_false_eq_true, if_true]
      rfl
  · rw [ensure, if_neg ht]
    rfl

theorem effect_upsertSlotScript (s : Session Db) : (upsertSlotScript update).effect s =
    (upsertSlot s.committed update).map fun w => ((), { committed := w, working := w }) := by
  rw [upsertSlotScript, upsertSlot]
  simp only [effect_check_bind, map_bind_except]
  congr 1
  funext _
  congr 1
  funext slot
  congr 1
  funext _
  rw [effect_bind, effect_start, ok_bind, effect_bind, effect_query, ok_bind]
  dsimp only
  cases s.committed.indexerSlots.get slot with
  | none =>
    dsimp only
    rw [effect_writeSlotScript]
  | some row =>
    dsimp only
    simp only [effect_check_bind, map_bind_except]
    congr 1
    funext _
    congr 1
    funext _
    congr 1
    funext _
    split
    · rw [effect_writeSlotScript]
    · rfl

theorem effect_ancestryScript (n : ℕ) (current : UInt64) (visited : List UInt64) (s : Session Db) :
    (ancestryScript slot n current visited).effect s =
      (ancestryWalk s.working.indexerSlots slot n current visited).map (·, s) := by
  induction n generalizing current visited with
  | zero => rfl
  | succ n ih =>
    rw [ancestryScript, ancestryWalk]
    simp only [effect_check_bind, map_bind_except]
    congr 1
    funext _
    congr 1
    funext key
    rw [effect_bind, effect_query, ok_bind]
    dsimp only
    cases s.working.indexerSlots.get key with
    | none =>
      dsimp only [Option.map_none]
      split <;> rfl
    | some row =>
      obtain ⟨parentSlot, status, blockTime⟩ := row
      cases parentSlot with
      | none => rfl
      | some parent =>
        dsimp only [Option.map_some]
        simp only [effect_check_bind, map_bind_except]
        congr 1
        funext _
        rw [effect_bind, effect_query, ok_bind, effect_check_bind]
        dsimp only
        cases s.working.indexerSlots.get parent with
        | none => rfl
        | some parentRow =>
          simp only [Option.map_some, okOr, ok_bind, effect_check_bind]
          congr 1
          funext _
          exact ih parent (current :: visited)

theorem effect_firstAncestryScript (status : Commitment) (s : Session Db) :
    (firstAncestryScript slot status).effect s =
      (firstAncestry s.working slot status).map (·, s) := by
  rw [firstAncestryScript, firstAncestry]
  split
  · exact effect_ancestryScript maxAncestryDepth slot [] s
  · rfl

theorem effect_markFinalizedScript {s : Session Db} {row : SlotRow}
    (hrow : s.working.indexerSlots.get slot = some row) :
    (markFinalizedScript slot row.status).effect s =
      .ok ((), { s with working := markFinalized s.working slot }) := by
  rw [markFinalizedScript]
  by_cases hf : row.status = .finalized
  · have hsame : s.working.indexerSlots.updateWhere (fun k _ => k = slot)
        (fun r => { r with status := .finalized }) = s.working.indexerSlots := by
      apply Table.updateWhere_eq_self
      intro k r hk hslot
      obtain rfl : k = slot := of_decide_eq_true hslot
      cases hrow.symm.trans hk
      rw [← hf]
    rw [if_neg (not_not.mpr hf), markFinalized, hsame]
    rfl
  · rw [if_pos hf]
    rfl

theorem effect_publishScript (ps : List DecodedProjection) (s : Session Db) :
    (publishScript slot ps).effect s = (ps.foldlM applyProjection s.working).map fun w =>
      (ps.length,
        { committed := advanceCheckpoint w slot, working := advanceCheckpoint w slot }) := by
  rw [publishScript, effect_bind, effect_execAll, List.foldlM_map]
  cases ps.foldlM applyProjection s.working with
  | error e => rfl
  | ok w => rfl

theorem effect_finalizeSlotScript (s : Session Db) : (finalizeSlotScript slot).effect s =
    (finalizeSlot s.committed slot).map fun r => (r.2, { committed := r.1, working := r.1 }) := by
  rw [finalizeSlotScript, finalizeSlot, effect_check_bind]
  cases hslot : u64ToI64 slot with
  | error e => rfl
  | ok key =>
    obtain ⟨-, rfl⟩ := u64ToI64_eq_ok.mp hslot
    have hdiscard : (discard (Except.ok slot) : Stored Unit) = .ok () := rfl
    rw [hdiscard, ok_bind, ok_bind, effect_bind, effect_start, ok_bind, effect_bind, effect_query,
      ok_bind, effect_check_bind]
    cases hrow : s.committed.indexerSlots.get slot with
    | none => rfl
    | some row =>
      simp only [Option.map_some, okOr, ok_bind, effect_check_bind, map_bind_except]
      congr 1
      funext _
      rw [effect_bind, effect_firstAncestryScript]
      dsimp only
      cases firstAncestry s.committed slot row.status with
      | error e => rfl
      | ok u =>
        show ((query fun d => stagedProjections d slot) >>= fun projections =>
          markFinalizedScript slot row.status >>= fun _ => publishScript slot projections).effect
            { s with working := s.committed } = _
        have hmark := effect_markFinalizedScript (s := { s with working := s.committed }) hrow
        rw [effect_bind, effect_query, ok_bind, effect_bind, hmark, ok_bind, effect_publishScript]
        dsimp only
        cases (stagedProjections s.committed slot).foldlM applyProjection
          (markFinalized s.committed slot) <;> rfl

end Effects

section Commits

variable {update : SlotUpdate} {slot : UInt64}

theorem uncommitted_cleanupDeadSlotScript : (cleanupDeadSlotScript slot).Uncommitted :=
  (uncommitted_exec _).bind fun _ => (uncommitted_exec _).bind fun _ => uncommitted_exec _

theorem commitsLast_writeSlotScript : (writeSlotScript update).CommitsLast := by
  rw [writeSlotScript]
  refine .bind (uncommitted_exec _) fun _ => ?_
  dsimp only
  split
  · refine .bind uncommitted_cleanupDeadSlotScript fun _ => ?_
    split
    · exact .bind (uncommitted_exec _) fun _ => commitsLast_finish _
    · exact commitsLast_finish _
  · exact .bind (uncommitted_exec _) fun _ => commitsLast_finish _

theorem uncommitted_ancestryScript (n : ℕ) (current : UInt64) (visited : List UInt64) :
    (ancestryScript slot n current visited).Uncommitted := by
  induction n generalizing current visited with
  | zero => exact uncommitted_check _
  | succ n ih =>
    rw [ancestryScript]
    refine (uncommitted_check _).bind fun _ => (uncommitted_check _).bind fun key => ?_
    refine (uncommitted_query _).bind fun row => ?_
    split
    · split <;> exact uncommitted_check _
    · exact uncommitted_check _
    · refine (uncommitted_check _).bind fun _ => (uncommitted_query _).bind fun found => ?_
      exact (uncommitted_check _).bind fun _ => (uncommitted_check _).bind fun _ => ih _ _

theorem commitsLast_upsertSlotScript : (upsertSlotScript update).CommitsLast := by
  rw [upsertSlotScript]
  refine .bind (uncommitted_check _) fun _ => .bind (uncommitted_check _) fun slot => ?_
  refine .bind (uncommitted_check _) fun _ => .bind uncommitted_start fun _ => ?_
  refine .bind (uncommitted_query _) fun existing => ?_
  cases existing with
  | none => exact commitsLast_writeSlotScript
  | some row =>
    refine .bind (uncommitted_check _) fun _ => .bind (uncommitted_check _) fun _ => ?_
    refine .bind (uncommitted_check _) fun _ => ?_
    split
    · exact commitsLast_writeSlotScript
    · exact commitsLast_finish _

theorem uncommitted_firstAncestryScript (status : Commitment) :
    (firstAncestryScript slot status).Uncommitted := by
  rw [firstAncestryScript]
  split
  · exact uncommitted_ancestryScript _ _ _
  · exact uncommitted_check _

theorem uncommitted_markFinalizedScript (status : Commitment) :
    (markFinalizedScript slot status).Uncommitted := by
  rw [markFinalizedScript]
  split
  · refine (uncommitted_exec _).bind fun _ => ?_
    exact (uncommitted_exec _).bind fun _ => uncommitted_exec _
  · exact (uncommitted_exec _).bind fun _ => uncommitted_exec _

theorem commitsLast_publishScript (ps : List DecodedProjection) :
    (publishScript slot ps).CommitsLast :=
  .bind (uncommitted_execAll _) fun _ => .bind (uncommitted_exec _) fun _ =>
    .bind (uncommitted_exec _) fun _ => commitsLast_finish _

theorem commitsLast_finalizeSlotScript : (finalizeSlotScript slot).CommitsLast := by
  rw [finalizeSlotScript]
  refine .bind (uncommitted_check _) fun key => .bind uncommitted_start fun _ => ?_
  refine .bind (uncommitted_query _) fun row => .bind (uncommitted_check _) fun status => ?_
  refine .bind (uncommitted_check _) fun _ => ?_
  refine .bind (uncommitted_firstAncestryScript status) fun _ => ?_
  refine .bind (uncommitted_query _) fun projections => ?_
  exact .bind (uncommitted_markFinalizedScript status) fun _ => commitsLast_publishScript _

end Commits

end AgentBond.Indexer
