import AgentBond.Indexer.Climbing
import AgentBond.Indexer.Convergence

/-! # Deliveries that come again

Statuses and checkpoint only move up, so an update that went through once passes
the same checks later. Whether it leaves everything as it is depends on what has
become of its slot since.
-/

namespace AgentBond.Indexer

open Foundation

namespace Commitment

variable {a b c : Commitment}

theorem canUpgrade_refl (a : Commitment) : a.canUpgrade a = true := if_pos rfl

theorem canUpgrade_trans (hab : a.canUpgrade b = true) (hbc : b.canUpgrade c = true) :
    a.canUpgrade c = true :=
  canUpgrade_iff_le.mpr ((canUpgrade_iff_le.mp hab).trans (canUpgrade_iff_le.mp hbc))

end Commitment

variable {d d' d'' : Db} {e e' : Engine} {op : Operation} {update : SlotUpdate}

section Upwards

/-- No slot has moved down, and neither has the checkpoint. -/
structure Upward (d d' : Db) : Prop where
  rows : ∀ s row, d.indexerSlots.get s = some row →
    ∃ row', d'.indexerSlots.get s = some row' ∧ row.status.canUpgrade row'.status = true
  processed : d.processedSlot ≤ d'.processedSlot
  finalized : d.finalizedSlot ≤ d'.finalizedSlot

theorem Climbs.upward (h : Climbs d d') : Upward d d' where
  rows := fun s row hrow => by
    obtain ⟨row', hrow', hle⟩ := h.indexerSlots s row hrow
    exact ⟨row', hrow', Commitment.canUpgrade_iff_le.mpr hle.1⟩
  processed := h.processedSlot
  finalized := h.finalizedSlot

theorem upward_finalizeSlot {slot : UInt64} {n : ℕ} (h : finalizeSlot d slot = .ok (d', n)) :
    Upward d d' :=
  (climbs_of_finalizeSlot h).upward

theorem upward_of_operates (h : Operates d op d') : Upward d d' :=
  (climbs_of_operates h).upward

theorem carryOut_of_attempt {ops : List Operation} (h : (Operation.attempt d ops).2 = .ok ()) :
    Operation.carryOut d ops = .ok (Operation.attempt d ops).1 := by
  induction ops generalizing d with
  | nil => rfl
  | cons op ops ih =>
    rw [Operation.carryOut]
    cases hop : op.perform d with
    | error err =>
      rw [Operation.attempt_cons_error hop] at h
      cases h
    | ok d₁ =>
      rw [Operation.attempt_cons_ok hop] at h ⊢
      exact ih h

theorem run_of_ingests {u : ChainUpdate} (h : Ingests e u e') :
    ∃ tr, Run Operates e.db tr e'.db := by
  obtain ⟨gap, h⟩ := h
  obtain ⟨hdb, hresult, -⟩ := ingestUpdate_attempt e u
  rw [h] at hdb hresult
  have hok : (Operation.attempt e.db (e.operations u)).2 = .ok () := by
    cases hattempt : (Operation.attempt e.db (e.operations u)).2 with
    | ok => rfl
    | error err =>
      rw [hattempt] at hresult
      cases hresult
  obtain ⟨tr, htr, -⟩ := Operation.run_of_carryOut (carryOut_of_attempt hok)
  rw [← hdb] at htr
  exact ⟨tr, htr⟩

theorem upward_of_ingests {tr : List (Transition Engine ChainUpdate)} (h : Run Ingests e tr e') :
    Upward e.db e'.db := by
  have hclimbs : Climbs e.db e'.db := by
    refine h.invariant (I := fun t => Climbs e.db t.db) (fun t u t' hd hu => ?_) (.refl _)
    obtain ⟨tr, htr⟩ := run_of_ingests hu
    exact hd.trans (climbs_of_run htr)
  exact hclimbs.upward

end Upwards

section Deliveries

/-- What is known of an update that went through before. -/
def Received (d : Db) : ChainUpdate → Prop
  | .slot update => update.parentSlot ≠ some update.slot ∧ update.slot.toNat < 2 ^ 63 ∧
      (∀ p, update.parentSlot = some p → p.toNat < 2 ^ 63) ∧
      ∃ row, d.indexerSlots.get update.slot = some row ∧
        (row.status = update.status ∧ Timely update ∧
            (update.status ≠ .dead → update.slot ≤ d.processedSlot) ∧
            (update.status = .finalized → update.slot ≤ d.finalizedSlot) ∨
          row.status.canUpgrade update.status = false ∧ update.status ≠ .dead ∧
            update.status ≠ .finalized)
  | .account ⟨raw, _⟩ => raw.slot.toNat < 2 ^ 63 ∧ raw.writeVersion.toNat < 2 ^ 63 ∧
      commitmentAt d raw.slot raw.commitment ≠ .dead
  | .events evs => ∀ ev ∈ evs, Deliverable d ev

theorem slotStatus_upward {slot : UInt64} (h : Upward d d')
    (hf : slotStatus d slot = some .finalized) : slotStatus d' slot = some .finalized := by
  obtain ⟨row, hrow, hstatus⟩ := Option.map_eq_some_iff.mp hf
  obtain ⟨row', hrow', hup⟩ := h.rows slot row hrow
  rw [slotStatus_of_get hrow']
  rw [hstatus] at hup
  cases hst : row'.status <;> simp_all [Commitment.canUpgrade]

theorem commitmentAt_upward {slot : UInt64} {c : Commitment} (h : Upward d d')
    (halive : commitmentAt d slot c ≠ .dead) : commitmentAt d' slot c ≠ .dead := by
  unfold commitmentAt at halive ⊢
  split
  · decide
  · rename_i hno
    rw [if_neg fun hyes => hno (hyes.imp_left (slotStatus_upward h))] at halive
    exact halive

theorem Received.upward {u : ChainUpdate} (hu : Received d u) (h : Upward d d') :
    Received d' u := by
  cases u with
  | account account => exact ⟨hu.1, hu.2.1, commitmentAt_upward h hu.2.2⟩
  | events evs =>
    intro ev hev
    obtain ⟨htime, hslot, halive, hsignature, hindex, hkind⟩ := hu ev hev
    exact ⟨htime, hslot, commitmentAt_upward h halive, hsignature, hindex, hkind⟩
  | slot update =>
    obtain ⟨hself, hslot, hparent, row, hrow, hstatus⟩ := hu
    obtain ⟨row', hrow', hup⟩ := h.rows update.slot row hrow
    refine ⟨hself, hslot, hparent, row', hrow', ?_⟩
    rcases hstatus with ⟨hst, htimely, hprocessed, hfinalized⟩ | ⟨hno, hd, hf⟩
    · by_cases hst' : row'.status = update.status
      · exact .inl ⟨hst', htimely, fun hd => UInt64.le_trans (hprocessed hd) h.processed,
          fun hf => UInt64.le_trans (hfinalized hf) h.finalized⟩
      · right
        rw [hst] at hup
        cases hu : update.status <;> cases hr : row'.status <;>
          simp_all [Commitment.canUpgrade]
    · refine .inr ⟨?_, hd, hf⟩
      by_contra hyes
      rw [Bool.not_eq_false] at hyes
      rw [Commitment.canUpgrade_trans hup hyes] at hno
      cases hno

/-- What a slot update does once the cursor has moved. -/
def Writes (d : Db) (update : SlotUpdate) (d' : Db) : Prop :=
  ∃ d₁, upsertSlot d update = .ok d₁ ∧
    (update.status ≠ .finalized ∧ d₁ = d' ∨
      update.status = .finalized ∧ ∃ n, finalizeSlot d₁ update.slot = .ok (d', n))

theorem ingests_slot_iff {e₁ : Engine} {gap : Option Gap}
    (htrack : trackSlot e update.slot = .ok (e₁, gap)) :
    Ingests e (.slot update) e' ↔ Writes e₁.db update e'.db ∧ e'.lastSlot = e₁.lastSlot := by
  have hperform : Operation.perform e₁.db (.upsertSlot update) = upsertSlot e₁.db update := rfl
  rw [Ingests, ingestUpdate, ingestSlot_of_trackSlot htrack, Writes]
  obtain ⟨db', lastSlot'⟩ := e'
  cases hup : upsertSlot e₁.db update with
  | error err =>
    rw [Operation.attempt_cons_error (hperform.trans hup)]
    simp [Except.map]
  | ok d₁ =>
    rw [Operation.attempt_cons_ok (hperform.trans hup)]
    by_cases hf : update.status = .finalized
    · rcases hfin : finalizeSlot d₁ update.slot with err | ⟨d₂, n⟩
      · simp [finalizeWhen, hf, hfin, Operation.attempt, Operation.perform, Except.map]
      · simp [finalizeWhen, hf, hfin, Operation.attempt, Operation.perform, Except.map, eq_comm]
    · simp [finalizeWhen, hf, Operation.attempt, Except.map, eq_comm]

theorem Accepts.upgrades_dead (h : Accepts d update) (hd : update.status = .dead) :
    Upgrades d update := by
  intro row hrow
  obtain ⟨-, hfinalized, -⟩ := h.reconciled row hrow
  rw [hd] at hfinalized ⊢
  cases hst : row.status <;> simp_all [Commitment.canUpgrade]

theorem received_of_writes (h : Writes d update d') : Received d' (.slot update) := by
  obtain ⟨d₁, hupsert, hsettle⟩ := h
  obtain ⟨haccepts, ⟨hup, hwrite⟩ | ⟨hno, rfl⟩⟩ := upsertSlot_eq_ok.mp hupsert
  · have hslots := indexerSlots_of_writeSlot hwrite
    obtain ⟨row, hrow, hstatus⟩ := get_recordSlot d.indexerSlots update
    rw [← hslots] at hrow
    obtain ⟨htimely, hwritten⟩ := writeSlot_eq_ok.mp hwrite
    have hprocessed : update.status ≠ .dead → update.slot ≤ d₁.processedSlot := by
      intro hd
      obtain ⟨hd', -⟩ | ⟨-, rfl⟩ := hwritten
      · exact absurd hd' hd
      · exact u64_le_max_right _ _
    refine ⟨haccepts.not_self, haccepts.slot_fits, haccepts.parent_fits, ?_⟩
    rcases hsettle with ⟨hf, rfl⟩ | ⟨hf, n, hfinalize⟩
    · exact ⟨row, hrow, .inl ⟨hstatus, htimely, hprocessed, fun hf' => absurd hf' hf⟩⟩
    · have hupward := upward_finalizeSlot hfinalize
      obtain ⟨row', hrow', hup'⟩ := hupward.rows update.slot row hrow
      have hstatus' : row'.status = update.status := by
        rw [hstatus, hf] at hup'
        rw [hf]
        cases hst : row'.status <;> simp_all [Commitment.canUpgrade]
      have hcheckpoint : update.slot ≤ d'.finalizedSlot := by
        obtain ⟨-, -, -, rfl, -⟩ := finalizeSlot_eq_ok.mp hfinalize
        exact u64_le_max_right _ _
      exact ⟨row', hrow', .inl ⟨hstatus', htimely,
        fun hd => UInt64.le_trans (hprocessed hd) hupward.processed, fun _ => hcheckpoint⟩⟩
  · have hf : update.status ≠ .finalized := fun hf => hno (haccepts.upgrades hf)
    have hd : update.status ≠ .dead := fun hd => hno (haccepts.upgrades_dead hd)
    refine ⟨haccepts.not_self, haccepts.slot_fits, haccepts.parent_fits, ?_⟩
    obtain ⟨-, rfl⟩ := hsettle.resolve_right fun h => hf h.1
    unfold Upgrades at hno
    push Not at hno
    obtain ⟨row, hrow, hcan⟩ := hno
    exact ⟨row, hrow, .inr ⟨Bool.eq_false_of_not_eq_true hcan, hd, hf⟩⟩

theorem Deliverable.congr {ev : RawProtocolEvent} (h : Deliverable d ev)
    (hslots : d'.indexerSlots = d.indexerSlots) : Deliverable d' ev := by
  obtain ⟨htime, hslot, halive, hsignature, hindex, hkind⟩ := h
  refine ⟨htime, hslot, ?_, hsignature, hindex, hkind⟩
  rw [commitmentAt, slotStatus, hslots]
  exact halive

theorem ingestEvents_eq_ok {evs : List RawProtocolEvent} {gap : Option Gap}
    (h : ingestEvents e evs = (e', .ok gap)) :
    e'.db.indexerSlots = e.db.indexerSlots ∧ ∀ ev ∈ evs, Deliverable e.db ev := by
  induction evs generalizing e with
  | nil =>
    cases h
    exact ⟨rfl, by simp⟩
  | cons ev evs ih =>
    rw [ingestEvents] at h
    split at h
    · cases h
    · rename_i db fresh hev
      have hslots := indexerSlots_of_insertEvent hev
      obtain ⟨hslots', hevs⟩ := ih h
      refine ⟨hslots'.trans hslots, List.forall_mem_cons.mpr ⟨(insertEvent_eq_ok.mp hev).1, ?_⟩⟩
      exact fun ev' hev' => (hevs ev' hev').congr hslots.symm

theorem received_of_ingests {u : ChainUpdate} (h : Ingests e u e') : Received e'.db u := by
  cases u with
  | slot update =>
    rcases htrack : trackSlot e update.slot with err | ⟨e₁, gap⟩
    · obtain ⟨gap, h⟩ := h
      rw [ingestUpdate, ingestSlot, htrack] at h
      cases h
    · exact received_of_writes ((ingests_slot_iff htrack).mp h).1
  | account account =>
    obtain ⟨raw, projection⟩ := account
    obtain ⟨gap, h⟩ := h
    rw [ingestUpdate, ingestAccount] at h
    split at h
    · cases h
    · rename_i db fresh hinsert
      cases h
      have hup := upward_of_operates
        (show Operates e.db (.insertAccount raw projection) db from
          map_fst_eq_ok.mpr ⟨fresh, hinsert⟩)
      obtain ⟨hslot, hversion, halive, -⟩ := insertAccount_eq_ok.mp hinsert
      exact ⟨hslot, hversion, commitmentAt_upward hup halive⟩
  | events evs =>
    obtain ⟨gap, h⟩ := h
    obtain ⟨hslots, hevs⟩ := ingestEvents_eq_ok h
    exact fun ev hev => (hevs ev hev).congr hslots

end Deliveries

section Tables

/-- The rows have the same parents and statuses. -/
def SameButTimes (slots slots' : Table UInt64 SlotRow) : Prop :=
  ∀ s, (slots'.get s).map (fun r => (r.parentSlot, r.status)) =
    (slots.get s).map fun r => (r.parentSlot, r.status)

/-- The tables are as before, but for the block times. -/
structure Undisturbed (d d' : Db) : Prop where
  slots : SameButTimes d.indexerSlots d'.indexerSlots
  versions : ∀ k, d'.rawAccountVersions.get k = d.rawAccountVersions.get k
  events : ∀ k, d'.rawProtocolEvents.get k = d.rawProtocolEvents.get k
  staged : ∀ k, d'.stagedAccountProjections.get k = d.stagedAccountProjections.get k
  cells : ∀ a kind, cell d' a kind = cell d a kind
  finalized : d'.finalizedSlot = d.finalizedSlot
  processed : d'.processedSlot = d.processedSlot

/-- Nothing that is stored for the slot is staged or not finalized. -/
structure NothingOpen (d : Db) (slot : UInt64) : Prop where
  versions : ∀ k r, d.rawAccountVersions.get k = some r → k.slot = slot → r.commitment = .finalized
  events : ∀ k r, d.rawProtocolEvents.get k = some r → r.slot = slot → r.commitment = .finalized
  staged : ∀ k r, d.stagedAccountProjections.get k = some r → k.slot ≠ slot

/-- The update finds what it left: its parent, or none where the slot went on without one to a
status that is not finalized; nothing to clean up or to finalize; its version; its events. -/
def Redeliverable (d : Db) : ChainUpdate → Prop
  | .slot update => (∃ row, d.indexerSlots.get update.slot = some row ∧
        (row.parentSlot = update.parentSlot ∨
          row.parentSlot = none ∧ row.status ≠ .finalized ∧ row.status ≠ update.status)) ∧
      (update.status = .dead ∨ update.status = .finalized → NothingOpen d update.slot)
  | .account account => ∃ row, d.rawAccountVersions.get account.raw.key = some row
  | .events evs => ∀ ev ∈ evs, ∃ row, d.rawProtocolEvents.get ev.key = some row

theorem Undisturbed.refl (d : Db) : Undisturbed d d :=
  ⟨fun _ => rfl, fun _ => rfl, fun _ => rfl, fun _ => rfl, fun _ _ => rfl, rfl, rfl⟩

theorem undisturbed_gaps {gaps : Table Gap GapStatus} :
    Undisturbed { d with ingestionGaps := gaps } d' ↔ Undisturbed d d' := by
  have hcell : ∀ a kind, cell { d with ingestionGaps := gaps } a kind = cell d a kind :=
    fun a kind => by cases kind <;> rfl
  constructor
  · rintro ⟨h₁, h₂, h₃, h₄, h₅, h₆, h₇⟩
    exact ⟨h₁, h₂, h₃, h₄, fun a kind => (h₅ a kind).trans (hcell a kind), h₆, h₇⟩
  · rintro ⟨h₁, h₂, h₃, h₄, h₅, h₆, h₇⟩
    exact ⟨h₁, h₂, h₃, h₄, fun a kind => (h₅ a kind).trans (hcell a kind).symm, h₆, h₇⟩

section Slots

variable {row : SlotRow}

theorem reconcileParent_eq_ok {stored incoming : Option UInt64} {current : Commitment} {u : Unit} :
    reconcileParent stored incoming current = .ok u ↔
      stored = incoming ∨ stored = none ∧ current ≠ .finalized := by
  cases stored <;> cases incoming <;> simp [reconcileParent]

theorem recordSlot_again (hrow : d.indexerSlots.get update.slot = some row)
    (hstatus : row.status = update.status) :
    SameButTimes d.indexerSlots (recordSlot d.indexerSlots update) ↔
      (row.parentSlot <|> update.parentSlot) = row.parentSlot := by
  have hself : (recordSlot d.indexerSlots update).get update.slot =
      some { parentSlot := row.parentSlot <|> update.parentSlot, status := update.status,
             blockTime := update.time <|> row.blockTime } := by
    rw [recordSlot, hrow]
    exact Table.get_put_self
  constructor
  · intro h
    have hslot := h update.slot
    rw [hself, hrow] at hslot
    simp only [Option.map_some, Option.some.injEq, Prod.mk.injEq] at hslot
    exact hslot.1
  · intro h s
    by_cases hs : s = update.slot
    · subst hs
      rw [hself, hrow, Option.map_some, Option.map_some, h, hstatus]
    · rw [get_recordSlot_of_ne hs]

theorem orElse_eq_left {stored incoming : Option UInt64} {current : Commitment}
    (h : stored = incoming ∨ stored = none ∧ current ≠ .finalized) :
    (stored <|> incoming) = stored ↔ stored = incoming := by
  cases stored with
  | none =>
    change incoming = none ↔ none = incoming
    exact eq_comm
  | some a =>
    obtain rfl | ⟨h, -⟩ := h
    · exact iff_of_true rfl rfl
    · cases h

variable {slots : Table UInt64 SlotRow} {slot : UInt64}

/-- A cleanup leaves everything as it is exactly when nothing of the slot is open. -/
theorem undisturbed_cleanup :
    Undisturbed d (cleanupDeadSlot { d with indexerSlots := slots } slot) ↔
      SameButTimes d.indexerSlots slots ∧ NothingOpen d slot := by
  constructor
  · rintro ⟨hslots, hversions, hevents, hstaged, -, -, -⟩
    refine ⟨hslots, fun k r hr hk => ?_, fun k r hr hk => ?_, fun k r hr => ?_⟩
    · simpa [hk] using Table.get_deleteWhere_eq_iff.mp hversions k r hr
    · simpa [hk] using Table.get_deleteWhere_eq_iff.mp hevents k r hr
    · simpa using Table.get_deleteWhere_eq_iff.mp hstaged k r hr
  · rintro ⟨hslots, hversions, hevents, hstaged⟩
    refine ⟨hslots, ?_, ?_, ?_, fun a kind => by cases kind <;> rfl, rfl, rfl⟩
    · exact Table.get_deleteWhere_eq_iff.mpr fun k r hr => by simpa using hversions k r hr
    · exact Table.get_deleteWhere_eq_iff.mpr fun k r hr => by simpa using hevents k r hr
    · exact Table.get_deleteWhere_eq_iff.mpr fun k r hr => by simpa using hstaged k r hr

theorem stagedProjections_of_nothingOpen (h : NothingOpen d slot) :
    stagedProjections d slot = [] := by
  rw [List.eq_nil_iff_forall_not_mem]
  intro p hp
  obtain ⟨hslot, hget⟩ := mem_stagedProjections.mp hp
  exact h.staged p.key _ hget hslot

theorem undisturbed_finalize (hfits : slot.toNat < 2 ^ 63)
    (hrow : slots.get slot = some row) (hstatus : row.status = .finalized)
    (hfinalized : slot ≤ d.finalizedSlot) (hprocessed : slot ≤ d.processedSlot) :
    (∃ d' n, finalizeSlot { d with indexerSlots := slots } slot = .ok (d', n) ∧
      Undisturbed d d') ↔
      SameButTimes d.indexerSlots slots ∧ NothingOpen d slot := by
  have hsame : ∀ {d' n}, finalizeSlot { d with indexerSlots := slots } slot = .ok (d', n) →
      ∀ s, d'.indexerSlots.get s = slots.get s := fun h =>
    get_of_finalizeSlot h ((slotStatus_of_get hrow).trans (by rw [hstatus]))
  constructor
  · rintro ⟨d', n, h, hslots, hversions, hevents, hstaged, -, -, -⟩
    refine ⟨fun s => by rw [← hslots s, hsame h], ?_⟩
    obtain ⟨-, -, -, rfl, -⟩ := finalizeSlot_eq_ok.mp h
    obtain ⟨-, hv, he, hs⟩ := untouched_projectAll
      (d := markFinalized { d with indexerSlots := slots } slot)
      (stagedProjections { d with indexerSlots := slots } slot)
    simp only [advanceCheckpoint, hv, he, hs] at hversions hevents hstaged
    refine ⟨fun k r hr hk => ?_, fun k r hr hk => ?_, fun k r hr => ?_⟩
    · have hr' := Table.get_updateWhere_eq_iff.mp hversions k r hr (by simpa using hk)
      rw [← hr']
    · have hr' := Table.get_updateWhere_eq_iff.mp hevents k r hr (by simpa using hk)
      rw [← hr']
    · simpa using Table.get_deleteWhere_eq_iff.mp hstaged k r hr
  · rintro ⟨hslots, hopen⟩
    have hnone : stagedProjections { d with indexerSlots := slots } slot = [] :=
      stagedProjections_of_nothingOpen ⟨hopen.versions, hopen.events, hopen.staged⟩
    refine ⟨_, _, finalizeSlot_eq_ok.mpr ⟨hfits, ⟨row, hrow, ?_, fun h => absurd hstatus h⟩, ?_,
      rfl, rfl⟩, ?_⟩
    · rw [hstatus]
      decide
    · rw [hnone]
      simp
    · rw [hnone]
      refine ⟨fun s => ?_, ?_, ?_, ?_, fun a kind => by cases kind <;> rfl,
        u64_max_of_ge hfinalized, u64_max_of_ge hprocessed⟩
      · rw [← hslots s]
        change ((slots.updateWhere _ _).get s).map _ = _
        rw [Table.get_updateWhere]
        cases hs : slots.get s with
        | none => rfl
        | some r =>
          by_cases heq : s = slot
          · subst heq
            obtain rfl := Option.some.inj (hrow.symm.trans hs)
            simp [hstatus]
          · simp [heq]
      · exact Table.get_updateWhere_eq_iff.mpr fun k r hr hk => by
          rw [← hopen.versions k r hr (by simpa using hk)]
      · exact Table.get_updateWhere_eq_iff.mpr fun k r hr hk => by
          rw [← hopen.events k r hr (by simpa using hk)]
      · exact Table.get_deleteWhere_eq_iff.mpr fun k r hr => by simpa using hopen.staged k r hr

/-- The update is checked against the parent that is stored by now. -/
theorem accepts_again (h : Received d (.slot update))
    (hrow : d.indexerSlots.get update.slot = some row) :
    Accepts d update ↔
      row.parentSlot = update.parentSlot ∨ row.parentSlot = none ∧ row.status ≠ .finalized := by
  obtain ⟨hself, hslot, hparent, row', hrow', hreceived⟩ := h
  obtain rfl := Option.some.inj (hrow.symm.trans hrow')
  constructor
  · intro haccepts
    exact reconcileParent_eq_ok.mp (haccepts.reconciled row hrow).1
  · intro hparents
    refine ⟨hself, hslot, hparent, fun row' hrow' => ?_⟩
    obtain rfl := Option.some.inj (hrow.symm.trans hrow')
    refine ⟨reconcileParent_eq_ok.mpr hparents, ?_, ?_⟩
    · rintro ⟨hst, hd⟩
      rcases hreceived with ⟨hst', -⟩ | ⟨-, hd', -⟩
      · rw [hst, hd] at hst'
        cases hst'
      · exact hd' hd
    · rintro ⟨hst, hf⟩
      rcases hreceived with ⟨hst', -⟩ | ⟨-, -, hf'⟩
      · rw [hst, hf] at hst'
        cases hst'
      · exact hf' hf

theorem writes_again_of_past (h : Received d (.slot update))
    (hrow : d.indexerSlots.get update.slot = some row)
    (hno : row.status.canUpgrade update.status = false) (hf : update.status ≠ .finalized) :
    (∃ d', Writes d update d' ∧ Undisturbed d d') ↔
      row.parentSlot = update.parentSlot ∨ row.parentSlot = none ∧ row.status ≠ .finalized := by
  have hup : ¬ Upgrades d update := fun hup => by
    rw [hup row hrow] at hno
    cases hno
  rw [← accepts_again h hrow]
  constructor
  · rintro ⟨d', ⟨d₁, hupsert, -⟩, -⟩
    exact (upsertSlot_eq_ok.mp hupsert).1
  · intro haccepts
    exact ⟨d, ⟨d, upsertSlot_eq_ok.mpr ⟨haccepts, .inr ⟨hup, rfl⟩⟩, .inl ⟨hf, rfl⟩⟩, .refl d⟩

theorem upsertSlot_again (h : Received d (.slot update))
    (hrow : d.indexerSlots.get update.slot = some row) (hst : row.status = update.status)
    {d₁ : Db} :
    upsertSlot d update = .ok d₁ ↔ Accepts d update ∧
      (update.status = .dead ∧ cleanupDeadSlot
          { d with indexerSlots := recordSlot d.indexerSlots update } update.slot = d₁ ∨
        update.status ≠ .dead ∧
          { d with indexerSlots := recordSlot d.indexerSlots update } = d₁) := by
  obtain ⟨-, -, -, row', hrow', hreceived⟩ := h
  obtain rfl := Option.some.inj (hrow.symm.trans hrow')
  obtain ⟨-, htimely, hprocessed, -⟩ := hreceived.resolve_right fun hno => by
    rw [hst, Commitment.canUpgrade_refl] at hno
    cases hno.1
  have hup : Upgrades d update := fun row' hrow' => by
    rw [← Option.some.inj (hrow.symm.trans hrow'), hst]
    exact Commitment.canUpgrade_refl _
  rw [upsertSlot_eq_ok, writeSlot_eq_ok]
  refine and_congr_right fun _ => ?_
  constructor
  · rintro (⟨-, -, hd | ⟨hd, hwrite⟩⟩ | ⟨hno, -⟩)
    · exact .inl hd
    · rw [u64_max_of_ge (hprocessed hd)] at hwrite
      exact .inr ⟨hd, hwrite⟩
    · exact absurd hup hno
  · rintro (hd | ⟨hd, hwrite⟩)
    · exact .inl ⟨hup, htimely, .inl hd⟩
    · rw [← u64_max_of_ge (hprocessed hd)] at hwrite
      exact .inl ⟨hup, htimely, .inr ⟨hd, hwrite⟩⟩

/-- The row that is written again is the stored one exactly where the parents agree. -/
theorem sameButTimes_again (h : Received d (.slot update))
    (hrow : d.indexerSlots.get update.slot = some row) (hst : row.status = update.status)
    (haccepts : Accepts d update) :
    SameButTimes d.indexerSlots (recordSlot d.indexerSlots update) ↔
      row.parentSlot = update.parentSlot := by
  rw [recordSlot_again hrow hst, orElse_eq_left ((accepts_again h hrow).mp haccepts)]

theorem writes_again_of_dead (h : Received d (.slot update))
    (hrow : d.indexerSlots.get update.slot = some row) (hst : row.status = update.status)
    (hd : update.status = .dead) : (∃ d', Writes d update d' ∧ Undisturbed d d') ↔
      row.parentSlot = update.parentSlot ∧ NothingOpen d update.slot := by
  have hf : update.status ≠ .finalized := by simp [hd]
  constructor
  · rintro ⟨d', ⟨d₁, hupsert, hsettle⟩, hsame⟩
    obtain ⟨haccepts, ⟨-, rfl⟩ | ⟨hd', -⟩⟩ := (upsertSlot_again h hrow hst).mp hupsert
    · obtain ⟨-, rfl⟩ := hsettle.resolve_right fun h => hf h.1
      obtain ⟨hslots, hopen⟩ := undisturbed_cleanup.mp hsame
      exact ⟨(sameButTimes_again h hrow hst haccepts).mp hslots, hopen⟩
    · exact absurd hd hd'
  · rintro ⟨hparent, hopen⟩
    have haccepts := (accepts_again h hrow).mpr (.inl hparent)
    have hslots := (sameButTimes_again h hrow hst haccepts).mpr hparent
    exact ⟨_, ⟨_, (upsertSlot_again h hrow hst).mpr ⟨haccepts, .inl ⟨hd, rfl⟩⟩, .inl ⟨hf, rfl⟩⟩,
      undisturbed_cleanup.mpr ⟨hslots, hopen⟩⟩

theorem writes_again_of_finalized (h : Received d (.slot update))
    (hrow : d.indexerSlots.get update.slot = some row) (hst : row.status = update.status)
    (hf : update.status = .finalized) : (∃ d', Writes d update d' ∧ Undisturbed d d') ↔
      row.parentSlot = update.parentSlot ∧ NothingOpen d update.slot := by
  have hd : update.status ≠ .dead := by simp [hf]
  obtain ⟨row', hrow', hstatus'⟩ := get_recordSlot d.indexerSlots update
  obtain ⟨-, hslot, -, row'', -, hreceived⟩ := id h
  obtain ⟨-, -, hprocessed, hfinalized⟩ := hreceived.resolve_right fun hno => hno.2.2 hf
  have hiff := undisturbed_finalize (d := d) hslot hrow' (hstatus'.trans hf) (hfinalized hf)
    (hprocessed hd)
  constructor
  · rintro ⟨d', ⟨d₁, hupsert, hsettle⟩, hsame⟩
    obtain ⟨haccepts, ⟨hd', -⟩ | ⟨-, rfl⟩⟩ := (upsertSlot_again h hrow hst).mp hupsert
    · exact absurd hd' hd
    · obtain ⟨-, n, hfinalize⟩ := hsettle.resolve_left fun h => h.1 hf
      obtain ⟨hslots, hopen⟩ := hiff.mp ⟨d', n, hfinalize, hsame⟩
      exact ⟨(sameButTimes_again h hrow hst haccepts).mp hslots, hopen⟩
  · rintro ⟨hparent, hopen⟩
    have haccepts := (accepts_again h hrow).mpr (.inl hparent)
    have hslots := (sameButTimes_again h hrow hst haccepts).mpr hparent
    obtain ⟨d', n, hfinalize, hsame⟩ := hiff.mpr ⟨hslots, hopen⟩
    exact ⟨d', ⟨_, (upsertSlot_again h hrow hst).mpr ⟨haccepts, .inr ⟨hd, rfl⟩⟩,
      .inr ⟨hf, n, hfinalize⟩⟩, hsame⟩

theorem writes_again_of_open (h : Received d (.slot update))
    (hrow : d.indexerSlots.get update.slot = some row) (hst : row.status = update.status)
    (hd : update.status ≠ .dead) (hf : update.status ≠ .finalized) :
    (∃ d', Writes d update d' ∧ Undisturbed d d') ↔ row.parentSlot = update.parentSlot := by
  constructor
  · rintro ⟨d', ⟨d₁, hupsert, hsettle⟩, hsame⟩
    obtain ⟨haccepts, ⟨hd', -⟩ | ⟨-, rfl⟩⟩ := (upsertSlot_again h hrow hst).mp hupsert
    · exact absurd hd' hd
    · obtain ⟨-, rfl⟩ := hsettle.resolve_right fun h => hf h.1
      exact (sameButTimes_again h hrow hst haccepts).mp hsame.slots
  · intro hparent
    have haccepts := (accepts_again h hrow).mpr (.inl hparent)
    have hslots := (sameButTimes_again h hrow hst haccepts).mpr hparent
    refine ⟨_, ⟨_, (upsertSlot_again h hrow hst).mpr ⟨haccepts, .inr ⟨hd, rfl⟩⟩, .inl ⟨hf, rfl⟩⟩,
      hslots, fun _ => rfl, fun _ => rfl, fun _ => rfl, fun a kind => ?_, rfl, rfl⟩
    cases kind <;> rfl

theorem writes_again_iff (h : Received d (.slot update)) :
    (∃ d', Writes d update d' ∧ Undisturbed d d') ↔ Redeliverable d (.slot update) := by
  obtain ⟨-, -, -, row, hrow, hreceived⟩ := id h
  have hrow_iff : ∀ P : SlotRow → Prop,
      (∃ row', d.indexerSlots.get update.slot = some row' ∧ P row') ↔ P row := fun P => by
    rw [hrow]
    simp
  rw [Redeliverable, hrow_iff]
  rcases hreceived with ⟨hst, -⟩ | ⟨hno, hd, hf⟩
  · by_cases hd : update.status = .dead
    · rw [writes_again_of_dead h hrow hst hd]
      simp [hst, hd]
    · by_cases hf : update.status = .finalized
      · rw [writes_again_of_finalized h hrow hst hf]
        simp [hst, hf]
      · rw [writes_again_of_open h hrow hst hd hf]
        simp [hst, hd, hf]
  · have hne : row.status ≠ update.status := fun heq => by
      rw [heq, Commitment.canUpgrade_refl] at hno
      cases hno
    rw [writes_again_of_past h hrow hno hf]
    simp [hne, hd, hf]

end Slots

section Updates

variable {u : ChainUpdate}

theorem version_of_insertAccount {raw : RawAccountVersion} {projection : Option DecodedProjection}
    {fresh : Bool} (h : insertAccountWithProjection d raw projection = .ok (d', fresh)) :
    ∃ row, d'.rawAccountVersions.get raw.key = some row := by
  obtain ⟨-, -, -, ⟨hrow, rfl, -⟩ | ⟨-, -, ⟨p, -, hstore⟩ | ⟨-, rfl⟩⟩⟩ := insertAccount_eq_ok.mp h
  · exact hrow
  · obtain ⟨-, -, ⟨-, -, rfl⟩ | ⟨-, rfl⟩⟩ := storeProjection_eq_ok.mp hstore
    · rw [publish, (untouched_project _ _ _).rawAccountVersions]
      exact ⟨_, Table.get_put_self⟩
    · exact ⟨_, Table.get_put_self⟩
  · exact ⟨_, Table.get_put_self⟩

theorem ingestAccount_again {account : AccountUpdate} (h : Received e.db (.account account)) :
    (∃ e', Ingests e (.account account) e' ∧ Undisturbed e.db e'.db) ↔
      Redeliverable e.db (.account account) := by
  obtain ⟨raw, projection⟩ := account
  constructor
  · rintro ⟨e', ⟨gap, hingest⟩, hsame⟩
    rw [ingestUpdate, ingestAccount] at hingest
    split at hingest
    · cases hingest
    · rename_i db fresh hinsert
      cases hingest
      obtain ⟨row, hrow⟩ := version_of_insertAccount hinsert
      rw [hsame.versions] at hrow
      exact ⟨row, hrow⟩
  · intro hrow
    have hinsert : insertAccountWithProjection e.db raw projection = .ok (e.db, false) :=
      insertAccount_eq_ok.mpr ⟨h.1, h.2.1, h.2.2, .inl ⟨hrow, rfl, rfl⟩⟩
    refine ⟨e, ⟨none, ?_⟩, .refl _⟩
    rw [ingestUpdate, ingestAccount, hinsert]

theorem events_of_ingestEvents {evs : List RawProtocolEvent} {gap : Option Gap}
    (h : ingestEvents e evs = (e', .ok gap)) :
    (∀ k row, e.db.rawProtocolEvents.get k = some row →
      ∃ row', e'.db.rawProtocolEvents.get k = some row') ∧
      ∀ ev ∈ evs, ∃ row, e'.db.rawProtocolEvents.get ev.key = some row := by
  induction evs generalizing e with
  | nil =>
    cases h
    exact ⟨fun k row hrow => ⟨row, hrow⟩, by simp⟩
  | cons ev evs ih =>
    rw [ingestEvents] at h
    split at h
    · cases h
    · rename_i db fresh hev
      obtain ⟨hkept, hevs⟩ := ih h
      obtain ⟨-, ⟨⟨row, hrow⟩, rfl, -⟩ | ⟨-, rfl, -⟩⟩ := insertEvent_eq_ok.mp hev
      · exact ⟨hkept, List.forall_mem_cons.mpr ⟨hkept _ _ hrow, hevs⟩⟩
      · refine ⟨fun k row hrow => ?_, List.forall_mem_cons.mpr ⟨hkept _ _ Table.get_put_self, hevs⟩⟩
        by_cases hk : k = ev.key
        · rw [hk]
          exact hkept _ _ Table.get_put_self
        · exact hkept k row ((Table.get_put_of_ne hk).trans hrow)

theorem ingestEvents_of_present {evs : List RawProtocolEvent} (h : ∀ ev ∈ evs, Deliverable e.db ev)
    (hrows : ∀ ev ∈ evs, ∃ row, e.db.rawProtocolEvents.get ev.key = some row) :
    ingestEvents e evs = (e, .ok none) := by
  induction evs with
  | nil => rfl
  | cons ev evs ih =>
    rw [List.forall_mem_cons] at h hrows
    have hinsert : insertEvent e.db ev = .ok (e.db, false) :=
      insertEvent_eq_ok.mpr ⟨h.1, .inl ⟨hrows.1, rfl, rfl⟩⟩
    rw [ingestEvents, hinsert]
    exact ih h.2 hrows.2

theorem ingestEvents_again {evs : List RawProtocolEvent} (h : Received e.db (.events evs)) :
    (∃ e', Ingests e (.events evs) e' ∧ Undisturbed e.db e'.db) ↔
      Redeliverable e.db (.events evs) := by
  constructor
  · rintro ⟨e', ⟨gap, hingest⟩, hsame⟩ ev hev
    obtain ⟨row, hrow⟩ := (events_of_ingestEvents hingest).2 ev hev
    rw [hsame.events] at hrow
    exact ⟨row, hrow⟩
  · intro hrows
    exact ⟨e, ⟨none, ingestEvents_of_present h hrows⟩, .refl _⟩

theorem ingestSlot_again (h : Received e.db (.slot update)) :
    (∃ e', Ingests e (.slot update) e' ∧ Undisturbed e.db e'.db) ↔
      Redeliverable e.db (.slot update) := by
  obtain ⟨⟨e₁, gap⟩, htrack⟩ := trackSlot_succeeds e h.2.1
  have hdb := db_of_trackSlot htrack
  generalize e₁.db.ingestionGaps = gaps at hdb
  have hwrites : (∃ d', Writes e₁.db update d' ∧ Undisturbed e₁.db d') ↔
      Redeliverable e₁.db (.slot update) := by
    apply writes_again_iff
    rw [hdb]
    exact h
  have hiff : Redeliverable e₁.db (.slot update) ↔ Redeliverable e.db (.slot update) := by
    rw [hdb]
    exact ⟨fun ⟨h₁, h₂⟩ => ⟨h₁, fun hs => ⟨(h₂ hs).versions, (h₂ hs).events, (h₂ hs).staged⟩⟩,
      fun ⟨h₁, h₂⟩ => ⟨h₁, fun hs => ⟨(h₂ hs).versions, (h₂ hs).events, (h₂ hs).staged⟩⟩⟩
  rw [← hiff, ← hwrites]
  have hsame : ∀ d', Undisturbed e₁.db d' ↔ Undisturbed e.db d' := fun d' => by
    rw [hdb]
    exact undisturbed_gaps
  constructor
  · rintro ⟨e', hingests, hundisturbed⟩
    exact ⟨e'.db, ((ingests_slot_iff htrack).mp hingests).1, (hsame _).mpr hundisturbed⟩
  · rintro ⟨d', hwrite, hundisturbed⟩
    exact ⟨{ e₁ with db := d' }, (ingests_slot_iff htrack).mpr ⟨hwrite, rfl⟩,
      (hsame d').mp hundisturbed⟩

/-- An update of the run that is delivered again goes through and leaves the tables as they are
exactly when it is redeliverable by then. -/
theorem redelivery_iff {tr : List (Transition Engine ChainUpdate)}
    {x : Transition Engine ChainUpdate} (hrun : Run Ingests e tr e') (hx : x ∈ tr) :
    (∃ again, Ingests e' x.label again ∧ Undisturbed e'.db again.db) ↔
      Redeliverable e'.db x.label := by
  have hreceived : Received e'.db x.label := by
    obtain ⟨tr₁, tr₂, rfl⟩ := List.append_of_mem hx
    obtain ⟨-, hingests, hlater⟩ := hrun.split
    exact (received_of_ingests hingests).upward (upward_of_ingests hlater)
  cases hu : x.label <;> rw [hu] at hreceived
  · exact ingestSlot_again hreceived
  · exact ingestAccount_again hreceived
  · exact ingestEvents_again hreceived

end Updates

end Tables

namespace Reconnect

open Fork

/-- A provider is registered in slot 5, which is finalized. -/
def registered : List ChainUpdate :=
  [slotUpdate 5 none .processed, version 5 1 activeRow, slotUpdate 5 none .finalized]

theorem registration_again : ∃ again,
    Ingests (arrive start registered) (version 5 1 activeRow) again ∧
      Undisturbed (arrive start registered).db again.db := by
  have hrun : Run Ingests start (follow start registered) (arrive start registered) :=
    run_of_goesThrough (by decide +kernel)
  have hx : (⟨arrive start [slotUpdate 5 none .processed], version 5 1 activeRow,
      arrive start [slotUpdate 5 none .processed, version 5 1 activeRow]⟩ :
      Transition Engine ChainUpdate) ∈ follow start registered :=
    List.mem_cons_of_mem _ List.mem_cons_self
  refine (redelivery_iff hrun hx).mpr (Option.isSome_iff_exists.mp ?_)
  decide +kernel

/-- The parent of slot 6 is learned with its second delivery. -/
def learned : List ChainUpdate :=
  [slotUpdate 6 none .processed, slotUpdate 6 (some 5) .confirmed]

theorem parent_learned_later : ¬ ∀ (tr : List (Transition Engine ChainUpdate)) (e' : Engine)
    (x : Transition Engine ChainUpdate), Run Ingests start tr e' → x ∈ tr →
      ∃ again, Ingests e' x.label again ∧ Undisturbed e'.db again.db := by
  intro h
  have hrun : Run Ingests start (follow start learned) (arrive start learned) :=
    run_of_goesThrough (by decide +kernel)
  obtain ⟨again, ⟨gap, hingests⟩, -⟩ := h _ _ _ hrun List.mem_cons_self
  have hfails :
      (ingestUpdate (arrive start learned) (slotUpdate 6 none .processed)).2.isOk = false := by
    decide +kernel
  rw [hingests] at hfails
  cases hfails

end Reconnect

end AgentBond.Indexer
