import AgentBond.Indexer.Ancestry

/-! # Events across forks

A row of an event stays while its slot is not dead, so an event of a finalized
slot is there exactly when one of its deliveries for that slot did not meet the
row of another slot.
-/

namespace AgentBond.Indexer

open Foundation

/-- Slot updates and events, one at a time. -/
inductive Feed
  | slot (update : SlotUpdate)
  | event (ev : RawProtocolEvent)

def Feed.update : Feed → ChainUpdate
  | slot update => .slot update
  | event ev => .events [ev]

def FeedStep (e : Engine) (feed : Feed) (e' : Engine) : Prop := IngestStep e feed.update e'

variable {e e' : Engine} {d d' : Db} {update : SlotUpdate} {slot a : UInt64} {k : EventKey}
  {ev : RawProtocolEvent}

/-- A batch of events is a run of single ones. -/
theorem exists_run_of_ingestEvents (e : Engine) (evs : List RawProtocolEvent) :
    ∃ tr, Run FeedStep e tr (ingestEvents e evs).1 := by
  induction evs generalizing e with
  | nil => exact ⟨[], rfl⟩
  | cons ev evs ih =>
    rw [ingestEvents]
    split
    · exact ⟨[], rfl⟩
    · rename_i db fresh hev
      obtain ⟨tr, htr⟩ := ih { e with db }
      refine ⟨⟨e, .event ev, { e with db }⟩ :: tr, rfl, ?_, htr⟩
      change (ingestEvents e [ev]).1 = _
      rw [ingestEvents, hev]
      rfl

/-! ## Slot updates -/

/-- Nothing is staged. -/
def NothingStaged (d : Db) : Prop := d.stagedAccountProjections.rows = []

/-- What a slot update that goes through leaves of the events. -/
def settleEvents (events : Table EventKey EventRow) (update : SlotUpdate) :
    Table EventKey EventRow :=
  match update.status with
  | .dead => events.deleteWhere fun _ r => r.slot = update.slot ∧ r.commitment ≠ .finalized
  | .finalized => events.updateWhere (fun _ r => r.slot = update.slot) fun r =>
      { r with commitment := .finalized }
  | _ => events

/-- The slots and the events are as before. -/
structure SameEvents (d d' : Db) : Prop where
  slots : ∀ k, d'.indexerSlots.get k = d.indexerSlots.get k
  events : d'.rawProtocolEvents = d.rawProtocolEvents

/-- The update is written, and the events follow it. -/
structure Settles (d : Db) (update : SlotUpdate) (d' : Db) : Prop where
  upgrades : Upgrades d update
  slots : ∀ k, d'.indexerSlots.get k = (recordSlot d.indexerSlots update).get k
  events : d'.rawProtocolEvents = settleEvents d.rawProtocolEvents update

theorem finalizeSlot_of_nothingStaged (hs : NothingStaged d) (hfits : slot.toNat < 2 ^ 63)
    (hf : slotStatus d slot = some .finalized) :
    finalizeSlot d slot = .ok (advanceCheckpoint (markFinalized d slot) slot, 0) := by
  have hnone : stagedProjections d slot = [] := by
    simp only [stagedProjections, Table.selectWhere,
      show d.stagedAccountProjections.rows = [] from hs, List.filter_nil, List.insertionSort_nil,
        List.map_nil]
  obtain ⟨row, hrow, hstatus⟩ := Option.map_eq_some_iff.mp hf
  rw [finalizeSlot_eq_ok, hnone]
  refine ⟨hfits, ⟨row, hrow, ?_, fun hne => absurd hstatus hne⟩, by simp, rfl, rfl⟩
  rw [hstatus]
  decide

theorem settleEvents_of_dead (h : update.status = .dead) (events : Table EventKey EventRow) :
    settleEvents events update = events.deleteWhere fun _ r =>
      r.slot = update.slot ∧ r.commitment ≠ .finalized := by
  rw [settleEvents, h]

theorem settleEvents_of_finalized (h : update.status = .finalized)
    (events : Table EventKey EventRow) :
    settleEvents events update = events.updateWhere (fun _ r => r.slot = update.slot) fun r =>
      { r with commitment := .finalized } := by
  rw [settleEvents, h]

theorem settleEvents_of_open (hd : update.status ≠ .dead) (hf : update.status ≠ .finalized)
    (events : Table EventKey EventRow) : settleEvents events update = events := by
  unfold settleEvents
  split
  · exact absurd ‹_› hd
  · exact absurd ‹_› hf
  · rfl

theorem nothingStaged_deleteWhere (hs : NothingStaged d) (p : VersionKey → StagedRow → Bool) :
    (d.stagedAccountProjections.deleteWhere p).rows = [] := by
  simp only [Table.deleteWhere, show d.stagedAccountProjections.rows = [] from hs, List.filter_nil]

theorem settles_of_writeSlot (hs : NothingStaged d) (hup : Upgrades d update)
    (hf : update.status ≠ .finalized) (h : writeSlot d update = .ok d') :
    NothingStaged d' ∧ Settles d update d' := by
  obtain ⟨-, ⟨hd, rfl⟩ | ⟨hd, rfl⟩⟩ := writeSlot_eq_ok.mp h
  · refine ⟨nothingStaged_deleteWhere hs _, hup, fun _ => rfl, ?_⟩
    rw [settleEvents_of_dead hd]
    rfl
  · refine ⟨hs, hup, fun _ => rfl, ?_⟩
    rw [settleEvents_of_open hd hf]

theorem settles_of_finalizeSlot (hs : NothingStaged d) (hfits : update.slot.toNat < 2 ^ 63)
    (hup : Upgrades d update) (hf : update.status = .finalized) (h : writeSlot d update = .ok d') :
    ∃ d₂, finalizeSlot d' update.slot = .ok (d₂, 0) ∧ NothingStaged d₂ ∧ Settles d update d₂ := by
  have hslots := indexerSlots_of_writeSlot h
  obtain ⟨row, hrow, hstatus⟩ := get_recordSlot d.indexerSlots update
  have hst : slotStatus d' update.slot = some .finalized :=
    (slotStatus_of_get (by rw [hslots, hrow])).trans (by rw [hstatus, hf])
  obtain ⟨hs', hevents⟩ : NothingStaged d' ∧ d'.rawProtocolEvents = d.rawProtocolEvents := by
    obtain ⟨-, ⟨hd, -⟩ | ⟨-, rfl⟩⟩ := writeSlot_eq_ok.mp h
    · rw [hf] at hd; cases hd
    · exact ⟨hs, rfl⟩
  have hfin := finalizeSlot_of_nothingStaged hs' hfits hst
  refine ⟨_, hfin, nothingStaged_deleteWhere hs' _, hup, fun k => ?_, ?_⟩
  · rw [get_of_finalizeSlot hfin hst, hslots]
  · rw [settleEvents_of_finalized hf, ← hevents]
    rfl

/-- A slot update does nothing, or it is written and the events follow it. -/
theorem ingestSlot_cases (e : Engine) (update : SlotUpdate) (hs : NothingStaged e.db) :
    NothingStaged (ingestSlot e update).1.db ∧
      (SameEvents e.db (ingestSlot e update).1.db ∨
        Settles e.db update (ingestSlot e update).1.db) := by
  rw [ingestSlot]
  split
  · exact ⟨hs, .inl ⟨fun _ => rfl, rfl⟩⟩
  · rename_i e₁ gap htrack
    have hslots : e₁.db.indexerSlots = e.db.indexerSlots := by rw [db_of_trackSlot htrack]
    have hevents : e₁.db.rawProtocolEvents = e.db.rawProtocolEvents := by
      rw [db_of_trackSlot htrack]
    have hs₁ : NothingStaged e₁.db := by
      rw [db_of_trackSlot htrack]
      exact hs
    have hsame : SameEvents e.db e₁.db := ⟨fun k => by rw [hslots], hevents⟩
    have hback : ∀ {d'}, Settles e₁.db update d' → Settles e.db update d' := by
      rintro d' ⟨hup, hs, he⟩
      refine ⟨?_, ?_, ?_⟩
      · rwa [Upgrades, ← hslots]
      · rwa [← hslots]
      · rwa [← hevents]
    split
    · exact ⟨hs₁, .inl hsame⟩
    · rename_i d₁ hupsert
      obtain ⟨haccepts, ⟨hup, hwrite⟩ | ⟨hno, rfl⟩⟩ := upsertSlot_eq_ok.mp hupsert
      · by_cases hf : update.status = .finalized
        · obtain ⟨d₂, hfin, hs₂, hsettles⟩ :=
            settles_of_finalizeSlot hs₁ haccepts.slot_fits hup hf hwrite
          rw [if_pos hf, hfin]
          exact ⟨hs₂, .inr (hback hsettles)⟩
        · obtain ⟨hs₂, hsettles⟩ := settles_of_writeSlot hs₁ hup hf hwrite
          rw [if_neg hf]
          exact ⟨hs₂, .inr (hback hsettles)⟩
      · have hf : update.status ≠ .finalized := fun hf => hno (haccepts.upgrades hf)
        rw [if_neg hf]
        exact ⟨hs₁, .inl hsame⟩

theorem Settles.status_kept {status : Commitment} (h : Settles d update d')
    (hst : slotStatus d a = some status) (hc : status = .dead ∨ status = .finalized) :
    slotStatus d' a = some status := by
  obtain ⟨row, hrow, hstatus⟩ := Option.map_eq_some_iff.mp hst
  rw [slotStatus, h.slots]
  by_cases ha : a = update.slot
  · subst ha
    have hup := h.upgrades row hrow
    obtain ⟨row', hrow', hstatus'⟩ := get_recordSlot d.indexerSlots update
    rw [hrow', Option.map_some, hstatus', ← hstatus]
    rw [hstatus] at hup
    rcases hc with rfl | rfl <;> cases hu : update.status <;>
      simp_all [Commitment.canUpgrade]
  · rw [get_recordSlot_of_ne ha, hrow, Option.map_some, hstatus]

theorem Settles.status_self (h : Settles d update d') :
    slotStatus d' update.slot = some update.status := by
  obtain ⟨row, hrow, hstatus⟩ := get_recordSlot d.indexerSlots update
  rw [slotStatus, h.slots, hrow, Option.map_some, hstatus]

theorem Settles.status_of_ne (h : Settles d update d') (ha : a ≠ update.slot) :
    slotStatus d' a = slotStatus d a := by
  rw [slotStatus, slotStatus, h.slots, get_recordSlot_of_ne ha]

theorem Settles.get_back (h : Settles d update d') {row : EventRow}
    (hrow : d'.rawProtocolEvents.get k = some row) :
    ∃ old, d.rawProtocolEvents.get k = some old ∧ row.slot = old.slot ∧
      row.commitment = if update.status = .finalized ∧ old.slot = update.slot then .finalized
        else old.commitment := by
  rw [h.events] at hrow
  by_cases hd : update.status = .dead
  · rw [settleEvents_of_dead hd, Table.get_deleteWhere, Option.filter_eq_some_iff] at hrow
    exact ⟨row, hrow.1, rfl, by simp [hd]⟩
  · by_cases hf : update.status = .finalized
    · rw [settleEvents_of_finalized hf, Table.get_updateWhere, Option.map_eq_some_iff] at hrow
      obtain ⟨old, hold, rfl⟩ := hrow
      refine ⟨old, hold, ?_⟩
      by_cases hs : old.slot = update.slot <;> simp [hs, hf]
    · rw [settleEvents_of_open hd hf] at hrow
      exact ⟨row, hrow, rfl, by simp [hf]⟩

theorem Settles.get_forth (h : Settles d update d') {old : EventRow}
    (hold : d.rawProtocolEvents.get k = some old) (ha : slotStatus d' old.slot ≠ some .dead) :
    ∃ row, d'.rawProtocolEvents.get k = some row ∧ row.slot = old.slot := by
  rw [h.events]
  by_cases hd : update.status = .dead
  · have hs : old.slot ≠ update.slot := by
      intro hs
      rw [hs, h.status_self, hd] at ha
      exact ha rfl
    rw [settleEvents_of_dead hd, Table.get_deleteWhere, hold]
    exact ⟨old, by simp [Option.filter, hs], rfl⟩
  · by_cases hf : update.status = .finalized
    · rw [settleEvents_of_finalized hf, Table.get_updateWhere, hold]
      refine ⟨_, rfl, ?_⟩
      dsimp only
      split <;> rfl
    · rw [settleEvents_of_open hd hf]
      exact ⟨old, hold, rfl⟩

/-! ## Runs -/

/-- Nothing is staged, and the events of finalized slots are finalized. -/
structure Indexed (e : Engine) : Prop where
  nothingStaged : NothingStaged e.db
  finalized : ∀ k row, e.db.rawProtocolEvents.get k = some row → FinalizedAt e row.slot →
    row.commitment = .finalized

/-- The event is there, for this slot. -/
def Holds (k : EventKey) (slot : UInt64) (e : Engine) : Prop :=
  ∃ row, e.db.rawProtocolEvents.get k = some row ∧ row.slot = slot

/-- The event is there for this slot, as finalized. -/
def Recorded (e : Engine) (k : EventKey) (slot : UInt64) : Prop :=
  ∃ row, e.db.rawProtocolEvents.get k = some row ∧ row.slot = slot ∧ row.commitment = .finalized

/-- No row of another slot has the key of the event. -/
def FreeFor (e : Engine) (k : EventKey) (slot : UInt64) : Prop :=
  ∀ row, e.db.rawProtocolEvents.get k = some row → row.slot = slot

/-- The transition delivers the event for the slot, and goes through. -/
def Delivered (x : Transition Engine Feed) (k : EventKey) (slot : UInt64) : Prop :=
  ∃ ev, x.label = .event ev ∧ ev.key = k ∧ ev.slot = slot ∧
    (ingestUpdate x.source x.label.update).2.isOk = true

theorem ingestEvent_cases (e : Engine) (ev : RawProtocolEvent) :
    ((ingestEvents e [ev]).2.isOk = false ∧ (ingestEvents e [ev]).1 = e) ∨
      (ingestEvents e [ev]).2.isOk = true ∧
        ((∃ row, e.db.rawProtocolEvents.get ev.key = some row) ∧ (ingestEvents e [ev]).1 = e ∨
          e.db.rawProtocolEvents.get ev.key = none ∧
            (ingestEvents e [ev]).1 = { e with db := recordEvent e.db ev }) := by
  rw [ingestEvents]
  split
  · exact .inl ⟨rfl, rfl⟩
  · rename_i db fresh hev
    obtain ⟨-, ⟨hrow, rfl, -⟩ | ⟨hnone, rfl, -⟩⟩ := insertEvent_eq_ok.mp hev
    · exact .inr ⟨rfl, .inl ⟨hrow, rfl⟩⟩
    · exact .inr ⟨rfl, .inr ⟨hnone, rfl⟩⟩

theorem get_recordEvent (d : Db) (ev : RawProtocolEvent) :
    (recordEvent d ev).rawProtocolEvents.get k =
    if k = ev.key then some (ev.row (commitmentAt d ev.slot ev.commitment))
    else d.rawProtocolEvents.get k :=
  Table.get_put

theorem Indexed.event (h : Indexed e) (ev : RawProtocolEvent) :
    Indexed { e with db := recordEvent e.db ev } where
  nothingStaged := h.nothingStaged
  finalized := by
    intro k row hrow hf
    rw [get_recordEvent] at hrow
    split at hrow
    · obtain rfl := Option.some.inj hrow
      exact if_pos (.inl hf)
    · exact h.finalized k row hrow hf

theorem Indexed.ingestSlot (h : Indexed e) (update : SlotUpdate) :
    Indexed (ingestSlot e update).1 := by
  obtain ⟨hs, hcases⟩ := ingestSlot_cases e update h.nothingStaged
  refine ⟨hs, fun k row hrow hf => ?_⟩
  rcases hcases with ⟨hslots, hevents⟩ | hsettles
  · rw [hevents] at hrow
    exact h.finalized k row hrow (by rwa [FinalizedAt, slotStatus, hslots] at hf)
  · obtain ⟨old, hold, hslot, hc⟩ := hsettles.get_back hrow
    rw [hc]
    split
    · rfl
    · rename_i hno
      have hold' : old.slot ≠ update.slot := by
        intro ha
        have hu := hsettles.status_self
        rw [← ha, ← hslot, show slotStatus _ row.slot = _ from hf, Option.some.injEq] at hu
        exact hno ⟨hu.symm, ha⟩
      rw [hslot] at hf
      exact h.finalized k old hold ((hsettles.status_of_ne hold').symm.trans hf)

theorem Indexed.step {feed : Feed} (h : Indexed e) (hstep : FeedStep e feed e') : Indexed e' := by
  obtain rfl : (ingestUpdate e feed.update).1 = e' := hstep
  cases feed with
  | slot update => exact h.ingestSlot update
  | event ev =>
    change Indexed (ingestEvents e [ev]).1
    rcases ingestEvent_cases e ev with ⟨-, he⟩ | ⟨-, ⟨-, he⟩ | ⟨-, he⟩⟩ <;> rw [he]
    · exact h
    · exact h
    · exact h.event ev

theorem status_kept {feed : Feed} {status : Commitment} (h : NothingStaged e.db)
    (hstep : FeedStep e feed e') (hst : slotStatus e.db slot = some status)
    (hc : status = .dead ∨ status = .finalized) : slotStatus e'.db slot = some status := by
  obtain rfl : (ingestUpdate e feed.update).1 = e' := hstep
  cases feed with
  | slot update =>
    rcases (ingestSlot_cases e update h).2 with hsame | hsettles
    · exact (congrArg _ (hsame.slots slot)).trans hst
    · exact hsettles.status_kept hst hc
  | event ev =>
    change slotStatus (ingestEvents e [ev]).1.db slot = _
    rw [slotStatus, indexerSlots_of_ingestEvents]
    exact hst

theorem Holds.step {feed : Feed} (h : Holds k slot e) (hs : NothingStaged e.db)
    (hstep : FeedStep e feed e') (ha : slotStatus e'.db slot ≠ some .dead) : Holds k slot e' := by
  obtain rfl : (ingestUpdate e feed.update).1 = e' := hstep
  obtain ⟨row, hrow, rfl⟩ := h
  cases feed with
  | slot update =>
    rcases (ingestSlot_cases e update hs).2 with hsame | hsettles
    · exact ⟨row, (congrArg (·.get k) hsame.events).trans hrow, rfl⟩
    · exact hsettles.get_forth hrow ha
  | event ev =>
    change Holds k row.slot (ingestEvents e [ev]).1
    rcases ingestEvent_cases e ev with ⟨-, he⟩ | ⟨-, ⟨-, he⟩ | ⟨hnone, he⟩⟩ <;> rw [he]
    · exact ⟨row, hrow, rfl⟩
    · exact ⟨row, hrow, rfl⟩
    · refine ⟨row, ?_, rfl⟩
      rw [get_recordEvent, if_neg, hrow]
      rintro rfl
      rw [hnone] at hrow
      cases hrow

theorem holds_of_delivered {x : Transition Engine Feed} (hstep : FeedStep x.source x.label x.target)
    (hd : Delivered x k slot) (hfree : FreeFor x.source k slot) : Holds k slot x.target := by
  obtain ⟨e, label, e'⟩ := x
  obtain ⟨ev, rfl, rfl, rfl, hok⟩ := hd
  obtain rfl : (ingestEvents e [ev]).1 = e' := hstep
  change (ingestEvents e [ev]).2.isOk = true at hok
  change Holds ev.key ev.slot (ingestEvents e [ev]).1
  rcases ingestEvent_cases e ev with ⟨hno, -⟩ | ⟨-, ⟨⟨row, hrow⟩, he⟩ | ⟨-, he⟩⟩
  · rw [hno] at hok; cases hok
  · rw [he]
    exact ⟨row, hrow, hfree row hrow⟩
  · rw [he]
    exact ⟨_, (get_recordEvent e.db ev).trans (if_pos rfl), rfl⟩

theorem delivered_of_holds {x : Transition Engine Feed} (hs : NothingStaged x.source.db)
    (hstep : FeedStep x.source x.label x.target) (hno : ¬ Holds k slot x.source)
    (hyes : Holds k slot x.target) : Delivered x k slot ∧ FreeFor x.source k slot := by
  obtain ⟨e, label, e'⟩ := x
  obtain rfl : (ingestUpdate e label.update).1 = e' := hstep
  obtain ⟨row, hrow, rfl⟩ := hyes
  cases label with
  | slot update =>
    rcases (ingestSlot_cases e update hs).2 with hsame | hsettles
    · exact absurd ⟨row, (congrArg (·.get k) hsame.events).symm.trans hrow, rfl⟩ hno
    · obtain ⟨old, hold, hslot, -⟩ := hsettles.get_back hrow
      exact absurd ⟨old, hold, hslot.symm⟩ hno
  | event ev =>
    change (ingestEvents e [ev]).1.db.rawProtocolEvents.get k = some row at hrow
    rcases ingestEvent_cases e ev with ⟨-, he⟩ | ⟨hok, ⟨-, he⟩ | ⟨hnone, he⟩⟩ <;> rw [he] at hrow
    · exact absurd ⟨row, hrow, rfl⟩ hno
    · exact absurd ⟨row, hrow, rfl⟩ hno
    · rw [get_recordEvent] at hrow
      split at hrow
      · rename_i hk
        obtain rfl := Option.some.inj hrow
        refine ⟨⟨ev, rfl, hk.symm, rfl, hok⟩, fun old hold => ?_⟩
        rw [hk] at hold
        cases hnone.symm.trans hold
      · exact absurd ⟨row, hrow, rfl⟩ hno

theorem indexed_start : Indexed Fork.start where
  nothingStaged := rfl
  finalized := fun _ _ h => by cases h

section Run

variable {tr : List (Transition Engine Feed)}

theorem Indexed.run (h : Run FeedStep Fork.start tr e) : Indexed e :=
  h.invariant (fun _ _ _ hi hs => hi.step hs) indexed_start

/-- An event of a finalized slot is there exactly when one of its deliveries for that slot did not
meet the row of another slot. -/
theorem recorded_iff (h : Run FeedStep Fork.start tr e) (hf : FinalizedAt e slot) :
    Recorded e k slot ↔ ∃ x ∈ tr, Delivered x k slot ∧ FreeFor x.source k slot := by
  constructor
  · rintro ⟨row, hrow, hslot, -⟩
    have hstart : ¬ Holds k slot Fork.start := by
      rintro ⟨_, hnone, -⟩
      cases hnone
    obtain ⟨x, hx, hno, hyes⟩ := h.exists_enter hstart ⟨row, hrow, hslot⟩
    obtain ⟨hi, hstep⟩ := h.step_of_mem (I := Indexed) (fun _ _ _ hi hs => hi.step hs)
      indexed_start hx
    exact ⟨x, hx, delivered_of_holds hi.nothingStaged hstep hno hyes⟩
  · rintro ⟨x, hx, hd, hfree⟩
    obtain ⟨tr₁, tr₂, rfl⟩ := List.append_of_mem hx
    obtain ⟨h₁, hstep, h₂⟩ := h.split
    have hi := (Indexed.run h₁).step hstep
    -- From the delivery on, the event is there or its slot is dead.
    have hlast := h₂.invariant
      (I := fun e => Indexed e ∧ (slotStatus e.db slot = some .dead ∨ Holds k slot e))
      (by
        rintro e feed e' ⟨hi, hk⟩ hs
        refine ⟨hi.step hs, ?_⟩
        rcases hk with hk | hk
        · exact .inl (status_kept hi.nothingStaged hs hk (.inl rfl))
        · by_cases ha : slotStatus e'.db slot = some .dead
          · exact .inl ha
          · exact .inr (hk.step hi.nothingStaged hs ha))
      ⟨hi, .inr (holds_of_delivered hstep hd hfree)⟩
    obtain ⟨hi', hdead | ⟨row, hrow, hslot⟩⟩ := hlast
    · cases hdead.symm.trans hf
    · exact ⟨row, hrow, hslot, hi'.finalized k row hrow (hslot ▸ hf)⟩

/-- The events delivered for finalized slots are all there exactly when each of them had a delivery
for its slot that did not meet the row of another slot. -/
theorem finalized_events_kept_iff (h : Run FeedStep Fork.start tr e) :
    (∀ k slot, FinalizedAt e slot → (∃ x ∈ tr, Delivered x k slot) → Recorded e k slot) ↔
      ∀ k slot, FinalizedAt e slot → (∃ x ∈ tr, Delivered x k slot) →
        ∃ x ∈ tr, Delivered x k slot ∧ FreeFor x.source k slot :=
  forall₂_congr fun _ _ => forall₂_congr fun hf _ => recorded_iff h hf

end Run

namespace Fork

/-- A run of the engine over single updates. -/
def feed (e : Engine) : List Feed → List (Transition Engine Feed)
  | [] => []
  | f :: fs => ⟨e, f, (ingestUpdate e f.update).1⟩ :: feed (ingestUpdate e f.update).1 fs

def fed (e : Engine) (fs : List Feed) : Engine :=
  fs.foldl (fun e f => (ingestUpdate e f.update).1) e

theorem run_feed (e : Engine) (fs : List Feed) : Run FeedStep e (feed e fs) (fed e fs) := by
  induction fs generalizing e with
  | nil => exact rfl
  | cons f fs ih => exact ⟨rfl, rfl, ih _⟩

def slotFeed (slot : UInt64) (status : Commitment) : Feed :=
  .slot { slot, parentSlot := none, status, blockTime := none }

/-- One event of a transaction, seen in the given slot. -/
def seen (slot : UInt64) : RawProtocolEvent :=
  { signature := "5VERYLongSignature5VERYLongSignature5VERYLongSignature5VERYLongSig",
    eventIndex := 0, slot, programId := zeroKey, kind := 8, subject := zeroKey, actor := zeroKey,
    amount := 10, eventTimestamp := 1700000000, commitment := .processed }

/-- The transaction is seen in slot 20 alone, which is finalized. -/
def single : List Feed := [slotFeed 20 .processed, .event (seen 20), slotFeed 20 .finalized]

/-- The transaction is seen in slot 20 and in slot 21; slot 20 dies and slot 21 is finalized. -/
def forked : List Feed :=
  [slotFeed 20 .processed, .event (seen 20), slotFeed 21 .processed, .event (seen 21),
    slotFeed 20 .dead, slotFeed 21 .finalized]

theorem finalized_events_kept_single : FinalizedAt (fed start single) 20 ∧
    ∀ k slot, FinalizedAt (fed start single) slot →
      (∃ x ∈ feed start single, Delivered x k slot) → Recorded (fed start single) k slot := by
  refine ⟨?_, (finalized_events_kept_iff (run_feed start single)).mpr ?_⟩
  · unfold FinalizedAt
    decide +kernel
  rintro k slot - ⟨x, hx, hd⟩
  refine ⟨x, hx, hd, fun row hrow => ?_⟩
  simp only [single, feed, List.mem_cons, List.not_mem_nil, or_false] at hx
  rcases hx with rfl | rfl | rfl
  · cases hrow
  · have hnone : (ingestUpdate start (slotFeed 20 .processed).update).1.db.rawProtocolEvents.rows =
        [] := rfl
    have hmem := Table.get_eq_some.mp hrow
    rw [hnone] at hmem
    cases hmem
  · obtain ⟨ev, hlabel, -⟩ := hd
    cases hlabel

/-- The event of the finalized slot is lost. -/
theorem finalized_event_lost :
    ¬ ∀ (tr : List (Transition Engine Feed)) (e : Engine), Run FeedStep start tr e →
      ∀ k slot, FinalizedAt e slot → (∃ x ∈ tr, Delivered x k slot) → Recorded e k slot := by
  intro h
  have hf : FinalizedAt (fed start forked) 21 := by
    unfold FinalizedAt
    decide +kernel
  have hd : Delivered ⟨fed start [slotFeed 20 .processed, .event (seen 20), slotFeed 21 .processed],
      .event (seen 21), fed start [slotFeed 20 .processed, .event (seen 20),
        slotFeed 21 .processed, .event (seen 21)]⟩ (seen 21).key 21 :=
    ⟨seen 21, rfl, rfl, rfl, by decide +kernel⟩
  obtain ⟨row, hrow, -⟩ := h _ _ (run_feed start forked) (seen 21).key 21 hf
    ⟨_, by simp [forked, feed, fed], hd⟩
  have hnone : (fed start forked).db.rawProtocolEvents.get (seen 21).key = none := by
    decide +kernel
  cases hnone.symm.trans hrow

end Fork

end AgentBond.Indexer
