import AgentBond.Indexer.Engine

/-! # What the transactions do

Each transaction goes through exactly under its conditions, with exactly what it
leaves in the tables.
-/

namespace AgentBond.Indexer

open Foundation

variable {d d' : Db} {e e' : Engine} {slot a : UInt64} {update : SlotUpdate}

section Slots

theorem slotStatus_of_get {row : SlotRow} (h : d.indexerSlots.get a = some row) :
    slotStatus d a = some row.status := by
  rw [slotStatus, h, Option.map_some]

/-- The update passes the checks `upsertSlot` makes before it writes. -/
structure Accepts (d : Db) (update : SlotUpdate) : Prop where
  not_self : update.parentSlot ≠ some update.slot
  slot_fits : update.slot.toNat < 2 ^ 63
  parent_fits : ∀ p, update.parentSlot = some p → p.toNat < 2 ^ 63
  reconciled : ∀ row, d.indexerSlots.get update.slot = some row →
    reconcileParent row.parentSlot update.parentSlot row.status = .ok () ∧
      ¬ (row.status = .finalized ∧ update.status = .dead) ∧
      ¬ (row.status = .dead ∧ update.status = .finalized)

/-- The status of the slot gives way to that of the update. -/
def Upgrades (d : Db) (update : SlotUpdate) : Prop :=
  ∀ row, d.indexerSlots.get update.slot = some row → row.status.canUpgrade update.status = true

theorem parentToI64_eq_ok {parent : Option UInt64} {u : Unit} :
    parentToI64 parent = .ok u ↔ ∀ p, parent = some p → p.toNat < 2 ^ 63 := by
  cases parent <;> simp [parentToI64]

theorem writeSlot_eq_ok : writeSlot d update = .ok d' ↔ Timely update ∧
    (update.status = .dead ∧ cleanupDeadSlot
          { d with indexerSlots := recordSlot d.indexerSlots update } update.slot = d' ∨
      update.status ≠ .dead ∧
        { d with indexerSlots := recordSlot d.indexerSlots update,
                 processedSlot := max d.processedSlot update.slot } = d') := by
  simp only [writeSlot, bind_eq_ok, ensure_eq_ok, exists_const]
  split <;> simp [*]

theorem indexerSlots_of_writeSlot (h : writeSlot d update = .ok d') :
    d'.indexerSlots = recordSlot d.indexerSlots update := by
  obtain ⟨-, ⟨-, rfl⟩ | ⟨-, rfl⟩⟩ := writeSlot_eq_ok.mp h <;> rfl

theorem upsertSlot_eq_ok : upsertSlot d update = .ok d' ↔
    Accepts d update ∧
      (Upgrades d update ∧ writeSlot d update = .ok d' ∨ ¬ Upgrades d update ∧ d = d') := by
  simp only [upsertSlot, bind_eq_ok, ensure_eq_ok, exists_const, u64ToI64_eq_ok,
    parentToI64_eq_ok]
  constructor
  · rintro ⟨hself, _, ⟨hslot, rfl⟩, hparent, h⟩
    cases hg : d.indexerSlots.get update.slot with
    | none =>
      rw [hg] at h
      have hnone : ∀ row, d.indexerSlots.get update.slot ≠ some row := fun row hrow => by
        rw [hg] at hrow; cases hrow
      exact ⟨⟨hself, hslot, hparent, fun row hrow => absurd hrow (hnone row)⟩,
        Or.inl ⟨fun row hrow => absurd hrow (hnone row), h⟩⟩
    | some row =>
      simp only [hg, bind_eq_ok, ensure_eq_ok, exists_const] at h
      obtain ⟨_, hreconcile, hdead, hfinalized, h⟩ := h
      refine ⟨⟨hself, hslot, hparent, fun row' hrow => ?_⟩, ?_⟩
      · obtain rfl := Option.some.inj (hg.symm.trans hrow)
        exact ⟨hreconcile, hdead, hfinalized⟩
      · split at h
        · rename_i hup
          exact Or.inl ⟨fun row' hrow => Option.some.inj (hg.symm.trans hrow) ▸ hup, h⟩
        · rename_i hup
          exact Or.inr ⟨fun hall => hup (hall row hg), Except.ok.inj h⟩
  · rintro ⟨⟨hself, hslot, hparent, hreconciled⟩, h⟩
    refine ⟨hself, _, ⟨hslot, rfl⟩, hparent, ?_⟩
    cases hg : d.indexerSlots.get update.slot with
    | none =>
      have hup : Upgrades d update := fun row hrow => by rw [hg] at hrow; cases hrow
      exact (h.resolve_right fun hr => hr.1 hup).2
    | some row =>
      obtain ⟨hreconcile, hdead, hfinalized⟩ := hreconciled row hg
      simp only [bind_eq_ok, ensure_eq_ok, exists_const]
      refine ⟨(), hreconcile, hdead, hfinalized, ?_⟩
      rcases h with ⟨hup, h⟩ | ⟨hup, h⟩
      · rw [if_pos (hup row hg)]
        exact h
      · have hno : ¬ row.status.canUpgrade update.status = true := fun hyes =>
          hup fun row' hrow => Option.some.inj (hg.symm.trans hrow) ▸ hyes
        rw [if_neg hno, h]

theorem Accepts.upgrades (h : Accepts d update) (hf : update.status = .finalized) :
    Upgrades d update := by
  intro row hrow
  obtain ⟨-, -, hdead⟩ := h.reconciled row hrow
  rw [hf] at hdead ⊢
  generalize row.status = st at hdead ⊢
  cases st <;> simp_all [Commitment.canUpgrade]

theorem upsertSlot_finalized_eq_ok (hf : update.status = .finalized) :
    upsertSlot d update = .ok d' ↔ (Accepts d update ∧ Timely update) ∧
      { d with indexerSlots := recordSlot d.indexerSlots update,
               processedSlot := max d.processedSlot update.slot } = d' := by
  rw [upsertSlot_eq_ok, writeSlot_eq_ok]
  constructor
  · rintro ⟨ha, ⟨-, ht, ⟨hdead, -⟩ | ⟨-, h⟩⟩ | ⟨hno, -⟩⟩
    · rw [hf] at hdead; cases hdead
    · exact ⟨⟨ha, ht⟩, h⟩
    · exact absurd (ha.upgrades hf) hno
  · rintro ⟨⟨ha, ht⟩, h⟩
    exact ⟨ha, Or.inl ⟨ha.upgrades hf, ht, Or.inr ⟨by rw [hf]; decide, h⟩⟩⟩

end Slots

section Projections

/-- The payload can be stored under its slot. -/
def Admissible (p : DecodedProjection) : Prop :=
  p.slot.toNat < 2 ^ 63 ∧ checkPayload p.payload = .ok ()

/-- What projections do to the public tables, one after the other. -/
def projectAll (d : Db) (ps : List DecodedProjection) : Db :=
  ps.foldl (fun d p => project d p.address p.slot p.payload) d

theorem applyProjection_eq_ok {p : DecodedProjection} : applyProjection d p = .ok d' ↔
    Admissible p ∧ project d p.address p.slot p.payload = d' := by
  simp only [applyProjection, Admissible, bind_eq_ok, u64ToI64_eq_ok, Except.ok.injEq]
  constructor
  · rintro ⟨_, ⟨hfits, rfl⟩, _, hcheck, rfl⟩; exact ⟨⟨hfits, hcheck⟩, rfl⟩
  · rintro ⟨⟨hfits, hcheck⟩, rfl⟩; exact ⟨_, ⟨hfits, rfl⟩, (), hcheck, rfl⟩

theorem foldlM_applyProjection_eq_ok {ps : List DecodedProjection} :
    ps.foldlM applyProjection d = .ok d' ↔ (∀ p ∈ ps, Admissible p) ∧ projectAll d ps = d' := by
  induction ps generalizing d with
  | nil => simp [projectAll, pure, Except.pure]
  | cons p ps ih =>
    simp only [List.foldlM_cons, bind_eq_ok, applyProjection_eq_ok, ih, List.forall_mem_cons,
      projectAll, List.foldl_cons]
    constructor
    · rintro ⟨_, ⟨hp, rfl⟩, hps, rfl⟩; exact ⟨⟨hp, hps⟩, rfl⟩
    · rintro ⟨⟨hp, hps⟩, rfl⟩; exact ⟨_, ⟨hp, rfl⟩, hps, rfl⟩

/-- The columns that projections leave alone. -/
structure Untouched (d d' : Db) : Prop where
  indexerSlots : d'.indexerSlots = d.indexerSlots
  rawAccountVersions : d'.rawAccountVersions = d.rawAccountVersions
  rawProtocolEvents : d'.rawProtocolEvents = d.rawProtocolEvents
  stagedAccountProjections : d'.stagedAccountProjections = d.stagedAccountProjections

theorem untouched_project (address : Pubkey) (slot : UInt64) (payload : ProjectionPayload) :
    Untouched d (project d address slot payload) := by
  cases payload <;> exact ⟨rfl, rfl, rfl, rfl⟩

theorem untouched_projectAll (ps : List DecodedProjection) : Untouched d (projectAll d ps) := by
  induction ps generalizing d with
  | nil => exact ⟨rfl, rfl, rfl, rfl⟩
  | cons p ps ih =>
    obtain ⟨h₁, h₂, h₃, h₄⟩ := untouched_project (d := d) p.address p.slot p.payload
    obtain ⟨h₁', h₂', h₃', h₄'⟩ := ih (d := project d p.address p.slot p.payload)
    exact ⟨h₁'.trans h₁, h₂'.trans h₂, h₃'.trans h₃, h₄'.trans h₄⟩

/-- The checkpoint and the gaps are as before. -/
structure SameProgress (d d' : Db) : Prop where
  finalizedSlot : d'.finalizedSlot = d.finalizedSlot
  processedSlot : d'.processedSlot = d.processedSlot
  ingestionGaps : d'.ingestionGaps = d.ingestionGaps

theorem sameProgress_project (address : Pubkey) (slot : UInt64) (payload : ProjectionPayload) :
    SameProgress d (project d address slot payload) := by
  cases payload <;> exact ⟨rfl, rfl, rfl⟩

theorem sameProgress_projectAll (ps : List DecodedProjection) :
    SameProgress d (projectAll d ps) := by
  induction ps generalizing d with
  | nil => exact ⟨rfl, rfl, rfl⟩
  | cons p ps ih =>
    obtain ⟨h₁, h₂, h₃⟩ := sameProgress_project (d := d) p.address p.slot p.payload
    obtain ⟨h₁', h₂', h₃'⟩ := ih (d := project d p.address p.slot p.payload)
    exact ⟨h₁'.trans h₁, h₂'.trans h₂, h₃'.trans h₃⟩

theorem firstAncestry_eq_ok {status : Commitment} {u : Unit} :
    firstAncestry d slot status = .ok u ↔
      (status ≠ .finalized → assertAncestry d.indexerSlots slot = .ok ()) := by
  unfold firstAncestry
  split <;> simp_all

theorem finalizeSlot_eq_ok {n : ℕ} : finalizeSlot d slot = .ok (d', n) ↔
    slot.toNat < 2 ^ 63 ∧
      (∃ row, d.indexerSlots.get slot = some row ∧ row.status ≠ .dead ∧
        (row.status ≠ .finalized → assertAncestry d.indexerSlots slot = .ok ())) ∧
      (∀ p ∈ stagedProjections d slot, Admissible p) ∧
      advanceCheckpoint (projectAll (markFinalized d slot) (stagedProjections d slot)) slot = d' ∧
      (stagedProjections d slot).length = n := by
  simp only [finalizeSlot, bind_eq_ok, discard_eq_ok, u64ToI64_eq_ok, okOr_eq_ok, ensure_eq_ok,
    exists_const, firstAncestry_eq_ok, foldlM_applyProjection_eq_ok, Except.ok.injEq,
    Prod.mk.injEq]
  constructor
  · rintro ⟨⟨_, hfits, -⟩, row, hrow, hdead, hancestry, _, ⟨hadmissible, rfl⟩, rfl, rfl⟩
    exact ⟨hfits, ⟨row, hrow, hdead, hancestry⟩, hadmissible, rfl, rfl⟩
  · rintro ⟨hfits, ⟨row, hrow, hdead, hancestry⟩, hadmissible, rfl, rfl⟩
    exact ⟨⟨_, hfits, rfl⟩, row, hrow, hdead, hancestry, _, ⟨hadmissible, rfl⟩, rfl, rfl⟩

end Projections

section Deliveries

/-- The account version is written down. -/
def recordVersion (d : Db) (acc : RawAccountVersion) : Db :=
  { d with
    rawAccountVersions := d.rawAccountVersions.put acc.key
      (acc.row (commitmentAt d acc.slot acc.commitment)) }

def stage (d : Db) (p : DecodedProjection) : Db :=
  { d with stagedAccountProjections := d.stagedAccountProjections.put p.key ⟨p.kind, p.payload⟩ }

/-- A projection that is staged, applied and no longer staged. -/
def publish (d : Db) (p : DecodedProjection) : Db :=
  { project (stage d p) p.address p.slot p.payload with
    stagedAccountProjections := (stage d p).stagedAccountProjections.deleteWhere fun k _ =>
      k = p.key }

theorem storeProjection_eq_ok {p : DecodedProjection} {now : Bool} :
    storeProjection d p now = .ok d' ↔ p.slot.toNat < 2 ^ 63 ∧ p.writeVersion.toNat < 2 ^ 63 ∧
      ((now = true ∧ Admissible p ∧ publish d p = d') ∨ (now = false ∧ stage d p = d')) := by
  have hstaged : (project (stage d p) p.address p.slot p.payload).stagedAccountProjections =
      (stage d p).stagedAccountProjections := (untouched_project _ _ _).stagedAccountProjections
  cases now with
  | true =>
    simp only [storeProjection, if_true, bind_eq_ok, discard_eq_ok, u64ToI64_eq_ok, exists_const,
      applyProjection_eq_ok, Except.ok.injEq, exists_and_left, exists_eq', and_true, true_and,
      Bool.true_eq_false, false_and, or_false]
    constructor
    · rintro ⟨hslot, hversion, _, ⟨hadmissible, rfl⟩, rfl⟩
      refine ⟨hslot, hversion, hadmissible, ?_⟩
      rw [publish, ← hstaged]
      rfl
    · rintro ⟨hslot, hversion, hadmissible, rfl⟩
      refine ⟨hslot, hversion, _, ⟨hadmissible, rfl⟩, ?_⟩
      rw [publish, ← hstaged]
      rfl
  | false =>
    simp only [storeProjection, bind_eq_ok, discard_eq_ok, u64ToI64_eq_ok, exists_const,
      Except.ok.injEq, exists_and_left, exists_eq', and_true, true_and, Bool.false_eq_true,
      if_false, false_and, false_or]
    rfl

theorem insertAccount_eq_ok {acc : RawAccountVersion} {projection : Option DecodedProjection}
    {fresh : Bool} : insertAccountWithProjection d acc projection = .ok (d', fresh) ↔
      acc.slot.toNat < 2 ^ 63 ∧ acc.writeVersion.toNat < 2 ^ 63 ∧
        commitmentAt d acc.slot acc.commitment ≠ .dead ∧
        ((∃ row, d.rawAccountVersions.get acc.key = some row) ∧ d = d' ∧ fresh = false ∨
          d.rawAccountVersions.get acc.key = none ∧ fresh = true ∧
            ((∃ p, projection = some p ∧ storeProjection (recordVersion d acc) p
                (commitmentAt d acc.slot acc.commitment = .finalized) = .ok d') ∨
              projection = none ∧ recordVersion d acc = d')) := by
  simp only [insertAccountWithProjection, bind_eq_ok, discard_eq_ok, u64ToI64_eq_ok, ensure_eq_ok,
    exists_const, exists_and_left, exists_eq', and_true]
  refine and_congr_right fun _ => and_congr_right fun _ => and_congr_right fun _ => ?_
  cases hraw : d.rawAccountVersions.get acc.key with
  | some row => simp [eq_comm]
  | none =>
    cases projection with
    | none => simp [recordVersion, eq_comm, and_comm]
    | some p =>
      simp only [bind_eq_ok, Except.ok.injEq, Prod.mk.injEq, reduceCtorEq, exists_false, false_and,
        false_or, true_and, Option.some.injEq, exists_eq_left', or_false]
      constructor
      · rintro ⟨_, hstore, rfl, rfl⟩; exact ⟨rfl, hstore⟩
      · rintro ⟨rfl, hstore⟩; exact ⟨_, hstore, rfl, rfl⟩

/-- The event passes the checks `insertEvent` makes before it writes. -/
structure Deliverable (d : Db) (ev : RawProtocolEvent) : Prop where
  time : ∃ time, timestampOpt ev.eventTimestamp = some time ∧ Storable time
  slot_fits : ev.slot.toNat < 2 ^ 63
  alive : commitmentAt d ev.slot ev.commitment ≠ .dead
  signature : 64 ≤ ev.signature.length ∧ ev.signature.length ≤ 128
  index : ev.eventIndex.toNat < 256
  kind : 1 ≤ ev.kind.toNat ∧ ev.kind.toNat ≤ 17

/-- The event is written down. -/
def recordEvent (d : Db) (ev : RawProtocolEvent) : Db :=
  { d with
    rawProtocolEvents := d.rawProtocolEvents.put ev.key
      (ev.row (commitmentAt d ev.slot ev.commitment)) }

theorem insertEvent_eq_ok {ev : RawProtocolEvent} {fresh : Bool} :
    insertEvent d ev = .ok (d', fresh) ↔ Deliverable d ev ∧
      ((∃ row, d.rawProtocolEvents.get ev.key = some row) ∧ d = d' ∧ fresh = false ∨
        d.rawProtocolEvents.get ev.key = none ∧ recordEvent d ev = d' ∧ fresh = true) := by
  simp only [insertEvent, bind_eq_ok, okOr_eq_ok, discard_eq_ok, u64ToI64_eq_ok, ensure_eq_ok,
    exists_const, exists_and_left, exists_eq', and_true]
  constructor
  · rintro ⟨time, htime, hslot, halive, hsignature, hindex, hkind, hstorable, h⟩
    refine ⟨⟨⟨time, htime, hstorable⟩, hslot, halive, hsignature, hindex, hkind⟩, ?_⟩
    cases hg : d.rawProtocolEvents.get ev.key with
    | some row =>
      rw [hg] at h
      cases h
      exact Or.inl ⟨⟨row, rfl⟩, rfl, rfl⟩
    | none =>
      rw [hg] at h
      cases h
      exact Or.inr ⟨rfl, rfl, rfl⟩
  · rintro ⟨⟨⟨time, htime, hstorable⟩, hslot, halive, hsignature, hindex, hkind⟩, h⟩
    refine ⟨time, htime, hslot, halive, hsignature, hindex, hkind, hstorable, ?_⟩
    rcases h with ⟨⟨row, hg⟩, rfl, rfl⟩ | ⟨hg, rfl, rfl⟩
    · rw [hg]
    · rw [hg]
      rfl

end Deliveries

section Tracking

theorem accepts_congr (h : d'.indexerSlots = d.indexerSlots) :
    Accepts d' update ↔ Accepts d update := by
  constructor
  · rintro ⟨hself, hslot, hparent, hreconciled⟩
    exact ⟨hself, hslot, hparent, h ▸ hreconciled⟩
  · rintro ⟨hself, hslot, hparent, hreconciled⟩
    exact ⟨hself, hslot, hparent, h ▸ hreconciled⟩

theorem db_of_trackSlot {gap : Option (UInt64 × UInt64)} (h : trackSlot e slot = .ok (e', gap)) :
    e'.db = { e.db with ingestionGaps := e'.db.ingestionGaps } := by
  unfold trackSlot at h
  split at h
  · cases h; rfl
  · split at h
    · simp only [recordGap, bind_eq_ok, discard_eq_ok, exists_const, Except.ok.injEq,
        Prod.mk.injEq] at h
      obtain ⟨_, ⟨-, -, rfl⟩, rfl, -⟩ := h
      rfl
    · split at h <;> cases h <;> rfl

theorem trackSlot_succeeds (e : Engine) (h : slot.toNat < 2 ^ 63) :
    ∃ r, trackSlot e slot = .ok r := by
  unfold trackSlot
  split
  · exact ⟨_, rfl⟩
  · rename_i prev _
    split
    · rename_i gap hgap
      simp only [detectForwardGap, Option.ite_none_right_eq_some, Option.some.injEq] at hgap
      obtain ⟨⟨hmax, hlt⟩, rfl⟩ := hgap
      have hfrom : (prev + 1).toNat < 2 ^ 63 := by
        rw [UInt64.toNat_add]
        simp only [UInt64.reduceToNat]
        omega
      have hto : (slot - 1).toNat < 2 ^ 63 := by
        rw [UInt64.toNat_sub_of_le _ _ (by rw [UInt64.le_iff_toNat_le]; simp; omega)]
        omega
      simp only [recordGap, bind_eq_ok, discard_eq_ok, u64ToI64_eq_ok, exists_const,
        Except.ok.injEq]
      exact ⟨_, _, ⟨⟨_, hfrom, rfl⟩, ⟨_, hto, rfl⟩, rfl⟩, rfl⟩
    · split <;> exact ⟨_, rfl⟩

end Tracking

end AgentBond.Indexer
