import AgentBond.Indexer.Source
import AgentBond.Indexer.Versions

/-! # Between the transactions

A slot becomes finalized in one transaction and published in the next, and an
account that is delivered as finalized is published at once. Between any two
transactions the public tables are settled exactly when neither happens early.
-/

namespace AgentBond.Indexer

open Foundation

/-- Finalized slots are within the checkpoint with nothing left staged, and what is public stems
from finalized slots within the checkpoint. -/
structure Published (d : Db) : Prop where
  covered : ∀ slot, slotStatus d slot = some .finalized → slot ≤ d.finalizedSlot ∧
    ∀ k r, d.stagedAccountProjections.get k = some r → k.slot ≠ slot
  shown : ∀ a kind slot v, cell d a kind = some (UInt64.toNat slot, v) →
    slotStatus d slot = some .finalized ∧ slot ≤ d.finalizedSlot

/-- The address shows a row of the kind from a later slot. -/
def ShowsLater (d : Db) (p : DecodedProjection) : Prop :=
  ∃ n v, cell d p.address p.payload.kind = some (n, v) ∧ p.slot.toNat < n

/-- The operation is in order: a slot that is upserted as finalized is within the checkpoint and has
nothing staged, and an account that is published at once comes for a finalized slot, is a tombstone,
or gives way to a later row. A staged one is not for a finalized slot. -/
def InOrder (d : Db) : Operation → Prop
  | .upsertSlot update => update.status = .finalized → update.slot ≤ d.finalizedSlot ∧
      ∀ k r, d.stagedAccountProjections.get k = some r → k.slot ≠ update.slot
  | .insertAccount acc (some p) => d.rawAccountVersions.get acc.key = none →
      (commitmentAt d acc.slot acc.commitment = .finalized →
        slotStatus d p.slot = some .finalized ∨ p.payload = .tombstone ∨ ShowsLater d p) ∧
      (commitmentAt d acc.slot acc.commitment ≠ .finalized →
        slotStatus d p.slot ≠ some .finalized)
  | _ => True

variable {d d' : Db} {update : SlotUpdate} {slot : UInt64} {p : DecodedProjection}
  {acc : RawAccountVersion} {op : Operation}

/-- What a change of the database has to respect. -/
theorem Published.change (h : Published d) (hle : d.finalizedSlot ≤ d'.finalizedSlot)
    (hkeep : ∀ s, slotStatus d s = some .finalized → slotStatus d' s = some .finalized)
    (hnew : ∀ s, slotStatus d' s = some .finalized → slotStatus d s = some .finalized ∨
      s ≤ d'.finalizedSlot ∧ ∀ k r, d'.stagedAccountProjections.get k = some r → k.slot ≠ s)
    (hstaged : ∀ k r, d'.stagedAccountProjections.get k = some r →
      (∃ r', d.stagedAccountProjections.get k = some r') ∨ slotStatus d k.slot ≠ some .finalized)
    (hcells : ∀ a kind n v, cell d' a kind = some (n, v) → cell d a kind = some (n, v) ∨
      ∃ s : UInt64, n = s.toNat ∧ slotStatus d' s = some .finalized ∧ s ≤ d'.finalizedSlot) :
    Published d' := by
  constructor
  · intro s hs
    rcases hnew s hs with hold | hdone
    · obtain ⟨hslot, hnone⟩ := h.covered s hold
      refine ⟨UInt64.le_trans hslot hle, fun k r hk heq => ?_⟩
      rcases hstaged k r hk with ⟨r', hk'⟩ | hne
      · exact hnone k r' hk' heq
      · rw [heq] at hne
        exact hne hold
    · exact hdone
  · intro a kind s v hc
    rcases hcells a kind _ v hc with hold | ⟨s', hn, hst, hslot⟩
    · obtain ⟨hst, hslot⟩ := h.shown a kind s v hold
      exact ⟨hkeep s hst, UInt64.le_trans hslot hle⟩
    · obtain rfl : s = s' := UInt64.toNat_inj.mp hn
      exact ⟨hst, hslot⟩

section Cells

variable {a address : Pubkey} {kind : ProjectionKind} {payload : ProjectionPayload} {n : ℕ}
  {v : ProjectionPayload}

theorem cell_of_project (h : cell (project d address slot payload) a kind = some (n, v)) :
    cell d a kind = some (n, v) ∨ n = slot.toNat ∧ payload ≠ .tombstone := by
  by_cases ha : a = address
  · subst ha
    by_cases ht : payload = .tombstone
    · subst ht
      rw [cell_tombstone] at h
      left
      cases hc : cell d a kind with
      | none =>
        rw [hc] at h
        cases h
      | some r =>
        obtain ⟨s, x⟩ := r
        rw [hc] at h
        simp only [Register.write] at h
        split at h
        · cases h
        · exact h
    · by_cases hk : payload.kind = kind
      · subst hk
        rw [cell_kind ht] at h
        cases hc : cell d a payload.kind with
        | none =>
          rw [hc] at h
          cases h
          exact .inr ⟨rfl, ht⟩
        | some r =>
          obtain ⟨s, x⟩ := r
          rw [hc] at h
          simp only [Register.write] at h
          split at h
          · cases h
            exact .inr ⟨rfl, ht⟩
          · exact .inl h
      · rw [cell_other ht hk] at h
        exact .inl h
  · rw [cell_project_of_ne ha] at h
    exact .inl h

theorem cell_of_projectAll {ps : List DecodedProjection} (hps : ∀ p ∈ ps, p.slot = slot)
    (h : cell (projectAll d ps) a kind = some (n, v)) :
    cell d a kind = some (n, v) ∨ n = slot.toNat := by
  induction ps generalizing d with
  | nil => exact .inl h
  | cons p ps ih =>
    rw [List.forall_mem_cons] at hps
    rcases ih hps.2 h with hc | hn
    · rcases cell_of_project hc with hold | ⟨hn, -⟩
      · exact .inl hold
      · rw [hps.1] at hn
        exact .inr hn
    · exact .inr hn

theorem cell_of_not_showsLater (ht : p.payload ≠ .tombstone) (hlater : ¬ ShowsLater d p) :
    cell (project d p.address p.slot p.payload) p.address p.payload.kind =
      some (p.slot.toNat, p.payload) := by
  rw [cell_kind ht]
  cases hc : cell d p.address p.payload.kind with
  | none => rfl
  | some r =>
    obtain ⟨n, v⟩ := r
    exact if_pos (Nat.not_lt.mp fun hlt => hlater ⟨n, v, hc, hlt⟩)

theorem cell_of_showsLater (hlater : ShowsLater d p) (a : Pubkey) (kind : ProjectionKind) :
    cell (project d p.address p.slot p.payload) a kind = cell d a kind ∨
      p.payload = .tombstone := by
  by_cases ht : p.payload = .tombstone
  · exact .inr ht
  left
  by_cases ha : a = p.address
  · subst ha
    by_cases hk : p.payload.kind = kind
    · subst hk
      obtain ⟨n, v, hc, hlt⟩ := hlater
      rw [cell_kind ht, hc]
      exact if_neg (Nat.not_le.mpr hlt)
    · exact cell_other ht hk
  · exact cell_project_of_ne ha

end Cells

section Steps

theorem slotStatus_of_recordSlot (hslots : d'.indexerSlots = recordSlot d.indexerSlots update) :
    slotStatus d' update.slot = some update.status ∧
      ∀ s, s ≠ update.slot → slotStatus d' s = slotStatus d s := by
  constructor
  · obtain ⟨row, hrow, hstatus⟩ := get_recordSlot d.indexerSlots update
    rw [slotStatus, hslots, hrow, Option.map_some, hstatus]
  · intro s hs
    rw [slotStatus, slotStatus, hslots, get_recordSlot_of_ne hs]

theorem Upgrades.finalized (hup : Upgrades d update)
    (h : slotStatus d update.slot = some .finalized) : update.status = .finalized := by
  obtain ⟨row, hrow, hstatus⟩ := Option.map_eq_some_iff.mp h
  have hcan := hup row hrow
  rw [hstatus] at hcan
  cases hu : update.status <;> simp_all [Commitment.canUpgrade]

theorem Published.record (h : Published d) (hup : Upgrades d update)
    (hslots : d'.indexerSlots = recordSlot d.indexerSlots update)
    (hfin : d'.finalizedSlot = d.finalizedSlot)
    (hstaged : ∀ k r, d'.stagedAccountProjections.get k = some r →
      d.stagedAccountProjections.get k = some r)
    (hcells : ∀ a kind, cell d' a kind = cell d a kind) (hin : InOrder d (.upsertSlot update)) :
    Published d' := by
  obtain ⟨hself, hother⟩ := slotStatus_of_recordSlot hslots
  apply h.change
  · rw [hfin]
    exact UInt64.le_refl _
  · intro s hs
    by_cases heq : s = update.slot
    · subst heq
      rw [hself, hup.finalized hs]
    · rw [hother s heq]
      exact hs
  · intro s hs
    by_cases heq : s = update.slot
    · subst heq
      rw [hself, Option.some.injEq] at hs
      obtain ⟨hle, hnone⟩ := hin hs
      rw [hfin]
      exact .inr ⟨hle, fun k r hk => hnone k r (hstaged k r hk)⟩
    · rw [hother s heq] at hs
      exact .inl hs
  · intro k r hk
    exact .inl ⟨r, hstaged k r hk⟩
  · intro a kind n v hc
    rw [hcells] at hc
    exact .inl hc

theorem published_upsertSlot (h : Published d) (hop : upsertSlot d update = .ok d') :
    Published d' ↔ InOrder d (.upsertSlot update) := by
  obtain ⟨haccepts, ⟨hup, hwrite⟩ | ⟨hup, rfl⟩⟩ := upsertSlot_eq_ok.mp hop
  · have hself := (slotStatus_of_recordSlot (indexerSlots_of_writeSlot hwrite)).1
    obtain ⟨-, ⟨hd, rfl⟩ | ⟨hd, rfl⟩⟩ := writeSlot_eq_ok.mp hwrite
    · have hin : InOrder d (.upsertSlot update) := fun hf => by
        rw [hd] at hf
        cases hf
      refine iff_of_true (h.record hup rfl rfl (fun k r hk => ?_) (fun a kind => ?_) hin) hin
      · rw [cleanupDeadSlot, Table.get_deleteWhere] at hk
        exact (Option.filter_eq_some_iff.mp hk).1
      · exact cell_cleanupDeadSlot update.slot
    · constructor
      · intro h' hf
        rw [hf] at hself
        exact h'.covered update.slot hself
      · intro hin
        exact h.record hup rfl rfl (fun _ _ hk => hk) (fun a kind => by cases kind <;> rfl) hin
  · exact iff_of_true h fun hf => absurd (haccepts.upgrades hf) hup

theorem published_finalizeSlot {n : ℕ} (h : Published d) (hop : finalizeSlot d slot = .ok (d', n)) :
    Published d' := by
  obtain ⟨-, ⟨row, hrow, -, -⟩, -, rfl, -⟩ := finalizeSlot_eq_ok.mp hop
  generalize hd' : advanceCheckpoint (projectAll (markFinalized d slot) (stagedProjections d slot))
    slot = d'
  have hslots : d'.indexerSlots = (markFinalized d slot).indexerSlots := by
    rw [← hd']
    exact (untouched_projectAll _).indexerSlots
  have hstaged : ∀ k r, d'.stagedAccountProjections.get k = some r →
      d.stagedAccountProjections.get k = some r ∧ k.slot ≠ slot := by
    intro k r hk
    rw [← hd', advanceCheckpoint, (untouched_projectAll _).stagedAccountProjections,
      Table.get_deleteWhere] at hk
    obtain ⟨hk, hne⟩ := Option.filter_eq_some_iff.mp hk
    exact ⟨hk, by simpa using hne⟩
  have hfin : d'.finalizedSlot = max d.finalizedSlot slot := by
    rw [← hd', advanceCheckpoint, (sameProgress_projectAll _).finalizedSlot]
    rfl
  have hle : d.finalizedSlot ≤ d'.finalizedSlot ∧ slot ≤ d'.finalizedSlot := by
    rw [hfin]
    rcases UInt64.le_total d.finalizedSlot slot with hle | hle
    · rw [u64_max_of_le hle]
      exact ⟨hle, UInt64.le_refl _⟩
    · rw [u64_max_of_ge hle]
      exact ⟨UInt64.le_refl _, hle⟩
  have hself : slotStatus d' slot = some .finalized := by
    rw [slotStatus, hslots, markFinalized, Table.get_updateWhere, hrow]
    simp
  have hother : ∀ s, s ≠ slot → slotStatus d' s = slotStatus d s := by
    intro s hs
    rw [slotStatus, slotStatus, hslots, markFinalized, Table.get_updateWhere]
    simp [hs]
  apply h.change hle.1
  · intro s hs
    by_cases heq : s = slot
    · rw [heq]
      exact hself
    · rw [hother s heq]
      exact hs
  · intro s hs
    by_cases heq : s = slot
    · rw [heq]
      exact .inr ⟨hle.2, fun k r hk => (hstaged k r hk).2⟩
    · rw [hother s heq] at hs
      exact .inl hs
  · intro k r hk
    exact .inl ⟨r, (hstaged k r hk).1⟩
  · intro a kind m v hc
    rw [← hd', cell_advanceCheckpoint] at hc
    have hps : ∀ p ∈ stagedProjections d slot, p.slot = slot := fun p hp =>
      (mem_stagedProjections.mp hp).1
    rcases cell_of_projectAll hps hc with hc | hm
    · rw [cell_markFinalized] at hc
      exact .inl hc
    · exact .inr ⟨slot, hm, hself, hle.2⟩

theorem Published.same (h : Published d) (hslots : d'.indexerSlots = d.indexerSlots)
    (hfin : d'.finalizedSlot = d.finalizedSlot)
    (hstaged : ∀ k r, d'.stagedAccountProjections.get k = some r →
      (∃ r', d.stagedAccountProjections.get k = some r') ∨ slotStatus d k.slot ≠ some .finalized)
    (hcells : ∀ a kind n v, cell d' a kind = some (n, v) → cell d a kind = some (n, v) ∨
      ∃ s : UInt64, n = s.toNat ∧ slotStatus d s = some .finalized) : Published d' := by
  have hstatus : ∀ s, slotStatus d' s = slotStatus d s := fun s => by
    rw [slotStatus, slotStatus, hslots]
  apply h.change _ _ _ hstaged
  · intro a kind n v hc
    rcases hcells a kind n v hc with hold | ⟨s, hn, hs⟩
    · exact .inl hold
    · refine .inr ⟨s, hn, by rw [hstatus, hs], ?_⟩
      rw [hfin]
      exact (h.covered s hs).1
  · rw [hfin]
    exact UInt64.le_refl _
  · intro s hs
    rw [hstatus, hs]
  · intro s hs
    rw [hstatus] at hs
    exact .inl hs

theorem cell_publish {a : Pubkey} {kind : ProjectionKind} :
    cell (publish (recordVersion d acc) p) a kind =
      cell (project d p.address p.slot p.payload) a kind := by
  have hproject : cell (publish (recordVersion d acc) p) a kind =
      cell (project (stage (recordVersion d acc) p) p.address p.slot p.payload) a kind := by
    cases kind <;> rfl
  rw [hproject]
  exact cell_project_congr (fun a kind => by cases kind <;> rfl) p.address p.slot p.payload

theorem staged_publish {k : VersionKey} {r : StagedRow}
    (h : (publish (recordVersion d acc) p).stagedAccountProjections.get k = some r) :
    d.stagedAccountProjections.get k = some r := by
  rw [publish, Table.get_deleteWhere] at h
  obtain ⟨h, hne⟩ := Option.filter_eq_some_iff.mp h
  rw [stage, Table.get_put_of_ne (by simpa using hne)] at h
  exact h

theorem finalizedSlot_publish :
    (publish (recordVersion d acc) p).finalizedSlot = d.finalizedSlot :=
  (sameProgress_project _ _ _).finalizedSlot

theorem indexerSlots_publish : (publish (recordVersion d acc) p).indexerSlots = d.indexerSlots :=
  (untouched_project _ _ _).indexerSlots

theorem published_publish (h : Published d) :
    Published (publish (recordVersion d acc) p) ↔
      (slotStatus d p.slot = some .finalized ∨ p.payload = .tombstone ∨ ShowsLater d p) := by
  constructor
  · intro h'
    by_cases ht : p.payload = .tombstone
    · exact .inr (.inl ht)
    by_cases hlater : ShowsLater d p
    · exact .inr (.inr hlater)
    have hcell : cell (publish (recordVersion d acc) p) p.address p.payload.kind =
        some (p.slot.toNat, p.payload) := by
      rw [cell_publish]
      exact cell_of_not_showsLater ht hlater
    have hst := (h'.shown p.address p.payload.kind p.slot p.payload hcell).1
    rw [slotStatus, indexerSlots_publish] at hst
    exact .inl hst
  · intro hin
    apply h.same indexerSlots_publish finalizedSlot_publish
    · intro k r hk
      exact .inl ⟨r, staged_publish hk⟩
    · intro a kind n v hc
      rw [cell_publish] at hc
      rcases cell_of_project hc with hold | ⟨hn, ht⟩
      · exact .inl hold
      rcases hin with hst | htomb | hlater
      · exact .inr ⟨p.slot, hn, hst⟩
      · exact absurd htomb ht
      · rcases cell_of_showsLater hlater a kind with hsame | htomb
        · rw [hsame] at hc
          exact .inl hc
        · exact absurd htomb ht

theorem published_stage (h : Published d) :
    Published (stage (recordVersion d acc) p) ↔ slotStatus d p.slot ≠ some .finalized := by
  constructor
  · intro h' hst
    exact (h'.covered p.slot hst).2 p.key ⟨p.kind, p.payload⟩ Table.get_put_self rfl
  · intro hst
    apply h.same
    · rfl
    · rfl
    · intro k r hk
      rw [stage, Table.get_put] at hk
      split at hk
      · rename_i hkey
        rw [hkey]
        exact .inr hst
      · exact .inl ⟨r, hk⟩
    · intro a kind n v hc
      left
      cases kind <;> exact hc

/-- An account that is filed keeps the tables settled exactly when it is staged for a slot that is
open, or published for one that is finalized, unless nothing of it shows. -/
theorem published_insertAccount {projection : Option DecodedProjection} {fresh : Bool}
    (h : Published d) (hop : insertAccountWithProjection d acc projection = .ok (d', fresh)) :
    Published d' ↔ InOrder d (.insertAccount acc projection) := by
  obtain ⟨-, -, -, ⟨⟨row, hrow⟩, rfl, -⟩ | ⟨hnew, -, ⟨p, rfl, hstore⟩ | ⟨rfl, rfl⟩⟩⟩ :=
    insertAccount_eq_ok.mp hop
  · refine iff_of_true h ?_
    cases projection with
    | none => trivial
    | some p =>
      intro hnone
      rw [hrow] at hnone
      cases hnone
  · obtain ⟨-, -, ⟨hnow, -, rfl⟩ | ⟨hnow, rfl⟩⟩ := storeProjection_eq_ok.mp hstore
    · have hcommitment := of_decide_eq_true hnow
      rw [published_publish h]
      exact ⟨fun hin _ => ⟨fun _ => hin, fun hne => absurd hcommitment hne⟩,
        fun hin => (hin hnew).1 hcommitment⟩
    · have hcommitment := of_decide_eq_false hnow
      rw [published_stage h]
      exact ⟨fun hin _ => ⟨fun heq => absurd heq hcommitment, fun _ => hin⟩,
        fun hin => (hin hnew).2 hcommitment⟩
  · refine iff_of_true (h.same rfl rfl (fun k r hk => .inl ⟨r, hk⟩) fun a kind n v hc => ?_) trivial
    left
    cases kind <;> exact hc

/-- A transaction keeps the tables settled exactly when it is in order. -/
theorem published_operates (h : Published d) (hop : Operates d op d') :
    Published d' ↔ InOrder d op := by
  cases op with
  | upsertSlot update => exact published_upsertSlot h hop
  | finalizeSlot slot =>
    obtain ⟨n, hop⟩ := map_fst_eq_ok.mp hop
    exact iff_of_true (published_finalizeSlot h hop) trivial
  | insertAccount account projection =>
    obtain ⟨fresh, hop⟩ := map_fst_eq_ok.mp hop
    exact published_insertAccount h hop
  | insertEvent ev =>
    obtain ⟨fresh, hop⟩ := map_fst_eq_ok.mp hop
    obtain ⟨-, ⟨-, rfl, -⟩ | ⟨-, rfl, -⟩⟩ := insertEvent_eq_ok.mp hop
    · exact iff_of_true h trivial
    · refine iff_of_true
        (h.same rfl rfl (fun k r hk => .inl ⟨r, hk⟩) fun a kind n v hc => ?_) trivial
      left
      cases kind <;> exact hc
  | recordGap gap =>
    obtain ⟨-, rfl⟩ := recordGap_eq_ok.mp hop
    refine iff_of_true (h.same rfl rfl (fun k r hk => .inl ⟨r, hk⟩) fun a kind n v hc => ?_) trivial
    left
    cases kind <;> exact hc
  | markGap gap status =>
    obtain ⟨-, rfl⟩ := markGap_eq_ok.mp hop
    refine iff_of_true (h.same rfl rfl (fun k r hk => .inl ⟨r, hk⟩) fun a kind n v hc => ?_) trivial
    left
    cases kind <;> exact hc

end Steps

section Runs

variable {s s' : Source} {tr : List (Transition Source SourceEvent)}

/-- Between any two transactions of a run, and wherever it stops, the public tables are settled
exactly when every transaction was in order. -/
theorem published_iff_inOrder (hs : Published s.engine.db) (hrun : Run SourceStep s tr s') :
    (∀ x ∈ tr, Published x.target.engine.db) ↔
      ∀ x ∈ tr, ∀ op, x.label = .carriedOut op → InOrder x.source.engine.db op := by
  induction tr generalizing s with
  | nil => simp
  | cons x tr ih =>
    obtain ⟨rfl, hstep, hrun⟩ := hrun
    rw [List.forall_mem_cons, List.forall_mem_cons]
    have hx : Published x.target.engine.db ↔
        ∀ op, x.label = .carriedOut op → InOrder x.source.engine.db op := by
      rcases hstep.db with ⟨op, hlabel, hoperates⟩ | ⟨hlabel, heq⟩
      · rw [published_operates hs hoperates, hlabel]
        constructor
        · rintro hin _ ⟨⟩
          exact hin
        · intro hin
          exact hin op rfl
      · rw [heq]
        exact iff_of_true hs fun op hop => absurd hop (hlabel op)
    constructor
    · rintro ⟨hp, hps⟩
      exact ⟨hx.mp hp, (ih hp hrun).mp hps⟩
    · rintro ⟨hin, hins⟩
      have hp := hx.mpr hin
      exact ⟨hp, (ih hp hrun).mpr hins⟩

end Runs

theorem published_fresh : Published Db.fresh where
  covered := fun _ h => by cases h
  shown := fun _ kind _ _ h => by cases kind <;> cases h

namespace HalfFinalized

/-- The engine on an empty database. -/
def first : Source := ⟨⟨Db.fresh, none⟩, .waiting⟩

def slotFive : SlotUpdate :=
  { slot := 5, parentSlot := none, status := .finalized, blockTime := none }

def taken : Source :=
  ⟨⟨Db.fresh, some 5⟩, .ingesting [.upsertSlot slotFive, .finalizeSlot 5] none none⟩

def written : Source :=
  ⟨⟨{ Db.fresh with indexerSlots := recordSlot .empty slotFive, processedSlot := 5 }, some 5⟩,
    .ingesting [.finalizeSlot 5] none none⟩

/-- Slot 5 is delivered and written down; then the process ends. -/
def trace : List (Transition Source SourceEvent) :=
  [⟨first, .took (.slot slotFive), taken⟩, ⟨taken, .carriedOut (.upsertSlot slotFive), written⟩]

theorem run : Run SourceStep first trace written :=
  ⟨rfl, .take first.engine (.slot slotFive), rfl, .carryOut rfl, rfl⟩

/-- A slot that is written down as finalized is ahead of the checkpoint until it is published. -/
theorem finalized_unpublished : ¬ ∀ s tr s', Published s.engine.db → Run SourceStep s tr s' →
    ∀ x ∈ tr, Published x.target.engine.db := by
  intro h
  have hlast := h first _ _ published_fresh run
    ⟨taken, .carriedOut (.upsertSlot slotFive), written⟩ (List.mem_cons_of_mem _ List.mem_cons_self)
  have hle := (hlast.covered 5 (by decide +kernel)).1
  revert hle
  decide

end HalfFinalized

namespace Overdue

/-- Slot 7 is finalized and shows a provider; slot 6 was passed over. -/
def db : Db :=
  { Db.fresh with
    indexerSlots := ⟨[(6, ⟨none, .confirmed, none⟩), (7, ⟨none, .finalized, none⟩)], by decide⟩
    projProviders := ⟨[(zeroKey, ⟨7, ⟨zeroKey, "Active", 0⟩⟩)], by decide⟩
    finalizedSlot := 7
    processedSlot := 7 }

theorem published_db : Published db where
  covered slot h := by
    obtain ⟨r, hr, hst⟩ := Option.map_eq_some_iff.mp h
    have hmem := Table.get_eq_some.mp hr
    simp only [db, List.mem_cons, List.not_mem_nil, or_false, Prod.mk.injEq] at hmem
    rcases hmem with ⟨rfl, rfl⟩ | ⟨rfl, rfl⟩
    · cases hst
    · exact ⟨UInt64.le_refl 7, fun k r hk => by cases hk⟩
  shown a kind slot v h := by
    cases kind with
    | provider =>
      obtain ⟨r, hr, he⟩ := Option.map_eq_some_iff.mp h
      have hmem := Table.get_eq_some.mp hr
      simp only [db, List.mem_cons, List.not_mem_nil, or_false, Prod.mk.injEq] at hmem
      obtain ⟨rfl, rfl⟩ := hmem
      obtain rfl : 7 = slot := UInt64.toNat_inj.mp (congrArg Prod.fst he)
      exact ⟨by decide, UInt64.le_refl 7⟩
    | config | providerBond | job | challenge | tombstone => cases h

/-- Slot 6 comes to be finalized. -/
def slotSix : SlotUpdate :=
  { slot := 6, parentSlot := none, status := .finalized, blockTime := none }

/-- A provider of slot 6 is delivered after that. -/
def late : AccountUpdate where
  raw := { address := List.Vector.replicate 32 1, slot := 6, writeVersion := 1, owner := none,
           lamports := 0, executable := false, data := none, deleted := false,
           commitment := .processed }
  projection := some { kind := .provider, address := List.Vector.replicate 32 1, slot := 6,
                       writeVersion := 1, payload := .provider ⟨zeroKey, "Active", 1⟩ }

def upserted : Db := (Operation.upsertSlot slotSix).after db

def finalized : Db := (Operation.finalizeSlot 6).after upserted

def published : Db := (Operation.insertAccount late.raw late.projection).after finalized

def amid (d : Db) (control : Control) : Source := ⟨⟨d, some 7⟩, control⟩

def trace : List (Transition Source SourceEvent) :=
  [⟨amid db .waiting, .took (.slot slotSix),
      amid db (.ingesting [.upsertSlot slotSix, .finalizeSlot 6] none none)⟩,
    ⟨amid db (.ingesting [.upsertSlot slotSix, .finalizeSlot 6] none none),
      .carriedOut (.upsertSlot slotSix), amid upserted (.ingesting [.finalizeSlot 6] none none)⟩,
    ⟨amid upserted (.ingesting [.finalizeSlot 6] none none), .carriedOut (.finalizeSlot 6),
      amid finalized (.ingesting [] none none)⟩,
    ⟨amid finalized (.ingesting [] none none), .returned, amid finalized .waiting⟩,
    ⟨amid finalized .waiting, .took (.account late),
      amid finalized (.ingesting [.insertAccount late.raw late.projection] none none)⟩,
    ⟨amid finalized (.ingesting [.insertAccount late.raw late.projection] none none),
      .carriedOut (.insertAccount late.raw late.projection),
      amid published (.ingesting [] none none)⟩]

theorem run : Run SourceStep (amid db .waiting) trace (amid published (.ingesting [] none none)) :=
  ⟨rfl, .take ⟨db, some 7⟩ (.slot slotSix),
    rfl, .carryOut (Operation.operates_after (by decide +kernel)),
    rfl, .carryOut (Operation.operates_after (by decide +kernel)),
    rfl, .giveBack ⟨finalized, some 7⟩ none none,
    rfl, .take ⟨finalized, some 7⟩ (.account late),
    rfl, .carryOut (Operation.operates_after (by decide +kernel)), rfl⟩

theorem inOrder : ∀ x ∈ trace, ∀ op, x.label = .carriedOut op → InOrder x.source.engine.db op := by
  simp only [trace, List.forall_mem_cons]
  refine ⟨?_, ?_, ?_, ?_, ?_, ?_, fun x hx => by cases hx⟩
  · rintro op ⟨⟩
  · rintro op ⟨⟩ -
    exact ⟨by decide, fun k r hk => by cases hk⟩
  · rintro op ⟨⟩
    trivial
  · rintro op ⟨⟩
  · rintro op ⟨⟩
  · rintro op ⟨⟩ -
    have hnow : commitmentAt finalized 6 .processed = .finalized := by decide +kernel
    exact ⟨fun _ => .inl (by decide +kernel), fun hne => absurd hnow hne⟩

/-- The tables stay settled while slot 6 is finalized behind the checkpoint and a provider of it is
published at once. -/
theorem settled_published : Published published ∧
    cell published (List.Vector.replicate 32 1) .provider =
      some (6, .provider ⟨zeroKey, "Active", 1⟩) := by
  have hsettled := (published_iff_inOrder (s := amid db .waiting) published_db run).mpr inOrder
  have hlast : trace.getLast (List.cons_ne_nil _ _) ∈ trace := List.getLast_mem _
  exact ⟨hsettled _ hlast, by decide +kernel⟩

end Overdue

end AgentBond.Indexer
