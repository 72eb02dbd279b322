import AgentBond.Foundation.Rising
import AgentBond.Indexer.Coverage

/-! # Slots and checkpoints only move up

The commitments are ordered, with finalized and dead both at the top. Whatever
operation goes through, a recorded slot moves up in this order and keeps a parent
it was given, and neither checkpoint goes back.
-/

namespace AgentBond.Indexer

open Foundation

section Order

namespace Commitment

/-- How far a slot has come. -/
def rank : Commitment → ℕ
  | processed => 0
  | confirmed => 1
  | finalized | dead => 2

/-- Processed is below confirmed, and confirmed is below both finalized and dead. -/
instance : PartialOrder Commitment where
  le a b := a = b ∨ a.rank < b.rank
  le_refl a := .inl rfl
  le_trans a b c hab hbc := by
    rcases hab with rfl | hab
    · exact hbc
    · rcases hbc with rfl | hbc
      · exact .inr hab
      · exact .inr (hab.trans hbc)
  le_antisymm a b hab hba := by
    rcases hab with hab | hab
    · exact hab
    · rcases hba with hba | hba
      · exact hba.symm
      · exact absurd hab hba.asymm

theorem le_iff {a b : Commitment} : a ≤ b ↔ a = b ∨ a.rank < b.rank := Iff.rfl

theorem canUpgrade_iff_le {a b : Commitment} : a.canUpgrade b = true ↔ a ≤ b := by
  rw [le_iff]
  cases a <;> cases b <;> decide

theorem isMax_finalized : IsMax finalized := by
  intro b h
  cases b <;> revert h <;> simp [le_iff, rank]

theorem isMax_dead : IsMax dead := by
  intro b h
  cases b <;> revert h <;> simp [le_iff, rank]

theorem le_finalized {a : Commitment} (h : a ≠ dead) : a ≤ finalized := by
  rw [le_iff]
  cases a with
  | processed => exact .inr (by decide)
  | confirmed => exact .inr (by decide)
  | finalized => exact .inl rfl
  | dead => exact absurd rfl h

end Commitment

/-- A row is above another with no higher status and no parent but its own. -/
instance : Preorder SlotRow where
  le r r' := r.status ≤ r'.status ∧ ∀ p, r.parentSlot = some p → r'.parentSlot = some p
  le_refl r := ⟨le_rfl, fun _ => id⟩
  le_trans _ _ _ h h' := ⟨h.1.trans h'.1, fun p hp => h'.2 p (h.2 p hp)⟩

end Order

section Advance

variable {d d' d'' : Db} {op : Operation} {update : SlotUpdate} {slot a : UInt64}

/-- No row of a slot falls, and no checkpoint goes back. -/
structure Climbs (d d' : Db) : Prop where
  indexerSlots : d.indexerSlots.Rises d'.indexerSlots
  finalizedSlot : d.finalizedSlot ≤ d'.finalizedSlot
  processedSlot : d.processedSlot ≤ d'.processedSlot

theorem Climbs.refl (d : Db) : Climbs d d :=
  ⟨.refl _, UInt64.le_refl _, UInt64.le_refl _⟩

theorem Climbs.trans (h : Climbs d d') (h' : Climbs d' d'') : Climbs d d'' :=
  ⟨h.indexerSlots.trans h'.indexerSlots, UInt64.le_trans h.finalizedSlot h'.finalizedSlot,
    UInt64.le_trans h.processedSlot h'.processedSlot⟩

theorem climbs_of_eq (hslots : d'.indexerSlots = d.indexerSlots)
    (hfinalized : d'.finalizedSlot = d.finalizedSlot)
    (hprocessed : d'.processedSlot = d.processedSlot) : Climbs d d' :=
  ⟨hslots ▸ .refl _, hfinalized ▸ UInt64.le_refl _, hprocessed ▸ UInt64.le_refl _⟩

theorem rises_recordSlot (hup : Upgrades d update) :
    d.indexerSlots.Rises (recordSlot d.indexerSlots update) := by
  unfold recordSlot
  cases hrow : d.indexerSlots.get update.slot with
  | none => exact Table.rises_put fun r hr => by rw [hrow] at hr; cases hr
  | some row =>
    refine Table.rises_put fun r hr => ?_
    obtain rfl := Option.some.inj (hrow.symm.trans hr)
    refine ⟨Commitment.canUpgrade_iff_le.mp (hup row hrow), fun p hp => ?_⟩
    rw [hp]
    rfl

theorem climbs_of_upsertSlot (h : upsertSlot d update = .ok d') : Climbs d d' := by
  obtain ⟨-, ⟨hup, hwrite⟩ | ⟨-, rfl⟩⟩ := upsertSlot_eq_ok.mp h
  · have hrises := rises_recordSlot hup
    obtain ⟨-, ⟨-, rfl⟩ | ⟨-, rfl⟩⟩ := writeSlot_eq_ok.mp hwrite
    · exact ⟨hrises, UInt64.le_refl _, UInt64.le_refl _⟩
    · exact ⟨hrises, UInt64.le_refl _, u64_le_max_left _ _⟩
  · exact .refl d

theorem climbs_of_finalizeSlot {n : ℕ} (h : finalizeSlot d slot = .ok (d', n)) : Climbs d d' := by
  obtain ⟨-, ⟨row, hrow, hdead, -⟩, -, rfl, -⟩ := finalizeSlot_eq_ok.mp h
  have hsame := sameProgress_projectAll (d := markFinalized d slot) (stagedProjections d slot)
  refine ⟨?_, ?_, ?_⟩
  · rw [advanceCheckpoint, (untouched_projectAll _).indexerSlots]
    refine Table.rises_updateWhere fun k r hr hk => ?_
    obtain rfl : k = slot := of_decide_eq_true hk
    obtain rfl := Option.some.inj (hrow.symm.trans hr)
    exact ⟨Commitment.le_finalized hdead, fun _ => id⟩
  · rw [advanceCheckpoint, hsame.finalizedSlot]
    exact u64_le_max_left _ _
  · rw [advanceCheckpoint, hsame.processedSlot]
    exact u64_le_max_left _ _

/-- Deliveries and gaps leave the slots and the checkpoints alone. -/
theorem climbs_of_operates (h : Operates d op d') : Climbs d d' := by
  cases op with
  | upsertSlot update => exact climbs_of_upsertSlot h
  | finalizeSlot slot =>
    obtain ⟨n, h⟩ := map_fst_eq_ok.mp h
    exact climbs_of_finalizeSlot h
  | insertAccount account projection =>
    cases progresses_of_operates h with
    | idle _ _ _ hslots hsame =>
      exact climbs_of_eq hslots hsame.finalizedSlot hsame.processedSlot
  | insertEvent ev =>
    cases progresses_of_operates h with
    | idle _ _ _ hslots hsame =>
      exact climbs_of_eq hslots hsame.finalizedSlot hsame.processedSlot
  | recordGap gap =>
    obtain ⟨-, rfl⟩ := recordGap_eq_ok.mp h
    exact climbs_of_eq rfl rfl rfl
  | markGap gap status =>
    obtain ⟨-, rfl⟩ := markGap_eq_ok.mp h
    exact climbs_of_eq rfl rfl rfl

theorem climbs_of_run {tr : List (Transition Db Operation)} (h : Run Operates d tr d') :
    Climbs d d' :=
  h.invariant (I := Climbs d) (fun _ _ _ hd hop => hd.trans (climbs_of_operates hop)) (.refl d)

end Advance

end AgentBond.Indexer
