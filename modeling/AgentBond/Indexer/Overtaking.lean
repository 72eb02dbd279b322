import AgentBond.Indexer.PublicHistory
import AgentBond.Indexer.Versions

/-! # What finalizations publish

When slots are finalized one after the other, the public rows come from what was
staged for them at the start, and the public events from the ones filed for
them. So it is known beforehand which rows end up above the checkpoint.
-/

namespace AgentBond.Indexer

open Foundation

/-- The slot is finalized. -/
def Finalizes (d : Db) (slot : UInt64) (d' : Db) : Prop := ∃ n, finalizeSlot d slot = .ok (d', n)

/-- What is staged for the slots, in the order in which it is published; a slot finalized again
publishes nothing. -/
def stagedFor (d : Db) : List UInt64 → List DecodedProjection
  | [] => []
  | slot :: slots => stagedProjections d slot ++ (stagedFor d slots).filter (·.slot ≠ slot)

section Definitions

variable (d : Db) (slots : List UInt64)

/-- What an address comes to show in the table of a kind once the slots are finalized. -/
def shown (kind : ProjectionKind) (a : Pubkey) : Register ℕ ProjectionPayload :=
  writes a kind ((stagedFor d slots).filter (Concerns kind ·)) (cell d a kind)

/-- What the projections staged above the checkpoint leave at an address, where a row above the
checkpoint may have been already. -/
def overtaking (kind : ProjectionKind) (a : Pubkey) : Register ℕ ProjectionPayload :=
  writes a kind ((stagedFor d slots).filter fun p =>
    Concerns kind p ∧ d.finalizedSlot.toNat < p.slot.toNat)
    (Register.above d.finalizedSlot.toNat (cell d a kind))

/-- The event is finalized already or filed for one of the slots, and the address takes this part
in it. -/
def Upcoming (party : EventRow → Pubkey) (address : Pubkey) (k : EventKey) (r : EventRow) : Prop :=
  d.rawProtocolEvents.get k = some r ∧ (r.commitment = .finalized ∨ r.slot ∈ slots) ∧
    party r = address

end Definitions

variable {d d' : Db} {tr : List (Transition Db UInt64)} {slot t : UInt64} {slots : List UInt64}
  {kind : ProjectionKind} {a : Pubkey} {k : EventKey} {r : EventRow}

/-- An address is overtaken when it comes to show a row above the checkpoint. -/
theorem overtaking_eq_some {e : ℕ × ProjectionPayload} : overtaking d slots kind a = some e ↔
    shown d slots kind a = some e ∧ d.finalizedSlot.toNat < e.1 := by
  have habove : overtaking d slots kind a =
      Register.above d.finalizedSlot.toNat (shown d slots kind a) := by
    rw [overtaking, shown, above_writes, List.filter_filter]
    congr 2
    funext p
    rw [Bool.decide_and, Bool.and_comm]
  rw [habove, Register.above_eq_some]

section Steps

theorem stagedProjections_of_finalizes (h : Finalizes d slot d') :
    stagedProjections d' t = (stagedProjections d t).filter (·.slot ≠ slot) := by
  obtain ⟨n, h⟩ := h
  obtain ⟨-, -, -, rfl, -⟩ := finalizeSlot_eq_ok.mp h
  have hstaged : (advanceCheckpoint (projectAll (markFinalized d slot) (stagedProjections d slot))
      slot).stagedAccountProjections =
        d.stagedAccountProjections.deleteWhere fun k _ => k.slot = slot := by
    rw [advanceCheckpoint, (untouched_projectAll _).stagedAccountProjections]
    rfl
  have hselect : (d.stagedAccountProjections.deleteWhere fun k _ =>
      k.slot = slot).selectWhere (fun k _ => k.slot = t) =
        if t = slot then [] else d.stagedAccountProjections.selectWhere fun k _ => k.slot = t := by
    rw [Table.selectWhere, Table.deleteWhere, List.filter_filter]
    split
    · rename_i ht
      refine List.filter_eq_nil_iff.mpr fun e _ => ?_
      simp [ht]
    · rename_i ht
      refine List.filter_congr fun e _ => ?_
      by_cases he : e.1.slot = t
      · simp [he, ht]
      · simp [he]
  rw [stagedProjections, hstaged, hselect]
  by_cases ht : t = slot
  · rw [if_pos ht]
    refine (List.filter_eq_nil_iff.mpr fun p hp => ?_).symm
    simp [(mem_stagedProjections.mp hp).1, ht]
  · rw [if_neg ht]
    refine (List.filter_eq_self.mpr fun p hp => ?_).symm
    simp [(mem_stagedProjections.mp hp).1, ht]

theorem stagedFor_of_finalizes (h : Finalizes d slot d') (slots : List UInt64) :
    stagedFor d' slots = (stagedFor d slots).filter (·.slot ≠ slot) := by
  induction slots with
  | nil => rfl
  | cons t slots ih =>
    rw [stagedFor, stagedFor, stagedProjections_of_finalizes h, ih, List.filter_append,
      List.filter_filter, List.filter_filter]
    congr 2
    funext p
    exact Bool.and_comm _ _

theorem cell_of_finalizes (h : Finalizes d slot d') : cell d' a kind =
    writes a kind ((stagedProjections d slot).filter (Concerns kind ·)) (cell d a kind) := by
  obtain ⟨n, h⟩ := h
  obtain ⟨-, -, -, rfl, -⟩ := finalizeSlot_eq_ok.mp h
  rw [cell_advanceCheckpoint, cell_projectAll_of_concerns, cell_markFinalized]

theorem event_of_finalizes (h : Finalizes d slot d') : d'.rawProtocolEvents.get k =
    (d.rawProtocolEvents.get k).map fun r =>
      if r.slot = slot then { r with commitment := .finalized } else r := by
  obtain ⟨n, h⟩ := h
  obtain ⟨-, -, -, rfl, -⟩ := finalizeSlot_eq_ok.mp h
  rw [advanceCheckpoint, (untouched_projectAll _).rawProtocolEvents, markFinalized,
    Table.get_updateWhere]
  simp only [decide_eq_true_eq]

end Steps

/-- The rows after the slots are finalized are the ones that were to be shown. -/
theorem cell_of_run (h : Run Finalizes d tr d') :
    cell d' a kind = shown d (tr.map Transition.label) kind a := by
  induction tr generalizing d with
  | nil =>
    obtain rfl : d = d' := h
    rfl
  | cons x tr ih =>
    obtain ⟨rfl, hx, h⟩ := h
    rw [ih h, shown, shown, stagedFor_of_finalizes hx, cell_of_finalizes hx, List.map_cons,
      stagedFor, List.filter_append, writes_append]

section Events

variable {party : EventRow → Pubkey} {address : Pubkey} {s : UInt64}

theorem upcoming_of_finalizes (hparty : ∀ r c, party { r with commitment := c } = party r)
    (h : Finalizes d slot d') : (∃ r, Upcoming d' slots party address k r ∧ r.slot = s) ↔
      ∃ r, Upcoming d (slot :: slots) party address k r ∧ r.slot = s := by
  simp only [Upcoming, event_of_finalizes h, Option.map_eq_some_iff, List.mem_cons]
  constructor
  · rintro ⟨_, ⟨⟨r, hr, rfl⟩, hfinal, haddress⟩, hs⟩
    by_cases hslot : r.slot = slot
    · rw [if_pos hslot] at haddress hs
      exact ⟨r, ⟨hr, .inr (.inl hslot), (hparty r _).symm.trans haddress⟩, hs⟩
    · rw [if_neg hslot] at hfinal haddress hs
      exact ⟨r, ⟨hr, hfinal.imp_right .inr, haddress⟩, hs⟩
  · rintro ⟨r, ⟨hr, hfinal, haddress⟩, hs⟩
    refine ⟨_, ⟨⟨r, hr, rfl⟩, ?_⟩, ?_⟩
    · by_cases hslot : r.slot = slot
      · rw [if_pos hslot]
        exact ⟨.inl rfl, (hparty r _).trans haddress⟩
      · rw [if_neg hslot]
        exact ⟨hfinal.imp_right fun hmem => hmem.resolve_left hslot, haddress⟩
    · rw [← hs]
      split <;> rfl

/-- The finalized events of an address after the slots are finalized are the ones that were
upcoming. -/
theorem event_of_run (hparty : ∀ r c, party { r with commitment := c } = party r)
    (h : Run Finalizes d tr d') : (∃ r, (k, r) ∈ publicEvents party d' address ∧ r.slot = s) ↔
      ∃ r, Upcoming d (tr.map Transition.label) party address k r ∧ r.slot = s := by
  induction tr generalizing d with
  | nil =>
    obtain rfl : d = d' := h
    simp only [mem_publicEvents, Upcoming, List.map_nil, List.not_mem_nil, or_false]
    exact exists_congr fun r => and_congr_left' (and_congr_right' and_comm)
  | cons x tr ih =>
    obtain ⟨rfl, hx, h⟩ := h
    exact (ih h).trans (upcoming_of_finalizes hparty hx)

end Events

end AgentBond.Indexer
