import AgentBond.Indexer.Climbing
import AgentBond.Indexer.Lineage
import AgentBond.Indexer.Statements

/-! # Calls on the slots

Slots are recorded and finalized in any order, over a database that may refuse
any statement it is sent, with other operations in between. A slot moves up only,
keeps its parent, and a call that is answered with an error has changed nothing.
-/

namespace AgentBond.Indexer

open Foundation Script

/-- A call on the slots with the reply it got, or another operation that went through. -/
inductive SlotCall
  | upsertSlot (update : SlotUpdate) (reply : Stored Unit)
  | finalizeSlot (slot : UInt64) (reply : Stored ℕ)
  | other (op : Operation)

/-- An error came back. -/
def SlotCall.Failed : SlotCall → Prop
  | upsertSlot _ reply => reply.isOk = false
  | finalizeSlot _ reply => reply.isOk = false
  | other _ => False

instance : DecidablePred SlotCall.Failed
  | .upsertSlot _ reply => inferInstanceAs (Decidable (reply.isOk = false))
  | .finalizeSlot _ reply => inferInstanceAs (Decidable (reply.isOk = false))
  | .other _ => inferInstanceAs (Decidable False)

/-- The reply and what the call leaves, whatever statements the database refuses. -/
def Answers (d : Db) : SlotCall → Db → Prop
  | .upsertSlot update reply, d' =>
    ∃ refused, (upsertSlotScript update).call .sql refused d = (reply, d')
  | .finalizeSlot slot reply, d' =>
    ∃ refused, (finalizeSlotScript slot).call .sql refused d = (reply, d')
  | .other op, d' => Operates d op d'

/-- From one state to a later one slots move up, keep their parents, and are not taken out of
a final status; the checkpoints do not go back. -/
structure MovesUp (d d' : Db) : Prop where
  status : ∀ a st, slotStatus d a = some st → ∃ st', slotStatus d' a = some st' ∧ st ≤ st'
  settled : ∀ a st, slotStatus d a = some st → st = .finalized ∨ st = .dead →
    slotStatus d' a = some st
  parentSlot : ∀ a p, parentOf d.indexerSlots a = some p → parentOf d'.indexerSlots a = some p
  finalizedSlot : d.finalizedSlot ≤ d'.finalizedSlot
  processedSlot : d.processedSlot ≤ d'.processedSlot

/-- The finalized checkpoint is not ahead of the processed one. -/
def Ordered (d : Db) : Prop := d.finalizedSlot ≤ d.processedSlot

section Calls

variable {d d' : Db} {op : Operation} {c : SlotCall} {tr tr' : List (Transition Db SlotCall)}

theorem Climbs.movesUp (h : Climbs d d') : MovesUp d d' where
  status := fun a st hst => by
    obtain ⟨row, hrow, rfl⟩ := Option.map_eq_some_iff.mp hst
    obtain ⟨row', hrow', hle⟩ := h.indexerSlots a row hrow
    exact ⟨row'.status, slotStatus_of_get hrow', hle.1⟩
  settled := fun a st hst hfinal => by
    obtain ⟨row, hrow, rfl⟩ := Option.map_eq_some_iff.mp hst
    obtain ⟨row', hrow', hle⟩ := h.indexerSlots a row hrow
    have hmax : IsMax row.status := by
      rcases hfinal with hfinal | hfinal
      · exact hfinal ▸ Commitment.isMax_finalized
      · exact hfinal ▸ Commitment.isMax_dead
    rw [slotStatus_of_get hrow', hmax.eq_of_le hle.1]
  parentSlot := fun a p hp => by
    obtain ⟨row, hrow, hp⟩ := Option.bind_eq_some_iff.mp hp
    obtain ⟨row', hrow', hle⟩ := h.indexerSlots a row hrow
    exact Option.bind_eq_some_iff.mpr ⟨row', hrow', hle.2 p hp⟩
  finalizedSlot := h.finalizedSlot
  processedSlot := h.processedSlot

theorem Ordered.of_operates (hd : Ordered d) (h : Operates d op d') : Ordered d' := by
  cases op with
  | upsertSlot update =>
    obtain ⟨-, ⟨-, hwrite⟩ | ⟨-, rfl⟩⟩ := upsertSlot_eq_ok.mp h
    · obtain ⟨-, ⟨-, rfl⟩ | ⟨-, rfl⟩⟩ := writeSlot_eq_ok.mp hwrite
      · exact hd
      · exact UInt64.le_trans hd (u64_le_max_left _ _)
    · exact hd
  | finalizeSlot slot =>
    obtain ⟨n, h⟩ := map_fst_eq_ok.mp h
    obtain ⟨-, -, -, rfl, -⟩ := finalizeSlot_eq_ok.mp h
    have hsame := sameProgress_projectAll (d := markFinalized d slot) (stagedProjections d slot)
    have hle : d.finalizedSlot.toNat ≤ d.processedSlot.toNat := UInt64.le_iff_toNat_le.mp hd
    rw [Ordered, advanceCheckpoint, hsame.finalizedSlot, hsame.processedSlot,
      UInt64.le_iff_toNat_le, toNat_max, toNat_max]
    exact max_le_max_right _ hle
  | insertAccount account projection =>
    cases progresses_of_operates h with
    | idle _ _ _ _ hsame => rwa [Ordered, hsame.finalizedSlot, hsame.processedSlot]
  | insertEvent ev =>
    cases progresses_of_operates h with
    | idle _ _ _ _ hsame => rwa [Ordered, hsame.finalizedSlot, hsame.processedSlot]
  | recordGap gap =>
    obtain ⟨-, rfl⟩ := recordGap_eq_ok.mp h
    exact hd
  | markGap gap status =>
    obtain ⟨-, rfl⟩ := markGap_eq_ok.mp h
    exact hd

/-- A call does what the operation does, or it fails and leaves the database as it is. -/
theorem operates_or_unchanged (h : Answers d c d') :
    (∃ op, Operates d op d') ∧ ¬ c.Failed ∨ d' = d := by
  cases c with
  | upsertSlot update reply =>
    obtain ⟨refused, h⟩ := h
    obtain ⟨u, t, rfl, heffect, rfl⟩ | ⟨-, hsame⟩ := call_cases commitsLast_upsertSlotScript h
    · rw [effect_upsertSlotScript] at heffect
      cases hup : upsertSlot d update with
      | error e =>
        rw [hup] at heffect
        cases heffect
      | ok w =>
        rw [hup] at heffect
        cases heffect
        exact .inl ⟨⟨.upsertSlot update, hup⟩, nofun⟩
    · exact .inr hsame
  | finalizeSlot slot reply =>
    obtain ⟨refused, h⟩ := h
    obtain ⟨n, t, rfl, heffect, rfl⟩ | ⟨-, hsame⟩ := call_cases commitsLast_finalizeSlotScript h
    · rw [effect_finalizeSlotScript] at heffect
      cases hfinalize : finalizeSlot d slot with
      | error e =>
        rw [hfinalize] at heffect
        cases heffect
      | ok r =>
        rw [hfinalize] at heffect
        cases heffect
        exact .inl ⟨⟨.finalizeSlot slot, map_fst_eq_ok.mpr ⟨r.2, hfinalize⟩⟩, nofun⟩
    · exact .inr hsame
  | other op => exact .inl ⟨⟨op, h⟩, id⟩

theorem climbs_of_answers (h : Answers d c d') : Climbs d d' := by
  obtain ⟨⟨op, hop⟩, -⟩ | rfl := operates_or_unchanged h
  · exact climbs_of_operates hop
  · exact .refl _

theorem Ordered.of_answers (hd : Ordered d) (h : Answers d c d') : Ordered d' := by
  obtain ⟨⟨op, hop⟩, -⟩ | rfl := operates_or_unchanged h
  · exact hd.of_operates hop
  · exact hd

theorem unchanged_of_failed (h : Answers d c d') (hc : c.Failed) : d' = d := by
  obtain ⟨-, hno⟩ | hsame := operates_or_unchanged h
  · exact absurd hc hno
  · exact hsame

theorem climbs_of_calls (h : Run Answers d tr d') : Climbs d d' :=
  h.invariant (I := Climbs d) (fun _ _ _ hd hc => hd.trans (climbs_of_answers hc)) (.refl d)

theorem Ordered.of_calls (hd : Ordered d) (h : Run Answers d tr d') : Ordered d' :=
  h.invariant (fun _ _ _ hd hc => hd.of_answers hc) hd

theorem unchanged_of_calls (h : Run Answers d tr d') :
    ∀ x ∈ tr, x.label.Failed → x.target = x.source := by
  intro x hx hfailed
  have hstep := h.step_of_mem (I := fun _ => True) (fun _ _ _ _ _ => trivial) trivial hx
  exact unchanged_of_failed hstep.2 hfailed

/-- From every state the calls have led to and on to every later one, slots and checkpoints
move up, the finalized checkpoint stays behind the processed one, and failed calls change
nothing. -/
theorem slots_move_up (h : Run Answers .fresh tr d) (h' : Run Answers d tr' d') :
    MovesUp d d' ∧ d'.finalizedSlot ≤ d'.processedSlot ∧
      ∀ x ∈ tr ++ tr', x.label.Failed → x.target = x.source := by
  have hfresh : Ordered .fresh := UInt64.le_refl _
  have hall : Run Answers .fresh (tr ++ tr') d' := Run.append_iff.mpr ⟨d, h, h'⟩
  exact ⟨(climbs_of_calls h').movesUp, hfresh.of_calls hall, unchanged_of_calls hall⟩

end Calls

namespace Sample

/-- The call and what it leaves where the database refuses the given statements. -/
def upsertCall (d : Db) (update : SlotUpdate) (refused : ℕ → Bool) : Transition Db SlotCall :=
  ⟨d, .upsertSlot update ((upsertSlotScript update).call .sql refused d).1,
    ((upsertSlotScript update).call .sql refused d).2⟩

def finalizeCall (d : Db) (slot : UInt64) (refused : ℕ → Bool) : Transition Db SlotCall :=
  ⟨d, .finalizeSlot slot ((finalizeSlotScript slot).call .sql refused d).1,
    ((finalizeSlotScript slot).call .sql refused d).2⟩

def seen (status : Commitment) : SlotUpdate :=
  { slot := 5, parentSlot := none, status, blockTime := none }

def nothing : ℕ → Bool := fun _ => false

def recorded : Transition Db SlotCall := upsertCall .fresh (seen .processed) nothing

/-- The checkpoint is refused, after everything else was written. -/
def interrupted : Transition Db SlotCall := finalizeCall recorded.target 5 (· = 8)

def finalized : Transition Db SlotCall := finalizeCall interrupted.target 5 nothing

def buried : Transition Db SlotCall := upsertCall finalized.target (seen .dead) nothing

theorem slot_five_moves_up :
    (MovesUp recorded.target buried.target ∧
      buried.target.finalizedSlot ≤ buried.target.processedSlot ∧
      ∀ x ∈ [recorded] ++ [interrupted, finalized, buried],
        x.label.Failed → x.target = x.source) ∧
      (interrupted.label.Failed ∧ ¬ finalized.label.Failed ∧ buried.label.Failed) ∧
      slotStatus buried.target 5 = some .finalized := by
  refine ⟨slots_move_up ⟨rfl, ⟨nothing, rfl⟩, rfl⟩
    ⟨rfl, ⟨(· = 8), rfl⟩, rfl, ⟨nothing, rfl⟩, rfl, ⟨nothing, rfl⟩, rfl⟩, ?_, ?_⟩
  · decide +kernel
  · decide +kernel

end Sample

end AgentBond.Indexer
