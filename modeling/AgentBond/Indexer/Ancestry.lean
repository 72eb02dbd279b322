import AgentBond.Foundation.Transition
import AgentBond.Indexer.Transactions
import Mathlib.Logic.Relation

/-! # Finalized ancestry

The engine records the status of a slot before it finalizes the slot, and a slot
recorded as finalized is not asked for its ancestry again. A finalization is
sound exactly when its ancestry holds beforehand.
-/

namespace AgentBond.Indexer

open Foundation

section Ancestry

variable {slots slots' : Table UInt64 SlotRow} {slot a b : UInt64} {d d' : Db} {e : Engine}
  {update : SlotUpdate}

/-- The second slot is the recorded parent of the first. -/
def Parent (slots : Table UInt64 SlotRow) (a b : UInt64) : Prop :=
  ∃ row, slots.get a = some row ∧ row.parentSlot = some b

/-- The second slot comes up on the parent chain of the first. -/
abbrev Ancestor (slots : Table UInt64 SlotRow) : UInt64 → UInt64 → Prop :=
  Relation.TransGen (Parent slots)

theorem ancestryWalk_congr (h : ∀ k, slots'.get k = slots.get k) (n : ℕ) (current : UInt64)
    (visited : List UInt64) :
    ancestryWalk slots' slot n current visited = ancestryWalk slots slot n current visited := by
  induction n generalizing current visited with
  | zero => rfl
  | succ n ih => simp only [ancestryWalk, h, ih]

/-- A walk that goes through meets only stored slots that are alive. -/
theorem alive_of_ancestryWalk {n : ℕ} {visited : List UInt64}
    (h : ancestryWalk slots slot n a visited = .ok ()) (hab : Ancestor slots a b) :
    ∃ row, slots.get b = some row ∧ row.status ≠ .dead := by
  induction n generalizing a visited with
  | zero => cases h
  | succ n ih =>
    simp only [ancestryWalk, bind_eq_ok, ensure_eq_ok, exists_const, u64ToI64_eq_ok] at h
    obtain ⟨-, _, ⟨-, rfl⟩, h⟩ := h
    -- The parent the walk went on to is the first slot of the chain.
    have hfirst : ∀ {c}, Parent slots a c → ∃ row, slots.get c = some row ∧ row.status ≠ .dead ∧
        ancestryWalk slots slot n c (a :: visited) = .ok () := by
      rintro c ⟨row, hrow, hc⟩
      simp only [hrow, hc, bind_eq_ok, ensure_eq_ok, exists_const, okOr_eq_ok] at h
      obtain ⟨-, parentRow, hparent, halive, hwalk⟩ := h
      exact ⟨parentRow, hparent, halive, hwalk⟩
    rcases Relation.TransGen.head'_iff.mp hab with ⟨c, hac, hcb⟩
    obtain ⟨row, hrow, halive, hwalk⟩ := hfirst hac
    rcases Relation.reflTransGen_iff_eq_or_transGen.mp hcb with rfl | hcb
    · exact ⟨row, hrow, halive⟩
    · exact ih hwalk hcb

theorem assertAncestry_congr (h : ∀ k, slots'.get k = slots.get k) :
    assertAncestry slots' slot = assertAncestry slots slot :=
  ancestryWalk_congr h _ _ _

/-- The engine's step on an update. -/
def IngestStep (e : Engine) (update : ChainUpdate) (e' : Engine) : Prop :=
  (ingestUpdate e update).1 = e'

/-- The slot is recorded as finalized. -/
def FinalizedAt (e : Engine) (slot : UInt64) : Prop := slotStatus e.db slot = some .finalized

theorem get_recordSlot (slots : Table UInt64 SlotRow) (update : SlotUpdate) :
    ∃ row, (recordSlot slots update).get update.slot = some row ∧
      row.status = update.status := by
  unfold recordSlot
  split <;> exact ⟨_, Table.get_put_self, rfl⟩

theorem get_recordSlot_of_ne (h : a ≠ update.slot) :
    (recordSlot slots update).get a = slots.get a := by
  unfold recordSlot
  split <;> exact Table.get_put_of_ne h

theorem get_of_finalizeSlot {n : ℕ} (h : finalizeSlot d slot = .ok (d', n))
    (hf : slotStatus d slot = some .finalized) (k : UInt64) :
    d'.indexerSlots.get k = d.indexerSlots.get k := by
  obtain ⟨-, -, -, rfl, -⟩ := finalizeSlot_eq_ok.mp h
  have hslots : (advanceCheckpoint (projectAll (markFinalized d slot)
      (stagedProjections d slot)) slot).indexerSlots = (markFinalized d slot).indexerSlots :=
    (untouched_projectAll _).indexerSlots
  rw [hslots, markFinalized, Table.get_updateWhere]
  cases hk : d.indexerSlots.get k with
  | none => rfl
  | some row =>
    rw [Option.map_some, Option.some.injEq]
    split
    · rename_i hks
      obtain rfl : k = slot := by simpa using hks
      rw [slotStatus_of_get hk, Option.some.injEq] at hf
      obtain ⟨parentSlot, status, blockTime⟩ := row
      obtain rfl : status = .finalized := hf
      rfl
    · rfl

theorem indexerSlots_of_storeProjection {p : DecodedProjection} {now : Bool}
    (h : storeProjection d p now = .ok d') : d'.indexerSlots = d.indexerSlots := by
  obtain ⟨-, -, ⟨-, -, rfl⟩ | ⟨-, rfl⟩⟩ := storeProjection_eq_ok.mp h
  · exact (untouched_project (d := stage d p) _ _ _).indexerSlots
  · rfl

theorem indexerSlots_of_insertAccount {acc : RawAccountVersion}
    {projection : Option DecodedProjection} {fresh : Bool}
    (h : insertAccountWithProjection d acc projection = .ok (d', fresh)) :
    d'.indexerSlots = d.indexerSlots := by
  obtain ⟨-, -, -, ⟨-, rfl, -⟩ | ⟨-, -, ⟨p, -, h⟩ | ⟨-, rfl⟩⟩⟩ := insertAccount_eq_ok.mp h
  · rfl
  · exact (indexerSlots_of_storeProjection h).trans rfl
  · rfl

theorem indexerSlots_of_insertEvent {ev : RawProtocolEvent} {fresh : Bool}
    (h : insertEvent d ev = .ok (d', fresh)) : d'.indexerSlots = d.indexerSlots := by
  obtain ⟨-, ⟨-, rfl, -⟩ | ⟨-, rfl, -⟩⟩ := insertEvent_eq_ok.mp h <;> rfl

theorem indexerSlots_of_ingestEvents (evs : List RawProtocolEvent) :
    (ingestEvents e evs).1.db.indexerSlots = e.db.indexerSlots := by
  induction evs generalizing e with
  | nil => rfl
  | cons ev evs ih =>
    rw [ingestEvents]
    split
    · rfl
    · rename_i hev
      rw [ih]
      exact indexerSlots_of_insertEvent hev

theorem indexerSlots_of_ingestAccount (account : AccountUpdate) :
    (ingestAccount e account).1.db.indexerSlots = e.db.indexerSlots := by
  rw [ingestAccount]
  split
  · rfl
  · rename_i h
    exact indexerSlots_of_insertAccount h

theorem ingestSlot_finalized (hf : update.status = .finalized) :
    (¬ (Accepts e.db update ∧ Timely update) ∧ (ingestSlot e update).2.isOk = false ∧
        ∀ k, (ingestSlot e update).1.db.indexerSlots.get k = e.db.indexerSlots.get k) ∨
      (Accepts e.db update ∧ Timely update) ∧
        ∀ k, (ingestSlot e update).1.db.indexerSlots.get k =
          (recordSlot e.db.indexerSlots update).get k := by
  rw [ingestSlot]
  split
  · rename_i err htrack
    refine Or.inl ⟨fun haccepts => ?_, rfl, fun _ => rfl⟩
    obtain ⟨r, hr⟩ := trackSlot_succeeds e haccepts.1.slot_fits
    cases htrack.symm.trans hr
  · rename_i e₁ gap htrack
    have hslots : e₁.db.indexerSlots = e.db.indexerSlots := by rw [db_of_trackSlot htrack]
    rw [← hslots, ← accepts_congr hslots]
    split
    · rename_i err hupsert
      refine Or.inl ⟨fun haccepts => ?_, rfl, fun _ => rfl⟩
      cases hupsert.symm.trans ((upsertSlot_finalized_eq_ok hf).mpr ⟨haccepts, rfl⟩)
    · rename_i d₁ hupsert
      obtain ⟨haccepts, rfl⟩ := (upsertSlot_finalized_eq_ok hf).mp hupsert
      refine Or.inr ⟨haccepts, fun k => ?_⟩
      rw [if_pos hf]
      split
      · rfl
      · rename_i hfinalize
        obtain ⟨row, hrow, hstatus⟩ := get_recordSlot e₁.db.indexerSlots update
        rw [get_of_finalizeSlot hfinalize ((slotStatus_of_get hrow).trans (by rw [hstatus, hf]))]

theorem finalizedAt_of_ingestSlot (hf : update.status ≠ .finalized)
    (h : FinalizedAt (ingestSlot e update).1 a) : FinalizedAt e a := by
  have hrecorded : ∀ {d' : Db}, d'.indexerSlots = recordSlot e.db.indexerSlots update →
      slotStatus d' a = some .finalized → FinalizedAt e a := by
    intro d' hd h
    rw [slotStatus, hd] at h
    by_cases ha : a = update.slot
    · subst ha
      obtain ⟨row, hrow, hstatus⟩ := get_recordSlot e.db.indexerSlots update
      rw [hrow, Option.map_some, hstatus, Option.some.injEq] at h
      exact absurd h hf
    · rwa [get_recordSlot_of_ne ha] at h
  rw [ingestSlot] at h
  split at h
  · exact h
  · rename_i e₁ gap htrack
    have hslots : e₁.db.indexerSlots = e.db.indexerSlots := by rw [db_of_trackSlot htrack]
    have hsame : slotStatus e₁.db a = some .finalized → FinalizedAt e a := fun h => by
      rwa [slotStatus, hslots] at h
    split at h
    · exact hsame h
    · rename_i d₁ hupsert
      rw [if_neg hf] at h
      obtain ⟨-, ⟨-, hwrite⟩ | ⟨-, rfl⟩⟩ := upsertSlot_eq_ok.mp hupsert
      · exact hrecorded (by rw [indexerSlots_of_writeSlot hwrite, hslots]) h
      · exact hsame h

/-- What the engine promises of a transition: a slot that becomes finalized has its ancestry
stored and alive, and an update for one that has not is rejected. -/
structure SoundlyFinalized (x : Transition Engine ChainUpdate) : Prop where
  ancestry : ∀ slot, ¬ FinalizedAt x.source slot → FinalizedAt x.target slot →
    assertAncestry x.target.db.indexerSlots slot = .ok () ∧
      ∀ a, Ancestor x.target.db.indexerSlots slot a → slotStatus x.target.db a ≠ some .dead
  rejected : ∀ update, x.label = .slot update → update.status = .finalized →
    ¬ FinalizedAt x.source update.slot →
      assertAncestry (recordSlot x.source.db.indexerSlots update) update.slot ≠ .ok () →
        (ingestUpdate x.source x.label).2.isOk = false ∧ ¬ FinalizedAt x.target update.slot

/-- An update that is to finalize a slot, and that the slots accept, comes when the ancestry of the
slot holds. -/
def Vouched (e : Engine) : ChainUpdate → Prop
  | .slot update => update.status = .finalized → ¬ FinalizedAt e update.slot →
      Accepts e.db update → Timely update →
        assertAncestry (recordSlot e.db.indexerSlots update) update.slot = .ok ()
  | _ => True

theorem finalizedAt_congr {e' : Engine} (h : e'.db.indexerSlots.get a = e.db.indexerSlots.get a) :
    FinalizedAt e' a ↔ FinalizedAt e a := by
  rw [FinalizedAt, FinalizedAt, slotStatus, slotStatus, h]

theorem soundlyFinalized_of_quiet {x : Transition Engine ChainUpdate}
    (hquiet : ∀ slot, FinalizedAt x.target slot → FinalizedAt x.source slot)
    (hlabel : ∀ update, x.label = .slot update → update.status ≠ .finalized) :
    SoundlyFinalized x where
  ancestry := fun slot hsource htarget => absurd (hquiet slot htarget) hsource
  rejected := fun update hx hf => absurd hf (hlabel update hx)

theorem soundlyFinalized_iff {x : Transition Engine ChainUpdate}
    (h : IngestStep x.source x.label x.target) :
    SoundlyFinalized x ↔ Vouched x.source x.label := by
  obtain ⟨e, label, e'⟩ := x
  obtain rfl : (ingestUpdate e label).1 = e' := h
  cases label with
  | account account =>
    refine iff_of_true (soundlyFinalized_of_quiet (fun slot => ?_) fun _ hx => by cases hx) trivial
    exact (finalizedAt_congr (congrArg (·.get slot) (indexerSlots_of_ingestAccount account))).mp
  | events evs =>
    refine iff_of_true (soundlyFinalized_of_quiet (fun slot => ?_) fun _ hx => by cases hx) trivial
    exact (finalizedAt_congr (congrArg (·.get slot) (indexerSlots_of_ingestEvents evs))).mp
  | slot update =>
    by_cases hf : update.status = .finalized
    · rcases ingestSlot_finalized (e := e) hf with ⟨hrefused, herror, hsame⟩ | ⟨haccepts, hrecorded⟩
      · have hiff : ∀ k, FinalizedAt (ingestSlot e update).1 k ↔ FinalizedAt e k := fun k =>
          finalizedAt_congr (hsame k)
        refine iff_of_true ⟨fun slot hsource htarget => absurd ((hiff slot).mp htarget) hsource,
          fun update' hx _ hsource _ => ?_⟩ fun _ _ ha ht => absurd ⟨ha, ht⟩ hrefused
        cases hx
        exact ⟨herror, fun htarget => hsource ((hiff _).mp htarget)⟩
      · obtain ⟨row, hrow, hstatus⟩ := get_recordSlot e.db.indexerSlots update
        have hfinalized : FinalizedAt (ingestSlot e update).1 update.slot :=
          (slotStatus_of_get ((hrecorded _).trans hrow)).trans (by rw [hstatus, hf])
        constructor
        · intro hsound _ hsource _ _
          by_contra hne
          exact (hsound.rejected update rfl hf hsource hne).2 hfinalized
        · intro hvouched
          refine ⟨fun slot hsource htarget => ?_, fun update' hx _ hsource hne => ?_⟩
          · -- Only the slot of the update can have become finalized.
            obtain rfl : slot = update.slot := by
              by_contra hne
              refine hsource ((finalizedAt_congr ?_).mp htarget)
              exact (hrecorded slot).trans (get_recordSlot_of_ne hne)
            have hok := hvouched hf hsource haccepts.1 haccepts.2
            rw [← assertAncestry_congr hrecorded] at hok
            refine ⟨hok, fun a ha hdead => ?_⟩
            obtain ⟨row', hrow', halive⟩ := alive_of_ancestryWalk hok ha
            have hstatus' := slotStatus_of_get hrow'
            exact halive (Option.some.inj (hstatus'.symm.trans hdead))
          · cases hx
            exact absurd (hvouched hf hsource haccepts.1 haccepts.2) hne
    · refine iff_of_true (soundlyFinalized_of_quiet (fun slot => finalizedAt_of_ingestSlot hf) ?_)
        fun hf' => absurd hf' hf
      intro update' hx
      cases hx
      exact hf

/-- Along every run of the engine, all finalizations are sound exactly when each update that is to
finalize a slot comes when the ancestry of the slot holds. -/
theorem soundlyFinalized_iff_vouched {tr : List (Transition Engine ChainUpdate)} {e' : Engine}
    (h : Run IngestStep e tr e') :
    (∀ x ∈ tr, SoundlyFinalized x) ↔ ∀ x ∈ tr, Vouched x.source x.label := by
  refine forall₂_congr fun x hx => soundlyFinalized_iff ?_
  exact (h.step_of_mem (I := fun _ => True) (fun _ _ _ _ _ => trivial) trivial hx).2

end Ancestry

namespace Fork

/-- The engine over a database that holds nothing. -/
def start : Engine := ⟨Db.fresh, none⟩

def slotUpdate (slot : UInt64) (parentSlot : Option UInt64) (status : Commitment) : ChainUpdate :=
  .slot { slot, parentSlot, status, blockTime := none }

/-- A run of the engine over the given updates. -/
def follow (e : Engine) : List ChainUpdate → List (Transition Engine ChainUpdate)
  | [] => []
  | update :: updates =>
    ⟨e, update, (ingestUpdate e update).1⟩ :: follow (ingestUpdate e update).1 updates

def arrive (e : Engine) (updates : List ChainUpdate) : Engine :=
  updates.foldl (fun e update => (ingestUpdate e update).1) e

theorem run_follow (e : Engine) (updates : List ChainUpdate) :
    Run IngestStep e (follow e updates) (arrive e updates) := by
  induction updates generalizing e with
  | nil => exact rfl
  | cons update updates ih => exact ⟨rfl, rfl, ih _⟩

/-- A slot and its child, the child finalized. -/
def orderly : List ChainUpdate :=
  [slotUpdate 10 none .processed, slotUpdate 11 (some 10) .processed,
    slotUpdate 11 (some 10) .finalized]

theorem vouched_orderly : ∀ x ∈ follow start orderly, Vouched x.source x.label := by
  intro x hx
  simp only [orderly, follow, List.mem_cons, List.not_mem_nil, or_false] at hx
  rcases hx with rfl | rfl | rfl
  · exact fun h => by cases h
  · exact fun h => by cases h
  · intro _ _ _ _
    decide

theorem soundlyFinalized_orderly : FinalizedAt (arrive start orderly) 11 ∧
    ∀ x ∈ follow start orderly, SoundlyFinalized x := by
  refine ⟨?_, (soundlyFinalized_iff_vouched (run_follow start orderly)).mpr vouched_orderly⟩
  unfold FinalizedAt
  decide +kernel

/-- A dead slot and its child, the child finalized. -/
def astray : List ChainUpdate :=
  [slotUpdate 310 none .dead, slotUpdate 311 (some 310) .finalized]

/-- A slot is finalized over a dead parent. -/
theorem finalized_over_dead_parent : ¬ ∀ (tr : List (Transition Engine ChainUpdate)) (e' : Engine),
    Run IngestStep start tr e' → ∀ x ∈ tr, SoundlyFinalized x := by
  intro h
  have hlast : (⟨arrive start [slotUpdate 310 none .dead], slotUpdate 311 (some 310) .finalized,
      arrive start astray⟩ : Transition Engine ChainUpdate) ∈ follow start astray :=
    List.mem_cons_of_mem _ (List.mem_singleton_self _)
  have hsound := h _ _ (run_follow start astray) _ hlast
  have hfinalized : FinalizedAt (arrive start astray) 311 := by
    unfold FinalizedAt
    decide +kernel
  have hnot : ¬ FinalizedAt (arrive start [slotUpdate 310 none .dead]) 311 := by
    unfold FinalizedAt
    decide +kernel
  have hparent : Parent (arrive start astray).db.indexerSlots 311 310 :=
    ⟨{ parentSlot := some 310, status := .finalized, blockTime := none }, by decide +kernel, rfl⟩
  refine (hsound.ancestry 311 hnot hfinalized).2 310 (Relation.TransGen.single hparent) ?_
  decide +kernel

end Fork

end AgentBond.Indexer
