import AgentBond.Indexer.Source
import Mathlib.Data.List.Induction

/-! # Skipped slots

The cursor of the engine runs ahead of the checkpoint and is lost with the
process. What lies between is written down, or the transactions that are left
announce it; none of them moves the checkpoint past what is announced.
-/

namespace AgentBond.Indexer

open Foundation

/-- The slot has a row or lies within a recorded gap. -/
def Covered (d : Db) (slot : UInt64) : Prop :=
  (∃ row, d.indexerSlots.get slot = some row) ∨
    ∃ gap status, d.ingestionGaps.get gap = some status ∧ gap.1 ≤ slot ∧ slot ≤ gap.2

namespace Operation

/-- The operation is going to cover the slot. -/
def Announces : Operation → UInt64 → Prop
  | upsertSlot update, slot => slot = update.slot
  | recordGap gap, slot => gap.1 ≤ slot ∧ slot ≤ gap.2
  | _, _ => False

/-- The slot the operation may move the checkpoint to. -/
def raises : Operation → Option UInt64
  | upsertSlot update => some update.slot
  | finalizeSlot slot => some slot
  | _ => none

/-- The operation marks a gap. -/
def Marks : Operation → Prop
  | markGap _ _ => True
  | _ => False

end Operation

/-- Once the checkpoint may move, nothing is left to be announced. -/
def AnnouncedFirst (ops : List Operation) : Prop :=
  ops.Pairwise fun a b => a.raises ≠ none → ∀ slot, ¬ b.Announces slot

variable {d d' : Db} {e : Engine} {op : Operation} {slot : UInt64} {ops : List Operation}

section Transactions

/-- What an operation does to slots, gaps and checkpoint. -/
inductive Progresses (d d' : Db) : Operation → Prop

  | idle {op : Operation} : op.raises = none → (∀ slot, ¬ op.Announces slot) → ¬ op.Marks →
      d'.indexerSlots = d.indexerSlots → SameProgress d d' → Progresses d d' op

  | slot {update : SlotUpdate} : (∃ row, d'.indexerSlots.get update.slot = some row) →
      (∀ s row, d.indexerSlots.get s = some row → ∃ row', d'.indexerSlots.get s = some row') →
      d'.ingestionGaps = d.ingestionGaps →
      d'.processedSlot = d.processedSlot ∨ d'.processedSlot = max d.processedSlot update.slot →
      Progresses d d' (.upsertSlot update)

  | finalized {slot : UInt64} :
      (∀ s row, d.indexerSlots.get s = some row → ∃ row', d'.indexerSlots.get s = some row') →
      d'.ingestionGaps = d.ingestionGaps → d'.processedSlot = max d.processedSlot slot →
      Progresses d d' (.finalizeSlot slot)

  | gap {gap : Gap} : d'.indexerSlots = d.indexerSlots →
      d'.ingestionGaps = d.ingestionGaps.insertNew gap .opened →
      d'.processedSlot = d.processedSlot → Progresses d d' (.recordGap gap)

  | marked {gap : Gap} {status : GapStatus} : d'.indexerSlots = d.indexerSlots →
      d'.ingestionGaps = d.ingestionGaps.updateWhere (fun k _ => k = gap) (fun _ => status) →
      d'.processedSlot = d.processedSlot → Progresses d d' (.markGap gap status)

theorem progresses_upsertSlot {update : SlotUpdate} (h : upsertSlot d update = .ok d') :
    Progresses d d' (.upsertSlot update) := by
  obtain ⟨-, ⟨-, hwrite⟩ | ⟨hno, rfl⟩⟩ := upsertSlot_eq_ok.mp h
  · have hslots := indexerSlots_of_writeSlot hwrite
    obtain ⟨row, hrow, -⟩ := get_recordSlot d.indexerSlots update
    have hkept : ∀ s row, d.indexerSlots.get s = some row →
        ∃ row', d'.indexerSlots.get s = some row' := by
      intro s row' hrow'
      rw [hslots]
      by_cases hs : s = update.slot
      · rw [hs]
        exact ⟨row, hrow⟩
      · rw [get_recordSlot_of_ne hs]
        exact ⟨row', hrow'⟩
    obtain ⟨-, ⟨-, rfl⟩ | ⟨-, rfl⟩⟩ := writeSlot_eq_ok.mp hwrite
    · exact .slot ⟨row, hrow⟩ hkept rfl (.inl rfl)
    · exact .slot ⟨row, hrow⟩ hkept rfl (.inr rfl)
  · refine .slot ?_ (fun _ row hrow => ⟨row, hrow⟩) rfl (.inl rfl)
    cases hrow : d.indexerSlots.get update.slot with
    | some row => exact ⟨row, rfl⟩
    | none => exact absurd (fun row hrow' => by rw [hrow] at hrow'; cases hrow') hno

theorem progresses_of_operates (h : Operates d op d') : Progresses d d' op := by
  cases op with
  | upsertSlot update => exact progresses_upsertSlot h
  | finalizeSlot slot =>
    obtain ⟨n, h⟩ := map_fst_eq_ok.mp h
    obtain ⟨-, -, -, rfl, -⟩ := finalizeSlot_eq_ok.mp h
    obtain ⟨-, hprocessed, hgaps⟩ := sameProgress_projectAll (d := markFinalized d slot)
      (stagedProjections d slot)
    refine .finalized (fun s row hrow => ?_) hgaps ?_
    · rw [advanceCheckpoint, (untouched_projectAll _).indexerSlots, markFinalized,
        Table.get_updateWhere, hrow]
      exact ⟨_, rfl⟩
    · rw [advanceCheckpoint, hprocessed]
      rfl
  | insertAccount account projection =>
    obtain ⟨fresh, h⟩ := map_fst_eq_ok.mp h
    obtain ⟨-, -, -, ⟨-, rfl, -⟩ | ⟨-, -, ⟨p, -, hstore⟩ | ⟨-, rfl⟩⟩⟩ := insertAccount_eq_ok.mp h
    · exact .idle rfl (fun _ => id) id rfl ⟨rfl, rfl, rfl⟩
    · obtain ⟨-, -, ⟨-, -, rfl⟩ | ⟨-, rfl⟩⟩ := storeProjection_eq_ok.mp hstore
      · obtain ⟨hfinalized, hprocessed, hgaps⟩ :=
          sameProgress_project (d := stage (recordVersion d account) p) p.address p.slot p.payload
        exact .idle rfl (fun _ => id) id (untouched_project _ _ _).indexerSlots
          ⟨hfinalized, hprocessed, hgaps⟩
      · exact .idle rfl (fun _ => id) id rfl ⟨rfl, rfl, rfl⟩
    · exact .idle rfl (fun _ => id) id rfl ⟨rfl, rfl, rfl⟩
  | insertEvent ev =>
    obtain ⟨fresh, h⟩ := map_fst_eq_ok.mp h
    obtain ⟨-, ⟨-, rfl, -⟩ | ⟨-, rfl, -⟩⟩ := insertEvent_eq_ok.mp h <;>
      exact .idle rfl (fun _ => id) id rfl ⟨rfl, rfl, rfl⟩
  | recordGap gap =>
    obtain ⟨-, rfl⟩ := recordGap_eq_ok.mp h
    exact .gap rfl rfl rfl
  | markGap gap status =>
    obtain ⟨-, rfl⟩ := markGap_eq_ok.mp h
    exact .marked rfl rfl rfl

theorem Covered.operates (hc : Covered d slot) (h : Operates d op d') : Covered d' slot := by
  have hprogress := progresses_of_operates h
  rcases hc with ⟨row, hrow⟩ | ⟨gap, status, hgap, hrange⟩
  · left
    cases hprogress with
    | slot _ hkept _ _ => exact hkept slot row hrow
    | finalized hkept _ _ => exact hkept slot row hrow
    | idle _ _ _ hslots _ | gap hslots _ _ | marked hslots _ _ =>
      rw [hslots]
      exact ⟨row, hrow⟩
  · right
    suffices h : ∃ status, d'.ingestionGaps.get gap = some status by
      obtain ⟨status', h⟩ := h
      exact ⟨gap, status', h, hrange⟩
    cases hprogress with
    | idle _ _ _ _ hsame =>
      rw [hsame.ingestionGaps]
      exact ⟨status, hgap⟩
    | slot _ _ hgaps _ | finalized _ hgaps _ =>
      rw [hgaps]
      exact ⟨status, hgap⟩
    | gap _ hgaps _ =>
      rw [hgaps, Table.get_insertNew]
      split
      · exact ⟨_, rfl⟩
      · exact ⟨status, hgap⟩
    | marked _ hgaps _ =>
      rw [hgaps, Table.get_updateWhere, hgap]
      exact ⟨_, rfl⟩

theorem Operation.Announces.covered (ha : op.Announces slot) (h : Operates d op d') :
    Covered d' slot := by
  cases progresses_of_operates h with
  | idle _ hnone _ _ _ => exact absurd ha (hnone slot)
  | slot hrow _ _ _ =>
    obtain rfl := ha
    exact .inl hrow
  | @gap gap _ hgaps _ =>
    have hget : d'.ingestionGaps.get gap = some ((d.ingestionGaps.get gap).getD .opened) := by
      rw [hgaps, Table.get_insertNew, if_pos rfl]
    exact .inr ⟨gap, _, hget, ha⟩
  | finalized | marked => exact ha.elim

theorem processedSlot_of_operates (h : Operates d op d') :
    d'.processedSlot = d.processedSlot ∨
      ∃ s, op.raises = some s ∧ d'.processedSlot = max d.processedSlot s := by
  cases progresses_of_operates h with
  | idle _ _ _ _ hsame => exact .inl hsame.processedSlot
  | slot _ _ _ hprocessed =>
    rcases hprocessed with hsame | hmax
    · exact .inl hsame
    · exact .inr ⟨_, rfl, hmax⟩
  | finalized _ _ hprocessed => exact .inr ⟨_, rfl, hprocessed⟩
  | gap _ _ hprocessed | marked _ _ hprocessed => exact .inl hprocessed

end Transactions

section Engines

/-- The transactions that are left of an update. -/
def Control.pending : Control → List Operation
  | .ingesting ops _ _ => ops
  | _ => []

/-- Up to its cursor the engine has covered the slots after the first, or is about to. -/
structure Watching (first : UInt64) (d : Db) (last : UInt64) (ops : List Operation) : Prop where
  processed : d.processedSlot ≤ last
  covered : ∀ slot, first < slot → slot ≤ last →
    Covered d slot ∨ ∃ op ∈ ops, op.Announces slot
  raises : ∀ op ∈ ops, ∀ slot, op.raises = some slot → slot ≤ last
  announced : AnnouncedFirst ops

/-- Every slot after the first is accounted for up to the checkpoint, and up to the cursor. -/
structure Accounted (first : UInt64) (s : Source) : Prop where
  started : first ≤ s.engine.db.processedSlot
  covered : ∀ slot, first < slot → slot ≤ s.engine.db.processedSlot → Covered s.engine.db slot
  watching : s.control ≠ .stopped →
    ∃ last, s.engine.lastSlot = some last ∧ Watching first s.engine.db last s.control.pending

variable {first last : UInt64}

theorem mem_finalizeWhen {update : SlotUpdate} :
    op ∈ finalizeWhen update ↔ update.status = .finalized ∧ op = .finalizeSlot update.slot := by
  unfold finalizeWhen
  split <;> simp [*]

theorem mem_operations_slot {update : SlotUpdate} : op ∈ e.operations (.slot update) ↔
    (∃ gap, e.reveals (.slot update) = some gap ∧ op = .recordGap gap) ∨
      op = .upsertSlot update ∨ update.status = .finalized ∧ op = .finalizeSlot update.slot := by
  simp only [Engine.operations, List.mem_append, List.mem_map, Option.mem_toList,
    List.mem_cons, mem_finalizeWhen, eq_comm (a := op)]

theorem announcedFirst_operations_slot (update : SlotUpdate) :
    AnnouncedFirst (e.operations (.slot update)) := by
  have htail : AnnouncedFirst (.upsertSlot update :: finalizeWhen update) := by
    refine List.pairwise_cons.mpr ⟨fun op hop _ slot ha => ?_, ?_⟩
    · obtain ⟨-, rfl⟩ := mem_finalizeWhen.mp hop
      exact ha
    · unfold finalizeWhen
      split
      · exact List.pairwise_singleton _ _
      · exact List.Pairwise.nil
  cases hr : e.reveals (.slot update) with
  | none =>
    rw [Engine.operations, hr]
    exact htail
  | some gap =>
    rw [Engine.operations, hr]
    exact List.pairwise_cons.mpr ⟨fun _ _ hraises => absurd rfl hraises, htail⟩

theorem Watching.quiet (hprocessed : d.processedSlot ≤ last)
    (hcovered : ∀ slot, first < slot → slot ≤ last → Covered d slot)
    (hquiet : ∀ op ∈ ops, op.raises = none) : Watching first d last ops where
  processed := hprocessed
  covered := fun slot hfirst hle => .inl (hcovered slot hfirst hle)
  raises := fun op hop slot hraise => by
    rw [hquiet op hop] at hraise
    cases hraise
  announced := by
    rw [AnnouncedFirst, List.pairwise_iff_forall_sublist]
    intro a b hsub hraises
    exact absurd (hquiet a (hsub.subset List.mem_cons_self)) hraises

theorem Watching.track {l : Option UInt64} (update : ChainUpdate) (h : Watching first d last [])
    (hl : l = some last) :
    ∃ last', (Engine.track ⟨d, l⟩ update).lastSlot = some last' ∧
      Watching first d last' (Engine.operations ⟨d, l⟩ update) := by
  subst hl
  obtain ⟨hprocessed, hcovered, -, -⟩ := h
  have hold : ∀ slot, first < slot → slot ≤ last → Covered d slot := fun slot hfirst hle =>
    (hcovered slot hfirst hle).resolve_right (by simp)
  cases update with
  | slot update =>
    refine ⟨max last update.slot, rfl, ?_, ?_, ?_, announcedFirst_operations_slot update⟩
    · rw [UInt64.le_iff_toNat_le, toNat_max]
      rw [UInt64.le_iff_toNat_le] at hprocessed
      omega
    · intro slot hfirst hle
      by_cases hlast : slot ≤ last
      · exact .inl (hold slot hfirst hlast)
      right
      by_cases hslot : slot = update.slot
      · exact ⟨.upsertSlot update, mem_operations_slot.mpr (.inr (.inl rfl)), hslot⟩
      -- The slot lies strictly between the cursor and the update.
      rw [UInt64.le_iff_toNat_le, toNat_max] at hle
      rw [UInt64.le_iff_toNat_le] at hlast
      have hne : slot.toNat ≠ update.slot.toNat := fun h => hslot (UInt64.toNat_inj.mp h)
      obtain ⟨gap, hgap⟩ : ∃ gap, detectForwardGap last update.slot = some gap := by
        have hlt : last.toNat + 1 < update.slot.toNat := by omega
        have hbound := update.slot.toNat_lt
        exact ⟨_, if_pos ⟨by omega, hlt⟩⟩
      obtain ⟨hlt, hfrom, hto⟩ := detectForwardGap_eq_some.mp hgap
      refine ⟨.recordGap gap, mem_operations_slot.mpr (.inl ⟨gap, hgap, rfl⟩), ?_, ?_⟩ <;>
        rw [UInt64.le_iff_toNat_le] <;> omega
    · intro op hop slot hraise
      have hslot : slot = update.slot := by
        rcases mem_operations_slot.mp hop with ⟨gap, -, rfl⟩ | rfl | ⟨-, rfl⟩ <;> cases hraise <;>
          rfl
      rw [hslot, UInt64.le_iff_toNat_le, toNat_max]
      omega
  | account account =>
    refine ⟨last, rfl, .quiet hprocessed hold fun op hop => ?_⟩
    rw [List.mem_singleton.mp hop]
    rfl
  | events evs =>
    refine ⟨last, rfl, .quiet hprocessed hold fun op hop => ?_⟩
    obtain ⟨ev, -, rfl⟩ := List.mem_map.mp hop
    rfl

/-- A transaction keeps the account of the slots. -/
theorem Watching.operates (h : Watching first d last (op :: ops)) (hop : Operates d op d') :
    Watching first d' last ops ∧
      (d'.processedSlot ≠ d.processedSlot → ∀ slot, first < slot → slot ≤ last →
        Covered d' slot) := by
  obtain ⟨hprocessed, hcovered, hraises, hordered⟩ := h
  obtain ⟨hhead, htail⟩ := List.pairwise_cons.mp hordered
  have hleft : ∀ slot, first < slot → slot ≤ last →
      Covered d' slot ∨ ∃ op ∈ ops, op.Announces slot := by
    intro slot hfirst hle
    rcases hcovered slot hfirst hle with hc | ⟨op', hmem, ha⟩
    · exact .inl (hc.operates hop)
    · rcases List.mem_cons.mp hmem with rfl | hmem
      · exact .inl (ha.covered hop)
      · exact .inr ⟨op', hmem, ha⟩
  constructor
  · refine ⟨?_, hleft, fun op' hmem => hraises op' (List.mem_cons_of_mem _ hmem), htail⟩
    rcases processedSlot_of_operates hop with hsame | ⟨slot, hraise, hmax⟩
    · rw [hsame]
      exact hprocessed
    · rw [hmax, UInt64.le_iff_toNat_le, toNat_max]
      have hle := hraises op List.mem_cons_self slot hraise
      rw [UInt64.le_iff_toNat_le] at hle hprocessed
      omega
  · intro hne slot hfirst hle
    rcases processedSlot_of_operates hop with hsame | ⟨s, hraise, -⟩
    · exact absurd hsame hne
    · refine (hleft slot hfirst hle).resolve_right ?_
      rintro ⟨op', hmem, ha⟩
      exact hhead op' hmem (by rw [hraise]; simp) slot ha

theorem pending_afterUpdate (revealed : Option Gap) (repair : Option Repair) :
    (Control.afterUpdate revealed repair).pending = [] := by
  cases revealed <;> cases repair <;>
    simp only [Control.afterUpdate, Control.repairGap, Control.fetchFrom] <;>
    (try split) <;> (try split) <;> rfl

variable {s s' : Source} {ev : SourceEvent}

/-- A transaction leaves every slot accounted for, wherever the engine stops after it. -/
theorem Accounted.carryOut {c c' : Control} (h : Accounted first ⟨e, c⟩)
    (hlast : e.lastSlot = some last) (hw : Watching first e.db last (op :: ops))
    (hop : Operates e.db op d') (hpending : c'.pending = ops) :
    Accounted first ⟨{ e with db := d' }, c'⟩ := by
  obtain ⟨hstarted, hcovered, -⟩ := h
  obtain ⟨hw', hmoved⟩ := hw.operates hop
  refine ⟨?_, fun slot hfirst hle => ?_, fun _ => ⟨last, hlast, ?_⟩⟩
  · rcases processedSlot_of_operates hop with hsame | ⟨s, -, hmax⟩
    · change first ≤ d'.processedSlot
      rw [hsame]
      exact hstarted
    · change first ≤ d'.processedSlot
      rw [hmax, UInt64.le_iff_toNat_le, toNat_max]
      rw [UInt64.le_iff_toNat_le] at hstarted
      exact Nat.le_trans hstarted (Nat.le_max_left _ _)
  · by_cases hsame : d'.processedSlot = e.db.processedSlot
    · change slot ≤ d'.processedSlot at hle
      rw [hsame] at hle
      exact (hcovered slot hfirst hle).operates hop
    · exact hmoved hsame slot hfirst (UInt64.le_trans hle hw'.processed)
  · rw [hpending]
    exact hw'

section Moves

variable {c c' : Control}

theorem Accounted.goOn (h : Accounted first ⟨e, c⟩) (hrunning : c ≠ .stopped)
    (hnone : c.pending = []) (hnone' : c'.pending = []) : Accounted first ⟨e, c'⟩ := by
  obtain ⟨last, hlast, hw⟩ := h.watching hrunning
  refine ⟨h.started, h.covered, fun _ => ⟨last, hlast, ?_⟩⟩
  rw [hnone']
  rw [hnone] at hw
  exact hw

theorem Accounted.stop (h : Accounted first ⟨e, c⟩) : Accounted first ⟨e, .stopped⟩ where
  started := h.started
  covered := h.covered
  watching := fun hrunning => absurd rfl hrunning

/-- What lies between the checkpoint and the cursor is found again from the checkpoint. -/
theorem Accounted.start (h : Accounted first ⟨e, c⟩) (hfirst : 0 < first) :
    Accounted first ⟨{ e with lastSlot := resumeAt e.db }, .waiting⟩ := by
  have hpositive : 0 < e.db.processedSlot := UInt64.lt_of_lt_of_le hfirst h.started
  refine ⟨h.started, h.covered, fun _ => ⟨e.db.processedSlot, if_pos hpositive, ?_⟩⟩
  exact .quiet (UInt64.le_refl _) h.covered (by simp [Control.pending])

theorem Accounted.take (h : Accounted first ⟨e, c⟩) (hrunning : c ≠ .stopped)
    (hnone : c.pending = []) (update : ChainUpdate) (repair : Option Repair) : Accounted first
      ⟨e.track update, .ingesting (e.operations update) (e.reveals update) repair⟩ := by
  obtain ⟨last, hlast, hw⟩ := h.watching hrunning
  rw [hnone] at hw
  obtain ⟨last', hlast', hw'⟩ := hw.track update hlast
  refine ⟨?_, ?_, fun _ => ⟨last', hlast', ?_⟩⟩
  · rw [e.db_track]
    exact h.started
  · rw [e.db_track]
    exact h.covered
  · rw [e.db_track]
    exact hw'

theorem Accounted.mark {gap : Gap} {status : GapStatus} (h : Accounted first ⟨e, c⟩)
    (hrunning : c ≠ .stopped) (hnone : c.pending = [])
    (hop : Operates e.db (.markGap gap status) d') :
    Accounted first ⟨{ e with db := d' }, .waiting⟩ := by
  obtain ⟨last, hlast, hw⟩ := h.watching hrunning
  rw [hnone] at hw
  have hquiet : Watching first e.db last [.markGap gap status] := by
    apply Watching.quiet hw.processed
    · intro slot hslot hle
      exact (hw.covered slot hslot hle).resolve_right (by simp)
    · intro op hmem
      rw [List.mem_singleton.mp hmem]
      rfl
  exact h.carryOut hlast hquiet hop rfl

end Moves

theorem Accounted.step (hfirst : 0 < first) (h : Accounted first s) (hstep : SourceStep s ev s') :
    Accounted first s' := by
  cases hstep with
  | start e => exact h.start hfirst
  | stop s => exact h.stop
  | take e update => exact h.take (by simp) rfl update none
  | takeFetched e gap slot update updates => exact h.take (by simp) rfl update _
  | carryOut hop =>
    obtain ⟨last, hlast, hw⟩ := h.watching (by simp)
    exact h.carryOut hlast hw hop rfl
  | refuse => exact h.stop
  | giveBack e revealed repair => exact h.goOn (by simp) rfl (pending_afterUpdate _ _)
  | fetch => exact h.goOn (by simp) rfl rfl
  | fetchFailed => exact h.goOn (by simp) rfl rfl
  | finish e gap slot =>
    refine h.goOn (by simp) rfl ?_
    unfold Control.fetchFrom
    split <;> rfl
  | reconcile => exact h.goOn (by simp) rfl rfl
  | mark hop => exact h.mark (by simp) rfl hop
  | refuseMark => exact h.stop

end Engines

section Repairs

/-- In this part of the trace each slot of the gap below the given one was fetched for it. -/
def FetchedBelow (tr : List (Transition Source SourceEvent)) (gap : Gap) (n : ℕ) : Prop :=
  ∀ m, gap.1.toNat ≤ m → m < n → ∃ x ∈ tr, ∃ updates,
    x.source.control = .fetching gap m ∧ x.label = .fetched m (some updates)

/-- In this part of the trace the accounts of the gap were reconciled in full. -/
def Reconciled (tr : List (Transition Source SourceEvent)) (gap : Gap) : Prop :=
  ∃ x ∈ tr, x.source.control = .reconciling gap ∧ x.label = .reconciled (some true)

/-- Something holds of the end of the trace, since the engine was last started. -/
def SinceStart (P : List (Transition Source SourceEvent) → Prop)
    (tr : List (Transition Source SourceEvent)) : Prop :=
  ∃ tr₁ tr₂, tr = tr₁ ++ tr₂ ∧ (∀ x ∈ tr₂, x.label ≠ .started) ∧ P tr₂

/-- A gap that comes to be partial or repaired was fetched in full by this run of the engine, and a
repaired one was reconciled. -/
def MarkedRightly (tr : List (Transition Source SourceEvent))
    (x : Transition Source SourceEvent) : Prop :=
  ∀ gap status, status = .partly ∨ status = .repaired →
    x.source.engine.db.ingestionGaps.get gap ≠ some status →
    x.target.engine.db.ingestionGaps.get gap = some status →
    SinceStart (fun tr => FetchedBelow tr gap (gap.2.toNat + 1) ∧
      (status = .repaired → Reconciled tr gap)) tr

variable {tr : List (Transition Source SourceEvent)} {x : Transition Source SourceEvent}
  {gap : Gap} {n : ℕ}

/-- What the engine has done for the gap it repairs, and is allowed to claim. -/
def Evidence (tr : List (Transition Source SourceEvent)) : Control → Prop
  | .ingesting ops _ repair => (∀ op ∈ ops, ¬ op.Marks) ∧ ∀ r, repair = some r →
      SinceStart (FetchedBelow · r.gap (r.slot + 1)) tr
  | .fetching gap slot => SinceStart (FetchedBelow · gap slot) tr
  | .backfilling repair => SinceStart (FetchedBelow · repair.gap (repair.slot + 1)) tr
  | .reconciling gap => SinceStart (FetchedBelow · gap (gap.2.toNat + 1)) tr
  | .marking gap status => status = .partly ∨ status = .repaired →
      SinceStart (fun tr => FetchedBelow tr gap (gap.2.toNat + 1) ∧
        (status = .repaired → Reconciled tr gap)) tr
  | _ => True

theorem SinceStart.snoc {P Q : List (Transition Source SourceEvent) → Prop} (h : SinceStart P tr)
    (hx : x.label ≠ .started) (hPQ : ∀ tr, P tr → Q (tr ++ [x])) : SinceStart Q (tr ++ [x]) := by
  obtain ⟨tr₁, tr₂, rfl, hsince, hP⟩ := h
  refine ⟨tr₁, tr₂ ++ [x], List.append_assoc _ _ _, fun y hy => ?_, hPQ tr₂ hP⟩
  rcases List.mem_append.mp hy with hy | hy
  · exact hsince y hy
  · rw [List.mem_singleton.mp hy]
    exact hx

theorem FetchedBelow.snoc (h : FetchedBelow tr gap n) : FetchedBelow (tr ++ [x]) gap n := by
  intro m hfrom hm
  obtain ⟨y, hy, hfetched⟩ := h m hfrom hm
  exact ⟨y, List.mem_append_left _ hy, hfetched⟩

theorem SinceStart.fetchedBelow_snoc (h : SinceStart (FetchedBelow · gap n) tr)
    (hx : x.label ≠ .started) : SinceStart (FetchedBelow · gap n) (tr ++ [x]) :=
  h.snoc hx fun _ => FetchedBelow.snoc

theorem evidence_fetchFrom (h : SinceStart (FetchedBelow · gap n) tr) :
    Evidence tr (.fetchFrom gap n) := by
  unfold Control.fetchFrom
  split
  · exact h
  · rename_i hlast
    obtain ⟨tr₁, tr₂, htr, hsince, hfetched⟩ := h
    refine ⟨tr₁, tr₂, htr, hsince, fun m hfrom hm => hfetched m hfrom ?_⟩
    omega

theorem evidence_repairGap (gap : Gap) : Evidence tr (.repairGap gap) := by
  unfold Control.repairGap
  split
  · rintro (h | h) <;> cases h
  · refine evidence_fetchFrom ⟨tr, [], (List.append_nil _).symm, ?_, fun m hfrom hm => ?_⟩
    · simp
    · omega

theorem not_marks_operations (update : ChainUpdate) (op : Operation)
    (hop : op ∈ e.operations update) :
    ¬ op.Marks := by
  cases update with
  | slot update =>
    rcases mem_operations_slot.mp hop with ⟨gap, -, rfl⟩ | rfl | ⟨-, rfl⟩ <;> exact id
  | account account =>
    rw [List.mem_singleton.mp hop]
    exact id
  | events evs =>
    obtain ⟨ev, -, rfl⟩ := List.mem_map.mp hop
    exact id

variable {s s' : Source} {ev : SourceEvent}

/-- The evidence grows with every step of a repair. -/
theorem Evidence.step (h : Evidence tr s.control) (hstep : SourceStep s ev s') :
    Evidence (tr ++ [⟨s, ev, s'⟩]) s'.control := by
  cases hstep with
  | start | stop | refuse | refuseMark | mark => trivial
  | take e update => exact ⟨not_marks_operations update, fun r hr => by cases hr⟩
  | takeFetched e gap slot update updates =>
    refine ⟨not_marks_operations update, fun r hr => ?_⟩
    cases hr
    exact SinceStart.fetchedBelow_snoc h (by simp)
  | carryOut hop =>
    obtain ⟨hmarks, hrepair⟩ := h
    refine ⟨fun op hop => hmarks op (List.mem_cons_of_mem _ hop), fun r hr => ?_⟩
    exact (hrepair r hr).fetchedBelow_snoc (by simp)
  | giveBack e revealed repair =>
    cases repair with
    | none =>
      cases revealed with
      | none => trivial
      | some gap => exact evidence_repairGap gap
    | some repair =>
      cases revealed with
      | none => exact (h.2 repair rfl).fetchedBelow_snoc (by simp)
      | some gap => trivial
  | fetch e gap slot updates =>
    refine SinceStart.snoc h (by simp) fun tr hfetched m hfrom hm => ?_
    rcases Nat.lt_or_eq_of_le (Nat.le_of_lt_succ hm) with hlt | rfl
    · exact hfetched.snoc m hfrom hlt
    · exact ⟨_, List.mem_append_right _ List.mem_cons_self, updates, rfl, rfl⟩
  | fetchFailed => rintro (h | h) <;> cases h
  | finish e gap slot => exact evidence_fetchFrom (SinceStart.fetchedBelow_snoc h (by simp))
  | reconcile e gap outcome =>
    refine fun _ => SinceStart.snoc h (by simp) fun tr hfetched =>
      ⟨hfetched.snoc, fun hstatus => ?_⟩
    split at hstatus
    · rename_i houtcome
      rw [houtcome]
      exact ⟨_, List.mem_append_right _ List.mem_cons_self, rfl, rfl⟩
    · cases hstatus

theorem marked_of_operates {op : Operation} {d d' : Db} {status : GapStatus}
    (h : Operates d op d') (hstatus : status = .partly ∨ status = .repaired)
    (hbefore : d.ingestionGaps.get gap ≠ some status)
    (hafter : d'.ingestionGaps.get gap = some status) : op = .markGap gap status := by
  cases progresses_of_operates h with
  | idle _ _ _ _ hsame =>
    rw [hsame.ingestionGaps] at hafter
    exact absurd hafter hbefore
  | slot _ _ hgaps _ | finalized _ hgaps _ =>
    rw [hgaps] at hafter
    exact absurd hafter hbefore
  | gap _ hgaps _ =>
    rw [hgaps, Table.get_insertNew] at hafter
    split at hafter
    · rename_i hgap
      rw [← hgap] at hafter
      cases hg : d.ingestionGaps.get gap with
      | none =>
        rw [hg] at hafter
        rcases hstatus with rfl | rfl <;> cases hafter
      | some old =>
        rw [hg] at hafter hbefore
        exact absurd hafter hbefore
    · exact absurd hafter hbefore
  | @marked gap' status' _ hgaps _ =>
    rw [hgaps, Table.get_updateWhere] at hafter
    obtain ⟨old, hold, hnew⟩ := Option.map_eq_some_iff.mp hafter
    by_cases hgap : gap = gap'
    · rw [if_pos (by simpa using hgap)] at hnew
      rw [hgap, hnew]
    · rw [if_neg (by simpa using hgap)] at hnew
      rw [hnew] at hold
      exact absurd hold hbefore

theorem Evidence.markedRightly (h : Evidence tr s.control) (hstep : SourceStep s ev s') :
    MarkedRightly tr ⟨s, ev, s'⟩ := by
  intro gap status hstatus hbefore hafter
  rcases hstep.db with ⟨op, rfl, hop⟩ | ⟨-, hsame⟩
  · obtain rfl := marked_of_operates hop hstatus hbefore hafter
    cases hstep with
    | carryOut => exact absurd trivial (h.1 _ List.mem_cons_self)
    | mark => exact h hstatus
  · rw [hsame] at hafter
    exact absurd hafter hbefore

/-- Wherever the engine is stopped and started again, every slot that the checkpoint has passed has
a row or lies in a recorded gap, and gaps are marked on evidence. -/
theorem skipped_slots_accounted {e : Engine} (hp : 1 ≤ e.db.processedSlot)
    (hrun : Run SourceStep ⟨e, .stopped⟩ tr s) :
    (∀ slot, e.db.processedSlot < slot → slot ≤ s.engine.db.processedSlot →
      Covered s.engine.db slot) ∧ AlongTrace MarkedRightly tr := by
  constructor
  · have hfirst : 0 < e.db.processedSlot := UInt64.lt_of_lt_of_le (by decide) hp
    have hstart : Accounted e.db.processedSlot ⟨e, .stopped⟩ := by
      refine ⟨UInt64.le_refl _, fun slot hlt hle => ?_, fun h => absurd rfl h⟩
      exact absurd (UInt64.lt_of_lt_of_le hlt hle) (UInt64.lt_irrefl _)
    exact (hrun.invariant (fun _ _ _ h hstep => h.step hfirst hstep) hstart).covered
  · suffices h : Evidence tr s.control ∧ AlongTrace MarkedRightly tr from h.2
    clear hp
    induction tr using List.reverseRecOn generalizing s with
    | nil =>
      obtain rfl := hrun
      exact ⟨trivial, alongTrace_nil⟩
    | append_singleton tr x ih =>
      obtain ⟨t, hbefore, rfl, hstep, rfl⟩ := Run.append_iff.mp hrun
      obtain ⟨hevidence, halong⟩ := ih hbefore
      exact ⟨hevidence.step hstep, alongTrace_snoc.mpr ⟨halong, hevidence.markedRightly hstep⟩⟩

end Repairs

namespace Restarted

/-- The stream was followed up to slot 5, and goes on with slot 8. -/
def earlier : Db := { Db.fresh with processedSlot := 5 }

def slotEight : ChainUpdate :=
  .slot { slot := 8, parentSlot := none, status := .confirmed, blockTime := none }

def later : Db := (ingestUpdate ⟨earlier, some 5⟩ slotEight).1.db

theorem skipped_slot_recorded : Covered later 7 := by
  have hstart : SourceStep ⟨⟨earlier, none⟩, .stopped⟩ .started ⟨⟨earlier, some 5⟩, .waiting⟩ :=
    .start ⟨earlier, none⟩
  obtain ⟨s, tr, hrun⟩ := run_of_ingestUpdate (e := ⟨earlier, some 5⟩) slotEight
  have hall : Run SourceStep ⟨⟨earlier, none⟩, .stopped⟩ (⟨_, .started, _⟩ :: _) _ :=
    ⟨rfl, hstart, hrun⟩
  exact (skipped_slots_accounted (by decide) hall).1 7 (by decide) (by decide +kernel)

end Restarted

end AgentBond.Indexer
