import AgentBond.Indexer.Ancestry

/-! # Operations on the database

Every operation of the indexer is one transaction: it changes the database as a
whole or not at all. A finalized event is left alone by all of them.
-/

namespace AgentBond.Indexer

open Foundation

def markGap (d : Db) (gap : UInt64 × UInt64) (status : GapStatus) : Stored Db := do
  discard (u64ToI64 gap.1)
  discard (u64ToI64 gap.2)
  .ok { d with ingestionGaps := d.ingestionGaps.updateWhere (fun k _ => k = gap) fun _ => status }

inductive Operation
  | upsertSlot (update : SlotUpdate)
  | finalizeSlot (slot : UInt64)
  | insertAccount (account : RawAccountVersion) (projection : Option DecodedProjection)
  | insertEvent (ev : RawProtocolEvent)
  | recordGap (gap : UInt64 × UInt64)
  | markGap (gap : UInt64 × UInt64) (status : GapStatus)

/-- What the operation leaves when it goes through. -/
def Operation.perform (d : Db) : Operation → Stored Db
  | upsertSlot update => Indexer.upsertSlot d update
  | finalizeSlot slot => (Indexer.finalizeSlot d slot).map Prod.fst
  | insertAccount account projection =>
    (insertAccountWithProjection d account projection).map Prod.fst
  | insertEvent ev => (Indexer.insertEvent d ev).map Prod.fst
  | recordGap gap => Indexer.recordGap d gap
  | markGap gap status => Indexer.markGap d gap status

/-- The operation goes through; one that fails changes nothing. -/
def Operates (d : Db) (op : Operation) (d' : Db) : Prop := op.perform d = .ok d'

variable {d d' : Db} {op : Operation} {k : EventKey} {r : EventRow}

theorem map_fst_eq_ok {ε α β : Type} {x : Except ε (α × β)} {a : α} :
    x.map Prod.fst = .ok a ↔ ∃ b, x = .ok (a, b) := by
  cases x with
  | error e => exact iff_of_false (fun h => by cases h) (fun ⟨_, h⟩ => by cases h)
  | ok p =>
    obtain ⟨a', b⟩ := p
    constructor
    · intro h
      cases h
      exact ⟨b, rfl⟩
    · rintro ⟨b', h⟩
      cases h
      rfl

theorem recordGap_eq_ok {gap : UInt64 × UInt64} : recordGap d gap = .ok d' ↔
    (gap.1.toNat < 2 ^ 63 ∧ gap.2.toNat < 2 ^ 63) ∧
      { d with ingestionGaps := d.ingestionGaps.insertNew gap .opened } = d' := by
  simp only [recordGap, bind_eq_ok, discard_eq_ok, u64ToI64_eq_ok, exists_const, exists_and_left,
    exists_eq', and_true, Except.ok.injEq, and_assoc]

theorem markGap_eq_ok {gap : UInt64 × UInt64} {status : GapStatus} : markGap d gap status = .ok d' ↔
    (gap.1.toNat < 2 ^ 63 ∧ gap.2.toNat < 2 ^ 63) ∧
      { d with
        ingestionGaps :=
          d.ingestionGaps.updateWhere (fun k _ => k = gap) fun _ => status } = d' := by
  simp only [markGap, bind_eq_ok, discard_eq_ok, u64ToI64_eq_ok, exists_const, exists_and_left,
    exists_eq', and_true, Except.ok.injEq, and_assoc]

/-- An operation on the events: the others leave them alone. -/
inductive EventEffect (d : Db) : Table EventKey EventRow → Prop
  | same : EventEffect d d.rawProtocolEvents
  | dead (slot : UInt64) : EventEffect d (d.rawProtocolEvents.deleteWhere fun _ r =>
      r.slot = slot ∧ r.commitment ≠ .finalized)
  | finalized (slot : UInt64) : EventEffect d (d.rawProtocolEvents.updateWhere
      (fun _ r => r.slot = slot) fun r => { r with commitment := .finalized })
  | inserted {ev : RawProtocolEvent} (hev : Deliverable d ev)
      (hnone : d.rawProtocolEvents.get ev.key = none) :
      EventEffect d (d.rawProtocolEvents.put ev.key
        (ev.row (commitmentAt d ev.slot ev.commitment)))

theorem eventEffect_of_operates (h : Operates d op d') : EventEffect d d'.rawProtocolEvents := by
  cases op with
  | upsertSlot update =>
    obtain ⟨-, ⟨-, hwrite⟩ | ⟨-, rfl⟩⟩ := upsertSlot_eq_ok.mp h
    · obtain ⟨-, ⟨-, rfl⟩ | ⟨-, rfl⟩⟩ := writeSlot_eq_ok.mp hwrite
      · exact .dead update.slot
      · exact .same
    · exact .same
  | finalizeSlot slot =>
    obtain ⟨n, h⟩ := map_fst_eq_ok.mp h
    obtain ⟨-, -, -, rfl, -⟩ := finalizeSlot_eq_ok.mp h
    rw [advanceCheckpoint, (untouched_projectAll _).rawProtocolEvents]
    exact .finalized slot
  | insertAccount account projection =>
    obtain ⟨fresh, h⟩ := map_fst_eq_ok.mp h
    obtain ⟨-, -, -, ⟨-, rfl, -⟩ | ⟨-, -, ⟨p, -, hstore⟩ | ⟨-, rfl⟩⟩⟩ := insertAccount_eq_ok.mp h
    · exact .same
    · obtain ⟨-, -, ⟨-, -, rfl⟩ | ⟨-, rfl⟩⟩ := storeProjection_eq_ok.mp hstore
      · rw [publish, (untouched_project _ _ _).rawProtocolEvents]
        exact .same
      · exact .same
    · exact .same
  | insertEvent ev =>
    obtain ⟨fresh, h⟩ := map_fst_eq_ok.mp h
    obtain ⟨hev, ⟨-, rfl, -⟩ | ⟨hnone, rfl, -⟩⟩ := insertEvent_eq_ok.mp h
    · exact .same
    · exact .inserted hev hnone
  | recordGap gap =>
    obtain ⟨-, rfl⟩ := recordGap_eq_ok.mp h
    exact .same
  | markGap gap status =>
    obtain ⟨-, rfl⟩ := markGap_eq_ok.mp h
    exact .same

/-- No operation deletes or alters a finalized event. -/
theorem finalized_event_of_operates (h : Operates d op d') (hk : d.rawProtocolEvents.get k = some r)
    (hf : r.commitment = .finalized) : d'.rawProtocolEvents.get k = some r := by
  have heffect := eventEffect_of_operates h
  generalize d'.rawProtocolEvents = events at heffect
  cases heffect with
  | same => exact hk
  | dead slot =>
    rw [Table.get_deleteWhere, hk]
    exact Option.filter_some_pos (by simp [hf])
  | finalized slot =>
    rw [Table.get_updateWhere, hk, Option.map_some]
    split
    · rw [← hf]
    · rfl
  | inserted hev hnone =>
    rw [Table.get_put_of_ne, hk]
    rintro rfl
    cases hk.symm.trans hnone

theorem finalized_event_of_run {tr : List (Transition Db Operation)} (h : Run Operates d tr d')
    (hk : d.rawProtocolEvents.get k = some r) (hf : r.commitment = .finalized) :
    d'.rawProtocolEvents.get k = some r :=
  h.invariant (I := fun d => d.rawProtocolEvents.get k = some r)
    (fun _ _ _ hk h => finalized_event_of_operates h hk hf) hk

/-- The keys of the events pass the checks of their columns. -/
def EventColumns (d : Db) : Prop :=
  ∀ k r, d.rawProtocolEvents.get k = some r →
    64 ≤ k.signature.length ∧ k.signature.length ≤ 128 ∧ k.eventIndex.toNat < 256

theorem EventColumns.operates (hd : EventColumns d) (h : Operates d op d') : EventColumns d' := by
  have heffect := eventEffect_of_operates h
  intro k r hk
  generalize d'.rawProtocolEvents = events at heffect hk
  cases heffect with
  | same => exact hd k r hk
  | dead slot =>
    rw [Table.get_deleteWhere] at hk
    exact hd k r (Option.filter_eq_some_iff.mp hk).1
  | finalized slot =>
    rw [Table.get_updateWhere] at hk
    obtain ⟨r', hk, -⟩ := Option.map_eq_some_iff.mp hk
    exact hd k r' hk
  | @inserted ev hev hnone =>
    rw [Table.get_put] at hk
    split at hk
    · rename_i hkey
      subst hkey
      exact ⟨hev.signature.1, hev.signature.2, hev.index⟩
    · exact hd k r hk

theorem EventColumns.run {tr : List (Transition Db Operation)} (hd : EventColumns d)
    (h : Run Operates d tr d') : EventColumns d' :=
  h.invariant (fun _ _ _ hd h => hd.operates h) hd

namespace Operation

/-- The database after the operation, which is left as it was by one that fails. -/
def after (d : Db) (op : Operation) : Db := (op.perform d).toOption.getD d

theorem operates_after (h : (op.perform d).isOk = true) : Operates d op (op.after d) :=
  eq_ok_of_isOk h

/-- The database after the operations. -/
def carryOut (d : Db) : List Operation → Stored Db
  | [] => .ok d
  | op :: ops => op.perform d >>= fun d => carryOut d ops

theorem run_of_carryOut {ops : List Operation} (h : carryOut d ops = .ok d') :
    ∃ tr, Run Operates d tr d' ∧ tr.map Transition.label = ops := by
  induction ops generalizing d with
  | nil =>
    cases h
    exact ⟨[], rfl, rfl⟩
  | cons op ops ih =>
    obtain ⟨d₁, hop, h⟩ := bind_eq_ok.mp h
    obtain ⟨tr, htr, rfl⟩ := ih h
    exact ⟨⟨d, op, d₁⟩ :: tr, ⟨rfl, hop, htr⟩, rfl⟩

end Operation

end AgentBond.Indexer
