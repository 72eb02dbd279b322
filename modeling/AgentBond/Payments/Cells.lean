import AgentBond.Payments.Settlement

/-! # Settlements as leased cells

Under each digest a store keeps a leased cell: what a call does to it is what
the cell does, unless the store refuses the call, and no call touches another
cell except that the memory store may drop it.
-/

namespace AgentBond.Payments

open Foundation

/-- The cell of one transaction. -/
abbrev LeaseCell := Cell SettlementBinding LeaseToken PaidDemoResult

def terms : LeaseTerms := { leaseTtl := seconds 30, failRetry := seconds 2 }

/-- How a store puts an answer. -/
def reply : Answer LeaseToken PaidDemoResult → Paid BeginOutcome
  | .cached result => .ok (.cached result)
  | .acquired lease => .ok (.acquired lease)
  | .recovered lease => .ok (.recoveredStale lease)
  | .busy => .error .settlementInProgress
  | .mismatch => .error .bindingMismatch

variable {now : ℕ} {lease : LeaseToken} {digest k : Text} {binding : SettlementBinding}
  {result : PaidDemoResult} {r : Paid BeginOutcome} {u : Paid Unit}

section MemoryCells

open Memory

variable {m m' : Entries}

def Memory.State.cell : State → LeaseCell
  | .settling b l started => .settling b l started
  | .settled b result _ => .settled b result
  | .failed b failedAt => .failed b failedAt

/-- The cell under a digest. -/
def Memory.cellAt (m : Entries) (k : Text) : Option LeaseCell := (m.get k).map State.cell

/-- The entries `begin` does not drop. -/
def Memory.kept (now : ℕ) (digest : Text) (m : Entries) : Entries :=
  match (evict now m).get digest with
  | some _ => evict now m
  | none => makeRoom now (evict now m)

theorem filter_eq_or {α : Type} (o : Option α) (p : α → Bool) :
    o.filter p = o ∨ o.filter p = none := by
  cases o with
  | none => exact .inl rfl
  | some a => by_cases h : p a = true <;> simp [h]

theorem Memory.get_evict : (evict now m).get k =
    (m.get k).filter fun s => decide (now - s.since ≤ entryTtl) := by
  rw [evict, Table.get_deleteWhere]
  congr 1
  funext s
  by_cases h : entryTtl < now - s.since
  · simp only [h, decide_true, Bool.not_true, decide_eq_false (Nat.not_le.mpr h)]
  · simp only [h, decide_false, Bool.not_false, decide_eq_true (Nat.not_lt.mp h)]

theorem Memory.get_evictOneTargeted : (evictOneTargeted now m).get k = m.get k ∨
    (evictOneTargeted now m).get k = none := by
  unfold evictOneTargeted
  split
  · rw [Table.get_deleteWhere]
    exact filter_eq_or _ _
  · exact .inl rfl

theorem Memory.get_makeRoom (now : ℕ) (m : Entries) (k : Text) :
    (makeRoom now m).get k = m.get k ∨ (makeRoom now m).get k = none := by
  unfold makeRoom
  split
  · exact get_evictOneTargeted
  · exact .inl rfl

theorem Memory.kept_of_some {s : State} (h : (evict now m).get digest = some s) :
    kept now digest m = evict now m := by
  rw [kept, h]

theorem Memory.kept_of_none (h : (evict now m).get digest = none) :
    kept now digest m = makeRoom now (evict now m) := by
  rw [kept, h]

theorem Memory.get_kept_self : (kept now digest m).get digest = (evict now m).get digest := by
  cases h : (evict now m).get digest with
  | some s => rw [kept_of_some h, h]
  | none =>
    rw [kept_of_none h]
    rcases get_makeRoom now (evict now m) digest with hk | hk
    · rw [hk, h]
    · exact hk

/-- The memory store answers as the cell does, once it has dropped what it drops. -/
theorem Memory.begin_cell (h : begin now lease digest binding m = (m', r)) :
    (∀ k, k ≠ digest → m'.get k = (kept now digest m).get k) ∧
      ∃ a, r = reply a ∧ Cell.begin terms now lease binding (cellAt (kept now digest m) digest) =
        (cellAt m' digest, a) := by
  have hself : cellAt (kept now digest m) digest = ((evict now m).get digest).map State.cell := by
    rw [cellAt, get_kept_self]
  rw [hself]
  unfold begin at h
  dsimp only at h
  split at h
  · rename_i existing result' completed hget
    rw [kept_of_some hget, hget]
    split at h
    · rename_i hne
      cases h
      refine ⟨fun _ _ => rfl, .mismatch, rfl, ?_⟩
      simp [Cell.begin, State.cell, Cell.binding, hne, cellAt, hget]
    · rename_i heq
      cases h
      refine ⟨fun _ _ => rfl, .cached result', rfl, ?_⟩
      simp [Cell.begin, State.cell, Cell.binding, heq, cellAt, hget, Cell.Takeable]
  · rename_i existing l started hget
    rw [kept_of_some hget, hget]
    split at h
    · rename_i hne
      cases h
      refine ⟨fun _ _ => rfl, .mismatch, rfl, ?_⟩
      simp [Cell.begin, State.cell, Cell.binding, hne, cellAt, hget]
    · rename_i heq
      split at h
      · rename_i hexp
        cases h
        refine ⟨fun k hk => Table.get_put_of_ne hk, .recovered lease, rfl, ?_⟩
        have htake : started + terms.leaseTtl < now := by
          simp only [leaseTtl, terms] at hexp ⊢
          omega
        simp [Cell.begin, State.cell, Cell.binding, heq, cellAt, Cell.Takeable, htake, Cell.holder]
      · rename_i hexp
        cases h
        refine ⟨fun _ _ => rfl, .busy, rfl, ?_⟩
        have htake : ¬ started + terms.leaseTtl < now := by
          simp only [leaseTtl, terms] at hexp ⊢
          omega
        simp [Cell.begin, State.cell, Cell.binding, heq, cellAt, hget, Cell.Takeable, htake]
  · rename_i existing failedAt hget
    rw [kept_of_some hget, hget]
    split at h
    · rename_i hne
      cases h
      refine ⟨fun _ _ => rfl, .mismatch, rfl, ?_⟩
      simp [Cell.begin, State.cell, Cell.binding, hne, cellAt, hget]
    · rename_i heq
      split at h
      · rename_i hearly
        cases h
        refine ⟨fun _ _ => rfl, .busy, rfl, ?_⟩
        have htake : ¬ failedAt + terms.failRetry ≤ now := by
          simp only [failRetry, terms, seconds] at hearly ⊢
          omega
        simp [Cell.begin, State.cell, Cell.binding, heq, cellAt, hget, Cell.Takeable, htake]
      · rename_i hearly
        cases h
        refine ⟨fun k hk => Table.get_put_of_ne hk, .acquired lease, rfl, ?_⟩
        have htake : failedAt + terms.failRetry ≤ now := by
          simp only [failRetry, terms, seconds] at hearly ⊢
          omega
        simp [Cell.begin, State.cell, Cell.binding, heq, cellAt, Cell.Takeable, htake, Cell.holder]
  · rename_i hget
    cases h
    rw [kept_of_none hget, hget]
    refine ⟨fun k hk => Table.get_put_of_ne hk, .acquired lease, rfl, ?_⟩
    simp [Cell.begin, cellAt, State.cell]

theorem Memory.complete_cell (h : complete now digest binding lease result m = (m', u)) :
    (∀ k, k ≠ digest → m'.get k = m.get k) ∧
      Cell.complete binding lease result (cellAt m digest) = (cellAt m' digest, u.isOk) := by
  unfold complete at h
  split at h
  · rename_i existing held started hget
    split at h
    · rename_i heq
      cases h
      refine ⟨fun k hk => Table.get_put_of_ne hk, ?_⟩
      simp [Cell.complete, cellAt, hget, State.cell, heq, Except.isOk, Except.toBool]
    · rename_i hne
      cases h
      refine ⟨fun _ _ => rfl, ?_⟩
      simp [Cell.complete, cellAt, hget, State.cell, hne, Except.isOk, Except.toBool]
  · rename_i hother
    cases h
    refine ⟨fun _ _ => rfl, ?_⟩
    cases hget : m.get digest with
    | none => simp [Cell.complete, cellAt, hget, Except.isOk, Except.toBool]
    | some s =>
      cases s with
      | settling b l started => exact absurd hget (hother b l started)
      | settled b res t =>
        simp [Cell.complete, cellAt, hget, State.cell, Except.isOk, Except.toBool]
      | failed b t => simp [Cell.complete, cellAt, hget, State.cell, Except.isOk, Except.toBool]

theorem Memory.fail_cell (h : fail now digest binding lease m = (m', u)) :
    (∀ k, k ≠ digest → m'.get k = m.get k) ∧
      ∃ ok, Cell.fail now binding lease (cellAt m digest) = (cellAt m' digest, ok) := by
  unfold fail at h
  split at h
  · rename_i existing held started hget
    split at h
    · rename_i heq
      cases h
      refine ⟨fun k hk => Table.get_put_of_ne hk, true, ?_⟩
      simp [Cell.fail, cellAt, hget, State.cell, heq]
    · rename_i hne
      cases h
      refine ⟨fun _ _ => rfl, false, ?_⟩
      simp [Cell.fail, cellAt, hget, State.cell, hne]
  · rename_i hother
    cases h
    refine ⟨fun _ _ => rfl, false, ?_⟩
    cases hget : m.get digest with
    | none => simp [Cell.fail, cellAt, hget]
    | some s =>
      cases s with
      | settling b l started => exact absurd hget (hother b l started)
      | settled b res t => simp [Cell.fail, cellAt, hget, State.cell]
      | failed b t => simp [Cell.fail, cellAt, hget, State.cell]

end MemoryCells

section PgCells

open Pg

variable {rows rows' : Rows} {row : SettlementRow}

def Pg.SettlementRow.cell (row : SettlementRow) : LeaseCell :=
  match row.state with
  | .settling =>
    .settling row.binding (row.leaseToken.getD ⟨0⟩) (row.leaseExpiresAt.getD 0 - leaseSecs)
  | .settled =>
    .settled row.binding
      { body := row.resultBody.getD .null,
        paymentResponseHeader := row.paymentResponseHeader.getD [] }
  | .failed => .failed row.binding (row.failedAt.getD 0)

/-- The cell under a digest. -/
def Pg.cellAt (rows : Rows) (k : Text) : Option LeaseCell := (rows.get k).map SettlementRow.cell

theorem Pg.binding_cell (row : SettlementRow) : row.cell.binding = row.binding := by
  unfold SettlementRow.cell
  split <;> rfl

/-- A row is in one of three shapes. -/
inductive Pg.Shape (row : SettlementRow) : LeaseCell → Prop
  | settling {lease : LeaseToken} {started : ℕ} (state : row.state = .settling)
      (token : row.leaseToken = some lease)
      (expires : row.leaseExpiresAt = some (started + leaseSecs)) :
      Shape row (.settling row.binding lease started)
  | settled {result : PaidDemoResult} (state : row.state = .settled)
      (body : row.resultBody = some result.body)
      (header : row.paymentResponseHeader = some result.paymentResponseHeader) :
      Shape row (.settled row.binding result)
  | failed {failedAt : ℕ} (state : row.state = .failed) (failed : row.failedAt = some failedAt) :
      Shape row (.failed row.binding failedAt)

theorem Pg.shape (row : SettlementRow) : Shape row row.cell := by
  unfold SettlementRow.cell
  split
  · rename_i hs
    obtain ⟨htoken, started, hexp⟩ := row.settling_fields hs
    obtain ⟨lease, hl⟩ := Option.isSome_iff_exists.mp htoken
    simp only [hl, hexp, Option.getD_some, Nat.add_sub_cancel]
    exact .settling hs hl hexp
  · rename_i hs
    obtain ⟨hbody, hheader⟩ := row.settled_fields hs
    obtain ⟨body, hb⟩ := Option.isSome_iff_exists.mp hbody
    obtain ⟨header, hh⟩ := Option.isSome_iff_exists.mp hheader
    simp only [hb, hh, Option.getD_some]
    exact .settled hs hb hh
  · rename_i hs
    obtain ⟨failedAt, hf⟩ := Option.isSome_iff_exists.mp (row.failed_fields hs)
    simp only [hf, Option.getD_some]
    exact .failed hs hf

theorem Pg.leaseTtl_terms : terms.leaseTtl = leaseSecs := rfl

theorem Pg.failRetry_terms : terms.failRetry = failRetrySecs := rfl

-- The branches are taken by `split`: a rewriting of the scrutinee would have the times computed.
theorem Pg.takeable_settling {expires : ℕ} (hs : row.state = .settling)
    (hexp : row.leaseExpiresAt = some expires) : takeable now row = decide (expires < now) := by
  unfold takeable
  split
  · rename_i h; cases hs.symm.trans h
  · rw [hexp, Option.map_some, Option.getD_some]
  · rename_i h; cases hs.symm.trans h

theorem Pg.takeable_failed {failedAt : ℕ} (hs : row.state = .failed)
    (hf : row.failedAt = some failedAt) :
    takeable now row = decide (failedAt + failRetrySecs ≤ now) := by
  unfold takeable
  split
  · rename_i h; cases hs.symm.trans h
  · rename_i h; cases hs.symm.trans h
  · rw [hf, Option.map_some, Option.getD_some]

theorem Pg.takeable_iff : takeable now row = true ↔ row.cell.Takeable terms now := by
  have hshape := shape row
  generalize row.cell = c at hshape
  cases hshape with
  | settling hs hl hexp =>
    rw [takeable_settling hs hexp, decide_eq_true_iff, Cell.takeable_settling, leaseTtl_terms]
  | settled hs hb hh =>
    simp only [takeable, hs, Cell.Takeable, Bool.false_eq_true]
  | failed hs hf =>
    rw [takeable_failed hs hf, decide_eq_true_iff, Cell.takeable_failed, failRetry_terms]

theorem Pg.held_iff : held binding lease row = true ↔
    ∃ started, row.cell = .settling binding lease started := by
  have hshape := shape row
  generalize row.cell = c at hshape
  simp only [held, decide_eq_true_eq]
  cases hshape with
  | @settling l started hs hl hexp =>
    constructor
    · rintro ⟨-, htoken, rfl⟩
      cases hl.symm.trans htoken
      exact ⟨started, rfl⟩
    · rintro ⟨_, hcell⟩
      cases hcell
      exact ⟨hs, hl, rfl⟩
  | settled hs hb hh =>
    exact iff_of_false (fun h => by cases hs.symm.trans h.1) (fun ⟨_, h⟩ => by cases h)
  | failed hs hf =>
    exact iff_of_false (fun h => by cases hs.symm.trans h.1) (fun ⟨_, h⟩ => by cases h)

/-- The key and the binding pass the checks of `begin`. -/
def Pg.Valid (txDigest : Text) (binding : SettlementBinding) : Prop :=
  validateDigest txDigest = .ok () ∧ validateBinding binding = .ok ()

/-- The result passes the checks of `complete`. -/
def Pg.Storable (result : PaidDemoResult) : Prop :=
  ¬ (maxResultJson < Text.utf8Len result.body.write ∨
      8192 < Text.utf8Len result.paymentResponseHeader) ∧
    storable result = true

theorem Pg.validateDigest_error {e : PaymentError} (h : validateDigest digest = .error e) :
    ∃ message, e = .internal message := by
  unfold validateDigest at h
  split at h
  · cases h
    exact ⟨_, rfl⟩
  · cases h

theorem Pg.validateBinding_error {e : PaymentError} (h : validateBinding binding = .error e) :
    ∃ message, e = .internal message := by
  unfold validateBinding at h
  split at h
  · cases h
    exact ⟨_, rfl⟩
  · split at h
    · cases h
      exact ⟨_, rfl⟩
    · cases h

theorem Pg.cell_of_not_takeable (hs : row.state ≠ .settled) (ht : takeable now row ≠ true)
    (hb : row.binding = binding) :
    Cell.begin terms now lease binding (some row.cell) = (some row.cell, .busy) := by
  have htake : ¬ row.cell.Takeable terms now := fun h => ht (takeable_iff.mpr h)
  have hbind : row.cell.binding = binding := (binding_cell row).trans hb
  have hshape := shape row
  generalize row.cell = c at hshape htake hbind
  cases hshape with
  | settling => simp [Cell.begin, hbind, htake]
  | settled hs' => exact absurd hs' hs
  | failed => simp [Cell.begin, hbind, htake]

theorem Pg.cell_of_takeable (ht : takeable now row = true) (hb : row.binding = binding) :
    Cell.begin terms now lease binding (some row.cell) =
      (some (.settling binding lease now),
        if row.state = .settling then .recovered lease else .acquired lease) := by
  have htake := takeable_iff.mp ht
  have hbind : row.cell.binding = binding := (binding_cell row).trans hb
  have hshape := shape row
  generalize row.cell = c at hshape htake hbind
  cases hshape with
  | settling hs => simp [Cell.begin, hbind, htake, Cell.holder, hs]
  | settled => exact absurd htake id
  | failed hs => simp [Cell.begin, hbind, htake, Cell.holder, hs]

/-- A call whose arguments are in order is answered as the cell answers it; any other one fails and
changes nothing. -/
theorem Pg.begin_cell (h : begin now lease digest binding rows = (rows', r)) :
    (∀ k, k ≠ digest → rows'.get k = rows.get k) ∧
      ((∃ a, r = reply a ∧ Valid digest binding ∧
          (cellAt rows digest = none → checkRow digest binding = true) ∧
          Cell.begin terms now lease binding (cellAt rows digest) = (cellAt rows' digest, a) ∧
          (a.granted = none → rows' = rows)) ∨
        (∃ message, r = .error (.internal message)) ∧ rows' = rows ∧
          (Valid digest binding →
            cellAt rows digest = none ∧ checkRow digest binding = false)) := by
  unfold begin at h
  split at h
  · rename_i e he
    cases h
    obtain ⟨message, rfl⟩ := validateDigest_error he
    exact ⟨fun _ _ => rfl, .inr ⟨⟨message, rfl⟩, rfl, fun hv => by cases he.symm.trans hv.1⟩⟩
  rename_i hvd
  split at h
  · rename_i e he
    cases h
    obtain ⟨message, rfl⟩ := validateBinding_error he
    exact ⟨fun _ _ => rfl, .inr ⟨⟨message, rfl⟩, rfl, fun hv => by cases he.symm.trans hv.2⟩⟩
  rename_i hvb
  have hvalid : Valid digest binding := ⟨hvd, hvb⟩
  split at h
  · rename_i row hget
    have hcell : cellAt rows digest = some row.cell := by rw [cellAt, hget, Option.map_some]
    have hpresent : cellAt rows digest = none → checkRow digest binding = true := fun hn => by
      cases hcell.symm.trans hn
    split at h
    · rename_i hne
      cases h
      have hne' : row.cell.binding ≠ binding := fun heq => hne ((binding_cell row).symm.trans heq)
      refine ⟨fun _ _ => rfl, .inl ⟨.mismatch, rfl, hvalid, hpresent, ?_, fun _ => rfl⟩⟩
      rw [hcell]
      simp [Cell.begin, hne']
    rename_i heq
    have heq : row.binding = binding := Decidable.of_not_not heq
    split at h
    · rename_i hsettled
      obtain ⟨hbody, hheader⟩ := row.settled_fields hsettled
      obtain ⟨body, hb⟩ := Option.isSome_iff_exists.mp hbody
      obtain ⟨header, hh⟩ := Option.isSome_iff_exists.mp hheader
      simp only [hb, hh] at h
      cases h
      refine ⟨fun _ _ => rfl, .inl ⟨.cached { body, paymentResponseHeader := header }, rfl, hvalid,
        hpresent, ?_, fun _ => rfl⟩⟩
      have hcellrow : row.cell = .settled binding { body, paymentResponseHeader := header } := by
        have hshape := shape row
        generalize row.cell = c at hshape
        cases hshape with
        | settling hs => cases hsettled.symm.trans hs
        | @settled result hs hb' hh' =>
          obtain ⟨b', h'⟩ := result
          cases hb.symm.trans hb'
          cases hh.symm.trans hh'
          rw [heq]
        | failed hs => cases hsettled.symm.trans hs
      rw [hcell, hcellrow]
      simp [Cell.begin, Cell.binding, Cell.Takeable]
    rename_i hunsettled
    split at h
    · rename_i htake
      cases h
      refine ⟨fun k hk => Table.get_put_of_ne hk,
        .inl ⟨if row.state = .settling then .recovered lease else .acquired lease, ?_, hvalid,
          hpresent, ?_, ?_⟩⟩
      · split <;> rfl
      · rw [hcell, cell_of_takeable htake heq, cellAt, Table.get_put_self]
        simp [SettlementRow.cell, settlingRow]
      · intro ha
        split at ha <;> cases ha
    · rename_i htake
      cases h
      refine ⟨fun _ _ => rfl, .inl ⟨.busy, rfl, hvalid, hpresent, ?_, fun _ => rfl⟩⟩
      rw [hcell, cell_of_not_takeable hunsettled htake heq]
  · rename_i hget
    have hcell : cellAt rows digest = none := by rw [cellAt, hget, Option.map_none]
    split at h
    · rename_i hcheck
      cases h
      refine ⟨fun k hk => Table.get_put_of_ne hk,
        .inl ⟨.acquired lease, rfl, hvalid, fun _ => hcheck, ?_, fun ha => by cases ha⟩⟩
      rw [hcell, cellAt, Table.get_put_self]
      simp [Cell.begin, SettlementRow.cell, settlingRow]
    · rename_i hcheck
      cases h
      exact ⟨fun _ _ => rfl, .inr ⟨⟨_, rfl⟩, rfl, fun _ => ⟨hcell, by simpa using hcheck⟩⟩⟩

theorem Pg.complete_cell (now : ℕ)
    (h : complete now digest binding lease result rows = (rows', u)) :
    (∀ k, k ≠ digest → rows'.get k = rows.get k) ∧
      (Storable result ∧
          Cell.complete binding lease result (cellAt rows digest) = (cellAt rows' digest, u.isOk) ∨
        ¬ Storable result ∧ (∃ message, u = .error (.internal message)) ∧ rows' = rows) := by
  unfold complete at h
  split at h
  · rename_i hlarge
    cases h
    exact ⟨fun _ _ => rfl, .inr ⟨fun hs => hs.1 hlarge, ⟨_, rfl⟩, rfl⟩⟩
  rename_i hsmall
  split at h
  · rename_i hstore
    have hstorable : Storable result := ⟨hsmall, hstore⟩
    split at h
    · rename_i row hget
      have hcell : cellAt rows digest = some row.cell := by rw [cellAt, hget, Option.map_some]
      split at h
      · rename_i hheld
        cases h
        obtain ⟨started, hsettling⟩ := held_iff.mp hheld
        have hbind : row.binding = binding := by rw [← binding_cell, hsettling, Cell.binding]
        refine ⟨fun k hk => Table.get_put_of_ne hk, .inl ⟨hstorable, ?_⟩⟩
        rw [hcell, hsettling, cellAt, Table.get_put_self]
        simp [Cell.complete, SettlementRow.cell, hbind, Except.isOk, Except.toBool]
      · rename_i hheld
        cases h
        refine ⟨fun _ _ => rfl, .inl ⟨hstorable, ?_⟩⟩
        rw [hcell]
        exact Cell.complete_of_not_held fun started hs =>
          hheld (held_iff.mpr ⟨started, Option.some_inj.mp hs⟩)
    · rename_i hget
      cases h
      refine ⟨fun _ _ => rfl, .inl ⟨hstorable, ?_⟩⟩
      rw [cellAt, hget]
      rfl
  · rename_i hstore
    cases h
    exact ⟨fun _ _ => rfl, .inr ⟨fun hs => hstore hs.2, ⟨_, rfl⟩, rfl⟩⟩

theorem Pg.fail_cell (h : fail now digest binding lease rows = (rows', u)) :
    (∀ k, k ≠ digest → rows'.get k = rows.get k) ∧
      Cell.fail now binding lease (cellAt rows digest) = (cellAt rows' digest, u.isOk) := by
  unfold fail at h
  split at h
  · rename_i row hget
    have hcell : cellAt rows digest = some row.cell := by rw [cellAt, hget, Option.map_some]
    split at h
    · rename_i hheld
      cases h
      obtain ⟨started, hsettling⟩ := held_iff.mp hheld
      have hbind : row.binding = binding := by rw [← binding_cell, hsettling, Cell.binding]
      refine ⟨fun k hk => Table.get_put_of_ne hk, ?_⟩
      rw [hcell, hsettling, cellAt, Table.get_put_self]
      simp [Cell.fail, SettlementRow.cell, hbind, Except.isOk, Except.toBool]
    · rename_i hheld
      cases h
      refine ⟨fun _ _ => rfl, ?_⟩
      rw [hcell]
      exact Cell.fail_of_not_held fun started hs =>
        hheld (held_iff.mpr ⟨started, Option.some_inj.mp hs⟩)
  · rename_i hget
    cases h
    refine ⟨fun _ _ => rfl, ?_⟩
    rw [cellAt, hget]
    rfl

end PgCells

end AgentBond.Payments
