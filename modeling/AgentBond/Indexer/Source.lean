import AgentBond.Indexer.Operations

/-! # Running a source

Between two transactions the engine waits for the stream, is amid an update, or
repairs a gap. It may stop anywhere, and starts again from the checkpoint.
-/

namespace AgentBond.Indexer

open Foundation

abbrev Gap := UInt64 × UInt64

def maxBackfillSlots : ℕ := 32

/-- The gap the update reveals. -/
def Engine.reveals (e : Engine) : ChainUpdate → Option Gap
  | .slot update => e.lastSlot.bind fun prev => detectForwardGap prev update.slot
  | _ => none

/-- The engine that has seen the update, before it wrote anything. -/
def Engine.track (e : Engine) : ChainUpdate → Engine
  | .slot update => { e with
      lastSlot := match e.lastSlot with
        | some prev => some (max prev update.slot)
        | none => some update.slot }
  | _ => e

def finalizeWhen (update : SlotUpdate) : List Operation :=
  if update.status = .finalized then [.finalizeSlot update.slot] else []

/-- The transactions of an update, in their order. -/
def Engine.operations (e : Engine) : ChainUpdate → List Operation
  | .slot update => (e.reveals (.slot update)).toList.map .recordGap ++
      .upsertSlot update :: finalizeWhen update
  | .account account => [.insertAccount account.raw account.projection]
  | .events evs => evs.map .insertEvent

/-- A gap under repair, the slot that was fetched last and what is left of its updates. -/
structure Repair where
  gap : Gap
  slot : ℕ
  updates : List ChainUpdate

/-- Where the engine is between two transactions. -/
inductive Control
  | stopped
  | waiting
  | ingesting (ops : List Operation) (revealed : Option Gap) (repair : Option Repair)
  | fetching (gap : Gap) (slot : ℕ)
  | backfilling (repair : Repair)
  | reconciling (gap : Gap)
  | marking (gap : Gap) (status : GapStatus)

namespace Control

/-- Go on with the slots of the gap, and with its accounts after the last one. -/
def fetchFrom (gap : Gap) (slot : ℕ) : Control :=
  if slot ≤ gap.2.toNat then fetching gap slot else reconciling gap

/-- A gap that is too wide is not repaired. -/
def repairGap (gap : Gap) : Control :=
  if maxBackfillSlots < gap.2.toNat - gap.1.toNat + 1 then marking gap .failed
  else fetchFrom gap gap.1.toNat

/-- What comes after an update: a gap it revealed is repaired, unless this was a repair already. -/
def afterUpdate : Option Gap → Option Repair → Control
  | none, none => waiting
  | some gap, none => repairGap gap
  | none, some repair => backfilling repair
  | some _, some _ => stopped

end Control

/-- What comes after an update that has gone through or failed. -/
def Control.result (repair : Option Repair) : Stored (Option Gap) → Control
  | .ok revealed => afterUpdate revealed repair
  | .error _ => stopped

structure Source where
  engine : Engine
  control : Control

/-- Where the stream is taken up again. -/
def resumeAt (d : Db) : Option UInt64 :=
  if 0 < d.processedSlot then some d.processedSlot
  else if 0 < d.finalizedSlot then some d.finalizedSlot
  else none

inductive SourceEvent
  | started
  | stopped
  | took (update : ChainUpdate)
  | carriedOut (op : Operation)
  | refused (op : Operation)
  | returned
  | fetched (slot : ℕ) (updates : Option (List ChainUpdate))
  | finished (slot : ℕ)
  | reconciled (outcome : Option Bool)

/-- The steps of the engine. What the stream delivers, what is fetched and reconciled, is open. -/
inductive SourceStep : Source → SourceEvent → Source → Prop

  | start (e : Engine) : SourceStep ⟨e, .stopped⟩ .started
      ⟨{ e with lastSlot := resumeAt e.db }, .waiting⟩

  | stop (s : Source) : SourceStep s .stopped ⟨s.engine, .stopped⟩

  | take (e : Engine) (update : ChainUpdate) : SourceStep ⟨e, .waiting⟩ (.took update)
      ⟨e.track update, .ingesting (e.operations update) (e.reveals update) none⟩

  | takeFetched (e : Engine) (gap : Gap) (slot : ℕ) (update : ChainUpdate)
      (updates : List ChainUpdate) :
      SourceStep ⟨e, .backfilling ⟨gap, slot, update :: updates⟩⟩ (.took update)
        ⟨e.track update,
          .ingesting (e.operations update) (e.reveals update) (some ⟨gap, slot, updates⟩)⟩

  | carryOut {e : Engine} {d' : Db} {op : Operation} {ops : List Operation} {revealed : Option Gap}
      {repair : Option Repair} : Operates e.db op d' →
      SourceStep ⟨e, .ingesting (op :: ops) revealed repair⟩ (.carriedOut op)
        ⟨{ e with db := d' }, .ingesting ops revealed repair⟩

  | refuse {e : Engine} {err : DbError} {op : Operation} {ops : List Operation}
      {revealed : Option Gap} {repair : Option Repair} : op.perform e.db = .error err →
      SourceStep ⟨e, .ingesting (op :: ops) revealed repair⟩ (.refused op) ⟨e, .stopped⟩

  | giveBack (e : Engine) (revealed : Option Gap) (repair : Option Repair) :
      SourceStep ⟨e, .ingesting [] revealed repair⟩ .returned ⟨e, .afterUpdate revealed repair⟩

  | fetch (e : Engine) (gap : Gap) (slot : ℕ) (updates : List ChainUpdate) :
      SourceStep ⟨e, .fetching gap slot⟩ (.fetched slot (some updates))
        ⟨e, .backfilling ⟨gap, slot, updates⟩⟩

  | fetchFailed (e : Engine) (gap : Gap) (slot : ℕ) :
      SourceStep ⟨e, .fetching gap slot⟩ (.fetched slot none) ⟨e, .marking gap .failed⟩

  | finish (e : Engine) (gap : Gap) (slot : ℕ) :
      SourceStep ⟨e, .backfilling ⟨gap, slot, []⟩⟩ (.finished slot) ⟨e, .fetchFrom gap (slot + 1)⟩

  | reconcile (e : Engine) (gap : Gap) (outcome : Option Bool) :
      SourceStep ⟨e, .reconciling gap⟩ (.reconciled outcome)
        ⟨e, .marking gap (if outcome = some true then .repaired else .partly)⟩

  | mark {e : Engine} {d' : Db} {gap : Gap} {status : GapStatus} :
      Operates e.db (.markGap gap status) d' →
      SourceStep ⟨e, .marking gap status⟩ (.carriedOut (.markGap gap status))
        ⟨{ e with db := d' }, .waiting⟩

  | refuseMark {e : Engine} {err : DbError} {gap : Gap} {status : GapStatus} :
      (Operation.markGap gap status).perform e.db = .error err →
      SourceStep ⟨e, .marking gap status⟩ (.refused (.markGap gap status)) ⟨e, .stopped⟩

section Words

variable {a b : UInt64}

theorem u64_max_of_le (h : a ≤ b) : max a b = b := if_pos h

theorem u64_max_of_ge (h : b ≤ a) : max a b = a := by
  change (if a ≤ b then b else a) = a
  split
  · rename_i hle
    exact UInt64.le_antisymm h hle
  · rfl

theorem toNat_max : (max a b).toNat = max a.toNat b.toNat := by
  rcases UInt64.le_total a b with h | h
  · rw [u64_max_of_le h, Nat.max_eq_right (UInt64.le_iff_toNat_le.mp h)]
  · rw [u64_max_of_ge h, Nat.max_eq_left (UInt64.le_iff_toNat_le.mp h)]

theorem u64_le_max_left (a b : UInt64) : a ≤ max a b := by
  rw [UInt64.le_iff_toNat_le, toNat_max]
  exact Nat.le_max_left _ _

theorem u64_le_max_right (a b : UInt64) : b ≤ max a b := by
  rw [UInt64.le_iff_toNat_le, toNat_max]
  exact Nat.le_max_right _ _

end Words

theorem detectForwardGap_eq_some {prev slot : UInt64} {gap : Gap} :
    detectForwardGap prev slot = some gap ↔
      prev.toNat + 1 < slot.toNat ∧ gap.1.toNat = prev.toNat + 1 ∧
        gap.2.toNat = slot.toNat - 1 := by
  have hslot := slot.toNat_lt
  have hnext : prev.toNat + 1 < slot.toNat → (prev + 1).toNat = prev.toNat + 1 := fun h => by
    rw [UInt64.toNat_add]
    simp only [UInt64.reduceToNat]
    omega
  have hlast : prev.toNat + 1 < slot.toNat → (slot - 1).toNat = slot.toNat - 1 := fun h => by
    rw [UInt64.toNat_sub_of_le]
    · rfl
    · rw [UInt64.le_iff_toNat_le]
      simp only [UInt64.reduceToNat]
      omega
  simp only [detectForwardGap, Option.ite_none_right_eq_some, Option.some.injEq]
  constructor
  · rintro ⟨⟨-, hlt⟩, rfl⟩
    exact ⟨hlt, hnext hlt, hlast hlt⟩
  · rintro ⟨hlt, hfrom, hto⟩
    refine ⟨⟨by omega, hlt⟩, Prod.ext ?_ ?_⟩
    · exact UInt64.toNat_inj.mp (by rw [hnext hlt, hfrom])
    · exact UInt64.toNat_inj.mp (by rw [hlast hlt, hto])

variable {e : Engine} {d d' : Db} {s s' : Source} {ev : SourceEvent}

@[simp] theorem Engine.db_track (update : ChainUpdate) : (e.track update).db = e.db := by
  cases update <;> rfl

/-- A step is a transaction or leaves the database alone. -/
theorem SourceStep.db (h : SourceStep s ev s') :
    (∃ op, ev = .carriedOut op ∧ Operates s.engine.db op s'.engine.db) ∨
      (∀ op, ev ≠ .carriedOut op) ∧ s'.engine.db = s.engine.db := by
  cases h with
  | carryOut hop => exact .inl ⟨_, rfl, hop⟩
  | mark hop => exact .inl ⟨_, rfl, hop⟩
  | take e update =>
    right
    exact ⟨fun _ => (by simp), e.db_track update⟩
  | takeFetched e gap slot update updates =>
    right
    exact ⟨fun _ => (by simp), e.db_track update⟩
  | _ =>
    right
    exact ⟨fun _ => (by simp), rfl⟩

theorem Run.of_operates {I : Db → Prop} {tr : List (Transition Source SourceEvent)}
    (hop : ∀ d op d', I d → Operates d op d' → I d') (h : Run SourceStep s tr s')
    (hs : I s.engine.db) : I s'.engine.db := by
  refine h.invariant (I := fun s => I s.engine.db) (fun s ev s' hs hstep => ?_) hs
  rcases hstep.db with ⟨op, -, hoperates⟩ | ⟨-, heq⟩
  · exact hop _ op _ hs hoperates
  · rw [heq]
    exact hs

namespace Operation

/-- Carry out the operations up to the first that fails. -/
def attempt (d : Db) : List Operation → Db × Stored Unit
  | [] => (d, .ok ())
  | op :: ops =>
    match op.perform d with
    | .ok d' => attempt d' ops
    | .error err => (d, .error err)

theorem attempt_cons_ok {op : Operation} {ops : List Operation} (h : op.perform d = .ok d') :
    attempt d (op :: ops) = attempt d' ops := by
  rw [attempt, h]

theorem attempt_cons_error {op : Operation} {ops : List Operation} {err : DbError}
    (h : op.perform d = .error err) : attempt d (op :: ops) = (d, .error err) := by
  rw [attempt, h]

end Operation

open Operation

section Attempts

variable {gap : Option Gap} {update : SlotUpdate}

theorem ingestSlot_of_trackSlot {e₁ : Engine} (h : trackSlot e update.slot = .ok (e₁, gap)) :
    ingestSlot e update =
      ({ e₁ with db := (attempt e₁.db (.upsertSlot update :: finalizeWhen update)).1 },
        (attempt e₁.db (.upsertSlot update :: finalizeWhen update)).2.map fun _ => gap) := by
  unfold ingestSlot
  rw [h]
  cases hup : upsertSlot e₁.db update with
  | error err =>
    rw [attempt_cons_error (show perform e₁.db (.upsertSlot update) = _ from hup)]
    simp only [hup]
    rfl
  | ok d₁ =>
    rw [attempt_cons_ok (show perform e₁.db (.upsertSlot update) = _ from hup)]
    by_cases hf : update.status = .finalized
    · simp only [hup, finalizeWhen, if_pos hf]
      cases hfin : finalizeSlot d₁ update.slot with
      | error err =>
        rw [attempt_cons_error (show perform d₁ _ = _ by rw [perform, hfin]; rfl)]
        rfl
      | ok r =>
        rw [attempt_cons_ok (show perform d₁ _ = _ by rw [perform, hfin]; rfl)]
        rfl
    · simp only [hup, finalizeWhen, if_neg hf]
      rfl

theorem ingestEvents_attempt (evs : List RawProtocolEvent) :
    ingestEvents e evs = ({ e with db := (attempt e.db (evs.map .insertEvent)).1 },
      (attempt e.db (evs.map .insertEvent)).2.map fun _ => none) := by
  induction evs generalizing e with
  | nil => rfl
  | cons ev evs ih =>
    unfold ingestEvents
    rw [List.map_cons]
    cases hev : insertEvent e.db ev with
    | error err =>
      rw [attempt_cons_error (show perform e.db _ = _ by rw [perform, hev]; rfl)]
      rfl
    | ok r =>
      rw [attempt_cons_ok (show perform e.db _ = .ok r.1 by rw [perform, hev]; rfl)]
      exact ih

theorem trackSlot_of_reveals_none (h : e.reveals (.slot update) = none) :
    trackSlot e update.slot = .ok (e.track (.slot update), none) := by
  obtain ⟨d, lastSlot⟩ := e
  unfold trackSlot
  cases lastSlot with
  | none => rfl
  | some prev =>
    change detectForwardGap prev update.slot = none at h
    simp only [h, Engine.track]
    split
    · rename_i hlt
      rw [u64_max_of_le (UInt64.le_of_lt hlt)]
    · rename_i hlt
      rw [u64_max_of_ge (UInt64.not_lt.mp hlt)]

theorem trackSlot_of_reveals_some {g : Gap} (h : e.reveals (.slot update) = some g) :
    trackSlot e update.slot = (recordGap e.db g).map fun d =>
      ({ e.track (.slot update) with db := d }, some g) := by
  obtain ⟨d, lastSlot⟩ := e
  unfold trackSlot
  cases lastSlot with
  | none => cases h
  | some prev =>
    change detectForwardGap prev update.slot = some g at h
    have hlt : prev < update.slot := by
      rw [UInt64.lt_iff_toNat_lt]
      have hgap := (detectForwardGap_eq_some.mp h).1
      omega
    simp only [h, Engine.track, u64_max_of_le (UInt64.le_of_lt hlt)]
    cases recordGap d g <;> rfl

/-- Ingesting an update is to attempt its operations, and to see it where they all go through. -/
theorem ingestUpdate_attempt (e : Engine) (update : ChainUpdate) :
    (ingestUpdate e update).1.db = (attempt e.db (e.operations update)).1 ∧
      (ingestUpdate e update).2 =
        ((attempt e.db (e.operations update)).2.map fun _ => e.reveals update) ∧
      ((attempt e.db (e.operations update)).2 = .ok () →
        (ingestUpdate e update).1.lastSlot = (e.track update).lastSlot) := by
  cases update with
  | slot update =>
    cases hr : e.reveals (.slot update) with
    | none =>
      have hops : e.operations (.slot update) = .upsertSlot update :: finalizeWhen update := by
        rw [Engine.operations, hr]
        rfl
      rw [hops, ingestUpdate, ingestSlot_of_trackSlot (trackSlot_of_reveals_none hr), e.db_track]
      exact ⟨rfl, rfl, fun _ => rfl⟩
    | some g =>
      have hops : e.operations (.slot update) =
          .recordGap g :: .upsertSlot update :: finalizeWhen update := by
        rw [Engine.operations, hr]
        rfl
      have htrack := trackSlot_of_reveals_some hr
      rw [hops, ingestUpdate]
      cases hrec : recordGap e.db g with
      | error err =>
        rw [hrec] at htrack
        have hingest : ingestSlot e update = (e, .error err) := by
          rw [ingestSlot, htrack]
          rfl
        rw [attempt_cons_error (show perform e.db (.recordGap g) = _ from hrec), hingest]
        exact ⟨rfl, rfl, fun h => by cases h⟩
      | ok d =>
        rw [hrec] at htrack
        rw [attempt_cons_ok (show perform e.db (.recordGap g) = _ from hrec),
          ingestSlot_of_trackSlot htrack]
        exact ⟨rfl, rfl, fun _ => rfl⟩
  | account account =>
    rw [Engine.operations, ingestUpdate, ingestAccount]
    cases hins : insertAccountWithProjection e.db account.raw account.projection with
    | error err =>
      rw [attempt_cons_error (show perform e.db _ = _ by rw [perform, hins]; rfl)]
      exact ⟨rfl, rfl, fun h => by cases h⟩
    | ok r =>
      rw [attempt_cons_ok (show perform e.db _ = _ by rw [perform, hins]; rfl)]
      exact ⟨rfl, rfl, fun _ => rfl⟩
  | events evs =>
    rw [Engine.operations, ingestUpdate, ingestEvents_attempt]
    exact ⟨rfl, rfl, fun _ => rfl⟩

end Attempts

section Runs

theorem run_of_attempt (ops : List Operation) (revealed : Option Gap) (repair : Option Repair) :
    ∃ tr, Run SourceStep ⟨e, .ingesting ops revealed repair⟩ tr
      ⟨{ e with db := (attempt e.db ops).1 },
        .result repair ((attempt e.db ops).2.map fun _ => revealed)⟩ := by
  induction ops generalizing e with
  | nil => exact ⟨[⟨_, .returned, _⟩], rfl, .giveBack e revealed repair, rfl⟩
  | cons op ops ih =>
    cases hop : op.perform e.db with
    | error err =>
      rw [attempt_cons_error hop]
      exact ⟨[⟨_, .refused op, _⟩], rfl, .refuse hop, rfl⟩
    | ok d₁ =>
      rw [attempt_cons_ok hop]
      obtain ⟨tr, htr⟩ := ih (e := { e with db := d₁ })
      exact ⟨⟨_, .carriedOut op, _⟩ :: tr, rfl, .carryOut hop, htr⟩

/-- The engine at work ingests an update of the stream as `ingestUpdate` does. -/
theorem run_of_ingestUpdate (update : ChainUpdate) :
    ∃ s tr, Run SourceStep ⟨e, .waiting⟩ (⟨⟨e, .waiting⟩, .took update, s⟩ :: tr)
      ⟨{ e.track update with db := (ingestUpdate e update).1.db },
        .result none (ingestUpdate e update).2⟩ := by
  obtain ⟨hdb, hresult, -⟩ := ingestUpdate_attempt e update
  obtain ⟨tr, htr⟩ := run_of_attempt (e := e.track update) (e.operations update)
    (e.reveals update) none
  rw [e.db_track, ← hdb, ← hresult] at htr
  exact ⟨_, tr, rfl, .take e update, htr⟩

end Runs

end AgentBond.Indexer
