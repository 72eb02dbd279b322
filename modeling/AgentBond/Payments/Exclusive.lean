import AgentBond.Payments.Calls
import Mathlib.Data.List.Induction

/-! # Settled transactions stay settled in the database

In every run of the database store a transaction is settled at most once, by the
latest lease and under the first binding; from then on its row stays as it is and
every call to begin with it is answered from the row. No two leases for it are
open at a time.
-/

namespace AgentBond.Payments.Pg

open Foundation

/-- A step of the database store: a call, or an insertion that came too late, after which the call
starts again. -/
inductive Step : StoreState SettlementRow → Option Call → StoreState SettlementRow → Prop
  | call {s s' : StoreState SettlementRow} {c : Call} (h : pgStore.Step s c s') :
      Step s (some c) s'
  | late {s : StoreState SettlementRow} {now : ℕ} {lease : LeaseToken} {digest : Text}
      {binding : SettlementBinding}
      (h : insertRow now lease digest binding s.rows = (s.rows, none)) : Step s none s

/-- The calls of a run. -/
def calls (tr : List (Transition (StoreState SettlementRow) (Option Call))) : List Call :=
  tr.filterMap Transition.label

/-- The history explains the row, whose binding has passed the checks. -/
structure Sound (k : Text) (H : SettlementHistory) (s : StoreState SettlementRow) : Prop where
  explains : H.Explains terms s.clock (cellAt s.rows k)
  valid : ∀ c ∈ cellAt s.rows k, Valid k c.binding

section Runs

variable {k digest : Text} {H : SettlementHistory} {s s' : StoreState SettlementRow} {c : Call}
  {now : ℕ} {lease : LeaseToken} {binding : SettlementBinding} {result : PaidDemoResult}
  {tr : List (Transition (StoreState SettlementRow) (Option Call))}

theorem Sound.of_same {H' : SettlementHistory} (h : Sound k H s) (hclock : s.clock ≤ s'.clock)
    (hget : cellAt s'.rows k = cellAt s.rows k) (hnone : H' = .none) :
    Sound k (H.append H') s' where
  explains := by
    rw [hget, hnone, History.append_none]
    exact h.explains.wait hclock
  valid := by
    rw [hget]
    exact h.valid

theorem Sound.step (h : Sound k H s) (hs : pgStore.Step s c s') :
    Sound k (H.append (c.entry k)) s' := by
  obtain ⟨hclock, hnow, hcall⟩ := hs
  rw [← hnow] at hclock
  by_cases hk : c.digest = k
  · subst hk
    cases c with
    | begin now lease digest binding r =>
      obtain ⟨-, ⟨a, rfl, hvalid, -, hbegin, hsame⟩ | ⟨⟨message, rfl⟩, hrows, -⟩⟩ :=
        begin_cell hcall
      · obtain rfl : now = s'.clock := hnow.symm
        have hbegun := Cell.begun hbegin
        constructor
        · rw [Call.digest, Call.entry_begin]
          exact h.explains.begun hclock hbegun
        · cases hg : a.granted with
          | none =>
            rw [hsame hg]
            exact h.valid
          | some l =>
            intro x hx
            cases (hbegun.of_granted hg).symm.trans hx
            exact hvalid
      · exact h.of_same hclock (by rw [hrows]) rfl
    | complete now digest binding lease result u =>
      obtain ⟨-, ⟨-, hcell⟩ | ⟨-, ⟨message, rfl⟩, hrows⟩⟩ := complete_cell now hcall
      · cases hok : u.isOk with
        | true =>
          rw [hok] at hcell
          constructor
          · rw [Call.digest, Call.entry_complete, if_pos hok]
            exact (h.explains.complete hclock hcell).1
          · obtain ⟨⟨started, hold⟩, hnew⟩ := Cell.complete_true hcell
            intro x hx
            cases hnew.symm.trans hx
            exact h.valid (.settling binding lease started) hold
        | false =>
          rw [hok] at hcell
          refine h.of_same hclock (Cell.complete_false hcell).2 ?_
          rw [Call.digest, Call.entry_complete, hok]
          rfl
      · exact h.of_same hclock (by rw [hrows]) rfl
    | fail now digest binding lease u =>
      obtain ⟨-, hcell⟩ := fail_cell hcall
      cases hok : u.isOk with
      | true =>
        rw [hok] at hcell
        obtain rfl : now = s'.clock := hnow.symm
        constructor
        · rw [Call.digest, Call.entry_fail, if_pos hok]
          exact h.explains.fail hclock hcell
        · obtain ⟨⟨started, hold⟩, hnew⟩ := Cell.fail_true hcell
          intro x hx
          cases hnew.symm.trans hx
          exact h.valid (.settling binding lease started) hold
      | false =>
        rw [hok] at hcell
        refine h.of_same hclock (Cell.fail_false hcell).2 ?_
        rw [Call.digest, Call.entry_fail, hok]
        rfl
  · refine h.of_same hclock ?_ (Call.entry_of_ne hk)
    have hget : s'.rows.get k = s.rows.get k := by
      cases c with
      | begin => exact (begin_cell hcall).1 k (Ne.symm hk)
      | complete now => exact (complete_cell now hcall).1 k (Ne.symm hk)
      | fail => exact (fail_cell hcall).1 k (Ne.symm hk)
    rw [cellAt, cellAt, hget]

theorem calls_snoc (x : Transition (StoreState SettlementRow) (Option Call)) :
    calls (tr ++ [x]) = calls tr ++ x.label.toList := by
  rw [calls, List.filterMap_append]
  cases hx : x.label with
  | none => simp [calls, hx]
  | some c => simp [calls, hx]

theorem Sound.run (h : Run Step s tr s') (hnew : s.rows.get k = none) :
    Sound k (history k (calls tr)) s' := by
  induction tr using List.reverseRecOn generalizing s' with
  | nil =>
    obtain rfl : s = s' := h
    have hcell : cellAt s.rows k = none := by rw [cellAt, hnew, Option.map_none]
    constructor
    · rw [hcell]
      exact History.explains_none
    · rw [hcell]
      intro c hc
      cases hc
  | append_singleton tr x ih =>
    obtain ⟨t, h₁, ⟨rfl, hx, rfl⟩⟩ := Run.append_iff.mp h
    have hsound := ih h₁
    rw [calls_snoc]
    generalize x.label = label at hx
    generalize x.target = target at hx
    cases hx with
    | call hcall =>
      rw [Option.toList_some, history_snoc]
      exact hsound.step hcall
    | late =>
      rw [Option.toList_none, List.append_nil]
      exact hsound

/-- The call at the end of a trace met a store explained by the calls before it. -/
theorem Sound.at_call {t : StoreState SettlementRow}
    {tr₁ tr₂ : List (Transition (StoreState SettlementRow) (Option Call))}
    {x : Transition (StoreState SettlementRow) (Option Call)} (h : Run Step s (tr₁ ++ x :: tr₂) t)
    (hnew : s.rows.get k = none) (hx : x.label = some c) :
    Sound k (history k (calls tr₁)) x.source ∧ pgStore.Step x.source c x.target := by
  obtain ⟨h₁, hstep, -⟩ := h.split
  refine ⟨Sound.run h₁ hnew, ?_⟩
  rw [hx] at hstep
  cases hstep with
  | call hcall => exact hcall

/-- Along every run on a transaction the table does not know: it is settled at most once, by the
latest lease and under the binding of the first lease. After that its row stays as it is, calls to
begin with that binding are answered with the stored result, and those with another one are refused:
as a mismatch, or, where the binding is malformed, before the row is read. No two leases that were
neither settled nor given up are unexpired at the same time. -/
theorem settlements_kept {t : StoreState SettlementRow} (h : Run Step s tr t)
    (hnew : s.rows.get k = none) :
    (history k (calls tr)).fillings.length ≤ 1 ∧
      AlongTrace (fun before x => ∀ now b l r,
        x.label = some (.complete now k b l r (.ok ())) →
          (history k (calls before)).grants.head?.map Grant.binding = some b ∧
            (history k (calls before)).grants.getLast?.map Grant.lease = some l) tr ∧
      AlongTrace (fun before x => ∀ f ∈ (history k (calls before)).fillings,
        ∀ now l b r, x.label = some (.begin now l k b r) →
          x.target.rows.get k = x.source.rows.get k ∧
            (b = f.binding → r = .ok (.cached f.result)) ∧
            (b ≠ f.binding → validateBinding b = .ok () → r = .error .bindingMismatch) ∧
            (∀ e, validateBinding b = .error e → r = .error e)) tr ∧
      ∀ now, t.clock ≤ now →
        ∀ g ∈ (history k (calls tr)).grants, ∀ g' ∈ (history k (calls tr)).grants,
          g.lease ∉ (history k (calls tr)).closed → g'.lease ∉ (history k (calls tr)).closed →
          now ≤ g.time + leaseSecs → now ≤ g'.time + leaseSecs → g = g' := by
  have hsound := Sound.run h hnew
  refine ⟨hsound.explains.once, ?_, ?_, ?_⟩
  · rintro tr₁ x tr₂ rfl now b l r hx
    obtain ⟨hs, hclock, -, hcall⟩ := Sound.at_call h hnew hx
    obtain ⟨-, ⟨-, hcell⟩ | ⟨-, ⟨message, herr⟩, -⟩⟩ := complete_cell now hcall
    · exact (hs.explains.complete hclock hcell).2
    · cases herr
  · rintro tr₁ x tr₂ rfl f hf now l b r hx
    obtain ⟨hs, hclock, -, hcall⟩ := Sound.at_call h hnew hx
    have hcell := hs.explains.filling f hf
    obtain ⟨hdigest, hbinding⟩ := hs.valid (.settled f.binding f.result) hcell
    obtain ⟨-, ⟨a, rfl, hvalid, -, hbegin, hsame⟩ | ⟨⟨message, rfl⟩, hrows, hrefused⟩⟩ :=
      begin_cell hcall
    · have hbegun := Cell.begun hbegin
      rw [hcell] at hbegun
      obtain ⟨heq, hne⟩ := hbegun.of_settled
      have hungranted : a.granted = none := by
        by_cases hb : b = f.binding
        · rw [heq hb]
          rfl
        · rw [hne hb]
          rfl
      refine ⟨by rw [hsame hungranted], fun hb => by rw [heq hb]; rfl,
        fun hb _ => by rw [hne hb]; rfl, fun e he => ?_⟩
      cases he.symm.trans hvalid.2
    · have hinvalid : validateBinding b ≠ .ok () := fun hb => by
        cases hcell.symm.trans (hrefused ⟨hdigest, hb⟩).1
      refine ⟨by rw [hrows], fun hb => absurd (hb ▸ hbinding) hinvalid,
        fun _ hb => absurd hb hinvalid, fun e he => ?_⟩
      have hcall' : begin now l k b x.source.rows = (x.target.rows, .error (.internal message)) :=
        hcall
      simp only [begin, hdigest, he, Prod.mk.injEq] at hcall'
      exact hcall'.2.symm
  · intro now hnow g hg g' hg' hopen hopen' hexp hexp'
    exact hsound.explains.exclusive hnow hg hg' hopen hopen' hexp hexp'

end Runs

namespace Sample

open Payments.Sample

/-- A binding whose input digest is no digest. -/
def malformed : SettlementBinding := { binding with inputDigest := [] }

def begun : Rows := (begin 0 ⟨1⟩ digest binding Table.empty).1

def settled : Rows := (complete 1 digest binding ⟨1⟩ result begun).1

/-- A transaction is settled, and then begun under a malformed binding. -/
def trace : List (Transition (StoreState SettlementRow) (Option Call)) :=
  [⟨⟨Table.empty, 0⟩, some (.begin 0 ⟨1⟩ digest binding (.ok (.acquired ⟨1⟩))), ⟨begun, 0⟩⟩,
    ⟨⟨begun, 0⟩, some (.complete 1 digest binding ⟨1⟩ result (.ok ())), ⟨settled, 1⟩⟩,
    ⟨⟨settled, 1⟩,
      some (.begin 2 ⟨2⟩ digest malformed (.error (.internal "invalid input digest"))),
      ⟨settled, 2⟩⟩]

theorem run : Run Step ⟨Table.empty, 0⟩ trace ⟨settled, 2⟩ :=
  ⟨rfl, .call ⟨Nat.le_refl 0, rfl, rfl⟩, rfl, .call ⟨Nat.zero_le 1, rfl, rfl⟩, rfl,
    .call ⟨Nat.le_succ 1, rfl, rfl⟩, rfl⟩

theorem settlements_kept_run :
    (history digest (calls trace)).fillings = [⟨binding, ⟨1⟩, result⟩] ∧
      (history digest (calls trace)).fillings.length ≤ 1 :=
  ⟨rfl, (settlements_kept run rfl).1⟩

/-- Not every other binding is refused as a mismatch. -/
theorem malformed_no_mismatch :
    ¬ ∀ tr t, Run Step ⟨Table.empty, 0⟩ tr t →
      AlongTrace (fun before x => ∀ f ∈ (history digest (calls before)).fillings,
        ∀ now l b r, x.label = some (.begin now l digest b r) → b ≠ f.binding →
          r = .error .bindingMismatch) tr := by
  intro h
  have hreply := h trace ⟨settled, 2⟩ run (trace.take 2)
    ⟨⟨settled, 1⟩,
      some (.begin 2 ⟨2⟩ digest malformed (.error (.internal "invalid input digest"))),
      ⟨settled, 2⟩⟩ [] rfl ⟨binding, ⟨1⟩, result⟩ List.mem_cons_self 2 ⟨2⟩ malformed
    (.error (.internal "invalid input digest")) rfl (by decide)
  cases hreply

end Sample

end AgentBond.Payments.Pg
