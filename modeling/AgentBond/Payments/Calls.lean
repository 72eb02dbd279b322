import AgentBond.Foundation.LeaseHistory
import AgentBond.Foundation.Transition
import AgentBond.Payments.Cells

/-! # Runs of a settlement store

The calls on a store happen one after the other at the times of one clock. What
they do to one transaction is the history of its cell.
-/

namespace AgentBond.Payments

open Foundation

/-- A call on a store with its reply. -/
inductive Call
  | begin (now : ℕ) (lease : LeaseToken) (digest : Text) (binding : SettlementBinding)
      (reply : Paid BeginOutcome)
  | complete (now : ℕ) (digest : Text) (binding : SettlementBinding) (lease : LeaseToken)
      (result : PaidDemoResult) (reply : Paid Unit)
  | fail (now : ℕ) (digest : Text) (binding : SettlementBinding) (lease : LeaseToken)
      (reply : Paid Unit)

def Call.now : Call → ℕ
  | begin now .. | complete now .. | fail now .. => now

/-- The transaction a call is about. -/
def Call.digest : Call → Text
  | begin _ _ digest .. | complete _ digest .. | fail _ digest .. => digest

/-- A store and the time of its last call. -/
structure StoreState (ρ : Type) where
  rows : Table Text ρ
  clock : ℕ

/-- The store answers the call, at a time not before the last one's. -/
def SettlementStore.Step (S : SettlementStore) (s : StoreState S.Row) (c : Call)
    (s' : StoreState S.Row) : Prop :=
  s.clock ≤ c.now ∧ s'.clock = c.now ∧
    match c with
    | .begin now lease digest binding reply =>
      S.begin now lease digest binding s.rows = (s'.rows, reply)
    | .complete now digest binding lease result reply =>
      S.complete now digest binding lease result s.rows = (s'.rows, reply)
    | .fail now digest binding lease reply =>
      S.fail now digest binding lease s.rows = (s'.rows, reply)

/-- The lease an outcome gives. -/
def BeginOutcome.granted : BeginOutcome → Option LeaseToken
  | cached _ => none
  | acquired lease | recoveredStale lease => some lease

abbrev SettlementHistory := History SettlementBinding LeaseToken PaidDemoResult

/-- What a call means for the transaction: a lease given, a result stored, a lease given back. -/
def Call.entry (k : Text) : Call → SettlementHistory
  | begin now _ digest binding (.ok outcome) =>
    if digest = k then .asked now binding outcome.granted else .none
  | complete _ digest binding lease result (.ok ()) =>
    if digest = k then .filled binding lease result else .none
  | fail _ digest _ lease (.ok ()) => if digest = k then .gaveUp lease else .none
  | _ => .none

/-- The history of a transaction. -/
def history (k : Text) (calls : List Call) : SettlementHistory :=
  calls.foldl (fun H c => H.append (c.entry k)) .none

section Entries

variable {k digest : Text} {now : ℕ} {lease : LeaseToken} {binding : SettlementBinding}
  {result : PaidDemoResult}

theorem history_snoc (calls : List Call) (c : Call) :
    history k (calls ++ [c]) = (history k calls).append (c.entry k) := by
  rw [history, List.foldl_append]
  rfl

theorem Call.entry_begin (a : Answer LeaseToken PaidDemoResult) :
    (Call.begin now lease k binding (reply a)).entry k = .asked now binding a.granted := by
  cases a with
  | cached | acquired | recovered => exact if_pos rfl
  | busy | mismatch => rfl

theorem Call.entry_complete {u : Paid Unit} :
    (Call.complete now k binding lease result u).entry k =
      if u.isOk then .filled binding lease result else .none := by
  cases u with
  | error e => rfl
  | ok x => simp [entry, Except.isOk, Except.toBool]

theorem Call.entry_fail {u : Paid Unit} :
    (Call.fail now k binding lease u).entry k = if u.isOk then .gaveUp lease else .none := by
  cases u with
  | error e => rfl
  | ok x => simp [entry, Except.isOk, Except.toBool]

theorem Call.entry_of_ne {c : Call} (h : c.digest ≠ k) : c.entry k = .none := by
  unfold entry
  split
  · exact if_neg h
  · exact if_neg h
  · exact if_neg h
  · rfl

end Entries

namespace Sample

def digest : Text := List.replicate 64 'a'

def binding : SettlementBinding where
  serviceId := ['s']
  resourceUrl := ['u']
  inputDigest := List.replicate 64 'b'
  challengeMemo := List.replicate 32 'c'

def result : PaidDemoResult := { body := .null, paymentResponseHeader := [] }

end Sample

end AgentBond.Payments
